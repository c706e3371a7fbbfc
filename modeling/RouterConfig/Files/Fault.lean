/-!
# RouterConfig — what can go wrong with files

A file or a path may refuse what is asked of it. `FileFault.message` words the refusal as the system
does.
-/

namespace RouterConfig

/-- Why something cannot be done with a file. -/
inductive FileFault where
  /-- Nothing is at the place. -/
  | missing
  /-- The folder is in use. -/
  | inUse
  /-- A path goes on behind a file. -/
  | notFolder
  /-- A folder is where a file is needed. -/
  | isFolder
  /-- A folder cannot be moved into itself. -/
  | movedIntoItself
  /-- A name or a path is longer than the system takes. -/
  | nameTooLong
  /-- A folder that holds something cannot be replaced. -/
  | folderNotEmpty
  /-- A path holds a character that no name can hold. -/
  | nulInPath
  /-- What the file holds is no text. -/
  | notText
  /-- A refusal in other words. -/
  | stated (reason : String)
  deriving DecidableEq

/-- The refusal in words. -/
def FileFault.message : FileFault → String
  | missing => "No such file or directory (os error 2)"
  | inUse => "Device or resource busy (os error 16)"
  | notFolder => "Not a directory (os error 20)"
  | isFolder => "Is a directory (os error 21)"
  | movedIntoItself => "Invalid argument (os error 22)"
  | nameTooLong => "File name too long (os error 36)"
  | folderNotEmpty => "Directory not empty (os error 39)"
  | nulInPath => "file name contained an unexpected NUL byte"
  | notText => "stream did not contain valid UTF-8"
  | stated reason => reason

end RouterConfig
