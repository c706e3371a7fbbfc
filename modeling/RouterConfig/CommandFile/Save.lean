import RouterConfig.CommandFile.Commands
import RouterConfig.CommandFile.Load
import RouterConfig.Files.Script

/-!
# RouterConfig — command files on disk

A configuration is saved as a command file: a line with the version of the format and a `set` line
for each entry. -/

namespace RouterConfig

variable {World Dict : Type}

/-- The first line of every saved file. -/
def savedHeader : String := "# routecfg-config-version: 0"

/-- The text of a saved configuration. -/
def savedText (tree : Tree) : String := savedHeader ++ "\n" ++ commandLines [] (some tree)

/-- Where the file that was there is kept (`backup_path`). -/
def backupPath (path : String) : String := path ++ ".backup"

/-- Moves what is at a path to where it is kept. -/
def keepBackup (path : String) : Script (Except FileFault Unit) := do
  if ← Script.pathExists path then Script.moveFile path (backupPath path) else pure (.ok ())

/-- Writes a configuration to a file, keeping the file that was there where asked to
(`save_file`). -/
def save (tree : Tree) (keepsBackup : Bool) (path : String) : Script (Except Error Unit) := do
  -- If the old file cannot be moved away, nothing is written.
  match ← (if keepsBackup then keepBackup path else pure (.ok ())) with
  | .ok () => do pure ((← Script.writeFile path (savedText tree)).mapError .file)
  | .error fault => pure (.error (.file fault))

/-- Applies a command file to a session (`load_file`). -/
def loadFile (store : Store World Dict) (session : Session) (path : String) :
    Script (Loaded World Dict) := do
  match ← Script.readFile path with
  | .ok text => pure (load store session text)
  | .error fault => pure ⟨.error (.file fault), store, session, []⟩

end RouterConfig
