import RouterConfig.Text.Lines

/-!
# RouterConfig — lines of a command file

A command file has one command a line. Empty lines and lines that start with `#` say nothing. Main
results:

* `FileCommand.ofText_comment` — a line that starts with `#` says nothing.
-/

namespace RouterConfig

/-- What a line of a command file says. -/
inductive FileCommand where
  | nothing
  | set (words : List String)
  | delete (words : List String)
  | commit
  /-- No known command. -/
  | unknown
  deriving DecidableEq

namespace FileCommand

/-- The command that words make. -/
def ofWords : List String → FileCommand
  | [] => nothing
  | "set" :: words => set words
  | "delete" :: words => delete words
  | "commit" :: _ => commit
  | _ => unknown

/-- What a line says. -/
def ofText (line : String) : FileCommand :=
  let line := trim line
  -- A hash sign within a line is part of a word and starts no comment.
  if line.toList.head? = some '#' then nothing else ofWords (quotedWords line)

/-- Whether a line says to commit: its first word does, whatever else is in it. -/
def isCommit (line : String) : Bool := (blankWords line).head? = some "commit"

theorem ofText_comment {line : String} (h : (trim line).toList.head? = some '#') :
    ofText line = nothing := by
  simp [ofText, h]

end FileCommand

end RouterConfig
