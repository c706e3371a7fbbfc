import RouterConfig.CommandFile.Line
import RouterConfig.Commit.Store
import RouterConfig.Session.Edit

/-!
# RouterConfig — loading command files

A command file is applied line by line. A line that the schema rejects is skipped and noted, so that
one stale line does not stop the rest; an unknown command stops the load, with all lines before it
done.
-/

namespace RouterConfig

variable {World Dict : Type}

/-- What a load did (`LoadSummary`). -/
structure LoadSummary where
  /-- The number of `set` and `delete` lines that were done. -/
  applied : Nat
  /-- The lines that were skipped, by number, and why. -/
  skipped : List (Nat × Error)
  /-- Whether each commit succeeded. -/
  commits : List Bool
  deriving DecidableEq

/-- The summary of a load of no lines. -/
def LoadSummary.empty : LoadSummary := ⟨0, [], []⟩

/-- A load and what it leaves behind. -/
structure Loaded (World Dict : Type) where
  result : Except Error LoadSummary
  store : Store World Dict
  session : Session
  journal : List (Event Dict)

namespace Loaded

/-- Counts a line that was done. -/
def countApplied (l : Loaded World Dict) : Loaded World Dict :=
  { l with result := l.result.map fun s => { s with applied := s.applied + 1 } }

/-- Notes a line that was skipped. -/
def noteSkipped (l : Loaded World Dict) (number : Nat) (cause : Error) : Loaded World Dict :=
  { l with result := l.result.map fun s => { s with skipped := (number, cause) :: s.skipped } }

/-- Notes how a commit ended. -/
def noteCommit (l : Loaded World Dict) (succeeded : Bool) : Loaded World Dict :=
  { l with result := l.result.map fun s => { s with commits := succeeded :: s.commits } }

/-- Puts what happened before in front of the journal. -/
def after (l : Loaded World Dict) (journal : List (Event Dict)) : Loaded World Dict :=
  { l with journal := journal ++ l.journal }

end Loaded

/-- Whether the schema is to blame, so that the load can go on with the next line. -/
def Error.isRejection : Error → Bool
  | .path .. => true
  | _ => false

/-- Goes on after a line that edits the session. -/
def continueAfterEdit (store : Store World Dict) (session : Session) (number : Nat) (line : String)
    (edited : Except Error Session) (rest : Session → Loaded World Dict) : Loaded World Dict :=
  match edited with
  | .ok edited => (rest edited).countApplied
  | .error cause =>
    -- The session is the one from before the line: a rejected line edits nothing.
    if cause.isRejection then
      ((rest session).noteSkipped number cause).after
        [.notice (.lineSkipped number (trim line) cause)]
    else ⟨.error cause, store, session, []⟩

/-- Applies lines, of which the first has the given number. -/
def loadLines (number : Nat) : List String → Store World Dict → Session → Loaded World Dict
  | [], store, session => ⟨.ok .empty, store, session, []⟩
  | line :: lines, store, session =>
    match FileCommand.ofText line with
    | .nothing => loadLines (number + 1) lines store session
    | .set words =>
      continueAfterEdit store session number line (session.setWords store.schema words)
        (loadLines (number + 1) lines store)
    | .delete words =>
      continueAfterEdit store session number line (session.deleteWords store.schema words)
        (loadLines (number + 1) lines store)
    | .commit =>
      -- A commit that fails does not stop the load; its line is noted and the next one is read.
      let done := store.commit session false
      let succeeded := done.report.succeeded
      let notice := if succeeded then [] else [.notice (.commitLineFailed number)]
      ((loadLines (number + 1) lines done.store done.session).noteCommit succeeded).after
        (done.journal ++ notice)
    | .unknown =>
      ⟨.error (.commandFile number ("invalid line \"" ++ trimEnd line ++ "\"")), store, session, []⟩

/-- Applies the text of a command file to a session (`load_str`). -/
def load (store : Store World Dict) (session : Session) (text : String) : Loaded World Dict :=
  loadLines 1 (textLines text) store session

end RouterConfig
