import RouterConfig.CommandFile.Load

/-!
# RouterConfig — staging command files

Checking and comparing command files leaves their commits out: a file is staged in a session, and
what it would change is looked at.
-/

namespace RouterConfig

variable {World Dict : Type}

/-- A command file without the lines that commit (`read_staged`). -/
def stagedText (text : String) : String :=
  -- Lines that commit go altogether, and what follows them moves up.
  "\n".intercalate ((textLines text).filter fun line => !FileCommand.isCommit line)

/-- Applies a command file without its commits. -/
def stage (store : Store World Dict) (session : Session) (text : String) : Loaded World Dict :=
  load store session (stagedText text)

/-- The store on which the result of a load is running, without any module being asked. -/
def runningAfter (loaded : Loaded World Dict) : Store World Dict :=
  (loaded.store.commit loaded.session true).store

/-- A session with everything that is running deleted, one top name after the other. -/
def clearedSession (store : Store World Dict) : Except Error Session :=
  store.running.keys.foldlM (fun session top => session.delete store.schema (Path.ofText top) none)
    store.openSession

/-- The owned positions that a session changes, in the order in which they would be committed. -/
def changedOwners (store : Store World Dict) (session : Session) : List Schema.OwnedPath :=
  store.schema.ownedPaths.filter fun owned => session.changed store.running owned.path

end RouterConfig
