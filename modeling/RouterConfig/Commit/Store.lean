import RouterConfig.Commit.Phases

/-!
# RouterConfig — committing

A store holds what sessions share: the schema, the modules, the executor and the running
configuration. A commit of a session goes through all phases and then makes the session's
configuration the running one; the first phase with a failure puts an end to it. A commit in memory
asks no module. Main results:

* `Store.commit_level` — a commit leaves the cursor of the session where it was.
-/

namespace RouterConfig

variable {World Dict : Type}

/-- What sessions share. -/
structure Store (World Dict : Type) where
  schema : Schema
  modules : Modules World Dict
  executor : Executor World
  /-- Whether saving keeps the file that was there. -/
  keepsBackup : Bool
  running : Tree
  world : World

/-- How a commit ended (`CommitState`). -/
inductive CommitState where
  | promoted
  /-- The phase had failures. -/
  | aborted (phase : Phase)
  deriving DecidableEq

/-- The report of a commit (`CommitReport`). -/
structure Report where
  state : CommitState
  tasks : List TaskName
  /-- The failures of the candidates that were dropped. -/
  dropped : List Error
  /-- The failures of the phase that put an end to the commit. -/
  failures : List Error
  deriving DecidableEq

/-- Whether the session's configuration is running now. -/
def Report.succeeded (r : Report) : Bool := r.state = .promoted

/-- The report of a commit, and the store, the session and the journal after it. -/
structure Committed (World Dict : Type) where
  report : Report
  store : Store World Dict
  session : Session
  journal : List (Event Dict)

namespace Store

/-- A new session. -/
def openSession (store : Store World Dict) : Session := Session.ofRunning store.running

/-- Makes a configuration the running one (`promote`). -/
def promote (store : Store World Dict) (tree : Tree) : Store World Dict :=
  { store with running := tree }

/-- The tasks that a session has for this store. -/
def select (store : Store World Dict) (session : Session) : Selection World Dict :=
  RouterConfig.select store.schema store.modules store.running session store.world

/-- The errors logged when a phase aborts a commit: each failure, then their number. -/
def abortNotices (phase : Phase) (failures : List Error) : List (Event Dict) :=
  failures.map (fun failure => .notice (.taskFailed failure)) ++
    [.notice (.commitAborted phase failures.length)]

/-- A commit that ends with the failures of a phase (`abort`): the running configuration stays. -/
def abort (store : Store World Dict) (selection : Selection World Dict) (phase : Phase)
    (result : PhaseResult World Dict) (journal : List (Event Dict)) : Committed World Dict where
  report := ⟨.aborted phase, selection.tasks.map Task.name, selection.dropped, result.failures⟩
  store := { store with world := result.world }
  session := selection.session
  journal := journal ++ abortNotices phase result.failures

/-- Runs the phases of a commit (`run_phases`): selecting, verifying, generating, applying. The
first phase with failures aborts it, and a commit without any promotes the session. The cursor of
the session is left at the root. -/
def runPhases (store : Store World Dict) (session : Session) : Committed World Dict :=
  let selection := store.select session
  let verified := verifyAll selection.tasks selection.world
  let journal := selection.journal ++ verified.journal
  -- All modules have been asked before the first one does anything.
  if verified.failures ≠ [] then store.abort selection .verifying verified journal
  else
    let generated := fanOut .generating store.executor selection.tasks verified.world
    let journal := journal ++ generated.journal
    if generated.failures ≠ [] then store.abort selection .generating generated journal
    else
      let applied := fanOut .applying store.executor selection.tasks generated.world
      let journal := journal ++ applied.journal
      if applied.failures ≠ [] then store.abort selection .applying applied journal
      else
        { report := ⟨.promoted, selection.tasks.map Task.name, selection.dropped, []⟩
          store := { store with world := applied.world }.promote selection.session.edit
          session := selection.session
          journal := journal }

/-- Commits a session (`commit`): in memory, where no module is called, or through all phases. -/
def commit (store : Store World Dict) (session : Session) (inMemory : Bool) :
    Committed World Dict :=
  -- In memory the configuration is taken as it is, and no module is asked.
  if inMemory then ⟨⟨.promoted, [], [], []⟩, store.promote session.edit, session, []⟩
  else
    let done := store.runPhases session
    -- Selecting has moved the cursor to the root, where modules read; it goes back.
    { done with session := { done.session with level := session.level } }

theorem commit_level (store : Store World Dict) (session : Session) (inMemory : Bool) :
    (store.commit session inMemory).session.level = session.level := by
  simp only [commit]
  split <;> rfl

end Store

end RouterConfig
