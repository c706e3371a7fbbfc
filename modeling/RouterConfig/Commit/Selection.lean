import RouterConfig.Commit.Module
import RouterConfig.Schema.Owners
import RouterConfig.Session.Read

/-!
# RouterConfig — selecting tasks

The candidates of a commit are the owned positions that changed and whose owner has a module, in the
order of their turns; a tag node gives one candidate for each instance on either side. Every
candidate whose module collects a configuration becomes a task, and the others are dropped. Main
results:

* `candidatesOf_unchanged` — an unchanged position gives no candidate.
-/

namespace RouterConfig

variable {World Dict : Type}

/-- An owned position, or an instance at one, that changed, with the module of its owner and before
that module is asked for its configuration. -/
structure Candidate (World Dict : Type) where
  name : TaskName
  module : Module World Dict

/-- A candidate with the configuration that its module has returned (`CommitTask`). -/
structure Task (World Dict : Type) where
  name : TaskName
  module : Module World Dict
  config : Dict

/-! ## Candidates -/

/-- The instances of a tag node on either side, in order and each once. -/
def instancesAt (running : Tree) (session : Session) (path : Path) : List String :=
  Keyed.sortedNames (session.children running false path ++ session.children running true path)

/-- The candidates that an owned position gives: none where nothing changed or no module is
registered, one for each instance at a tag node, and a single one elsewhere. -/
def candidatesOf (modules : Modules World Dict) (running : Tree) (session : Session)
    (owned : Schema.OwnedPath) : List (Candidate World Dict) :=
  if session.changed running owned.path then
    -- The module is looked up after the comparison, so that an unchanged position needs none.
    match Keyed.get? modules owned.owner with
    | none => []
    | some module =>
      if owned.isTag then
        (instancesAt running session owned.path).map fun name =>
          ⟨⟨owned.owner, owned.path, name⟩, module⟩
      else [⟨⟨owned.owner, owned.path, ""⟩, module⟩]
  else []

/-- All candidates, at the cursor of the session (`select_candidates`). -/
def candidates (schema : Schema) (modules : Modules World Dict) (running : Tree)
    (session : Session) : List (Candidate World Dict) :=
  schema.ownedPaths.flatMap (candidatesOf modules running session)

/-- The warning for an owned position that changed and whose owner has no module. -/
def ownerNotice? (modules : Modules World Dict) (running : Tree) (session : Session)
    (owned : Schema.OwnedPath) : Option Notice :=
  if session.changed running owned.path && !Keyed.contains modules owned.owner then
    some (.missingModule owned.owner owned.path)
  else none

/-- The warnings that selecting gives before any module is called: priorities without an owner, then
changes without a module. -/
def candidateNotices (schema : Schema) (modules : Modules World Dict) (running : Tree)
    (session : Session) : List Notice :=
  (schema.unownedPriorities.map fun (priority, path) => .unownedPriority priority path) ++
    schema.ownedPaths.filterMap (ownerNotice? modules running session)

/-! ## Tasks -/

/-- The tasks of a commit (`Selection`), and the session, the world and the journal after collecting
their configurations. -/
structure Selection (World Dict : Type) where
  tasks : List (Task World Dict)
  /-- The failures of the candidates that were dropped. -/
  dropped : List Error
  session : Session
  world : World
  journal : List (Event Dict)

/-- Collects the configurations of candidates, one after the other (`resolve_tasks`). Each module is
called with the cursor of the session at the root, and the cursor stands there afterwards. -/
def collect (schema : Schema) (running : Tree) :
    List (Candidate World Dict) → Session → World → Selection World Dict
  | [], session, world => ⟨[], [], session.resetLevel, world, []⟩
  | candidate :: rest, session, world =>
    let context : Context := ⟨schema, running, candidate.name.instanceName, session.resetLevel⟩
    let collected := candidate.module.getConfig context world
    -- A module may move the cursor, so the next one starts from the root again.
    let after := collect schema running rest collected.session collected.world
    let call : Event Dict := .call ⟨.selecting, candidate.name, none⟩
    match collected.attempt.guarded with
    | .ok config =>
      { after with
        tasks := ⟨candidate.name, candidate.module, config⟩ :: after.tasks
        journal := call :: after.journal }
    | .error cause =>
      let failure := candidate.name.failure .selecting cause
      { after with
        dropped := failure :: after.dropped
        journal := call :: .notice (.taskDropped failure) :: after.journal }

/-- Selects the tasks of a commit, from the root on: the candidates, then their configurations. -/
def select (schema : Schema) (modules : Modules World Dict) (running : Tree) (session : Session)
    (world : World) : Selection World Dict :=
  let session := session.resetLevel
  let selection := collect schema running (candidates schema modules running session) session world
  { selection with
    journal :=
      (candidateNotices schema modules running session).map .notice ++ selection.journal }

theorem candidatesOf_unchanged (modules : Modules World Dict) {running : Tree} {session : Session}
    {owned : Schema.OwnedPath} (h : session.changed running owned.path = false) :
    candidatesOf modules running session owned = [] := by
  simp [candidatesOf, h]

end RouterConfig
