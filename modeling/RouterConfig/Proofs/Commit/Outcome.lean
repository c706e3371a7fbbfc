import RouterConfig.Commit.Store

/-!
# RouterConfig — how a commit ends

A commit through all phases ends in one of two ways: a phase with failures puts an end to it, or the
configuration of the session becomes the running one. Everything else on what a commit does to the
store follows from that. Main results:

* `Store.runPhases_cases` — the two ways, of which `Store.runPhases_of_unverified` and its like say
  which phase makes the difference;
* `Store.commit_atomic` — all of the session's configuration becomes running, or nothing changes;
* `collect_session` — what modules keep of a session, collecting keeps.
-/

namespace RouterConfig

variable {World Dict : Type}

/-! ## Selecting -/

/-- The module of a candidate is the one that is registered for its owner. -/
theorem module_of_mem_candidates {schema : Schema} {modules : Modules World Dict} {running : Tree}
    {session : Session} {c : Candidate World Dict}
    (h : c ∈ candidates schema modules running session) :
    Keyed.get? modules c.name.owner = some c.module := by
  -- by the shape of the owned path: only a changed path with a module has candidates
  rw [candidates, List.mem_flatMap] at h
  obtain ⟨owned, -, hc⟩ := h
  rw [candidatesOf] at hc
  split at hc
  · cases hmodule : Keyed.get? modules owned.owner with
    | none => simp [hmodule] at hc
    | some module =>
      rw [hmodule] at hc
      dsimp only at hc
      split at hc
      · obtain ⟨name, -, rfl⟩ := List.mem_map.mp hc
        exact hmodule
      · rw [List.mem_singleton.mp hc]
        exact hmodule
  · exact absurd hc (by simp)

/-- A property of sessions that modules keep, and moving to the root keeps, collecting keeps. -/
theorem collect_session {I : Session → Prop} {schema : Schema} {running : Tree}
    {cs : List (Candidate World Dict)} (hreset : ∀ s, I s → I s.resetLevel)
    (hmodule : ∀ c ∈ cs, ∀ world s, I s →
      I (c.module.getConfig ⟨schema, running, c.name.instanceName, s⟩ world).session)
    {session : Session} (h : I session) (world : World) :
    I (collect schema running cs session world).session := by
  induction cs generalizing session world with
  | nil => exact hreset session h
  | cons c rest ih =>
    -- each module finds the cursor at the root, and the session otherwise as the one before left it
    have hcollected := hmodule c (List.mem_cons_self ..) world _ (hreset session h)
    have hrest := ih (fun d hd => hmodule d (List.mem_cons_of_mem _ hd)) hcollected
      (c.module.getConfig ⟨schema, running, c.name.instanceName, session.resetLevel⟩ world).world
    rw [collect]
    dsimp only
    split
    · exact hrest
    · exact hrest

namespace Store

/-- The candidates of a commit. -/
def candidates (store : Store World Dict) (session : Session) : List (Candidate World Dict) :=
  RouterConfig.candidates store.schema store.modules store.running session.resetLevel

/-- Selecting keeps what modules keep of a session, and moving to the root. -/
theorem select_session {I : Session → Prop} {store : Store World Dict}
    (hreset : ∀ s, I s → I s.resetLevel)
    (hmodule : ∀ owner m, Keyed.get? store.modules owner = some m → ∀ instanceName world s, I s →
      I (m.getConfig ⟨store.schema, store.running, instanceName, s⟩ world).session)
    {session : Session} (h : I session) : I (store.select session).session :=
  collect_session hreset
    (fun c hc world s hs =>
      hmodule _ _ (module_of_mem_candidates hc) c.name.instanceName world s hs)
    (hreset session h) store.world

/-! ## The phases -/

/-- The result of verifying the tasks of a session. -/
def verified (store : Store World Dict) (session : Session) : PhaseResult World Dict :=
  verifyAll (store.select session).tasks (store.select session).world

/-- The result of generating, after verifying. -/
def generated (store : Store World Dict) (session : Session) : PhaseResult World Dict :=
  fanOut .generating store.executor (store.select session).tasks (store.verified session).world

/-- The result of applying, after generating. -/
def applied (store : Store World Dict) (session : Session) : PhaseResult World Dict :=
  fanOut .applying store.executor (store.select session).tasks (store.generated session).world

/-- The journal of the phases before applying. -/
def journalBefore (store : Store World Dict) (session : Session) : List (Event Dict) :=
  (store.select session).journal ++ (store.verified session).journal ++
    (store.generated session).journal

variable {store : Store World Dict} {session : Session}

theorem runPhases_of_unverified (h : (store.verified session).failures ≠ []) :
    store.runPhases session = store.abort (store.select session) .verifying (store.verified session)
      ((store.select session).journal ++ (store.verified session).journal) :=
  if_pos h

theorem runPhases_of_ungenerated (hverified : (store.verified session).failures = [])
    (h : (store.generated session).failures ≠ []) :
    store.runPhases session = store.abort (store.select session) .generating
      (store.generated session) (store.journalBefore session) := by
  unfold runPhases
  exact (if_neg (c := (store.verified session).failures ≠ []) fun h => h hverified).trans (if_pos h)

/-- A commit with a failed apply is aborted in that phase, after all calls of the three phases. -/
theorem runPhases_of_unapplied (hverified : (store.verified session).failures = [])
    (hgenerated : (store.generated session).failures = [])
    (h : (store.applied session).failures ≠ []) :
    store.runPhases session = store.abort (store.select session) .applying (store.applied session)
      (store.journalBefore session ++ (store.applied session).journal) := by
  unfold runPhases
  exact (if_neg (c := (store.verified session).failures ≠ []) fun h => h hverified).trans
    ((if_neg (c := (store.generated session).failures ≠ []) fun h => h hgenerated).trans (if_pos h))

/-- A commit without any failure promotes what its session holds. -/
theorem runPhases_of_applied (hverified : (store.verified session).failures = [])
    (hgenerated : (store.generated session).failures = [])
    (happlied : (store.applied session).failures = []) :
    store.runPhases session =
      { report := ⟨.promoted, (store.select session).tasks.map Task.name,
          (store.select session).dropped, []⟩
        store := { store with world := (store.applied session).world }.promote
          (store.select session).session.edit
        session := (store.select session).session
        journal := store.journalBefore session ++ (store.applied session).journal } := by
  unfold runPhases
  exact (if_neg (c := (store.verified session).failures ≠ []) fun h => h hverified).trans
    ((if_neg (c := (store.generated session).failures ≠ []) fun h => h hgenerated).trans
      (if_neg (c := (store.applied session).failures ≠ []) fun h => h happlied))

/-- A phase with failures puts an end to a commit, or the configuration of the session becomes the
running one. -/
theorem runPhases_cases (store : Store World Dict) (session : Session) :
    (∃ phase result journal, result.failures ≠ [] ∧
      store.runPhases session = store.abort (store.select session) phase result journal) ∨
    (∃ world journal, store.runPhases session =
      { report := ⟨.promoted, (store.select session).tasks.map Task.name,
          (store.select session).dropped, []⟩
        store := { store with world := world }.promote (store.select session).session.edit
        session := (store.select session).session
        journal := journal }) := by
  -- a phase is only reached without failures in those before it
  by_cases hverified : (store.verified session).failures = []
  · by_cases hgenerated : (store.generated session).failures = []
    · by_cases happlied : (store.applied session).failures = []
      · exact .inr ⟨_, _, runPhases_of_applied hverified hgenerated happlied⟩
      · exact .inl ⟨_, _, _, happlied, runPhases_of_unapplied hverified hgenerated happlied⟩
    · exact .inl ⟨_, _, _, hgenerated, runPhases_of_ungenerated hverified hgenerated⟩
  · exact .inl ⟨_, _, _, hverified, runPhases_of_unverified hverified⟩

/-! ## The two ways to end -/

/-- What a commit leaves of a store besides the running configuration and the world. -/
structure SameSetup (store store' : Store World Dict) : Prop where
  schema : store'.schema = store.schema
  modules : store'.modules = store.modules
  executor : store'.executor = store.executor
  keepsBackup : store'.keepsBackup = store.keepsBackup

/-- A commit changes nothing of the store but what is running, and the world. -/
theorem commit_sameSetup (store : Store World Dict) (session : Session) (inMemory : Bool) :
    store.SameSetup (store.commit session inMemory).store := by
  rw [commit]
  split
  · exact ⟨rfl, rfl, rfl, rfl⟩
  · rcases store.runPhases_cases session with ⟨phase, result, journal, -, h⟩ | ⟨world, journal, h⟩
    · dsimp only
      rw [h]
      exact ⟨rfl, rfl, rfl, rfl⟩
    · dsimp only
      rw [h]
      exact ⟨rfl, rfl, rfl, rfl⟩

end Store

/-! ## All or nothing -/

/-- All of a session's configuration is running after a commit that promotes it, and nothing has
changed after one that was aborted. -/
structure Committed.Atomic (before : Store World Dict) (done : Committed World Dict) : Prop where
  promoted : done.report.state = .promoted →
    done.report.failures = [] ∧ done.store.running = done.session.edit ∧
      ∀ path, done.session.changed done.store.running path = false
  aborted : ∀ phase, done.report.state = .aborted phase →
    done.report.failures ≠ [] ∧ done.store.running = before.running

namespace Store

/-- Nothing is changed in a session whose configuration is running. -/
private theorem changed_edit (session : Session) (path : Path) :
    session.changed session.edit path = false := by
  rw [Session.changed_eq_false_iff]

/-- A commit makes all of the session's configuration the running one, or changes nothing. -/
theorem commit_atomic (store : Store World Dict) (session : Session) (inMemory : Bool) :
    (store.commit session inMemory).Atomic store := by
  rw [commit]
  split
  · exact ⟨fun _ => ⟨rfl, rfl, changed_edit session⟩, fun phase h => absurd h (by simp)⟩
  · rcases store.runPhases_cases session with
      ⟨phase, result, journal, hfailures, h⟩ | ⟨world, journal, h⟩
    · dsimp only
      rw [h]
      exact ⟨fun hstate => absurd hstate (by simp [abort]), fun _ _ => ⟨hfailures, rfl⟩⟩
    · dsimp only
      rw [h]
      exact ⟨fun _ => ⟨rfl, rfl, changed_edit { (store.select session).session with
        level := session.level }⟩, fun phase hstate => absurd hstate (by simp)⟩

/-- The session after a commit has the configuration that modules have left, and its own cursor. -/
theorem commit_session (store : Store World Dict) (session : Session) :
    (store.commit session false).session =
      { (store.select session).session with level := session.level } := by
  rw [commit, if_neg (by simp)]
  rcases store.runPhases_cases session with ⟨phase, result, journal, -, h⟩ | ⟨world, journal, h⟩
  · dsimp only
    rw [h]
    rfl
  · dsimp only
    rw [h]

end Store

end RouterConfig
