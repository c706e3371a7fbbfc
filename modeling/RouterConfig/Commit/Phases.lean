import RouterConfig.Commit.Executor
import RouterConfig.Commit.Selection

/-!
# RouterConfig — working off tasks

Verification asks the modules one after the other and never stops early. Generating and applying
hand the tasks to an executor and account for every one of them: a task is done, has failed or is
pending. Main results:

* `failures_eq_nil_iff` — a phase has no failures if and only if every task is done.
-/

namespace RouterConfig

variable {World Dict : Type}

/-- The failures of a phase, and the world and the journal after it. -/
structure PhaseResult (World Dict : Type) where
  failures : List Error
  world : World
  journal : List (Event Dict)

/-! ## Verifying -/

/-- Calls `verify` of each task in turn, and goes on after a failure. -/
def verifyAll : List (Task World Dict) → World → PhaseResult World Dict
  | [], world => ⟨[], world, []⟩
  | task :: rest, world =>
    let (attempt, world) := task.module.verify task.config world
    -- The rest is verified in the world that this call leaves, whatever the call came to.
    let after := verifyAll rest world
    let call : Event Dict := .call ⟨.verifying, task.name, some task.config⟩
    match attempt.guarded with
    | .ok () => { after with journal := call :: after.journal }
    | .error cause =>
      let failure := task.name.failure .verifying cause
      { after with
        failures := failure :: after.failures
        journal := call :: .notice (.taskFailed failure) :: after.journal }

/-! ## Generating and applying -/

/-- The job of a task in a phase that an executor works off: `apply` of its module when applying,
else `generate`. -/
def Task.job (task : Task World Dict) : (phase : Phase) → Job World
  | .applying => task.module.apply task.config
  | _ => task.module.generate task.config

/-- The failure of a task whose outcome is one. -/
def slotFailure? (phase : Phase) : TaskName × Slot → Option Error
  | (name, some (.error cause)) => some (name.failure phase cause)
  | _ => none

/-- The number of tasks without an outcome: slots left empty, and tasks for which there is no
slot. -/
def pending (names : List TaskName) (outcomes : List Slot) : Nat :=
  ((names.zip outcomes).countP fun (_, slot) => slot.isNone) + (names.length - outcomes.length)

/-- The failures of a phase: one for each task that failed, and one for all that did not report. -/
def phaseFailures (phase : Phase) (names : List TaskName) (outcomes : List Slot) : List Error :=
  let failed := (names.zip outcomes).filterMap (slotFailure? phase)
  match pending names outcomes with
  | 0 => failed
  | count + 1 => failed ++ [.phaseTimeout phase.name (count + 1)]

/-- Whether a task is done. -/
def isDone : Slot → Bool
  | some (.ok ()) => true
  | _ => false

/-- The journal entry for the job at a position that the executor reports as started. It says what
the executor claims; which function of which module has run is up to the jobs. -/
def startCall? (phase : Phase) (tasks : List (Task World Dict)) (position : Nat) :
    Option (Event Dict) :=
  tasks[position]?.map fun task => .call ⟨phase, task.name, some task.config⟩

/-- Hands the jobs of all tasks to the executor and accounts for every task by the outcome at its
position (`fan_out`). -/
def fanOut (phase : Phase) (executor : Executor World) (tasks : List (Task World Dict))
    (world : World) : PhaseResult World Dict :=
  let batch := executor phase (tasks.map fun task => task.job phase) world
  -- The watchdog speaks after all calls: it fires while the engine waits for the jobs it has
  -- started.
  let watchdog := batch.watchdog?.map fun (timeout, outstanding) =>
    Event.notice (.watchdogFired phase timeout outstanding)
  { failures := phaseFailures phase (tasks.map Task.name) batch.outcomes
    world := batch.world
    journal := batch.started.filterMap (startCall? phase tasks) ++ watchdog.toList }

theorem failures_eq_nil_iff (phase : Phase) (names : List TaskName) (outcomes : List Slot) :
    phaseFailures phase names outcomes = [] ↔
      names.length ≤ outcomes.length ∧
        ∀ entry ∈ names.zip outcomes, isDone entry.2 = true := by
  simp only [phaseFailures]
  cases hp : pending names outcomes with
  | succ count =>
    simp only [List.append_eq_nil_iff, List.cons_ne_nil, and_false, false_iff, not_and]
    intro hlen hdone
    have hnone : (names.zip outcomes).countP (fun (_, slot) => slot.isNone) = 0 := by
      rw [List.countP_eq_zero]
      intro entry hmem
      have h := hdone entry hmem
      cases hslot : entry.2 with
      | none => simp [hslot, isDone] at h
      | some _ => simp [hslot]
    simp only [pending, hnone] at hp
    omega
  | zero =>
    simp only [pending, Nat.add_eq_zero_iff, List.countP_eq_zero] at hp
    simp only [List.filterMap_eq_nil_iff]
    constructor
    · intro h
      refine ⟨by omega, fun entry hmem => ?_⟩
      have hsome := hp.1 entry hmem
      have hfail := h entry hmem
      obtain ⟨name, slot⟩ := entry
      match slot with
      | none => simp at hsome
      | some (.ok ()) => rfl
      | some (.error cause) => simp [slotFailure?] at hfail
    · rintro ⟨_, h⟩ ⟨name, slot⟩ hmem
      have hdone := h _ hmem
      match slot with
      | none => rfl
      | some (.ok ()) => rfl
      | some (.error cause) => simp [isDone] at hdone

end RouterConfig
