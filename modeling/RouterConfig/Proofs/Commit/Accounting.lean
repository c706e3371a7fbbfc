import Mathlib.Data.List.Basic
import RouterConfig.Commit.Phases

/-!
# RouterConfig — what becomes of the tasks of a phase

An executor may answer fewer outcomes than there are tasks, or more. Each task is accounted for by
the outcome at its own position: it is completed, has failed, or is pending where there is no
outcome, be it that its job did not report or that the executor lost track of it. Main results:

* `phaseFailures_eq_nil_iff` — a phase has no failures if and only if each task has the outcome of a
  success at its position;
* `filterMap_failure?`, `pending_eq_tally` — the walk along tasks and outcomes finds just the tasks
  that have failed, and counts just those that are pending;
* `tally_total` — each task is counted once;
* `fanOut_accounts` — the failures of a phase account for all of its tasks.
-/

namespace RouterConfig

variable {World Dict : Type}

/-! ## Phases without failures -/

/-- Whether each of `count` tasks has an outcome, and a good one. -/
def AllDone (count : Nat) (outcomes : List Slot) : Prop :=
  ∀ position < count, outcomes[position]? = some (some (.ok ()))

/-- A phase has no failures if and only if there is an outcome at each position and each one is
done. -/
theorem phaseFailures_eq_nil_iff (phase : Phase) (names : List TaskName) (outcomes : List Slot) :
    phaseFailures phase names outcomes = [] ↔ AllDone names.length outcomes := by
  rw [failures_eq_nil_iff]
  constructor
  · -- an executor that has answered for all tasks has an outcome at each of their positions
    rintro ⟨hlength, hdone⟩ position hposition
    have houtcome : position < outcomes.length := Nat.lt_of_lt_of_le hposition hlength
    have hmem : (names[position], outcomes[position]) ∈ names.zip outcomes :=
      List.mem_iff_getElem.mpr ⟨position, by rw [List.length_zip]; omega, List.getElem_zip⟩
    have hslot := hdone _ hmem
    rw [List.getElem?_eq_getElem houtcome]
    cases hvalue : outcomes[position] with
    | none => simp [hvalue, isDone] at hslot
    | some outcome =>
      cases outcome with
      | ok done => rfl
      | error cause => simp [hvalue, isDone] at hslot
  · intro h
    -- with an answer too few, the first position past the answers would have none
    have hlength : names.length ≤ outcomes.length := by
      by_contra hshort
      have hmissing := h outcomes.length (by omega)
      simp at hmissing
    refine ⟨hlength, fun entry hentry => ?_⟩
    obtain ⟨position, hposition, rfl⟩ := List.mem_iff_getElem.mp hentry
    rw [List.length_zip] at hposition
    have hslot := h position (by omega)
    rw [List.getElem?_eq_getElem (by omega), Option.some.injEq] at hslot
    rw [List.getElem_zip]
    dsimp only
    rw [hslot]
    rfl

/-! ## Fates -/

/-- What has become of a task. -/
inductive Fate where
  | completed
  | failed (cause : Error)
  /-- Nothing is known of it. -/
  | pending
  deriving DecidableEq

namespace Fate

/-- Whether the task is completed. -/
def isCompleted : Fate → Bool
  | completed => true
  | _ => false

/-- Whether the task has failed. -/
def isFailed : Fate → Bool
  | failed _ => true
  | _ => false

/-- Whether the task is pending. -/
def isPending : Fate → Bool
  | pending => true
  | _ => false

/-- The failure that is reported for a task, if it has failed: whose module it was, what it was
asked to do, for which path and instance, and what it has to say of it. -/
def failure? (phase : Phase) : TaskName × Fate → Option Error
  | (name, failed cause) =>
    some (.module name.owner phase.verb name.path name.instance? cause.message)
  | (_, completed) | (_, pending) => none

end Fate

/-- The fate of the task at a position, read off the outcomes. -/
def fateAt (outcomes : List Slot) (position : Nat) : Fate :=
  match outcomes[position]? with
  | some (some (.ok ())) => .completed
  | some (some (.error cause)) => .failed cause
  | some none | none => .pending

/-- The tasks in their order, with what has become of each. -/
def fates (names : List TaskName) (outcomes : List Slot) : List (TaskName × Fate) :=
  names.mapIdx fun position name => (name, fateAt outcomes position)

/-- The number of tasks with a fate of one kind. -/
def tally (isKind : Fate → Bool) (names : List TaskName) (outcomes : List Slot) : Nat :=
  (fates names outcomes).countP fun task => isKind task.2

theorem fates_cons (name : TaskName) (names : List TaskName) (outcomes : List Slot) :
    fates (name :: names) outcomes = (name, fateAt outcomes 0) :: fates names outcomes.tail := by
  rw [fates, List.mapIdx_cons, fates]
  congr 2
  funext position name
  cases outcomes <;> rfl

theorem tally_cons (isKind : Fate → Bool) (name : TaskName) (names : List TaskName)
    (outcomes : List Slot) :
    tally isKind (name :: names) outcomes =
      tally isKind names outcomes.tail + if isKind (fateAt outcomes 0) then 1 else 0 := by
  rw [tally, fates_cons, List.countP_cons, tally]

/-- Each task is counted once. -/
theorem tally_total (names : List TaskName) (outcomes : List Slot) :
    tally Fate.isCompleted names outcomes + tally Fate.isFailed names outcomes +
      tally Fate.isPending names outcomes = names.length := by
  induction names generalizing outcomes with
  | nil => rfl
  | cons name rest ih =>
    have hrest := ih outcomes.tail
    rw [tally_cons, tally_cons, tally_cons, List.length_cons]
    cases fateAt outcomes 0 <;> simp only [Fate.isCompleted, Fate.isFailed, Fate.isPending,
      Bool.false_eq_true, if_true, if_false] <;> omega

/-! ## Tasks and outcomes side by side -/

theorem slotFailure?_eq (phase : Phase) (name : TaskName) (slot : Slot) (outcomes : List Slot) :
    slotFailure? phase (name, slot) = Fate.failure? phase (name, fateAt (slot :: outcomes) 0) := by
  match slot with
  | none => rfl
  | some (.ok ()) => rfl
  | some (.error cause) => rfl

theorem isNone_eq (slot : Slot) (outcomes : List Slot) :
    slot.isNone = (fateAt (slot :: outcomes) 0).isPending := by
  match slot with
  | none => rfl
  | some (.ok ()) => rfl
  | some (.error cause) => rfl

/-- The tasks that are found to have failed are those whose outcome is a failure. -/
theorem filterMap_failure? (phase : Phase) (names : List TaskName) (outcomes : List Slot) :
    (names.zip outcomes).filterMap (slotFailure? phase) =
      (fates names outcomes).filterMap (Fate.failure? phase) := by
  induction names generalizing outcomes with
  | nil => rfl
  | cons name rest ih =>
    rw [fates_cons, List.filterMap_cons, ← ih]
    cases outcomes with
    -- a task without an outcome has not failed
    | nil => simp [fateAt, Fate.failure?]
    | cons slot outcomes =>
      rw [List.zip_cons_cons, List.filterMap_cons, slotFailure?_eq phase name slot outcomes,
        List.tail_cons]

/-- The tasks that are pending are counted one by one, the first by the first outcome. -/
theorem pending_cons (name : TaskName) (names : List TaskName) (outcomes : List Slot) :
    pending (name :: names) outcomes =
      pending names outcomes.tail + if (fateAt outcomes 0).isPending then 1 else 0 := by
  cases outcomes with
  | nil => simp [pending, fateAt, Fate.isPending]
  | cons slot outcomes =>
    have hfirst := isNone_eq slot outcomes
    simp only [pending, List.zip_cons_cons, List.countP_cons, hfirst, List.tail_cons,
      List.length_cons]
    omega

/-- The tasks that are counted as pending are those without an outcome, whether the executor says so
or has no answer for them. -/
theorem pending_eq_tally (names : List TaskName) (outcomes : List Slot) :
    pending names outcomes = tally Fate.isPending names outcomes := by
  induction names generalizing outcomes with
  | nil => simp [pending, tally, fates]
  | cons name rest ih => rw [pending_cons, tally_cons, ih]

/-! ## What a phase reports -/

/-- The one failure that is reported for all pending tasks, if there are any. -/
def lateFailures (phase : Phase) : (count : Nat) → List Error
  | 0 => []
  | count + 1 => [.phaseTimeout phase.name (count + 1)]

/-- The failures of a phase, by what has become of its tasks. -/
theorem phaseFailures_eq (phase : Phase) (names : List TaskName) (outcomes : List Slot) :
    phaseFailures phase names outcomes =
      (fates names outcomes).filterMap (Fate.failure? phase) ++
        lateFailures phase (tally Fate.isPending names outcomes) := by
  rw [phaseFailures, filterMap_failure?, pending_eq_tally]
  cases tally Fate.isPending names outcomes with
  | zero => rw [lateFailures, List.append_nil]
  | succ count => rfl

/-- A position is pending if and only if no outcome is found there. -/
theorem isPending_fateAt_iff {outcomes : List Slot} {position : Nat} :
    (fateAt outcomes position).isPending = true ↔ outcomes[position]?.join = none := by
  rw [fateAt]
  match outcomes[position]? with
  | none => simp [Fate.isPending]
  | some none => simp [Fate.isPending]
  | some (some (.ok ())) => simp [Fate.isPending]
  | some (some (.error cause)) => simp [Fate.isPending]

/-- A task is pending if and only if some position among those of the tasks has no outcome. -/
theorem tally_isPending_pos_iff {names : List TaskName} {outcomes : List Slot} :
    0 < tally Fate.isPending names outcomes ↔
      ∃ position < names.length, outcomes[position]?.join = none := by
  rw [tally, List.countP_pos_iff]
  constructor
  · rintro ⟨task, hmem, hpending⟩
    obtain ⟨position, hposition, rfl⟩ := List.mem_mapIdx.mp hmem
    exact ⟨position, hposition, isPending_fateAt_iff.mp hpending⟩
  · rintro ⟨position, hposition, hnone⟩
    exact ⟨(names[position], fateAt outcomes position),
      List.mem_mapIdx.mpr ⟨position, hposition, rfl⟩, isPending_fateAt_iff.mpr hnone⟩

/-- Only pending tasks are reported as late. -/
theorem exists_phaseTimeout_mem_iff {phase : Phase} {tasks : List (TaskName × Fate)} {count : Nat} :
    (∃ late, .phaseTimeout phase.name late ∈
        tasks.filterMap (Fate.failure? phase) ++ lateFailures phase count) ↔ 0 < count := by
  constructor
  · rintro ⟨late, hmem⟩
    rcases List.mem_append.mp hmem with hfailed | hlate
    · -- what is told of a task that has failed names its module
      obtain ⟨⟨name, fate⟩, -, htold⟩ := List.mem_filterMap.mp hfailed
      cases fate <;> simp [Fate.failure?] at htold
    · cases count with
      | zero => exact absurd hlate List.not_mem_nil
      | succ count => exact Nat.succ_pos count
  · intro hpos
    cases count with
    | zero => exact absurd hpos (Nat.lt_irrefl 0)
    | succ count => exact ⟨count + 1, List.mem_append_right _ (List.mem_singleton.mpr rfl)⟩

/-- Failures that account for each task of a phase by the outcome at its position. -/
structure Accounted (phase : Phase) (names : List TaskName) (outcomes : List Slot)
    (failures : List Error) : Prop where
  /-- There are none if each task has an outcome and it is a success, and only then. -/
  succeeds_iff : failures = [] ↔
    ∀ position < names.length, outcomes[position]? = some (some (.ok ()))
  /-- One is reported for each task that has failed, in the order of the tasks, and then one for all
  that are pending. -/
  told : failures = (fates names outcomes).filterMap (Fate.failure? phase) ++
    lateFailures phase (tally Fate.isPending names outcomes)
  /-- Tasks are reported as late if one of them has no outcome, and only then. -/
  late_iff : (∃ count, .phaseTimeout phase.name count ∈ failures) ↔
    ∃ position < names.length, outcomes[position]?.join = none
  /-- No task is left out or counted twice. -/
  total : tally Fate.isCompleted names outcomes + tally Fate.isFailed names outcomes +
    tally Fate.isPending names outcomes = names.length
  idle : names = [] → failures = []

/-- The failures of a phase account for all of its tasks, whatever outcomes an executor answers. -/
theorem fanOut_accounts (phase : Phase) (executor : Executor World) (tasks : List (Task World Dict))
    (world : World) :
    Accounted phase (tasks.map Task.name)
      (executor phase (tasks.map fun task => task.job phase) world).outcomes
      (fanOut phase executor tasks world).failures := by
  rw [fanOut]
  generalize tasks.map Task.name = names
  generalize (executor phase (tasks.map fun task => task.job phase) world).outcomes = outcomes
  refine ⟨phaseFailures_eq_nil_iff phase names outcomes, phaseFailures_eq phase names outcomes,
    ?_, tally_total names outcomes, ?_⟩
  · rw [phaseFailures_eq, exists_phaseTimeout_mem_iff, tally_isPending_pos_iff]
  · rintro rfl
    rw [phaseFailures_eq_nil_iff]
    exact fun position hposition => absurd hposition (Nat.not_lt_zero position)

end RouterConfig
