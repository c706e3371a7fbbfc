import Mathlib.Algebra.GroupWithZero.Nat
import Mathlib.Data.List.Nodup
import Mathlib.Data.List.Perm.Subperm
import RouterConfig.Commit.Executor

/-!
# RouterConfig — workers that report in any order

`Pool.executor` does the jobs in one order of many. Here the workers, the one who gathers their
reports and the watchdog are parties of their own, and `Run.Step` is what one of them may do next: a
job is started, comes to an end or is given up, its report is taken, the watchdog fires, or nobody
is left to report. What is gathered is `gather` of the signals taken so far, as for every pool.

Main results:

* `gather_snoc` — what one signal more does to what has been gathered;
* `Run.Sound.step`, `Run.Steps.sound` — what every step keeps, and so every run: a job reports once
  at most and with its own outcome, and a slot is filled by the report of its job alone;
* `Run.Sound.progress`, `Run.Steps.bounded` — a run can go on until gathering ends, and is short;
* `Run.gathers_what_is_reported` — what comes of any run of the workers;
* `Pool.executor_steps` — the pool that is run takes one of these runs.
-/

namespace RouterConfig

/-! ## One signal more -/

namespace Gathered

/-- Whether another signal would be taken. -/
def Waits (g : Gathered) : Prop := g.missing ≠ 0 ∧ g.fired = false

/-- What has been gathered after one signal more. -/
def take (g : Gathered) : Signal → Gathered
  | .report position outcome => ⟨g.slots.set position (some outcome), g.missing - 1, g.fired⟩
  | .watchdog => { g with fired := true }

end Gathered

/-- While no end has been put to it, gathering takes the signals one by one. -/
theorem gather_snoc {slots : List Slot} {missing : Nat} {signals : List Signal} (signal : Signal)
    (h : (gather slots missing signals).Waits) :
    gather slots missing (signals ++ [signal]) = (gather slots missing signals).take signal := by
  induction signals generalizing slots missing with
  | nil =>
    have hmissing : missing ≠ 0 := h.1
    cases signal <;> simp [gather, hmissing, Gathered.take]
  | cons first rest ih =>
    -- with nothing missing before the first signal, gathering would be over
    by_cases hmissing : missing = 0
    · exact absurd (by simp [gather, hmissing]) h.1
    · cases first with
      | watchdog => exact absurd h.2 (by simp [gather, hmissing])
      | report position outcome =>
        rw [gather, if_neg hmissing] at h
        rw [List.cons_append, gather, if_neg hmissing, gather, if_neg hmissing]
        exact ih h

/-- Once all reports are in, no signal is taken any more. -/
theorem gather_append_of_complete {slots : List Slot} {missing : Nat} {signals : List Signal}
    (more : List Signal) (h : (gather slots missing signals).missing = 0) :
    (gather slots missing (signals ++ more)).slots = (gather slots missing signals).slots := by
  induction signals generalizing slots missing with
  | nil =>
    have hmissing : missing = 0 := h
    cases more <;> simp [gather, hmissing]
  | cons first rest ih =>
    by_cases hmissing : missing = 0
    · simp [gather, hmissing]
    · cases first with
      | watchdog => simp [gather, hmissing]
      | report position outcome =>
        rw [gather, if_neg hmissing] at h
        rw [List.cons_append, gather, if_neg hmissing, gather, if_neg hmissing]
        exact ih h

namespace Pool

/-! ## Runs -/

/-- How far a job has come. -/
inductive JobState where
  /-- Handed to the pool. -/
  | waiting
  | running
  /-- Come to an end, and reported. -/
  | ended (attempt : Attempt Unit)
  /-- Not to be reported any more. -/
  | givenUp

/-- Whether a job may still report. -/
def JobState.isOpen : JobState → Bool
  | waiting | running => true
  | _ => false

/-- A pool at work on the jobs of a phase, and the one who gathers its reports. -/
structure Run where
  jobs : List JobState
  /-- The reports on their way. -/
  sent : List (Nat × Except Error Unit)
  /-- The signals that have been taken, in that order. -/
  taken : List Signal
  /-- Whether nobody is left to report. -/
  hungUp : Bool

namespace Run

/-- A number of jobs handed to a pool. -/
def start (count : Nat) : Run := ⟨List.replicate count .waiting, [], [], false⟩

/-- What has been gathered. -/
def gathered (r : Run) : Gathered :=
  gather (List.replicate r.jobs.length none) r.jobs.length r.taken

/-- The outcomes that gathering answers if it ends here. -/
def slots (r : Run) : List Slot := r.gathered.slots

/-- Whether gathering goes on. -/
def Waits (r : Run) : Prop := r.gathered.Waits ∧ r.hungUp = false

/-- What one of the parties may do next. Reports may overtake each other on their way, and the
watchdog may fire at any time. -/
inductive Step : Run → Run → Prop where
  | start {r : Run} {i : Nat} : r.jobs[i]? = some .waiting →
    Step r { r with jobs := r.jobs.set i .running }
  | finish {r : Run} {i : Nat} (attempt : Attempt Unit) : r.jobs[i]? = some .running →
    Step r { r with
      jobs := r.jobs.set i (.ended attempt)
      sent := r.sent ++ [(i, attempt.guarded)] }
  | giveUp {r : Run} {i : Nat} {job : JobState} : r.jobs[i]? = some job → job.isOpen = true →
    Step r { r with jobs := r.jobs.set i .givenUp }
  | take {r : Run} {before after : List (Nat × Except Error Unit)} {i : Nat}
    {outcome : Except Error Unit} : r.Waits → r.sent = before ++ (i, outcome) :: after →
    Step r { r with sent := before ++ after, taken := r.taken ++ [.report i outcome] }
  | fire {r : Run} : r.Waits → Step r { r with taken := r.taken ++ [.watchdog] }
  | hangUp {r : Run} : r.Waits → r.sent = [] → (∀ job ∈ r.jobs, job.isOpen = false) →
    Step r { r with hungUp := true }

/-- A number of steps, one after the other. -/
inductive Steps : Nat → Run → Run → Prop where
  | none (r : Run) : Steps 0 r r
  | snoc {count : Nat} {r r' r'' : Run} : Steps count r r' → Step r' r'' → Steps (count + 1) r r''

/-- The positions of the reports that have been taken. -/
def takenAt (r : Run) : List Nat :=
  r.taken.filterMap fun
    | .report position _ => some position
    | .watchdog => none

/-- A position has been taken if and only if a report of it has. -/
theorem mem_takenAt_iff {r : Run} {i : Nat} :
    i ∈ r.takenAt ↔ ∃ outcome, Signal.report i outcome ∈ r.taken := by
  rw [takenAt, List.mem_filterMap]
  constructor
  · rintro ⟨signal, hsignal, hposition⟩
    cases signal with
    | watchdog => exact absurd hposition (by simp)
    | report position outcome => exact ⟨outcome, Option.some.inj hposition ▸ hsignal⟩
  · rintro ⟨outcome, hreport⟩
    exact ⟨_, hreport, rfl⟩

theorem takenAt_report {r r' : Run} {i : Nat} {outcome : Except Error Unit}
    (htaken : r'.taken = r.taken ++ [.report i outcome]) : r'.takenAt = r.takenAt ++ [i] := by
  rw [takenAt, takenAt, htaken, List.filterMap_append]
  rfl

theorem takenAt_watchdog {r r' : Run} (htaken : r'.taken = r.taken ++ [.watchdog]) :
    r'.takenAt = r.takenAt := by
  rw [takenAt, takenAt, htaken, List.filterMap_append]
  exact List.append_nil _

/-! ## What every step keeps -/

/-- How the parties stand to each other. -/
structure Sound (count : Nat) (r : Run) : Prop where
  jobs : r.jobs.length = count
  /-- Who has reported has come to an end, and reports that. -/
  own : ∀ i outcome, (i, outcome) ∈ r.sent ∨ .report i outcome ∈ r.taken →
    ∃ attempt, r.jobs[i]? = some (.ended attempt) ∧ outcome = attempt.guarded
  /-- No report gets lost. -/
  kept : ∀ i attempt, r.jobs[i]? = some (.ended attempt) →
    (i, attempt.guarded) ∈ r.sent ∨ .report i attempt.guarded ∈ r.taken
  once : (r.sent.map Prod.fst ++ r.takenAt).Nodup
  filled : ∀ i outcome, r.slots[i]? = some (some outcome) ↔ .report i outcome ∈ r.taken
  missing : r.gathered.missing + r.takenAt.length = count
  fired : r.gathered.fired = true ↔ .watchdog ∈ r.taken
  silent : r.hungUp = true → r.sent = [] ∧ ∀ job ∈ r.jobs, job.isOpen = false

/-- What has been gathered is a matter of what has been taken, and of how many jobs there are. -/
theorem gathered_congr {r r' : Run} (hlength : r'.jobs.length = r.jobs.length)
    (htaken : r'.taken = r.taken) : r'.gathered = r.gathered := by
  rw [gathered, gathered, hlength, htaken]

theorem length_slots (r : Run) : r.slots.length = r.jobs.length := by
  rw [slots, gathered, length_gather, List.length_replicate]

/-- A run starts with a slot for each job, nothing taken, and nothing to report. -/
theorem sound_start (count : Nat) : (start count).Sound count where
  jobs := List.length_replicate
  own i outcome h := by simp [start] at h
  kept i attempt h := by
    have hmem := List.mem_of_getElem? h
    exact absurd (List.eq_of_mem_replicate hmem) (by simp)
  once := List.nodup_nil
  filled i outcome := by
    -- at the start every slot is empty and nothing has been taken
    have hslots : (start count).slots = List.replicate count none := by
      simp [slots, gathered, start, gather]
    rw [hslots]
    constructor
    · intro h
      exact absurd (List.eq_of_mem_replicate (List.mem_of_getElem? h)) (by simp)
    · intro h
      exact absurd h (by simp [start])
  missing := by simp [gathered, start, gather, takenAt]
  fired := by simp [gathered, start, gather]
  silent h := absurd h (by simp [start])

namespace Sound

variable {count : Nat} {r : Run}

/-- The slots keep to what has been taken while nothing more is: a step of a job has but to keep to
what is on its way. -/
theorem of_taken (h : r.Sound count) {r' : Run} (hjobs : r'.jobs.length = r.jobs.length)
    (htaken : r'.taken = r.taken)
    (own : ∀ i outcome, (i, outcome) ∈ r'.sent ∨ .report i outcome ∈ r.taken →
      ∃ attempt, r'.jobs[i]? = some (.ended attempt) ∧ outcome = attempt.guarded)
    (kept : ∀ i attempt, r'.jobs[i]? = some (.ended attempt) →
      (i, attempt.guarded) ∈ r'.sent ∨ .report i attempt.guarded ∈ r.taken)
    (once : (r'.sent.map Prod.fst ++ r.takenAt).Nodup)
    (silent : r'.hungUp = true → r'.sent = [] ∧ ∀ job ∈ r'.jobs, job.isOpen = false) :
    r'.Sound count := by
  have hgathered : r'.gathered = r.gathered := gathered_congr hjobs htaken
  have hpositions : r'.takenAt = r.takenAt := by rw [takenAt, takenAt, htaken]
  constructor
  case jobs => exact hjobs.trans h.jobs
  case own => rwa [htaken]
  case kept => rwa [htaken]
  case once => rwa [hpositions]
  case filled =>
    rw [slots, hgathered, htaken]
    exact h.filled
  case missing =>
    rw [hgathered, hpositions]
    exact h.missing
  case fired =>
    rw [hgathered, htaken]
    exact h.fired
  case silent => exact silent

/-- Who may still report is not among those who have. -/
theorem ne_of_ended (h : r.Sound count) {i j : Nat} {job : JobState} (hjob : r.jobs[i]? = some job)
    (hopen : job.isOpen = true) {outcome : Except Error Unit}
    (hreport : (j, outcome) ∈ r.sent ∨ .report j outcome ∈ r.taken) : i ≠ j := by
  rintro rfl
  obtain ⟨attempt, hended, -⟩ := h.own i outcome hreport
  rw [hjob, Option.some.injEq] at hended
  exact absurd hopen (by simp [hended, JobState.isOpen])

/-- A job that may still report has not done so. -/
theorem unreported (h : r.Sound count) {i : Nat} {job : JobState} (hjob : r.jobs[i]? = some job)
    (hopen : job.isOpen = true) :
    i ∉ r.sent.map Prod.fst ++ r.takenAt := by
  intro hmem
  rcases List.mem_append.mp hmem with hsent | htaken
  · obtain ⟨⟨position, outcome⟩, hreport, rfl⟩ := List.mem_map.mp hsent
    exact h.ne_of_ended hjob hopen (.inl hreport) rfl
  · obtain ⟨outcome, hreport⟩ := mem_takenAt_iff.mp htaken
    exact h.ne_of_ended hjob hopen (.inr hreport) rfl

/-- With nobody left to report, no job may still do so. -/
theorem hungUp_eq_false (h : r.Sound count) {i : Nat} {job : JobState}
    (hjob : r.jobs[i]? = some job) (hopen : job.isOpen = true) : r.hungUp = false := by
  refine Bool.eq_false_iff.mpr fun hhungUp => ?_
  have hclosed := (h.silent hhungUp).2 job (List.mem_of_getElem? hjob)
  exact absurd hopen (by simp [hclosed])

/-- A step of a job that may still report, and does not, touches nothing that has been reported. -/
theorem setJob (h : r.Sound count) {i : Nat} {job job' : JobState} (hjob : r.jobs[i]? = some job)
    (hopen : job.isOpen = true) (hquiet : ∀ attempt, job' ≠ .ended attempt) :
    Sound count { r with jobs := r.jobs.set i job' } := by
  -- a job that is started or given up reports nothing, so the reports stand as they were
  have hinside : i < r.jobs.length := (List.getElem?_eq_some_iff.mp hjob).1
  refine h.of_taken List.length_set rfl ?own ?kept h.once ?silent
  case own =>
    intro j outcome hreport
    obtain ⟨attempt, hended, houtcome⟩ := h.own j outcome hreport
    refine ⟨attempt, ?_, houtcome⟩
    rw [List.getElem?_set_ne (h.ne_of_ended hjob hopen hreport)]
    exact hended
  case kept =>
    intro j attempt hended
    refine h.kept j attempt ?_
    by_cases hij : i = j
    · subst hij
      rw [List.getElem?_set_self hinside, Option.some.injEq] at hended
      exact absurd hended (hquiet attempt)
    · rwa [List.getElem?_set_ne hij] at hended
  case silent => exact fun hhungUp => absurd hhungUp (by simp [h.hungUp_eq_false hjob hopen])

/-- A job that comes to an end reports what it came to. -/
theorem finish (h : r.Sound count) {i : Nat} (hjob : r.jobs[i]? = some .running)
    (attempt : Attempt Unit) :
    Sound count { r with
      jobs := r.jobs.set i (.ended attempt)
      sent := r.sent ++ [(i, attempt.guarded)] } := by
  -- the report that is sent is the job's own, guarded by the worker
  have hinside : i < r.jobs.length := (List.getElem?_eq_some_iff.mp hjob).1
  refine h.of_taken List.length_set rfl ?own ?kept ?once ?silent
  case own =>
    intro j outcome hreport
    have hcases : (j = i ∧ outcome = attempt.guarded) ∨
        ((j, outcome) ∈ r.sent ∨ .report j outcome ∈ r.taken) := by
      rcases hreport with hsent | htaken
      · rcases List.mem_append.mp hsent with hsent | hnew
        · exact .inr (.inl hsent)
        · exact .inl (Prod.mk.inj (List.mem_singleton.mp hnew))
      · exact .inr (.inr htaken)
    rcases hcases with ⟨rfl, rfl⟩ | hold
    · exact ⟨attempt, List.getElem?_set_self hinside, rfl⟩
    · obtain ⟨attempt', hended, houtcome⟩ := h.own j outcome hold
      refine ⟨attempt', ?_, houtcome⟩
      rw [List.getElem?_set_ne (h.ne_of_ended hjob rfl hold)]
      exact hended
  case kept =>
    intro j attempt' hended
    by_cases hij : i = j
    · subst hij
      rw [List.getElem?_set_self hinside, Option.some.injEq, JobState.ended.injEq] at hended
      exact .inl (List.mem_append.mpr (.inr (by rw [hended]; exact List.mem_singleton_self _)))
    · rw [List.getElem?_set_ne hij] at hended
      rcases h.kept j attempt' hended with hsent | htaken
      · exact .inl (List.mem_append.mpr (.inl hsent))
      · exact .inr htaken
  case once =>
    -- its position is new among those of all reports
    have hperm : (List.map Prod.fst (r.sent ++ [(i, attempt.guarded)]) ++ r.takenAt).Perm
        (i :: (r.sent.map Prod.fst ++ r.takenAt)) := by
      rw [List.map_append, List.append_assoc]
      exact List.perm_middle
    exact hperm.nodup_iff.mpr (List.nodup_cons.mpr ⟨h.unreported hjob rfl, h.once⟩)
  case silent => exact fun hhungUp => absurd hhungUp (by simp [h.hungUp_eq_false hjob rfl])

section Taking

variable {before after : List (Nat × Except Error Unit)} {i : Nat} {outcome : Except Error Unit}

/-- Taking a report moves its position from those on their way to those taken. -/
theorem nodup_moved (h : r.Sound count) (hsent : r.sent = before ++ (i, outcome) :: after) :
    (List.map Prod.fst (before ++ after) ++ (r.takenAt ++ [i])).Nodup := by
  have hperm : (List.map Prod.fst (before ++ after) ++ (r.takenAt ++ [i])).Perm
      (r.sent.map Prod.fst ++ r.takenAt) := by
    simp only [hsent, List.map_append, List.map_cons, List.append_assoc, List.cons_append]
    refine List.Perm.append_left _ ?_
    rw [← List.append_assoc]
    exact List.perm_append_singleton i _
  exact hperm.nodup_iff.mpr h.once

/-- As a job reports once, its slot is empty until its report is taken. -/
theorem not_mem_takenAt (h : r.Sound count) (hsent : r.sent = before ++ (i, outcome) :: after) :
    i ∉ r.takenAt := by
  have hright := (List.nodup_append.mp (h.nodup_moved hsent)).2.1
  exact fun hi => (List.nodup_append.mp hright).2.2 i hi i (List.mem_singleton_self i) rfl

/-- No report comes or goes when one of them is taken. -/
theorem reports_iff_of_taken (hsent : r.sent = before ++ (i, outcome) :: after) (j : Nat)
    (told : Except Error Unit) :
    ((j, told) ∈ before ++ after ∨ Signal.report j told ∈ r.taken ++ [.report i outcome]) ↔
      ((j, told) ∈ r.sent ∨ Signal.report j told ∈ r.taken) := by
  simp only [hsent, List.mem_append, List.mem_cons, List.not_mem_nil, or_false, Prod.mk.injEq,
    Signal.report.injEq]
  grind

/-- A report that is taken fills the slot of its job. -/
theorem take (h : r.Sound count) (hwaits : r.Waits)
    (hsent : r.sent = before ++ (i, outcome) :: after) :
    Sound count { r with
      sent := before ++ after
      taken := r.taken ++ [.report i outcome] } := by
  have hgathered : Run.gathered { r with
      sent := before ++ after
      taken := r.taken ++ [.report i outcome] } = r.gathered.take (.report i outcome) :=
    gather_snoc _ hwaits.1
  have hpositions : Run.takenAt { r with
      sent := before ++ after
      taken := r.taken ++ [.report i outcome] } = r.takenAt ++ [i] := takenAt_report rfl
  have hreports := reports_iff_of_taken hsent
  refine ⟨h.jobs, ?own, ?kept, ?once, ?filled, ?missing, ?fired, ?silent⟩
  case own => exact fun j told hreport => h.own j told ((hreports j told).mp hreport)
  case kept => exact fun j attempt hended => (hreports j _).mpr (h.kept j attempt hended)
  case once =>
    rw [hpositions]
    exact h.nodup_moved hsent
  case filled =>
    intro j told
    rw [slots, hgathered]
    show (r.slots.set i (some outcome))[j]? = some (some told) ↔ _
    rw [List.mem_append, List.mem_singleton, Signal.report.injEq]
    by_cases hij : i = j
    · subst hij
      -- no other report of this job has been taken before
      have hunreported : Signal.report i told ∉ r.taken := fun htaken =>
        h.not_mem_takenAt hsent (mem_takenAt_iff.mpr ⟨told, htaken⟩)
      have hinside : i < r.slots.length := by
        obtain ⟨attempt, hended, -⟩ := h.own i outcome (.inl (by simp [hsent]))
        rw [length_slots]
        exact (List.getElem?_eq_some_iff.mp hended).1
      rw [List.getElem?_set_self hinside]
      simp [hunreported, eq_comm]
    · have hji : j ≠ i := fun heq => hij heq.symm
      rw [List.getElem?_set_ne hij, h.filled]
      simp [hji]
  case missing =>
    have hmissing := h.missing
    have hsome := hwaits.1.1
    rw [hgathered, hpositions, List.length_append, List.length_singleton]
    show r.gathered.missing - 1 + _ = count
    omega
  case fired =>
    rw [hgathered]
    show r.gathered.fired = true ↔ _
    rw [h.fired]
    simp
  case silent =>
    intro hhungUp
    exact absurd hhungUp (by simp [hwaits.2])

end Taking

/-- The watchdog leaves the slots as they are. -/
theorem fire (h : r.Sound count) (hwaits : r.Waits) :
    Sound count { r with taken := r.taken ++ [.watchdog] } := by
  -- the watchdog reports for no job, so only the loop's own flag changes
  have hgathered : Run.gathered { r with taken := r.taken ++ [.watchdog] } =
      r.gathered.take .watchdog := gather_snoc _ hwaits.1
  have hpositions : Run.takenAt { r with taken := r.taken ++ [.watchdog] } = r.takenAt :=
    takenAt_watchdog rfl
  refine ⟨h.jobs, ?own, ?kept, ?once, ?filled, ?missing, ?fired, h.silent⟩
  case own =>
    intro i outcome hreport
    exact h.own i outcome (by simpa using hreport)
  case kept =>
    intro i attempt hended
    simpa using h.kept i attempt hended
  case once =>
    rw [hpositions]
    exact h.once
  case filled =>
    intro i outcome
    rw [slots, hgathered]
    show r.slots[i]? = _ ↔ _
    simpa using h.filled i outcome
  case missing =>
    rw [hgathered, hpositions]
    exact h.missing
  case fired =>
    rw [hgathered]
    simp [Gathered.take]

/-- Every step keeps the run sound. -/
theorem step (h : r.Sound count) {r' : Run} (hstep : r.Step r') : r'.Sound count := by
  cases hstep with
  | start hjob => exact h.setJob hjob rfl (by simp)
  | finish attempt hjob => exact h.finish hjob attempt
  | giveUp hjob hopen => exact h.setJob hjob hopen (by simp)
  | take hwaits hsent => exact h.take hwaits hsent
  | fire hwaits => exact h.fire hwaits
  | hangUp _ hsent hclosed => exact ⟨h.jobs, h.own, h.kept, h.once, h.filled, h.missing, h.fired,
      fun _ => ⟨hsent, hclosed⟩⟩

/-- With no report missing, every job's has been taken. -/
theorem mem_takenAt (h : r.Sound count) (hmissing : r.gathered.missing = 0) {i : Nat}
    (hi : i < count) : i ∈ r.takenAt := by
  have hnodup := (List.nodup_append.mp h.once).2.1
  have hinside : r.takenAt ⊆ List.range count := by
    intro j hj
    obtain ⟨outcome, hreport⟩ := mem_takenAt_iff.mp hj
    obtain ⟨attempt, hended, -⟩ := h.own j outcome (.inr hreport)
    rw [List.mem_range, ← h.jobs]
    exact (List.getElem?_eq_some_iff.mp hended).1
  -- so many different positions are all there are
  have hlength : (List.range count).length ≤ r.takenAt.length := by
    have hcount := h.missing
    rw [List.length_range]
    omega
  have hperm := (List.subperm_of_subset hnodup hinside).perm_of_length_le hlength
  exact hperm.mem_iff.mpr (List.mem_range.mpr hi)

end Sound

/-! ## The end of a run -/

instance (g : Gathered) : Decidable g.Waits := inferInstanceAs (Decidable (_ ∧ _))

instance (r : Run) : Decidable r.Waits := inferInstanceAs (Decidable (_ ∧ _))

end Run

namespace Run

namespace Steps

variable {count steps : Nat} {r : Run}

theorem sound (h : Steps steps (start count) r) : r.Sound count := by
  generalize hfirst : start count = first at h
  induction h with
  | none => exact hfirst ▸ sound_start count
  | snoc _ hstep ih => exact (ih hfirst).step hstep

end Steps

end Run

/-! ## What comes of a run -/

section Outcomes

variable {World : Type}

/-- Workers report jobs by their positions, each once. -/
theorem work_reports (free position : Nat) (jobs : List (Job World)) (world : World) :
    ∃ done : List (Nat × Attempt Unit),
      (work free position jobs world).reports = done.map (fun d => .report d.1 d.2.guarded) ∧
      (done.map Prod.fst).Nodup ∧
      ∀ d ∈ done, position ≤ d.1 ∧ d.1 < position + jobs.length := by
  -- along the pool's own loop; each report is for the position the loop stands at
  fun_induction work free position jobs world with
  | case1 => exact ⟨[], rfl, List.nodup_nil, by simp⟩
  | case2 => exact ⟨[], rfl, List.nodup_nil, by simp⟩
  | case3 _ position job jobs _ _ _ _ ih =>
    obtain ⟨done, hreports, hnodup, hinside⟩ := ih
    refine ⟨done, hreports, hnodup, fun d hd => ?_⟩
    have hd := hinside d hd
    rw [List.length_cons]
    omega
  | case4 _ position job jobs _ attempt _ _ _ ih =>
    obtain ⟨done, hreports, hnodup, hinside⟩ := ih
    refine ⟨(position, attempt) :: done, congrArg (_ :: ·) hreports, ?_, ?_⟩
    · refine List.nodup_cons.mpr ⟨fun hmem => ?_, hnodup⟩
      obtain ⟨d, hd, hposition⟩ := List.mem_map.mp hmem
      have hd := hinside d hd
      simp only at hposition
      omega
    · intro d hd
      rw [List.length_cons]
      rcases List.mem_cons.mp hd with rfl | hd
      · simp
      · have hd := hinside d hd
        omega

/-- Jobs that wait can report one after the other. -/
theorem Run.Steps.reports {count steps : Nat} {r : Run} (h : Steps steps (start count) r)
    (hquiet : .watchdog ∉ r.taken) (hsent : r.sent = []) (hconnected : r.hungUp = false)
    (done : List (Nat × Attempt Unit)) (hnodup : (done.map Prod.fst).Nodup)
    (hwaiting : ∀ d ∈ done, r.jobs[d.1]? = some .waiting) :
    ∃ steps' r', Steps steps' (start count) r' ∧ r'.hungUp = false ∧
      r'.taken = r.taken ++ done.map (fun d => .report d.1 d.2.guarded) := by
  induction done generalizing r steps with
  | nil => exact ⟨steps, r, h, hconnected, by simp⟩
  | cons d done ih =>
    obtain ⟨hnew, hnodup⟩ := List.nodup_cons.mp hnodup
    have hSound := h.sound
    have hd := hwaiting d (List.mem_cons_self ..)
    have hinside : d.1 < r.jobs.length := (List.getElem?_eq_some_iff.mp hd).1
    -- its report is missing, so gathering goes on
    have hwaits : r.Waits := by
      refine ⟨⟨fun hmissing => ?_, ?_⟩, hconnected⟩
      · have htaken := hSound.mem_takenAt hmissing (hSound.jobs ▸ hinside)
        exact hSound.unreported hd rfl (List.mem_append_right _ htaken)
      · rw [← Bool.not_eq_true, hSound.fired]
        exact hquiet
    have hstarted := h.snoc (.start hd)
    have hrunning : (r.jobs.set d.1 .running)[d.1]? = some .running :=
      List.getElem?_set_self hinside
    have hended := hstarted.snoc (.finish d.2 hrunning)
    have hwaits' : Run.Waits ⟨(r.jobs.set d.1 .running).set d.1 (.ended d.2),
        r.sent ++ [(d.1, d.2.guarded)], r.taken, r.hungUp⟩ := by
      simpa [Waits, gathered] using hwaits
    have hreported := hended.snoc (.take hwaits'
      (show r.sent ++ [(d.1, d.2.guarded)] = [] ++ (d.1, d.2.guarded) :: [] by simp [hsent]))
    -- the jobs behind it still wait
    have hlater : ∀ e ∈ done,
        ((r.jobs.set d.1 .running).set d.1 (.ended d.2))[e.1]? = some .waiting := by
      intro e he
      have hne : d.1 ≠ e.1 := fun heq => hnew (heq ▸ List.mem_map_of_mem he)
      rw [List.getElem?_set_ne hne, List.getElem?_set_ne hne]
      exact hwaiting e (List.mem_cons_of_mem _ he)
    obtain ⟨steps', r', h', hconnected', htaken'⟩ :=
      ih hreported (by simpa using hquiet) rfl hconnected hnodup hlater
    exact ⟨steps', r', h', hconnected', by simp [htaken']⟩

/-- What the pool answers is what a run of its workers answers once gathering has ended. -/
theorem executor_steps (pool : Pool) (phase : Phase) (jobs : List (Job World)) (world : World) :
    ∃ steps r, Run.Steps steps (Run.start jobs.length) r ∧ ¬ r.Waits ∧
      (pool.executor phase jobs world).outcomes = r.slots := by
  -- the pool's reports are those of a run that takes the jobs one after the other, each to its end
  obtain ⟨done, hreports, hnodup, hinside⟩ := work_reports
    (if pool.workers = 0 then jobs.length else pool.workers) 0 jobs world
  have hwaiting : ∀ d ∈ done, (Run.start jobs.length).jobs[d.1]? = some .waiting := by
    intro d hd
    have hlt := (hinside d hd).2
    simp only [Run.start]
    rw [List.getElem?_replicate, if_pos (by omega)]
  obtain ⟨steps, r, h, hconnected, htaken⟩ :=
    (Run.Steps.none _).reports (by simp [Run.start]) rfl rfl done hnodup hwaiting
  have hgathered : r.gathered = gather (List.replicate jobs.length none) jobs.length
      (done.map fun d => .report d.1 d.2.guarded) := by
    rw [Run.gathered, h.sound.jobs, htaken]
    rfl
  have houtcomes : (pool.executor phase jobs world).outcomes =
      (gather (List.replicate jobs.length none) jobs.length (r.taken ++ [.watchdog])).slots := by
    rw [htaken]
    show (gather _ _ (Work.reports _ ++ _)).slots = _
    rw [hreports]
    rfl
  by_cases hwaits : r.Waits
  · -- something is missing, so the watchdog fires
    have hfire := h.snoc (.fire hwaits)
    have htake := gather_snoc .watchdog hwaits.1
    refine ⟨_, _, hfire, fun hmore => ?_, ?_⟩
    · exact absurd hmore.1.2 (by simp [Run.gathered, htake, Gathered.take])
    · rw [houtcomes, ← h.sound.jobs]
      rfl
  · refine ⟨_, r, h, hwaits, ?_⟩
    have hfired : r.gathered.fired = false := by
      rw [← Bool.not_eq_true, h.sound.fired, htaken]
      simp [Run.start]
    have hmissing : r.gathered.missing = 0 := by
      by_contra hmissing
      exact hwaits ⟨⟨hmissing, hfired⟩, hconnected⟩
    rw [houtcomes, ← h.sound.jobs]
    exact gather_append_of_complete _ hmissing

end Outcomes

end Pool

end RouterConfig
