import RouterConfig.Commit.Module

/-!
# RouterConfig — running the jobs of a phase

An executor runs the jobs of a phase and joins them: it answers one outcome a job, none for a job
that did not report in time. One executor runs the jobs one after the other. A pool of workers takes
the jobs in order, and gathers their reports in the order of their arrival until all have come or a
watchdog fires. Main results:

* `sequential_started` — one after the other, every job is started;
* `length_gather` — a pool answers one outcome a job.
-/

namespace RouterConfig

variable {World : Type}

/-- What a job came to, or nothing for a job that did not report. -/
abbrev Slot := Option (Except Error Unit)

/-- What an executor leaves behind. -/
structure Batch (World : Type) where
  /-- The outcomes, in the order of the jobs. -/
  outcomes : List Slot
  /-- The positions of the jobs that were started, in that order. -/
  started : List Nat
  /-- Whether a watchdog fired, with its time and the number of jobs without a report. -/
  watchdog? : Option (Nat × Nat)
  world : World

/-- An executor. -/
abbrev Executor (World : Type) := Phase → List (Job World) → World → Batch World

/-! ## One after the other -/

/-- Runs jobs one after the other, of which the first stands at `position`. -/
def runInOrder (position : Nat) : List (Job World) → World → Batch World
  | [], world => ⟨[], [], none, world⟩
  | job :: jobs, world =>
    let (attempt?, world) := job world
    let rest := runInOrder (position + 1) jobs world
    { rest with
      outcomes := attempt?.map Attempt.guarded :: rest.outcomes
      started := position :: rest.started }

/-- The executor that runs jobs one after the other (`SequentialExecutor`). -/
def Executor.sequential : Executor World := fun _ jobs world => runInOrder 0 jobs world

/-! ## Workers -/

/-- A signal to the one who waits for a pool. -/
inductive Signal where
  /-- The job at a position has ended. -/
  | report (position : Nat) (outcome : Except Error Unit)
  /-- Time is up. -/
  | watchdog

/-- What has been gathered from signals. -/
structure Gathered where
  slots : List Slot
  /-- The number of jobs without a report. -/
  missing : Nat
  /-- Whether the watchdog put an end to it. -/
  fired : Bool

/-- Gathers signals in the order of their arrival, until no report is missing or time is up. -/
def gather (slots : List Slot) (missing : Nat) : List Signal → Gathered
  | [] => ⟨slots, missing, false⟩
  | signal :: rest =>
    -- With all reports in, the watchdog is stopped before it can fire.
    if missing = 0 then ⟨slots, 0, false⟩
    else
      match signal with
      | .watchdog => ⟨slots, missing, true⟩
      | .report position outcome =>
        -- Reports come in any order; the position tells the slot.
        gather (slots.set position (some outcome)) (missing - 1) rest

/-- The jobs that workers get done, in the order in which they are taken: the positions of those
that were started, and the reports. -/
structure Work (World : Type) where
  started : List Nat
  reports : List Signal
  world : World

/-- Hands jobs to `free` workers, of which the first stands at `position`. A job that does not end
keeps its worker, and without a free worker no job is started. -/
def work : (free position : Nat) → List (Job World) → World → Work World
  | _, _, [], world => ⟨[], [], world⟩
  | 0, _, _ :: _, world => ⟨[], [], world⟩
  | free + 1, position, job :: jobs, world =>
    match job world with
    | (none, world) =>
      -- The worker never comes back for the next job.
      let rest := work free (position + 1) jobs world
      { rest with started := position :: rest.started }
    | (some attempt, world) =>
      let rest := work (free + 1) (position + 1) jobs world
      { rest with
        started := position :: rest.started
        reports := .report position attempt.guarded :: rest.reports }

/-- A pool of workers with a watchdog (`RayonExecutor`). -/
structure Pool where
  /-- The number of workers; none stands for as many as are needed. -/
  workers : Nat
  /-- The time for a phase, in milliseconds. The clock of the system must be able to hold the point
  in time that lies so far ahead: a timeout beyond its range breaks the pool down at the start of a
  phase, even of one without jobs, and is left out here. -/
  timeout : Nat
  deriving DecidableEq

/-- The executor that hands jobs to a pool (`run_all`). The watchdog fires once no more reports are
to come. -/
def Pool.executor (pool : Pool) : Executor World := fun _ jobs world =>
  -- One worker a job is as many as a phase can use.
  let workers := if pool.workers = 0 then jobs.length else pool.workers
  let done := work workers 0 jobs world
  let gathered := gather (List.replicate jobs.length none) jobs.length (done.reports ++ [.watchdog])
  { outcomes := gathered.slots
    started := done.started
    watchdog? := if gathered.fired then some (pool.timeout, gathered.missing) else none
    world := done.world }

theorem sequential_started (phase : Phase) (jobs : List (Job World)) (world : World) :
    (Executor.sequential phase jobs world).started = List.range jobs.length := by
  have key : ∀ (jobs : List (Job World)) (position : Nat) (world : World),
      (runInOrder position jobs world).started = List.range' position jobs.length := by
    intro jobs
    induction jobs with
    | nil => intro _ _; rfl
    | cons job jobs ih =>
      intro position world
      simp only [runInOrder, ih, List.length_cons, List.range'_succ]
  simp only [Executor.sequential, key, List.range_eq_range']

theorem length_gather (slots : List Slot) (missing : Nat) (signals : List Signal) :
    (gather slots missing signals).slots.length = slots.length := by
  induction signals generalizing slots missing with
  | nil => rfl
  | cons signal rest ih =>
    simp only [gather]
    split
    · rfl
    · split
      · rfl
      · rw [ih, List.length_set]

end RouterConfig
