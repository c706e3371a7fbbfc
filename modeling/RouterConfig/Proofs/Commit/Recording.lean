import Mathlib.Data.List.Perm.Subperm
import RouterConfig.Proofs.Commit.Outcome
import RouterConfig.Proofs.Keyed.Lookup

/-!
# RouterConfig — modules that record the calls to them

The journal of a commit says which calls the engine means to make, and for the two phases of an
executor it says which positions the executor claims to have started. Neither is evidence of a call.
Evidence is a module that records what it receives: `Module.recording` does what a module does, and
adds to a log in the world which of its four functions was called, and with what. The log is written
by the job itself while it runs, so a job that calls the wrong function, or that is handed another
task's configuration, shows in it.

An executor sees jobs as functions on the world, and running them is all that it can do to it.
`Executor.RunsOnce` says this of an executor that runs no job twice; it says nothing of what the
executor answers.

Main results:

* `collect_recorded` — selecting (`resolve_tasks`) makes one call of `get_config` per candidate, and
  makes a task of each candidate whose call has returned a configuration;
* `verifyAll_recorded` — verifying makes one call of `verify` per task, and has no failures if and
  only if each call has accepted;
* `fanOut_recorded` — an executor makes at most one call per task, whatever it answers;
* `sequential_tellsRuns`, `Pool.tellsRuns` — the two executors run each job once at most, and start
  the jobs that they claim to start.
-/

namespace RouterConfig

variable {World Dict : Type}

/-! ## Calls as a module receives them -/

/-- A call to a module, as the module receives it. The first two functions run on the committing
thread and hand over how they have ended; the other two end in an executor's hands. -/
inductive Received (Dict : Type) where
  | getConfig (context : Context) (answer : Attempt Dict)
  | verify (config : Dict) (verdict : Attempt Unit)
  | generate (config : Dict)
  | apply (config : Dict)

/-- A call in the log: the owner whose module was called, and what the module received. -/
abbrev LogEntry (Dict : Type) := String × Received Dict

/-- A world with the log of all calls to modules so far. -/
abbrev Recorded (World Dict : Type) := World × List (LogEntry Dict)

/-- A job that is logged when it runs. -/
def Job.recording (entry : LogEntry Dict) (job : Job World) : Job (Recorded World Dict) :=
  fun world => ((job world.1).1, (job world.1).2, world.2 ++ [entry])

/-- The module of an owner that logs each call to it, and otherwise does the same. -/
def Module.recording (owner : String) (m : Module World Dict) :
    Module (Recorded World Dict) Dict where
  getConfig context world :=
    let collected := m.getConfig context world.1
    ⟨collected.attempt, collected.session, collected.world,
      world.2 ++ [(owner, .getConfig context collected.attempt)]⟩
  verify config world :=
    let verified := m.verify config world.1
    (verified.1, verified.2, world.2 ++ [(owner, .verify config verified.1)])
  generate config := (m.generate config).recording (owner, .generate config)
  apply config := (m.apply config).recording (owner, .apply config)

/-- The registered modules, each of which logs the calls to it under the owner that it is registered
for. -/
def recording (modules : Modules World Dict) : Modules (Recorded World Dict) Dict :=
  modules.map fun entry => (entry.1, entry.2.recording entry.1)

/-- The candidate's module logs the calls to it under the candidate's owner. -/
def Candidate.Records (c : Candidate (Recorded World Dict) Dict) : Prop :=
  ∃ m : Module World Dict, c.module = m.recording c.name.owner

/-- The task's module logs the calls to it under the task's owner. -/
def Task.Records (task : Task (Recorded World Dict) Dict) : Prop :=
  ∃ m : Module World Dict, task.module = m.recording task.name.owner

/-- With registered modules that log, every candidate has one. -/
theorem records_of_mem_candidates {schema : Schema} {modules : Modules World Dict} {running : Tree}
    {session : Session} {c : Candidate (Recorded World Dict) Dict}
    (hc : c ∈ candidates schema (recording modules) running session) : c.Records := by
  have hregistered := module_of_mem_candidates hc
  rw [recording, Keyed.get?_map fun owner (m : Module World Dict) => m.recording owner]
    at hregistered
  obtain ⟨m, -, hm⟩ := Option.map_eq_some_iff.mp hregistered
  exact ⟨m, hm.symm⟩

/-! ## Selecting -/

/-- A candidate whose module has been asked for its configuration: what the module was shown, and
how the call has ended. -/
structure Asked (Dict : Type) where
  name : TaskName
  context : Context
  answer : Attempt Dict

/-- A task by its name, with the configuration that it takes through the later phases. -/
structure Configured (Dict : Type) where
  name : TaskName
  config : Dict

/-- What a task is, whatever module it belongs to. -/
def Task.configured (task : Task World Dict) : Configured Dict := ⟨task.name, task.config⟩

namespace Asked

/-- The call of `get_config` in the log. -/
def entry (a : Asked Dict) : LogEntry Dict := (a.name.owner, .getConfig a.context a.answer)

/-- The task that a candidate becomes: only a returned configuration makes one. -/
def configured? (a : Asked Dict) : Option (Configured Dict) :=
  match a.answer with
  | .value config => some ⟨a.name, config⟩
  | .failed _ | .panicked _ => none

/-- The failure that a candidate is dropped with: what the module says, or that it panicked. -/
def dropped? (a : Asked Dict) : Option Error :=
  match a.answer with
  | .value _ => none
  | .failed cause => some (a.name.failure .selecting cause)
  | .panicked text? => some (a.name.failure .selecting
      (.moduleFault ("module panicked: " ++ text?.getD "unknown panic payload")))

end Asked

/-- What selecting has done, from the world before it: each candidate has been asked once, with the
session's cursor at the root, and those that returned a configuration are the tasks. -/
structure AsksAll (schema : Schema) (running : Tree)
    (cs : List (Candidate (Recorded World Dict) Dict))
    (before : Recorded World Dict) (selection : Selection (Recorded World Dict) Dict)
    (asked : List (Asked Dict)) : Prop where
  log : selection.world.2 = before.2 ++ asked.map Asked.entry
  names : asked.map Asked.name = cs.map Candidate.name
  shown : ∀ a ∈ asked, a.context.schema = schema ∧ a.context.running = running ∧
    a.context.instanceName = a.name.instanceName ∧ a.context.session.level = []
  tasks : selection.tasks.map Task.configured = asked.filterMap Asked.configured?
  dropped : selection.dropped = asked.filterMap Asked.dropped?
  records : ∀ task ∈ selection.tasks, task.Records

/-- Selecting makes one call of `get_config` per candidate, in their order. -/
theorem collect_recorded (schema : Schema) (running : Tree)
    {cs : List (Candidate (Recorded World Dict) Dict)} (hcs : ∀ c ∈ cs, c.Records)
    (session : Session) (world : Recorded World Dict) :
    ∃ asked, AsksAll schema running cs world (collect schema running cs session world) asked := by
  -- on the candidates: the log grows by one entry for each, in their order
  induction cs generalizing session world with
  | nil => exact ⟨[], (List.append_nil _).symm, rfl, by simp, rfl, rfl, by simp [collect]⟩
  | cons c rest ih =>
    obtain ⟨m, hm⟩ := hcs c (List.mem_cons_self ..)
    -- the module of the first candidate is called, and hands its session and world to the next
    generalize hcontext : (⟨schema, running, c.name.instanceName, session.resetLevel⟩ : Context) =
      context
    have hcall : c.module.getConfig context world =
        ⟨(m.getConfig context world.1).attempt, (m.getConfig context world.1).session,
          (m.getConfig context world.1).world, world.2 ++ [(c.name.owner,
            .getConfig context (m.getConfig context world.1).attempt)]⟩ := by
      rw [hm]
      rfl
    obtain ⟨asked, hasked⟩ := ih (fun d hd => hcs d (List.mem_cons_of_mem _ hd))
      (c.module.getConfig context world).session (c.module.getConfig context world).world
    have hlog := hasked.log
    rw [collect, hcontext]
    dsimp only
    generalize collect schema running rest (c.module.getConfig context world).session
      (c.module.getConfig context world).world = later at hasked hlog ⊢
    rw [hcall] at hlog ⊢
    generalize (m.getConfig context world.1).attempt = answer at hlog ⊢
    -- the call stands in the log before those of the later candidates, however it has ended
    have hwhole : later.world.2 =
        world.2 ++ ((⟨c.name, context, answer⟩ : Asked Dict) :: asked).map Asked.entry := by
      rw [hlog, List.append_assoc]
      rfl
    have hnames : ((⟨c.name, context, answer⟩ : Asked Dict) :: asked).map Asked.name =
        (c :: rest).map Candidate.name := congrArg (c.name :: ·) hasked.names
    have hshown : ∀ a ∈ (⟨c.name, context, answer⟩ : Asked Dict) :: asked,
        a.context.schema = schema ∧ a.context.running = running ∧
          a.context.instanceName = a.name.instanceName ∧ a.context.session.level = [] :=
      List.forall_mem_cons.mpr ⟨hcontext ▸ ⟨rfl, rfl, rfl, rfl⟩, hasked.shown⟩
    refine ⟨⟨c.name, context, answer⟩ :: asked, ?_⟩
    -- an answer makes a task, anything else is noted as a candidate that was dropped
    cases answer with
    | value config =>
      refine ⟨hwhole, hnames, hshown, ?_, hasked.dropped,
        List.forall_mem_cons.mpr ⟨⟨m, hm⟩, hasked.records⟩⟩
      exact congrArg (⟨c.name, config⟩ :: ·) hasked.tasks
    | failed cause =>
      exact ⟨hwhole, hnames, hshown, hasked.tasks, congrArg (_ :: ·) hasked.dropped, hasked.records⟩
    | panicked text? =>
      exact ⟨hwhole, hnames, hshown, hasked.tasks, congrArg (_ :: ·) hasked.dropped, hasked.records⟩

/-! ## Verifying -/

/-- A task whose module has been asked to verify it, with the verdict. -/
structure Verified (Dict : Type) where
  task : Configured Dict
  verdict : Attempt Unit

/-- The call of `verify` in the log. -/
def Verified.entry (v : Verified Dict) : LogEntry Dict :=
  (v.task.name.owner, .verify v.task.config v.verdict)

/-- Verifying makes one call of `verify` per task, in their order and with the configuration of the
task. It goes on behind a rejection, and has no failures if and only if there was none. -/
theorem verifyAll_recorded {tasks : List (Task (Recorded World Dict) Dict)}
    (htasks : ∀ task ∈ tasks, task.Records) (world : Recorded World Dict) :
    ∃ verified : List (Verified Dict),
      (verifyAll tasks world).world.2 = world.2 ++ verified.map Verified.entry ∧
      verified.map Verified.task = tasks.map Task.configured ∧
      ((verifyAll tasks world).failures = [] ↔ ∀ v ∈ verified, v.verdict = .value ()) := by
  -- on the tasks; the verdicts are in the log in the order of the tasks
  induction tasks generalizing world with
  | nil => exact ⟨[], (List.append_nil _).symm, rfl, by simp [verifyAll]⟩
  | cons task rest ih =>
    obtain ⟨m, hm⟩ := htasks task (List.mem_cons_self ..)
    have hcall : task.module.verify task.config world =
        ((m.verify task.config world.1).1, (m.verify task.config world.1).2, world.2 ++
          [(task.name.owner, .verify task.config (m.verify task.config world.1).1)]) := by
      rw [hm]
      rfl
    rw [verifyAll, hcall]
    generalize (m.verify task.config world.1).1 = verdict
    dsimp only
    obtain ⟨verified, hlog, hsame, hfailures⟩ := ih
      (fun other hother => htasks other (List.mem_cons_of_mem _ hother))
      ((m.verify task.config world.1).2,
        world.2 ++ [(task.name.owner, .verify task.config verdict)])
    generalize verifyAll rest _ = later at hlog hfailures ⊢
    refine ⟨⟨task.configured, verdict⟩ :: verified, ?_, congrArg (_ :: ·) hsame, ?_⟩
    · have hwhole : later.world.2 = world.2 ++
          ((⟨task.configured, verdict⟩ : Verified Dict) :: verified).map Verified.entry := by
        rw [hlog, List.append_assoc]
        rfl
      cases verdict <;> exact hwhole
    · rw [List.forall_mem_cons]
      -- a verdict that is no acceptance is a failure, whatever the later ones are
      cases verdict with
      | value accepted => exact hfailures.trans ⟨fun h => ⟨rfl, h⟩, fun h => h.2⟩
      | failed cause => simp [Attempt.guarded]
      | panicked text? => simp [Attempt.guarded]

/-! ## Executors -/

/-- The world after the jobs at some positions have run, in that order. A position without a job
leaves it as it is. -/
def runAt (jobs : List (Job World)) (positions : List Nat) (world : World) : World :=
  positions.foldl
    (fun world position =>
      match jobs[position]? with
      | some job => (job world).2
      | none => world)
    world

/-- An executor that runs each job once at most (`run_all`): what it does to the world is what some
of the jobs do to it, in some order. It may answer what it likes. -/
def Executor.RunsOnce (executor : Executor World) : Prop :=
  ∀ phase jobs world, ∃ positions : List Nat, positions.Nodup ∧
    (executor phase jobs world).world = runAt jobs positions world

/-- An executor that runs each job once at most, and just those that it claims to start. -/
def Executor.TellsRuns (executor : Executor World) : Prop :=
  ∀ phase jobs world, (executor phase jobs world).started.Nodup ∧
    (executor phase jobs world).world = runAt jobs (executor phase jobs world).started world

theorem Executor.TellsRuns.runsOnce {executor : Executor World} (h : executor.TellsRuns) :
    executor.RunsOnce :=
  fun phase jobs world => ⟨_, h phase jobs world⟩

theorem runAt_cons {jobs : List (Job World)} {position : Nat} {job : Job World}
    (hjob : jobs[position]? = some job) (positions : List Nat) (world : World) :
    runAt jobs (position :: positions) world = runAt jobs positions (job world).2 := by
  rw [runAt, List.foldl_cons, hjob]
  rfl

/-- All positions of a list give the list. -/
theorem filterMap_getElem?_range {α : Type} (l : List α) :
    ((List.range l.length).filterMap fun position => l[position]?) = l := by
  induction l with
  | nil => rfl
  | cons a rest ih =>
    rw [List.length_cons, List.range_succ_eq_map, List.filterMap_cons, List.filterMap_map]
    exact congrArg (a :: ·) ih

/-- Different positions of a list hold no more than the list does. -/
theorem filterMap_getElem?_subperm {α : Type} (l : List α) {positions : List Nat}
    (h : positions.Nodup) : (positions.filterMap fun position => l[position]?).Subperm l := by
  -- positions past the end hold nothing
  have hinside : ((positions.filter (· < l.length)).filterMap fun position => l[position]?) =
      positions.filterMap fun position => l[position]? := by
    rw [List.filterMap_filter]
    refine List.filterMap_congr fun position _ => ?_
    by_cases hposition : position < l.length <;> simp [hposition]
  have hpositions : (positions.filter (· < l.length)).Subperm (List.range l.length) := by
    refine List.subperm_of_subset (h.filter _) fun position hposition => ?_
    rw [List.mem_range]
    simpa using (List.mem_filter.mp hposition).2
  -- the positions inside are some of all positions, in another order
  obtain ⟨reordered, hperm, hsublist⟩ := hpositions
  have hsome := hsublist.filterMap fun position => l[position]?
  rw [filterMap_getElem?_range] at hsome
  exact ⟨_, hinside ▸ hperm.filterMap _, hsome⟩

/-- Jobs that log an entry each leave in the log the entries of those that run. -/
theorem runAt_log {α : Type} {tasks : List α} {job : α → Job (Recorded World Dict)}
    {entry : α → LogEntry Dict}
    (hjob : ∀ task ∈ tasks, ∀ world, (job task world).2.2 = world.2 ++ [entry task])
    (positions : List Nat) (world : Recorded World Dict) :
    (runAt (tasks.map job) positions world).2 =
      world.2 ++ (positions.filterMap fun position => tasks[position]?).map entry := by
  -- on the positions: one that stands for no task runs nothing and logs nothing
  induction positions generalizing world with
  | nil => exact (List.append_nil _).symm
  | cons position rest ih =>
    cases htask : tasks[position]? with
    | none =>
      have hnone : (tasks.map job)[position]? = none := by rw [List.getElem?_map, htask]; rfl
      rw [List.filterMap_cons, htask, ← ih world, runAt, List.foldl_cons, hnone]
      rfl
    | some task =>
      have hsome : (tasks.map job)[position]? = some (job task) := by
        rw [List.getElem?_map, htask]
        rfl
      rw [runAt_cons hsome, ih, hjob task (List.mem_of_getElem? htask), List.filterMap_cons, htask,
        List.map_cons, List.append_assoc]
      rfl

/-- The call in the log that a task's job makes in a phase of an executor. -/
def Configured.entry (phase : Phase) (task : Configured Dict) : LogEntry Dict :=
  match phase with
  | .applying => (task.name.owner, .apply task.config)
  | _ => (task.name.owner, .generate task.config)

/-- A task's job calls the function of its phase, with the task's configuration. -/
theorem job_log {task : Task (Recorded World Dict) Dict} (h : task.Records) (phase : Phase)
    (world : Recorded World Dict) :
    (task.job phase world).2.2 = world.2 ++ [task.configured.entry phase] := by
  obtain ⟨m, hm⟩ := h
  unfold Task.job
  rw [hm]
  cases phase <;> rfl

/-- An executor that runs each job once at most makes at most one call per task in a phase: that of
the phase, with the task's configuration. -/
theorem fanOut_recorded {executor : Executor (Recorded World Dict)} (hOnce : executor.RunsOnce)
    (phase : Phase) {tasks : List (Task (Recorded World Dict) Dict)}
    (htasks : ∀ task ∈ tasks, task.Records) (world : Recorded World Dict) :
    ∃ called : List (Configured Dict), called.Subperm (tasks.map Task.configured) ∧
      (fanOut phase executor tasks world).world.2 =
        world.2 ++ called.map (Configured.entry phase) := by
  obtain ⟨positions, hnodup, hworld⟩ := hOnce phase (tasks.map fun task => task.job phase) world
  obtain ⟨reordered, hperm, hsublist⟩ := filterMap_getElem?_subperm tasks hnodup
  refine ⟨(positions.filterMap fun position => tasks[position]?).map Task.configured,
    ⟨_, hperm.map _, hsublist.map _⟩, ?_⟩
  rw [fanOut]
  dsimp only
  rw [hworld, runAt_log (fun task htask world => job_log (htasks task htask) phase world),
    List.map_map]
  rfl

/-! ## The executors that there are -/

/-- Running jobs one after the other runs each of them, behind others that stand before. -/
private theorem runInOrder_world (before jobs : List (Job World)) (world : World) :
    (runInOrder before.length jobs world).world =
      runAt (before ++ jobs) (runInOrder before.length jobs world).started world := by
  induction jobs generalizing before world with
  | nil => rfl
  | cons job jobs ih =>
    have hjob : (before ++ job :: jobs)[before.length]? = some job := by simp
    have hrest := ih (before ++ [job]) (job world).2
    rw [List.length_append, List.length_singleton, List.append_assoc,
      List.singleton_append] at hrest
    rw [runInOrder]
    dsimp only
    rw [runAt_cons hjob]
    exact hrest

theorem sequential_tellsRuns : (Executor.sequential : Executor World).TellsRuns := by
  intro phase jobs world
  refine ⟨?_, runInOrder_world [] jobs world⟩
  rw [sequential_started]
  exact List.nodup_range

/-- A position in front of those that come after it. -/
private theorem started_cons {position : Nat} {started : List Nat}
    (h : started.Pairwise (· < ·) ∧ ∀ taken ∈ started, position + 1 ≤ taken) :
    (position :: started).Pairwise (· < ·) ∧ ∀ taken ∈ position :: started, position ≤ taken := by
  refine ⟨List.pairwise_cons.mpr ⟨fun taken htaken => h.2 taken htaken, h.1⟩, ?_⟩
  intro taken htaken
  rcases List.mem_cons.mp htaken with rfl | htaken
  · exact Nat.le_refl _
  · exact Nat.le_of_succ_le (h.2 taken htaken)

/-- Workers take the jobs in their order. -/
theorem work_started (free position : Nat) (jobs : List (Job World)) (world : World) :
    (work free position jobs world).started.Pairwise (· < ·) ∧
      ∀ taken ∈ (work free position jobs world).started, position ≤ taken := by
  fun_induction work free position jobs world with
  | case1 => exact ⟨List.Pairwise.nil, by simp⟩
  | case2 => exact ⟨List.Pairwise.nil, by simp⟩
  -- a job is taken whether or not its worker comes back
  | case3 _ _ _ _ _ _ _ _ ih => exact started_cons ih
  | case4 _ _ _ _ _ _ _ _ _ ih => exact started_cons ih

/-- Workers run the jobs that they take, behind others that stand before. -/
private theorem work_world (free : Nat) (before jobs : List (Job World)) (world : World) :
    (work free before.length jobs world).world =
      runAt (before ++ jobs) (work free before.length jobs world).started world := by
  induction jobs generalizing free before world with
  | nil => cases free <;> rfl
  | cons job jobs ih =>
    cases free with
    | zero => rfl
    | succ free =>
      have hjob : (before ++ job :: jobs)[before.length]? = some job := by simp
      have hrest (free : Nat) := ih free (before ++ [job]) (job world).2
      simp only [List.length_append, List.length_singleton, List.append_assoc,
        List.singleton_append] at hrest
      rw [work]
      -- whether or not the job ends decides only how many workers are left for the rest
      split
      · next world' hended =>
        obtain rfl : (job world).2 = world' := by rw [hended]
        dsimp only
        rw [runAt_cons hjob]
        exact hrest free
      · next attempt world' hended =>
        obtain rfl : (job world).2 = world' := by rw [hended]
        dsimp only
        rw [runAt_cons hjob]
        exact hrest (free + 1)

theorem Pool.tellsRuns (pool : Pool) : (pool.executor : Executor World).TellsRuns := by
  intro phase jobs world
  have hstarted := (work_started (if pool.workers = 0 then jobs.length else pool.workers) 0 jobs
    world).1
  exact ⟨List.nodup_iff_pairwise_ne.mpr (hstarted.imp Nat.ne_of_lt), work_world _ [] jobs world⟩

end RouterConfig
