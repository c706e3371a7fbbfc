import RouterConfig.Proofs.Commit.Accounting
import RouterConfig.Proofs.Commit.Recording
import RouterConfig.Proofs.Host.Run

/-!
# RouterConfig — barriers between the phases of a commit

A commit (`run_phases`) calls modules in four phases, and a phase begins only after the one before
it has gone well for every task. The calls are taken from the log that recording modules keep, so
what is shown here is which functions of which modules have run, with which configurations, and not
what the engine says of it. The modules are any, and so is the executor, as long as it runs each job
once at most: it may lose jobs, run them in any order, and answer outcomes that have nothing to do
with how the jobs have ended.

Main results:

* `Store.Takes` — what the calls of a commit and its report are held to;
* `Host.commit_in_phases` — every commit keeps to it;
* `Host.journal_tells_calls` — the journal of a commit tells the calls that are in the log, for an
  executor that starts the jobs that it claims to start.
-/

namespace RouterConfig

variable {World Dict : Type}

/-! ## The calls of a commit -/

/-- All calls of one commit, by the phase that makes them. -/
structure Course (Dict : Type) where
  asked : List (Asked Dict)
  verified : List (Verified Dict)
  generated : List (Configured Dict)
  applied : List (Configured Dict)

namespace Course

/-- The calls as they stand in the log, one phase behind the other. -/
def log (course : Course Dict) : List (LogEntry Dict) :=
  course.asked.map Asked.entry ++ course.verified.map Verified.entry ++
    course.generated.map (fun task => (task.name.owner, .generate task.config)) ++
    course.applied.map (fun task => (task.name.owner, .apply task.config))

/-- The tasks: the candidates whose call of `get_config` has returned a configuration, each with the
configuration that its own call has returned. -/
def tasks (course : Course Dict) : List (Configured Dict) :=
  course.asked.filterMap Asked.configured?

/-- The failures of the other candidates. -/
def dropped (course : Course Dict) : List Error := course.asked.filterMap Asked.dropped?

/-- Every call of `verify` has accepted. -/
def AllVerified (course : Course Dict) : Prop := ∀ v ∈ course.verified, v.verdict = .value ()

end Course

namespace Store

/-- What the executor makes of the generating phase: it is handed, for each task, the job that calls
`generate` of its module. -/
def generating (store : Store World Dict) (session : Session) : Batch World :=
  store.executor .generating
    ((store.select session).tasks.map fun task => task.module.generate task.config)
    (store.verified session).world

/-- What the executor makes of the applying phase. -/
def applying (store : Store World Dict) (session : Session) : Batch World :=
  store.executor .applying
    ((store.select session).tasks.map fun task => task.module.apply task.config)
    (store.generated session).world

/-- How far a commit goes, and the state in which it ends: a phase begins only after those before it
have gone well, and the first phase that has not puts an end to the commit. -/
inductive Ends (store : Store World Dict) (session : Session) (course : Course Dict) :
    CommitState → Prop where
  | unverified : ¬ course.AllVerified → course.generated = [] → course.applied = [] →
    Ends store session course (.aborted .verifying)
  | ungenerated : course.AllVerified →
    ¬ AllDone course.tasks.length (store.generating session).outcomes → course.applied = [] →
    Ends store session course (.aborted .generating)
  | unapplied : course.AllVerified →
    AllDone course.tasks.length (store.generating session).outcomes →
    ¬ AllDone course.tasks.length (store.applying session).outcomes →
    Ends store session course (.aborted .applying)
  | promoted : course.AllVerified →
    AllDone course.tasks.length (store.generating session).outcomes →
    AllDone course.tasks.length (store.applying session).outcomes →
    Ends store session course .promoted

/-- What the calls of a commit and its report are held to. -/
structure Takes (store : Store World Dict) (session : Session) (course : Course Dict)
    (report : Report) : Prop where
  /-- One call of `get_config` per candidate, in the order of the candidates. -/
  asked : course.asked.map Asked.name = (store.candidates session).map Candidate.name
  /-- Each of them is shown the instance of its candidate, with the cursor at the root. -/
  shown : ∀ a ∈ course.asked, a.context.schema = store.schema ∧ a.context.running = store.running ∧
    a.context.instanceName = a.name.instanceName ∧ a.context.session.level = []
  /-- One call of `verify` per task, in the order of the tasks, also behind a rejection. -/
  verified : course.verified.map Verified.task = course.tasks
  /-- At most one call of `generate` per task. -/
  generated : course.generated.Subperm course.tasks
  /-- At most one call of `apply` per task. -/
  applied : course.applied.Subperm course.tasks
  ends : store.Ends session course report.state
  tasks : report.tasks = course.tasks.map Configured.name
  dropped : report.dropped = course.dropped

/-! ## A commit, phase by phase -/

theorem fanOut_failures_eq_nil_iff (phase : Phase) (executor : Executor World)
    (tasks : List (Task World Dict)) (world : World) :
    (fanOut phase executor tasks world).failures = [] ↔
      AllDone tasks.length
        (executor phase (tasks.map fun task => task.job phase) world).outcomes := by
  rw [fanOut, phaseFailures_eq_nil_iff, List.length_map]

theorem generated_failures_eq_nil_iff (store : Store World Dict) (session : Session) :
    (store.generated session).failures = [] ↔
      AllDone (store.select session).tasks.length (store.generating session).outcomes :=
  fanOut_failures_eq_nil_iff ..

theorem applied_failures_eq_nil_iff (store : Store World Dict) (session : Session) :
    (store.applied session).failures = [] ↔
      AllDone (store.select session).tasks.length (store.applying session).outcomes :=
  fanOut_failures_eq_nil_iff ..

/-- The log after each phase, where modules record: what selecting, verifying, generating and
applying have called, if the commit gets that far. -/
structure PhaseLogs (store : Store (Recorded World Dict) Dict) (session : Session)
    (course : Course Dict) : Prop where
  selected : AsksAll store.schema store.running (store.candidates session) store.world
    (store.select session) course.asked
  verified : (store.verified session).world.2 =
    store.world.2 ++ ({ course with generated := [], applied := [] } : Course Dict).log
  generated : (store.generated session).world.2 =
    store.world.2 ++ ({ course with applied := [] } : Course Dict).log
  applied : (store.applied session).world.2 = store.world.2 ++ course.log
  verifiedTasks : course.verified.map Verified.task = course.tasks
  generatedTasks : course.generated.Subperm course.tasks
  appliedTasks : course.applied.Subperm course.tasks
  accepted_iff : (store.verified session).failures = [] ↔ course.AllVerified

/-- The log of every commit splits into the parts of its four phases, whatever the executor does
with the jobs. -/
theorem exists_phaseLogs (store : Store (Recorded World Dict) Dict) {modules : Modules World Dict}
    (hModules : store.modules = recording modules) (hOnce : store.executor.RunsOnce)
    (session : Session) : ∃ course, store.PhaseLogs session course := by
  have hcandidates : ∀ c ∈ store.candidates session, c.Records := by
    intro c hc
    rw [candidates, hModules] at hc
    exact records_of_mem_candidates hc
  -- the course is put together phase by phase, each from the log as the phase before left it
  obtain ⟨asked, hasked⟩ := collect_recorded store.schema store.running hcandidates
    session.resetLevel store.world
  have hselected : AsksAll store.schema store.running (store.candidates session) store.world
      (store.select session) asked := ⟨hasked.log, hasked.names, hasked.shown, hasked.tasks,
    hasked.dropped, hasked.records⟩
  -- each phase adds its calls to the log that the phase before has left
  obtain ⟨verified, hverified, hverifiedTasks, haccepted⟩ :=
    verifyAll_recorded hselected.records (store.select session).world
  obtain ⟨generated, hgeneratedTasks, hgenerated⟩ :=
    fanOut_recorded hOnce .generating hselected.records (store.verified session).world
  obtain ⟨applied, happliedTasks, happlied⟩ :=
    fanOut_recorded hOnce .applying hselected.records (store.generated session).world
  rw [hselected.tasks] at hverifiedTasks hgeneratedTasks happliedTasks
  have hlog : (store.verified session).world.2 = store.world.2 ++
      (asked.map Asked.entry ++ verified.map Verified.entry) := by
    rw [← List.append_assoc, ← hselected.log]
    exact hverified
  have hlog' : (store.generated session).world.2 = store.world.2 ++
      (asked.map Asked.entry ++ verified.map Verified.entry ++
        generated.map (Configured.entry .generating)) := by
    rw [← List.append_assoc, ← hlog]
    exact hgenerated
  have hlog'' : (store.applied session).world.2 = store.world.2 ++
      (asked.map Asked.entry ++ verified.map Verified.entry ++
        generated.map (Configured.entry .generating) ++
        applied.map (Configured.entry .applying)) := by
    rw [← List.append_assoc, ← hlog']
    exact happlied
  refine ⟨⟨asked, verified, generated, applied⟩, hselected, ?_, ?_, hlog'', hverifiedTasks,
    hgeneratedTasks, happliedTasks, haccepted⟩
  · rw [hlog, Course.log, List.map_nil, List.map_nil, List.append_nil, List.append_nil]
  · rw [hlog', Course.log, List.map_nil, List.append_nil]
    rfl

/-- With modules that record, a commit through all phases makes the calls that it is held to. -/
theorem runPhases_takes (store : Store (Recorded World Dict) Dict) {modules : Modules World Dict}
    (hModules : store.modules = recording modules) (hOnce : store.executor.RunsOnce)
    (session : Session) :
    ∃ course, (store.runPhases session).store.world.2 = store.world.2 ++ course.log ∧
      store.Takes session course (store.runPhases session).report := by
  obtain ⟨course, hlogs⟩ := store.exists_phaseLogs hModules hOnce session
  have hselected := hlogs.selected
  -- a task bears the name its candidate had, so the tasks of the course are those of the store
  have hnames : (store.select session).tasks.map Task.name =
      course.tasks.map Configured.name := by
    rw [Course.tasks, ← hselected.tasks, List.map_map]
    rfl
  have hlength : (store.select session).tasks.length = course.tasks.length := by
    rw [Course.tasks, ← hselected.tasks, List.length_map]
  have hgenerated := hlength ▸ store.generated_failures_eq_nil_iff session
  have happlied := hlength ▸ store.applied_failures_eq_nil_iff session
  -- a phase that is not reached makes no calls, so its part of the course is dropped
  by_cases hv : (store.verified session).failures = []
  · have hAll := hlogs.accepted_iff.mp hv
    by_cases hg : (store.generated session).failures = []
    · by_cases ha : (store.applied session).failures = []
      · rw [runPhases_of_applied hv hg ha]
        exact ⟨course, hlogs.applied, hselected.names, hselected.shown, hlogs.verifiedTasks,
          hlogs.generatedTasks, hlogs.appliedTasks,
          .promoted hAll (hgenerated.mp hg) (happlied.mp ha), hnames, hselected.dropped⟩
      · rw [runPhases_of_unapplied hv hg ha]
        exact ⟨course, hlogs.applied, hselected.names, hselected.shown, hlogs.verifiedTasks,
          hlogs.generatedTasks, hlogs.appliedTasks,
          .unapplied hAll (hgenerated.mp hg) (ha ∘ happlied.mpr), hnames, hselected.dropped⟩
    · rw [runPhases_of_ungenerated hv hg]
      exact ⟨{ course with applied := [] }, hlogs.generated, hselected.names, hselected.shown,
        hlogs.verifiedTasks, hlogs.generatedTasks, List.nil_subperm,
        .ungenerated hAll (hg ∘ hgenerated.mpr) rfl, hnames, hselected.dropped⟩
  · rw [runPhases_of_unverified hv]
    exact ⟨{ course with generated := [], applied := [] }, hlogs.verified, hselected.names,
      hselected.shown, hlogs.verifiedTasks, List.nil_subperm, List.nil_subperm,
      .unverified (hv ∘ hlogs.accepted_iff.mpr) rfl rfl, hnames, hselected.dropped⟩

end Store

/-- A commit through all phases, whatever its modules do, on an executor that runs each job once at
most and may answer what it likes. The calls to modules, as the modules record them, and the report
fit together:

* the commit answers with a report, never with a failure, whatever calls fail or panic;
* the log gains one call of `get_config` per candidate, in candidate order; then one call of
  `verify` per task, in task order and all of them, with the configuration that the task's own call
  of `get_config` has returned; then, only if each has accepted, calls of `generate`; then, only if
  the executor has answered a success for each task, calls of `apply`; both at most once per task
  and with the task's own configuration; and nothing else;
* the report lists the candidates whose call of `get_config` has returned a configuration as tasks,
  and one failure for each other candidate, both in candidate order, and its state is that of the
  first phase with a failure. -/
theorem Host.commit_in_phases (h : Host (Recorded World Dict) Dict) {modules : Modules World Dict}
    (hModules : h.store.modules = recording modules) (hOnce : h.store.executor.RunsOnce)
    (name : String) :
    ∃ (report : Report) (course : Course Dict),
      (h.perform name (.commit false)).answer = .ok (.report report) ∧
      (h.perform name (.commit false)).host.store.world.2 = h.store.world.2 ++ course.log ∧
      h.store.Takes (h.session name) course report := by
  obtain ⟨course, hlog, hTakes⟩ := h.store.runPhases_takes hModules hOnce (h.session name)
  exact ⟨(h.store.runPhases (h.session name)).report, course, rfl, hlog, hTakes⟩

/-- The phase whose function was called. -/
def Received.phase : Received Dict → Phase
  | getConfig .. => .selecting
  | verify .. => .verifying
  | generate _ => .generating
  | apply _ => .applying

/-- The configuration that a call has received, if it is not the call that collects it. -/
def Received.config? : Received Dict → Option Dict
  | getConfig .. => none
  | verify config _ | generate config | apply config => some config

/-- What the log and a journal both have of a call: owner, phase and configuration. -/
def loggedCall (entry : LogEntry Dict) : String × Phase × Option Dict :=
  (entry.1, entry.2.phase, entry.2.config?)

namespace Sample

/-- A module that panics over the instance `eth1`, refuses to verify one configuration, and fails to
apply another one. -/
def choosy (refused failing : String) : Module Unit String where
  getConfig context world :=
    ⟨if context.instanceName = "eth1" then .panicked none
      else .value ("for " ++ context.instanceName), context.session, world⟩
  verify config world :=
    (if config = refused then .failed (.moduleFault "refused") else .value (), world)
  generate _ world := (some (.value ()), world)
  apply config world :=
    (some (if config = failing then .failed (.moduleFault "no link") else .value ()), world)

/-- An executor that runs the jobs from the last to the first, and answers a success for each of
them whatever they come to. -/
def backwards : Executor (Recorded Unit String) := fun _ jobs world =>
  { outcomes := jobs.map fun _ => some (.ok ())
    started := (List.range jobs.length).reverse
    watchdog? := none
    world := runAt jobs (List.range jobs.length).reverse world }

theorem backwards_runsOnce : backwards.RunsOnce :=
  fun _ jobs _ => ⟨(List.range jobs.length).reverse,
    (List.reverse_perm _).nodup_iff.mpr List.nodup_range, rfl⟩

/-- A host on which three instances and a name wait for their commit. -/
def choosing (refused failing : String) (executor : Executor (Recorded Unit String)) :
    Host (Recorded Unit String) String where
  store :=
    { schema := schema
      modules := recording [("host", choosy refused failing), ("net", choosy refused failing)]
      executor := executor
      keepsBackup := false
      running := .subtree
        [("interface", .subtree [("eth1", .subtree [])])]
      world := ((), []) }
  sessions :=
    [("a", ⟨.subtree
      [("interface", .subtree [("eth0", .subtree []), ("eth2", .subtree [])]),
        ("system", .subtree [("name", .scalar "core")])], ["system"]⟩)]

/-- The commit of the session `a` keeps to its phases; the log has the given calls, and the report
is as given. -/
def Commits (h : Host (Recorded Unit String) String)
    (called : List (String × Phase × Option String))
    (state : CommitState) (names : List TaskName) (dropped : List Error) : Prop :=
  ∃ report course, h.store.executor.RunsOnce ∧
    (h.perform "a" (.commit false)).answer = .ok (.report report) ∧
    (h.perform "a" (.commit false)).host.store.world.2 = h.store.world.2 ++ course.log ∧
    h.store.Takes (h.session "a") course report ∧
    (h.perform "a" (.commit false)).host.store.world.2.map loggedCall = called ∧
    report.state = state ∧ report.tasks = names ∧ report.dropped = dropped

end Sample

/-- Three commits over the same candidates, of which the second module panics while it is asked. In
the first one a task is refused, so every task is verified and nothing is generated. In the second
one the jobs run one after the other and an apply fails. In the third one they run from the last to
the first, and the executor hides the apply that has failed. -/
theorem Host.commit_in_phases_of_choosy :
    let names : List TaskName := [⟨"net", ["interface"], "eth0"⟩, ⟨"net", ["interface"], "eth2"⟩,
      ⟨"host", ["system", "name"], ""⟩]
    let dropped := [Error.module "net" "get_config" ["interface"] (some "eth1")
      "module panicked: unknown panic payload"]
    let checked : List (String × Phase × Option String) :=
      [("net", .selecting, none), ("net", .selecting, none), ("net", .selecting, none),
        ("host", .selecting, none), ("net", .verifying, some "for eth0"),
        ("net", .verifying, some "for eth2"), ("host", .verifying, some "for ")]
    Sample.Commits (Sample.choosing "for eth0" "" .sequential) checked
      (.aborted .verifying) names dropped ∧
    Sample.Commits (Sample.choosing "" "for eth2" .sequential)
      (checked ++ [("net", .generating, some "for eth0"), ("net", .generating, some "for eth2"),
        ("host", .generating, some "for "), ("net", .applying, some "for eth0"),
        ("net", .applying, some "for eth2"), ("host", .applying, some "for ")])
      (.aborted .applying) names dropped ∧
    Sample.Commits (Sample.choosing "" "for eth2" Sample.backwards)
      (checked ++ [("host", .generating, some "for "), ("net", .generating, some "for eth2"),
        ("net", .generating, some "for eth0"), ("host", .applying, some "for "),
        ("net", .applying, some "for eth2"), ("net", .applying, some "for eth0")])
      .promoted names dropped := by
  have hSequential : (Executor.sequential : Executor (Recorded Unit String)).RunsOnce :=
    sequential_tellsRuns.runsOnce
  refine ⟨?_, ?_, ?_⟩
  · obtain ⟨report, course, hanswer, hlog, hTakes⟩ :=
      commit_in_phases (Sample.choosing "for eth0" "" .sequential) rfl hSequential "a"
    obtain rfl := Answer.report.inj (Except.ok.inj hanswer)
    exact ⟨_, course, hSequential, hanswer, hlog, hTakes, rfl, rfl, rfl, rfl⟩
  · obtain ⟨report, course, hanswer, hlog, hTakes⟩ :=
      commit_in_phases (Sample.choosing "" "for eth2" .sequential) rfl hSequential "a"
    obtain rfl := Answer.report.inj (Except.ok.inj hanswer)
    exact ⟨_, course, hSequential, hanswer, hlog, hTakes, rfl, rfl, rfl, rfl⟩
  · obtain ⟨report, course, hanswer, hlog, hTakes⟩ :=
      commit_in_phases (Sample.choosing "" "for eth2" Sample.backwards) rfl
        Sample.backwards_runsOnce "a"
    obtain rfl := Answer.report.inj (Except.ok.inj hanswer)
    exact ⟨_, course, Sample.backwards_runsOnce, hanswer, hlog, hTakes, rfl, rfl, rfl, rfl⟩

/-! ## The journal and the log -/

/-- What the journal has of a call. -/
def Call.told (call : Call Dict) : String × Phase × Option Dict :=
  (call.task.owner, call.phase, call.config?)

/-- What the log gains from one world to a later one is what a journal tells, call by call. -/
def Tells (before after : Recorded World Dict) (journal : List (Event Dict)) : Prop :=
  ∃ entries : List (LogEntry Dict),
    after.2 = before.2 ++ entries ∧ entries.map loggedCall = (calls journal).map Call.told

namespace Tells

variable {before middle after : Recorded World Dict} {first second : List (Event Dict)}

theorem of_no_calls (h : calls first = []) : Tells before before first :=
  ⟨[], (List.append_nil _).symm, by rw [h]; rfl⟩

theorem append (h : Tells before middle first) (h' : Tells middle after second) :
    Tells before after (first ++ second) := by
  obtain ⟨entries, hlog, hcalls⟩ := h
  obtain ⟨entries', hlog', hcalls'⟩ := h'
  refine ⟨entries ++ entries', by rw [hlog', hlog, List.append_assoc], ?_⟩
  rw [List.map_append, hcalls, hcalls', calls_append, List.map_append]

/-- One call in the log for one call in the journal. -/
theorem call {entry : LogEntry Dict} {call : Call Dict} (hlog : middle.2 = before.2 ++ [entry])
    (htold : loggedCall entry = call.told) (h : Tells middle after second) :
    Tells before after (.call call :: second) := by
  have hfirst : Tells before middle [.call call] :=
    ⟨[entry], hlog, congrArg (fun told => [told]) htold⟩
  exact hfirst.append h

/-- Notices do not matter. -/
theorem notice (notice : Notice) (h : Tells before after second) :
    Tells before after (.notice notice :: second) := h

end Tells

/-- What is journaled while the modules are asked tells the calls that their log records. -/
theorem collect_tells (schema : Schema) (running : Tree)
    {cs : List (Candidate (Recorded World Dict) Dict)} (hcs : ∀ c ∈ cs, c.Records)
    (session : Session) (world : Recorded World Dict) :
    Tells world (collect schema running cs session world).world
      (collect schema running cs session world).journal := by
  induction cs generalizing session world with
  | nil => exact .of_no_calls rfl
  | cons c rest ih =>
    obtain ⟨m, hm⟩ := hcs c (List.mem_cons_self ..)
    have hrest := ih (fun d hd => hcs d (List.mem_cons_of_mem _ hd))
    rw [collect, hm]
    -- the call is journaled before the notice that its candidate is dropped
    dsimp only
    split
    · exact .call rfl rfl (hrest ..)
    · exact .call rfl rfl ((hrest ..).notice _)

/-- What is journaled while the tasks are verified tells the calls that the log records. -/
theorem verifyAll_tells {tasks : List (Task (Recorded World Dict) Dict)}
    (htasks : ∀ task ∈ tasks, task.Records) (world : Recorded World Dict) :
    Tells world (verifyAll tasks world).world (verifyAll tasks world).journal := by
  induction tasks generalizing world with
  | nil => exact .of_no_calls rfl
  | cons task rest ih =>
    obtain ⟨m, hm⟩ := htasks task (List.mem_cons_self ..)
    have hrest := ih (fun other hother => htasks other (List.mem_cons_of_mem _ hother))
    rw [verifyAll, hm]
    dsimp only
    split
    · exact .call rfl rfl (hrest _)
    · exact .call rfl rfl ((hrest _).notice _)

/-- A position that is reported as started stands in the journal with the call that its job
makes. -/
theorem startCalls_told {phase : Phase} (hphase : phase = .generating ∨ phase = .applying)
    (tasks : List (Task World Dict)) (started : List Nat) :
    ((started.filterMap fun position => tasks[position]?).map
        fun task => task.configured.entry phase).map loggedCall =
      (calls (started.filterMap (startCall? phase tasks))).map Call.told := by
  rw [calls, List.filterMap_filterMap, List.map_map, List.map_filterMap, List.map_filterMap]
  refine List.filterMap_congr fun position _ => ?_
  rw [startCall?]
  cases tasks[position]? with
  | none => rfl
  | some task => rcases hphase with rfl | rfl <;> rfl

/-- An executor that starts the jobs that it claims to start makes the calls that are journaled. -/
theorem fanOut_tells {executor : Executor (Recorded World Dict)} (hTells : executor.TellsRuns)
    {phase : Phase} (hphase : phase = .generating ∨ phase = .applying)
    {tasks : List (Task (Recorded World Dict) Dict)} (htasks : ∀ task ∈ tasks, task.Records)
    (world : Recorded World Dict) :
    Tells world (fanOut phase executor tasks world).world
      (fanOut phase executor tasks world).journal := by
  have hworld := (hTells phase (tasks.map fun task => task.job phase) world).2
  rw [fanOut]
  dsimp only
  generalize executor phase (tasks.map fun task => task.job phase) world = batch at hworld
  have hlog := runAt_log
    (fun task htask world => job_log (htasks task htask) phase world) batch.started world
  refine ⟨_, by rw [hworld, hlog], (startCalls_told hphase tasks batch.started).trans ?_⟩
  -- a watchdog that fires leaves a notice, which is no call
  refine congrArg (List.map Call.told) ?_
  rw [calls_append]
  cases batch.watchdog? with
  | none => exact (List.append_nil _).symm
  | some fired => exact (List.append_nil _).symm

/-- The journal of a commit tells the calls that modules have recorded, one by one and in their
order, for an executor that starts the jobs that it claims to start. -/
theorem Host.journal_tells_calls (h : Host (Recorded World Dict) Dict)
    {modules : Modules World Dict}
    (hModules : h.store.modules = recording modules) (hTells : h.store.executor.TellsRuns)
    (name : String) :
    Tells h.store.world (h.perform name (.commit false)).host.store.world
      (h.perform name (.commit false)).journal := by
  generalize hstore : h.store = store at hModules hTells
  generalize hsession : h.session name = session
  have hcandidates : ∀ c ∈ store.candidates session, c.Records := by
    intro c hc
    rw [Store.candidates, hModules] at hc
    exact records_of_mem_candidates hc
  -- before the modules are asked there are notices only, and these are no calls
  have hnotices : (calls ((candidateNotices store.schema store.modules store.running
      session.resetLevel).map Event.notice) : List (Call Dict)) = [] := calls_notices id _
  have hselected : Tells store.world (store.select session).world (store.select session).journal :=
    (Tells.of_no_calls hnotices).append
      (collect_tells store.schema store.running hcandidates session.resetLevel store.world)
  obtain ⟨asked, hasked⟩ := collect_recorded store.schema store.running hcandidates
    session.resetLevel store.world
  have hrecords : ∀ task ∈ (store.select session).tasks, task.Records := hasked.records
  have hverified := hselected.append (verifyAll_tells hrecords (store.select session).world)
  have hgenerated := hverified.append
    (fanOut_tells hTells (.inl rfl) hrecords (store.verified session).world)
  have happlied := hgenerated.append
    (fanOut_tells hTells (.inr rfl) hrecords (store.generated session).world)
  -- the notices of an abort are no calls
  have habort : ∀ phase failures,
      (calls (Store.abortNotices phase failures) : List (Call Dict)) = [] := by
    intro phase failures
    rw [Store.abortNotices, calls_append, calls_notices]
    rfl
  suffices hruns : Tells store.world (store.runPhases session).store.world
      (store.runPhases session).journal by
    rw [Host.perform, hstore, hsession]
    exact hruns
  -- an abort adds its notices to what the phases before it have told
  by_cases hv : (store.verified session).failures = []
  · by_cases hg : (store.generated session).failures = []
    · by_cases ha : (store.applied session).failures = []
      · rw [Store.runPhases_of_applied hv hg ha]
        exact happlied
      · rw [Store.runPhases_of_unapplied hv hg ha]
        exact happlied.append (.of_no_calls (habort ..))
    · rw [Store.runPhases_of_ungenerated hv hg]
      exact hgenerated.append (.of_no_calls (habort ..))
  · rw [Store.runPhases_of_unverified hv]
    exact hverified.append (.of_no_calls (habort ..))

end RouterConfig
