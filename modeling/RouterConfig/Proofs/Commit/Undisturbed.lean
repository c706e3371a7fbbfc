import RouterConfig.Proofs.Commit.Accounting
import RouterConfig.Proofs.Commit.Outcome
import RouterConfig.Proofs.Host.Run
import RouterConfig.Proofs.Keyed.Lookup

/-!
# RouterConfig — commits that leave the session alone

A commit moves the cursor of the session, and so may every module that reads it, even one that
breaks down on the way. That every module finds it at the root is shown by modules that write down
the contexts they are given: a commit with these is the same commit, and what they have written down
is one context for each candidate. In the end the session is as it was, and after a promotion there
is nothing left to commit. Main results:

* `Store.commit_watched` — a commit, and what the modules have been shown in it;
* `Store.commit_leaves_edit` — modules that do not edit find the session as it is afterwards;
* `Store.commit_of_unchanged` — without changes nobody is asked;
* `Store.commit_undisturbing` — what a commit is to its session.
-/

namespace RouterConfig

variable {World Dict : Type}

/-- A module that does not edit while it collects: it reads and moves the cursor, and it may fail or
break down. -/
def Module.LeavesEdit (m : Module World Dict) : Prop :=
  ∀ context world, (m.getConfig context world).session.edit = context.session.edit

/-! ## Modules that write down what they are shown -/

/-- The world, and the contexts that modules have been shown so far. -/
abbrev Watched (World : Type) := World × List Context

/-- A job that leaves alone what has been written down. -/
def Job.watched (job : Job World) : Job (Watched World) := fun world =>
  ((job world.1).1, (job world.1).2, world.2)

/-- The module that writes down what it is shown, and otherwise does the same. -/
def Module.watched (m : Module World Dict) : Module (Watched World) Dict where
  getConfig context world :=
    let collected := m.getConfig context world.1
    ⟨collected.attempt, collected.session, collected.world, world.2 ++ [context]⟩
  verify config world := ((m.verify config world.1).1, (m.verify config world.1).2, world.2)
  generate config := Job.watched (m.generate config)
  apply config := Job.watched (m.apply config)

/-- The executor that does with the world what the given one does. -/
def Executor.watched (executor : Executor World) : Executor (Watched World) :=
  fun phase jobs world =>
    let bare := jobs.map fun job world' => ((job (world', world.2)).1, (job (world', world.2)).2.1)
    let batch := executor phase bare world.1
    ⟨batch.outcomes, batch.started, batch.watchdog?, batch.world, world.2⟩

/-- The candidate with the module that writes down what it is shown. -/
def Candidate.watched (c : Candidate World Dict) : Candidate (Watched World) Dict :=
  ⟨c.name, c.module.watched⟩

/-- The task with the module that writes down what it is shown. -/
def Task.watched (task : Task World Dict) : Task (Watched World) Dict :=
  ⟨task.name, task.module.watched, task.config⟩

/-- The selection where modules have written down what they are shown. -/
def Selection.watched (shown : List Context) (s : Selection World Dict) :
    Selection (Watched World) Dict :=
  ⟨s.tasks.map Task.watched, s.dropped, s.session, (s.world, shown), s.journal⟩

/-- The phase where modules have written down what they are shown. -/
def PhaseResult.watched (shown : List Context) (r : PhaseResult World Dict) :
    PhaseResult (Watched World) Dict :=
  ⟨r.failures, (r.world, shown), r.journal⟩

/-- The store with modules that have written down what they are shown. -/
def Store.watched (shown : List Context) (store : Store World Dict) :
    Store (Watched World) Dict where
  schema := store.schema
  modules := store.modules.map fun entry => (entry.1, entry.2.watched)
  executor := store.executor.watched
  keepsBackup := store.keepsBackup
  running := store.running
  world := (store.world, shown)

/-- The commit with modules that have written down what they are shown. -/
def Committed.watched (shown : List Context) (done : Committed World Dict) :
    Committed (Watched World) Dict :=
  ⟨done.report, done.store.watched shown, done.session, done.journal⟩

/-! ## Watching changes nothing -/

/-- Watching the modules changes no candidate but for the module that it carries. -/
theorem candidates_watched (schema : Schema) (modules : Modules World Dict) (running : Tree)
    (session : Session) :
    candidates schema (modules.map fun entry => (entry.1, entry.2.watched)) running session =
      (candidates schema modules running session).map Candidate.watched := by
  rw [candidates, candidates, List.map_flatMap]
  refine List.flatMap_congr fun owned _ => ?_
  rw [candidatesOf, candidatesOf, Keyed.get?_map fun _ => Module.watched]
  split
  · cases Keyed.get? modules owned.owner with
    | none => rfl
    | some m =>
      dsimp only [Option.map_some]
      split
      · rw [List.map_map]
        rfl
      · rfl
  · rfl

/-- Watching the modules changes no notice, since none of them is called for it. -/
theorem candidateNotices_watched (schema : Schema) (modules : Modules World Dict) (running : Tree)
    (session : Session) :
    candidateNotices schema (modules.map fun entry => (entry.1, entry.2.watched)) running session =
      candidateNotices schema modules running session := by
  have hcontains : ∀ owner, Keyed.contains
      (modules.map fun entry => (entry.1, entry.2.watched)) owner =
        Keyed.contains modules owner := by
    intro owner
    rw [Keyed.contains, Keyed.contains, Keyed.get?_map fun _ => Module.watched, Option.isSome_map]
  rw [candidateNotices, candidateNotices]
  refine congrArg (_ ++ ·) (List.filterMap_congr fun owned _ => ?_)
  rw [ownerNotice?, ownerNotice?, hcontains]

/-- Verifying shows no context to anyone, so watching adds nothing to it. -/
theorem verifyAll_watched (tasks : List (Task World Dict)) (world : World)
    (shown : List Context) : verifyAll (tasks.map Task.watched) (world, shown) =
      (verifyAll tasks world).watched shown := by
  induction tasks generalizing world with
  | nil => rfl
  | cons task rest ih =>
    have hrest := ih (task.module.verify task.config world).2
    rw [List.map_cons, verifyAll, verifyAll]
    dsimp only [Task.watched, Module.watched] at hrest ⊢
    rw [hrest]
    cases (task.module.verify task.config world).1.guarded <;> rfl

/-- A fan-out shows no context either: its jobs run on the dicts that were given. -/
theorem fanOut_watched (phase : Phase) (executor : Executor World)
    (tasks : List (Task World Dict)) (world : World) (shown : List Context) :
    fanOut phase executor.watched (tasks.map Task.watched) (world, shown) =
      (fanOut phase executor tasks world).watched shown := by
  -- watching changes what a job's world records, and not what the job does to the rest of it
  have hjob : ∀ task : Task World Dict, task.watched.job phase = Job.watched (task.job phase) := by
    intro task
    cases phase <;> rfl
  have hjobs : (tasks.map Task.watched).map (fun task => task.job phase) =
      (tasks.map fun task => task.job phase).map Job.watched := by
    rw [List.map_map, List.map_map]
    exact List.map_congr_left fun task _ => hjob task
  -- what is written down is in no job's way
  have hbare : ∀ jobs : List (Job World), ((jobs.map Job.watched).map fun job world' =>
      ((job (world', shown)).1, (job (world', shown)).2.1)) = jobs := by
    intro jobs
    rw [List.map_map]
    exact List.map_id jobs
  have hnames : (tasks.map Task.watched).map Task.name = tasks.map Task.name := by
    rw [List.map_map]
    rfl
  have hcalls : startCall? phase (tasks.map Task.watched) = startCall? phase tasks := by
    funext position
    rw [startCall?, startCall?, List.getElem?_map, Option.map_map]
    rfl
  rw [fanOut, fanOut, hjobs, hnames, hcalls, Executor.watched]
  dsimp only
  rw [hbare]
  rfl

/-! ## What modules are shown -/

/-- What a candidate's module is shown of a session. -/
def Candidate.context (schema : Schema) (running : Tree) (session : Session)
    (c : Candidate World Dict) : Context :=
  ⟨schema, running, c.name.instanceName, session⟩

/-- Collecting from modules that do not edit leaves the session at the root, and each module has
been shown the session there. -/
theorem collect_watched (schema : Schema) (running : Tree) {cs : List (Candidate World Dict)}
    (hLeaves : ∀ c ∈ cs, c.module.LeavesEdit) (session : Session) (world : World)
    (shown : List Context) :
    collect schema running (cs.map Candidate.watched) session (world, shown) =
        (collect schema running cs session world).watched
          (shown ++ cs.map (Candidate.context schema running session.resetLevel)) ∧
      (collect schema running cs session world).session = session.resetLevel := by
  induction cs generalizing session world shown with
  | nil => exact ⟨by rw [List.map_nil, List.map_nil, List.append_nil]; rfl, rfl⟩
  | cons c rest ih =>
    obtain ⟨context, hcontext⟩ : ∃ context, context =
        c.context schema running session.resetLevel := ⟨_, rfl⟩
    have hedit := hLeaves c (List.mem_cons_self ..) context world
    obtain ⟨hcollect, hsession⟩ := ih (fun d hd => hLeaves d (List.mem_cons_of_mem _ hd))
      (c.module.getConfig context world).session (c.module.getConfig context world).world
      (shown ++ [context])
    -- wherever the module has left the cursor, the next one finds the same at the root
    have hreset : (c.module.getConfig context world).session.resetLevel = session.resetLevel := by
      rw [Session.resetLevel, hedit, hcontext]
      rfl
    rw [hreset] at hcollect hsession
    rw [List.append_assoc, List.singleton_append] at hcollect
    rw [List.map_cons, List.map_cons, ← hcontext, collect, collect]
    subst hcontext
    dsimp only [Candidate.watched, Module.watched, Candidate.context] at hcollect hsession ⊢
    rw [hcollect]
    cases (c.module.getConfig ⟨schema, running, c.name.instanceName, session.resetLevel⟩
      world).attempt.guarded with
    | ok config => exact ⟨rfl, hsession⟩
    | error cause => exact ⟨rfl, hsession⟩

namespace Store

variable {store : Store World Dict}

/-- What the modules are shown in a commit: for each candidate the session, with its cursor at the
root. -/
def contexts (store : Store World Dict) (session : Session) : List Context :=
  (store.candidates session).map
    (Candidate.context store.schema store.running session.resetLevel)

/-- A watched store notes the contexts that its modules are shown while it selects, behind those
noted before, and the session comes out as it went in, with its cursor at the root. -/
theorem select_watched
    (hLeaves : ∀ owner m, Keyed.get? store.modules owner = some m → m.LeavesEdit)
    (session : Session) (shown : List Context) :
    (store.watched shown).select session =
        (store.select session).watched (shown ++ store.contexts session) ∧
      (store.select session).session = session.resetLevel := by
  obtain ⟨hcollect, hsession⟩ := collect_watched store.schema store.running
    (fun c (hc : c ∈ store.candidates session) => hLeaves _ _ (module_of_mem_candidates hc))
    session.resetLevel store.world shown
  refine ⟨?_, hsession⟩
  rw [select, RouterConfig.select, watched]
  dsimp only
  rw [candidates_watched, candidateNotices_watched]
  unfold candidates at hcollect
  rw [hcollect]
  rfl

/-- A commit with modules that write down what they are shown is the same commit, and they have
been shown the contexts of the candidates. -/
theorem commit_watched
    (hLeaves : ∀ owner m, Keyed.get? store.modules owner = some m → m.LeavesEdit)
    (session : Session) (shown : List Context) :
    (store.watched shown).commit session false =
      (store.commit session false).watched (shown ++ store.contexts session) := by
  -- phase by phase, the watched store does what the plain one does, with its contexts behind
  have hselect := (select_watched hLeaves session shown).1
  have hverified : (store.watched shown).verified session =
      (store.verified session).watched (shown ++ store.contexts session) := by
    rw [verified, hselect]
    exact verifyAll_watched ..
  have hgenerated : (store.watched shown).generated session =
      (store.generated session).watched (shown ++ store.contexts session) := by
    rw [generated, hselect, hverified]
    exact fanOut_watched ..
  have happlied : (store.watched shown).applied session =
      (store.applied session).watched (shown ++ store.contexts session) := by
    rw [applied, hselect, hgenerated]
    exact fanOut_watched ..
  have hnames : ((store.select session).tasks.map Task.watched).map Task.name =
      (store.select session).tasks.map Task.name := by
    rw [List.map_map]
    rfl
  -- an abort keeps the world of the phase that failed, and the contexts in it
  have habort : ∀ phase (result : PhaseResult World Dict) journal,
      (store.watched shown).abort ((store.select session).watched
          (shown ++ store.contexts session)) phase
        (result.watched (shown ++ store.contexts session)) journal =
      (store.abort (store.select session) phase result journal).watched
        (shown ++ store.contexts session) := by
    intro phase result journal
    rw [abort, abort, Selection.watched, hnames]
    rfl
  have hruns : (store.watched shown).runPhases session =
      (store.runPhases session).watched (shown ++ store.contexts session) := by
    -- each phase has the same failures, so that both come to the same end
    by_cases h : (store.verified session).failures = []
    · by_cases h' : (store.generated session).failures = []
      · by_cases h'' : (store.applied session).failures = []
        · rw [runPhases_of_applied h h' h'', runPhases_of_applied (hverified ▸ h)
            (hgenerated ▸ h') (happlied ▸ h''), journalBefore, hselect, hverified, hgenerated,
            happlied, Selection.watched, hnames]
          rfl
        · rw [runPhases_of_unapplied h h' h'', runPhases_of_unapplied (hverified ▸ h)
            (hgenerated ▸ h') (happlied ▸ h''), journalBefore, hselect, hverified, hgenerated,
            happlied, habort]
          rfl
      · rw [runPhases_of_ungenerated h h', runPhases_of_ungenerated (hverified ▸ h)
          (hgenerated ▸ h'), journalBefore, hselect, hverified, hgenerated, habort]
        rfl
    · rw [runPhases_of_unverified h, runPhases_of_unverified (hverified ▸ h), hselect, hverified,
        habort]
      rfl
  rw [commit, commit, if_neg (by simp), if_neg (by simp), hruns]
  rfl

/-- A commit leaves the session as it is if modules do not edit. -/
theorem commit_leaves_edit
    (hLeaves : ∀ owner m, Keyed.get? store.modules owner = some m → m.LeavesEdit)
    (session : Session) (inMemory : Bool) : (store.commit session inMemory).session = session := by
  cases inMemory with
  | true => rfl
  | false => rw [commit_session, (select_watched hLeaves session []).2]; rfl

/-! ## Nothing left to commit -/

/-- Without tasks a phase has no failures and calls no module, whatever the executor answers. -/
theorem fanOut_nil (phase : Phase) (executor : Executor World) (world : World) :
    (fanOut phase executor ([] : List (Task World Dict)) world).failures = [] ∧
      calls (fanOut phase executor ([] : List (Task World Dict)) world).journal = [] := by
  rw [fanOut]
  refine ⟨(phaseFailures_eq_nil_iff ..).mpr fun position h => absurd h (Nat.not_lt_zero _), ?_⟩
  dsimp only
  -- no position has a task, so that none of those that are started is in the journal
  have hnone : ∀ started : List Nat,
      started.filterMap (startCall? phase ([] : List (Task World Dict))) = [] :=
    fun started => List.filterMap_eq_nil_iff.mpr fun position _ => rfl
  rw [calls_append, hnone]
  cases (executor phase (([] : List (Task World Dict)).map fun task => task.job phase)
    world).watchdog? <;> rfl

/-- Where the session has what is running, a commit asks no module, and promotes it once more. -/
theorem commit_of_unchanged {session : Session} (h : store.running = session.edit)
    (inMemory : Bool) :
    (store.commit session inMemory).report = ⟨.promoted, [], [], []⟩ ∧
      calls (store.commit session inMemory).journal = [] ∧
      (store.commit session inMemory).store.running = store.running ∧
      (store.commit session inMemory).session = session := by
  cases inMemory with
  | true => exact ⟨rfl, rfl, h.symm, rfl⟩
  | false =>
    -- nothing differs from what is running, so no path is due
    have hnone : store.candidates session = [] := by
      rw [candidates, RouterConfig.candidates, List.flatMap_eq_nil_iff]
      intro owned _
      refine candidatesOf_unchanged _ ?_
      rw [Session.changed_eq_false_iff, h]
      rfl
    have hselect : store.select session = ⟨[], [], session.resetLevel, store.world,
        (candidateNotices store.schema store.modules store.running session.resetLevel).map
          Event.notice ++ []⟩ := by
      rw [candidates] at hnone
      rw [select, RouterConfig.select, hnone]
      rfl
    -- without tasks there is nothing that a phase could fail with, or call
    have hverified : store.verified session = ⟨[], store.world, []⟩ := by
      rw [verified, hselect]
      rfl
    obtain ⟨hgenerated, hgeneratedCalls⟩ :
        (store.generated session).failures = [] ∧ calls (store.generated session).journal = [] := by
      rw [generated, hselect]
      exact fanOut_nil ..
    obtain ⟨happlied, happliedCalls⟩ :
        (store.applied session).failures = [] ∧ calls (store.applied session).journal = [] := by
      rw [applied, hselect]
      exact fanOut_nil ..
    have hruns := runPhases_of_applied (congrArg PhaseResult.failures hverified) hgenerated happlied
    rw [journalBefore, hverified, hselect] at hruns
    rw [commit, if_neg (by simp), hruns]
    refine ⟨rfl, ?_, h.symm, rfl⟩
    dsimp only
    rw [calls_append, calls_append, calls_append, calls_append, hgeneratedCalls, happliedCalls]
    simp only [calls_nil, List.append_nil]
    exact calls_notices id _

/-! ## What a commit is to its session -/

/-- What a commit is to its session, if modules do not edit it, however they move its cursor and
wherever they break down:

* the session is afterwards as it was before, its cursor included, however the commit ends;
* each module that collects is shown the session with its cursor at the root;
* after a commit that is promoted, as long as nothing is edited and nothing else is promoted, a
  further commit asks no module, has no tasks and no dropped ones, and promotes what is running. -/
theorem commit_undisturbing
    (hLeaves : ∀ owner m, Keyed.get? store.modules owner = some m → m.LeavesEdit)
    (session : Session) (inMemory : Bool) :
    (store.commit session inMemory).session = session ∧
    (store.watched []).commit session inMemory = (store.commit session inMemory).watched
      (if inMemory then [] else store.contexts session) ∧
    (∀ context ∈ store.contexts session, context.session = ⟨session.edit, []⟩) ∧
    ((store.commit session inMemory).report.state = .promoted →
      ∀ (later : Store World Dict) (session' : Session) (inMemory' : Bool),
        later.running = (store.commit session inMemory).store.running →
        session'.edit = (store.commit session inMemory).session.edit →
        (later.commit session' inMemory').report = ⟨.promoted, [], [], []⟩ ∧
          calls (later.commit session' inMemory').journal = [] ∧
          (later.commit session' inMemory').store.running = later.running ∧
          (later.commit session' inMemory').session = session') := by
  refine ⟨commit_leaves_edit hLeaves session inMemory, ?_, ?_, ?_⟩
  · cases inMemory with
    | true => rfl
    | false => exact commit_watched hLeaves session []
  · intro context hmem
    obtain ⟨c, -, rfl⟩ := List.mem_map.mp hmem
    rfl
  · intro hpromoted later session' inMemory' hrunning hedit
    have hsame := ((store.commit_atomic session inMemory).promoted hpromoted).2.1
    exact commit_of_unchanged (hrunning.trans (hsame.trans hedit.symm)) inMemory'

end Store

namespace Sample

/-- A module that leaves the cursor at the system while it collects, and ends as given. -/
def wandering (attempt : Attempt Unit) : Module Unit Unit where
  getConfig context world := ⟨attempt, { context.session with level := ["system"] }, world⟩
  verify _ world := (.value (), world)
  generate _ world := (some (.value ()), world)
  apply _ world := (some (.value ()), world)

/-- Two modules that move the cursor, of which the one of the system breaks down. -/
def wanderers : Store Unit Unit :=
  { host.store with
    modules := [("host", wandering (.panicked none)), ("net", wandering (.value ()))] }

/-- An instance and a name that are to be committed, with the cursor at the instance. -/
def pending : Session :=
  ⟨.subtree [("interface", .subtree [("eth0", .subtree []), ("eth1", .subtree [])]),
    ("system", .subtree [("name", .scalar "core")])], ["interface", "eth0"]⟩

/-- The sample modules move the cursor and leave the tree alone. -/
theorem wanderers_leaveEdit (owner : String) (m : Module Unit Unit)
    (hm : Keyed.get? wanderers.modules owner = some m) : m.LeavesEdit := by
  rcases List.mem_cons.mp (Keyed.mem_of_get? hm) with heq | hmem
  · rw [(Prod.mk.inj heq).2]
    exact fun _ _ => rfl
  · rw [(Prod.mk.inj (List.mem_singleton.mp hmem)).2]
    exact fun _ _ => rfl

end Sample

namespace Store

/-- One task is dropped and two are promoted, and the cursor is back at the instance. -/
theorem commit_undisturbing_of_wanderers :
    let done := Sample.wanderers.commit Sample.pending false
    (∀ owner m, Keyed.get? Sample.wanderers.modules owner = some m → m.LeavesEdit) ∧
    (done.report = ⟨.promoted, [⟨"net", ["interface"], "eth0"⟩, ⟨"net", ["interface"], "eth1"⟩],
        [TaskName.failure ⟨"host", ["system", "name"], ""⟩ .selecting
          (.moduleFault "module panicked: unknown panic payload")], []⟩ ∧
      done.session = Sample.pending) ∧
    (((Sample.wanderers.watched []).commit Sample.pending false).store.world.2.length = 3 ∧
      ∀ context ∈ ((Sample.wanderers.watched []).commit Sample.pending false).store.world.2,
        context.session = ⟨Sample.pending.edit, []⟩) ∧
    (done.store.commit done.session false).report = ⟨.promoted, [], [], []⟩ := by
  obtain ⟨hsession, hwatched, hroot, hfurther⟩ :=
    commit_undisturbing Sample.wanderers_leaveEdit Sample.pending false
  have hreport : (Sample.wanderers.commit Sample.pending false).report =
      ⟨.promoted, [⟨"net", ["interface"], "eth0"⟩, ⟨"net", ["interface"], "eth1"⟩],
        [TaskName.failure ⟨"host", ["system", "name"], ""⟩ .selecting
          (.moduleFault "module panicked: unknown panic payload")], []⟩ := by decide +kernel
  have hshown : ((Sample.wanderers.watched []).commit Sample.pending false).store.world.2 =
      Sample.wanderers.contexts Sample.pending :=
    congrArg (fun done => done.store.world.2) hwatched
  refine ⟨Sample.wanderers_leaveEdit, ⟨hreport, hsession⟩, ?_, ?_⟩
  · rw [hshown]
    exact ⟨by decide +kernel, hroot⟩
  · exact (hfurther (by rw [hreport]) _ _ false rfl rfl).1

end Store

end RouterConfig
