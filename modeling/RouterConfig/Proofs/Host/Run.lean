import RouterConfig.Host
import RouterConfig.Proofs.Commit.Outcome
import RouterConfig.Proofs.CommandFile.Lines

/-!
# RouterConfig — runs of a host

A run is any number of operations, each of some session, in any order. What sessions share is
changed by commits alone, whichever operation asks for them, and each commit is all or nothing: the
modules and the executor may fail as they like. Main results:

* `Host.perform_through`, `Host.run_through` — the commits account for all that happens to the
  store;
* `Host.run_keeps` — what every operation keeps, every run keeps;
* `Host.commits_all_or_nothing` — what commits do to a run, and what is reported of them.
-/

namespace RouterConfig

variable {World Dict : Type}

/-- Whether an answer reports commits as they ended. -/
def Answer.Tells (calls : List (CommitCall World Dict)) : Answer → Prop
  | .nothing => calls = []
  | .report told => calls.map (fun c => c.done.report) = [told]
  | .summary told => told.commits = calls.map fun c => c.done.report.succeeded

namespace Host

/-! ## Operations -/

/-- The commits that an operation asks for, in their order. -/
def commitsOf (h : Host World Dict) (name : String) : Operation → List (CommitCall World Dict)
  | .load text => lineCommits 1 (textLines text) h.store (h.session name)
  | .commit inMemory => [⟨h.store, h.session name, inMemory⟩]
  | _ => []

/-- The commits of an operation account for all that it does to the store. -/
theorem perform_through (h : Host World Dict) (name : String) (operation : Operation) :
    h.store.Through (h.commitsOf name operation) (h.perform name operation).host.store := by
  have hedited : ∀ result : Except Error Session,
      h.store.Through [] (h.edited name result).host.store := by
    intro result
    cases result with
    | ok session => exact .nil h.store
    | error cause => exact .nil h.store
  cases operation with
  | load text => exact loadLines_through 1 (textLines text) h.store (h.session name)
  | commit inMemory => exact .cons rfl (.nil _)
  | _ => exact hedited _

/-- An operation that succeeds reports its commits as they ended. -/
theorem perform_tells {h : Host World Dict} {name : String} {operation : Operation}
    {answer : Answer} (hanswer : (h.perform name operation).answer = .ok answer) :
    answer.Tells (h.commitsOf name operation) := by
  -- an edit answers with nothing, and makes no calls
  have hedited : ∀ result : Except Error Session,
      (h.edited name result).answer = .ok answer →
        answer.Tells ([] : List (CommitCall World Dict)) := by
    intro result hresult
    cases result with
    | ok session =>
      obtain rfl := Except.ok.inj hresult
      rfl
    | error cause => exact absurd hresult (by simp [edited])
  cases operation with
  | load text =>
    rw [perform] at hanswer
    cases hresult : (RouterConfig.load h.store (h.session name) text).result with
    | error cause => simp [hresult, Except.map] at hanswer
    | ok summary =>
      simp only [hresult, Except.map, Except.ok.injEq] at hanswer
      subst hanswer
      exact loadLines_commits hresult
  | commit inMemory =>
    obtain rfl := Except.ok.inj hanswer
    rfl
  | _ => exact hedited _ hanswer

theorem session_putSession (h : Host World Dict) (name : String) (session : Session) :
    (h.putSession name session).session name = session := by
  rw [Host.session, putSession, Keyed.get?_insert_self]
  rfl

/-! ## Runs -/

/-- The host after operations, each of the session of a name. -/
def run : Host World Dict → List (String × Operation) → Host World Dict
  | h, [] => h
  | h, (name, operation) :: rest => (h.perform name operation).host.run rest

/-- The commits of a run, in their order. -/
def commits : Host World Dict → List (String × Operation) → List (CommitCall World Dict)
  | _, [] => []
  | h, (name, operation) :: rest =>
    h.commitsOf name operation ++ (h.perform name operation).host.commits rest

/-- The commits of a run account for all that it does to the store. -/
theorem run_through (h : Host World Dict) (steps : List (String × Operation)) :
    h.store.Through (h.commits steps) (h.run steps).store := by
  induction steps generalizing h with
  | nil => exact .nil h.store
  | cons step rest ih => exact (h.perform_through step.1 step.2).append (ih _)

/-- A run leaves the sessions alone that it is not about. -/
theorem run_other (h : Host World Dict) {steps : List (String × Operation)} {name : String}
    (hname : ∀ step ∈ steps, step.1 ≠ name) :
    Keyed.get? (h.run steps).sessions name = Keyed.get? h.sessions name := by
  induction steps generalizing h with
  | nil => rfl
  | cons step rest ih =>
    have hrest := ih (h.perform step.1 step.2).host
      fun step' hstep' => hname step' (List.mem_cons_of_mem _ hstep')
    have hstep := h.perform_other (hname step (List.mem_cons_self ..)) step.2
    exact hrest.trans hstep

/-- What every operation keeps, every run keeps. -/
theorem run_keeps {I : Host World Dict → Prop}
    (hstep : ∀ h name operation, I h → I (h.perform name operation).host) {h : Host World Dict}
    (hI : I h) (steps : List (String × Operation)) : I (h.run steps) := by
  induction steps generalizing h with
  | nil => exact hI
  | cons step rest ih => exact ih (hstep h step.1 step.2 hI)

end Host

/-! ## A small host -/

namespace Sample

/-- A tag node and a leaf below an internal node, each with an owner. -/
def definitions : Keyed Schema.Definition :=
  [("interface",
      { kind := .tag, owner? := some "net", children :=
          [("address", { kind := .leaf, multi := true }),
            ("disabled", { kind := .leaf, valueless := true })] }),
    ("system", { children := [("name", { kind := .leaf, owner? := some "host" })] })]

def schema : Schema := (Schema.ofDefinitions definitions).toOption.getD ⟨[]⟩

/-- A module that sets what words say while it collects, and that ends as given when it applies. -/
def module (words : List String) (applied : Attempt Unit) : Module Unit Unit where
  getConfig context world :=
    ⟨.value (), (context.session.setWords context.schema words).toOption.getD context.session,
      world⟩
  verify _ world := (.value (), world)
  generate _ world := (some (.value ()), world)
  apply _ world := (some applied, world)

/-- Nothing is configured, one module names the system and the other breaks down. -/
def host : Host Unit Unit where
  store :=
    { schema := schema
      modules := [("host", module [] (.panicked none)),
        ("net", module ["system", "name", "\"rack 4's router\""] (.value ()))]
      executor := .sequential
      keepsBackup := false
      running := Tree.empty
      world := () }
  sessions := []

/-- One session commits an instance and another one a name. -/
def steps : List (String × Operation) :=
  [("a", .setWords ["interface", "eth0", "address", "10.0.0.1"]),
    ("a", .setWords ["interface", "eth0", "address", "10.0.0.1"]),
    ("a", .setWords ["interface", "eth0", "disabled"]),
    ("a", .setWords ["interface", "eth1"]),
    ("a", .commit false),
    ("b", .set ["system", "name"] "core"),
    ("b", .commit false)]

/-- What runs after these steps. -/
def configured : Tree :=
  .subtree
    [("interface", .subtree
        [("eth0", .subtree [("address", .list ["10.0.0.1", "10.0.0.1"]), ("disabled", .scalar "")]),
          ("eth1", .subtree [])]),
      ("system", .subtree [("name", .scalar "rack 4's router")])]

end Sample

namespace Host

/-! ## All or nothing -/

/-- What runs after commits: the configuration of the last one that was promoted. -/
def lastPromoted (running : Tree) (calls : List (CommitCall World Dict)) : Tree :=
  calls.foldl (fun running c => if c.done.report.succeeded then c.done.session.edit else running)
    running

/-- Commits that account for all that happens to a store promote what runs in it. -/
theorem running_of_through {store last : Store World Dict} {calls : List (CommitCall World Dict)}
    (h : store.Through calls last) : last.running = lastPromoted store.running calls := by
  induction h with
  | nil => rfl
  | @cons store last c rest hstore _ ih =>
    have hAtomic := c.store.commit_atomic c.session c.inMemory
    -- the commit has promoted its session, or left what was running
    have hrunning : c.done.store.running =
        if c.done.report.succeeded then c.done.session.edit else store.running := by
      cases hstate : c.done.report.state with
      | promoted =>
        rw [Report.succeeded, hstate, if_pos (by simp)]
        exact (hAtomic.promoted hstate).2.1
      | aborted phase =>
        rw [Report.succeeded, hstate, if_neg (by simp), ← hstore]
        exact (hAtomic.aborted phase hstate).2
    rw [ih, hrunning]
    rfl

/-- Whatever the sessions of a host do, in whatever order, and whatever modules and executor do:

* the store changes by commits alone, each of which finds it as the one before has left it, and what
  runs is the configuration of the last commit that was promoted;
* each commit makes all of its session's configuration the running one, without failures, or has
  failures and leaves the running one alone;
* commits are reported as they ended, and a session goes on as its commit has left it;
* a session is changed by its own operations alone. -/
theorem commits_all_or_nothing (h : Host World Dict) (steps : List (String × Operation)) :
    (h.store.Through (h.commits steps) (h.run steps).store ∧
      (h.run steps).store.running = lastPromoted h.store.running (h.commits steps)) ∧
    (∀ c ∈ h.commits steps, c.done.Atomic c.store) ∧
    (∀ name operation answer, ((h.run steps).perform name operation).answer = .ok answer →
      answer.Tells ((h.run steps).commitsOf name operation)) ∧
    (∀ name inMemory, ∀ c ∈ (h.run steps).commitsOf name (.commit inMemory),
      ((h.run steps).perform name (.commit inMemory)).host.session name = c.done.session) ∧
    ∀ name, (∀ step ∈ steps, step.1 ≠ name) →
      Keyed.get? (h.run steps).sessions name = Keyed.get? h.sessions name := by
  have hThrough := h.run_through steps
  refine ⟨⟨hThrough, running_of_through hThrough⟩, ?_, ?_, ?_, ?_⟩
  · intro c _
    exact c.store.commit_atomic c.session c.inMemory
  · intro name operation answer hanswer
    exact perform_tells hanswer
  · intro name inMemory c hc
    rw [List.mem_singleton.mp hc]
    exact session_putSession ..
  · intro name hname
    exact h.run_other hname

/-- A module breaks down, and what the session before has promoted goes on running. -/
theorem commits_all_or_nothing_after_panic :
    (Sample.host.commits Sample.steps).map (fun c => c.done.report.state) =
        [.promoted, .aborted .applying] ∧
      (Sample.host.run Sample.steps).store.running = Sample.configured ∧
      Keyed.get? (Sample.host.run Sample.steps).sessions "c" = none := by
  obtain ⟨⟨-, hrunning⟩, -, -, -, hother⟩ := commits_all_or_nothing Sample.host Sample.steps
  exact ⟨rfl, hrunning.trans rfl, hother "c" (by decide)⟩

end Host

end RouterConfig
