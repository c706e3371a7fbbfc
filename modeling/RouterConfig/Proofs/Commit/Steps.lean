import RouterConfig.Proofs.Host.Conformance

/-!
# RouterConfig — commits step by step

A commit is not done at one go: it selects its tasks, has them verified, generated and applied, and
only then promotes the configuration of its session. Between these steps other sessions may be
edited, and their commits may take steps of their own. Each step reads the store as it is by then;
nothing holds the store from one step to the next. Main results:

* `Interleaved.advance` — the next step of the commit of a session;
* `Interleaved.run_keeps` — what edits and steps keep, every interleaving keeps;
* `Interleaved.commit_in_steps` — steps in a row, with nothing in between, are a commit.
-/

namespace RouterConfig

variable {World Dict : Type}

/-! ## Commits under way -/

/-- A commit under way. -/
structure Underway (World Dict : Type) where
  /-- The phase that was done last. -/
  phase : Phase
  selection : Selection World Dict
  /-- Where the cursor of the session goes back to. -/
  level : Path
  /-- What was running when the tasks were selected. -/
  base : Tree
  /-- How many promotions there had been by then. -/
  seen : Nat

/-- The promotion that ends a commit. -/
structure Promotion where
  /-- Whose session it is. -/
  name : String
  /-- What was running until then. -/
  replaced : Tree
  /-- What is running from then on. -/
  promoted : Tree
  tasks : List TaskName
  /-- What was running when the tasks were selected. -/
  base : Tree
  /-- How many promotions there had been when the tasks were selected. -/
  seen : Nat

/-- A host on which commits are done step by step. -/
@[ext] structure Interleaved (World Dict : Type) where
  host : Host World Dict
  /-- The commits under way, by session. -/
  underway : String → Option (Underway World Dict)
  /-- All promotions so far, in their order. -/
  promotions : List Promotion

namespace Interleaved

/-- A host on which no commit is under way. -/
def start (h : Host World Dict) : Interleaved World Dict := ⟨h, fun _ => none, []⟩

/-- With a commit of a session under way, or none. -/
def mark (σ : Interleaved World Dict) (name : String) (c? : Option (Underway World Dict)) :
    Interleaved World Dict :=
  { σ with underway := fun other => if other = name then c? else σ.underway other }

/-- With the world that a step leaves behind. -/
def inWorld (σ : Interleaved World Dict) (world : World) : Interleaved World Dict :=
  { σ with host := { σ.host with store := { σ.host.store with world := world } } }

/-- With a session in the place of the one of that name. -/
def putSession (σ : Interleaved World Dict) (name : String) (session : Session) :
    Interleaved World Dict :=
  { σ with host := σ.host.putSession name session }

/-! ## Steps -/

/-- Selects the tasks of a commit. -/
def begin (σ : Interleaved World Dict) (name : String) : Interleaved World Dict :=
  let session := σ.host.session name
  let selection := σ.host.store.select session
  ((σ.inWorld selection.world).putSession name selection.session).mark name
    (some ⟨.selecting, selection, session.level, σ.host.store.running, σ.promotions.length⟩)

/-- Puts an end to a commit. -/
def finish (σ : Interleaved World Dict) (name : String) (c : Underway World Dict) :
    Interleaved World Dict :=
  (σ.putSession name { σ.host.session name with level := c.level }).mark name none

/-- Goes on with the result of a phase, which puts an end to the commit if it has failures. -/
def proceed (σ : Interleaved World Dict) (name : String) (c : Underway World Dict) (phase : Phase)
    (result : PhaseResult World Dict) : Interleaved World Dict :=
  if result.failures = [] then (σ.inWorld result.world).mark name (some { c with phase := phase })
  else (σ.inWorld result.world).finish name c

/-- The promotion that a commit ends with. -/
def promotionOf (σ : Interleaved World Dict) (name : String) (c : Underway World Dict) :
    Promotion where
  name := name
  replaced := σ.host.store.running
  promoted := (σ.host.session name).edit
  tasks := c.selection.tasks.map Task.name
  base := c.base
  seen := c.seen

/-- Makes the configuration of the session the running one. -/
def promote (σ : Interleaved World Dict) (name : String) (c : Underway World Dict) :
    Interleaved World Dict :=
  { σ with
    host := { σ.host with store := σ.host.store.promote (σ.host.session name).edit }
    promotions := σ.promotions ++ [σ.promotionOf name c] : Interleaved World Dict }.finish name c

/-- The next step of the commit of a session. -/
def advance (σ : Interleaved World Dict) (name : String) : Interleaved World Dict :=
  match σ.underway name with
  | none => σ.begin name
  | some c =>
    let store := σ.host.store
    match c.phase with
    | .selecting => σ.proceed name c .verifying (verifyAll c.selection.tasks store.world)
    | .verifying =>
      σ.proceed name c .generating
        (fanOut .generating store.executor c.selection.tasks store.world)
    | .generating =>
      σ.proceed name c .applying (fanOut .applying store.executor c.selection.tasks store.world)
    | .applying => σ.promote name c

/-- What may happen next. -/
inductive Action where
  | edit (name : String) (operation : Operation)
  | advance (name : String)

/-- Does what happens next. A session whose commit is under way is not edited. -/
def act (σ : Interleaved World Dict) : Action → Interleaved World Dict
  | .edit name operation =>
    if operation.isEdit ∧ (σ.underway name).isNone then
      { σ with host := (σ.host.perform name operation).host }
    else σ
  | .advance name => σ.advance name

/-- Does one thing after the other. -/
def run (σ : Interleaved World Dict) (actions : List Action) : Interleaved World Dict :=
  actions.foldl act σ

/-! ## What all steps keep -/

section Keeps

variable {I : Interleaved World Dict → Prop}
  (hbegin : ∀ σ name, I σ → I (σ.begin name))
  (hproceed : ∀ σ name c phase result, I σ → σ.underway name = some c →
    I (σ.proceed name c phase result))
  (hpromote : ∀ σ name c, I σ → σ.underway name = some c → I (σ.promote name c))

include hbegin hproceed hpromote

/-- What beginning, going on and promoting keep, each step of a commit keeps. -/
theorem advance_keeps {σ : Interleaved World Dict} (hI : I σ) (name : String) :
    I (σ.advance name) := by
  rw [advance]
  cases hc : σ.underway name with
  | none => exact hbegin σ name hI
  | some c =>
    dsimp only
    cases c.phase with
    | selecting => exact hproceed σ name c _ _ hI hc
    | verifying => exact hproceed σ name c _ _ hI hc
    | generating => exact hproceed σ name c _ _ hI hc
    | applying => exact hpromote σ name c hI hc

/-- What edits and all steps of commits keep is kept, whatever happens in whatever order. -/
theorem run_keeps
    (hedit : ∀ σ name operation, I σ → operation.isEdit = true → σ.underway name = none →
      I { σ with host := (σ.host.perform name operation).host })
    {σ : Interleaved World Dict} (hI : I σ) (actions : List Action) : I (σ.run actions) := by
  -- on the actions: each is a step of a commit that is under way or an edit of an idle session
  induction actions generalizing σ with
  | nil => exact hI
  | cons action rest ih =>
    refine ih ?_
    cases action with
    | advance name => exact advance_keeps hbegin hproceed hpromote hI name
    | edit name operation =>
      rw [act]
      by_cases hmay : operation.isEdit ∧ (σ.underway name).isNone
      · rw [if_pos hmay]
        exact hedit σ name operation hI hmay.1 (Option.isNone_iff_eq_none.mp hmay.2)
      · rw [if_neg hmay]
        exact hI

end Keeps

/-! ## Steps in a row -/

/-- With the commit of a session under way in a world, all else as before the commit. -/
private def during (σ : Interleaved World Dict) (name : String) (c : Underway World Dict)
    (world : World) : Interleaved World Dict :=
  ((σ.inWorld world).putSession name c.selection.session).mark name (some c)

/-- With the commit of a session over, and what it has made of the store. -/
private def ended (σ : Interleaved World Dict) (name : String) (c : Underway World Dict)
    (store : Store World Dict) (promotions : List Promotion) : Interleaved World Dict where
  host := { σ.host with store := store }.putSession name
    { c.selection.session with level := c.level }
  underway := σ.underway
  promotions := σ.promotions ++ promotions

variable {σ : Interleaved World Dict} {name : String}

/-- A session that is put twice is the one that is put last. -/
private theorem putSession_putSession (h : Host World Dict) (name : String)
    (first second : Session) :
    (h.putSession name first).putSession name second = h.putSession name second := by
  rw [Host.putSession, Host.putSession, Host.putSession]
  exact congrArg (Host.mk h.store) (Keyed.insert_insert_self h.sessions name first second)

/-- Marks of a session that is idle leave no trace once they are gone. -/
private theorem unmarked (hidle : σ.underway name = none) (c? : Option (Underway World Dict)) :
    (fun other => if other = name then none
      else if other = name then c? else σ.underway other) = σ.underway := by
  funext other
  by_cases hother : other = name
  · rw [if_pos hother, hother, hidle]
  · rw [if_neg hother, if_neg hother]

/-- A commit that ends while it is under way leaves what it has made of store and session. -/
private theorem finish_during (hidle : σ.underway name = none) (c : Underway World Dict)
    (world : World) (store : Store World Dict) (promotions : List Promotion) :
    Interleaved.finish
        { σ.during name c world with
          host := { (σ.during name c world).host with store := store }
          promotions := σ.promotions ++ promotions } name c =
      σ.ended name c store promotions := by
  have hsession : Host.session { (σ.during name c world).host with store := store } name =
      c.selection.session :=
    Host.session_putSession { σ.host with store := store } name c.selection.session
  -- the session is put a second time, and its mark is gone
  rw [finish, hsession]
  refine Interleaved.ext ?_ (unmarked hidle (some c)) rfl
  exact putSession_putSession { σ.host with store := store } name _ _

/-- A commit under way after the result of a phase. -/
private theorem proceed_during (hidle : σ.underway name = none) (c : Underway World Dict)
    (world : World) (phase : Phase) (result : PhaseResult World Dict) :
    (σ.during name c world).proceed name c phase result =
      if result.failures = [] then σ.during name { c with phase := phase } result.world
      else σ.ended name c { σ.host.store with world := result.world } [] := by
  rw [proceed]
  -- a phase without failures leaves the commit under way, in the next phase
  by_cases hfailures : result.failures = []
  · rw [if_pos hfailures, if_pos hfailures]
    refine Interleaved.ext rfl ?_ rfl
    funext other
    show (if other = name then _ else if other = name then _ else σ.underway other) =
      if other = name then _ else σ.underway other
    by_cases hother : other = name
    · rw [if_pos hother, if_pos hother]
    · rw [if_neg hother, if_neg hother, if_neg hother]
  · -- the first failure puts an end to it, with the store it has reached
    rw [if_neg hfailures, if_neg hfailures]
    have hended := finish_during hidle c world { σ.host.store with world := result.world } []
    rw [List.append_nil] at hended
    exact hended

/-- A commit that promotes while it is under way leaves the configuration of its session running. -/
private theorem promote_during (hidle : σ.underway name = none) (c : Underway World Dict)
    (world : World) :
    (σ.during name c world).promote name c =
      σ.ended name c ({ σ.host.store with world := world }.promote c.selection.session.edit)
        [⟨name, σ.host.store.running, c.selection.session.edit, c.selection.tasks.map Task.name,
          c.base, c.seen⟩] := by
  have hsession : (σ.during name c world).host.session name = c.selection.session :=
    Host.session_putSession ..
  rw [promote, promotionOf, hsession]
  exact finish_during hidle c world _ _

private theorem underway_during (c : Underway World Dict) (world : World) :
    (σ.during name c world).underway name = some c :=
  if_pos rfl

/-- What a commit at one go makes of a host on which the session is idle. -/
def committed (σ : Interleaved World Dict) (name : String) : Interleaved World Dict where
  host := (σ.host.perform name (.commit false)).host
  underway := σ.underway
  promotions :=
    let done := σ.host.store.commit (σ.host.session name) false
    σ.promotions ++ if done.report.succeeded then
      [⟨name, σ.host.store.running, done.session.edit, done.report.tasks, σ.host.store.running,
        σ.promotions.length⟩] else []

/-- A commit under way that has done a phase, and had started when all was as it is. -/
private def underwayAt (σ : Interleaved World Dict) (name : String) (phase : Phase) :
    Underway World Dict :=
  ⟨phase, σ.host.store.select (σ.host.session name), (σ.host.session name).level,
    σ.host.store.running, σ.promotions.length⟩

/-- What a whole commit comes to is the end that its steps reach in the phase it gets to. -/
private theorem committed_eq_ended (phase : Phase) {done : Committed World Dict}
    {promotions : List Promotion}
    (hdone : σ.host.store.runPhases (σ.host.session name) = done)
    (hsession : done.session = (σ.host.store.select (σ.host.session name)).session)
    (hpromotions : promotions = if done.report.succeeded then
      [⟨name, σ.host.store.running, done.session.edit, done.report.tasks, σ.host.store.running,
        σ.promotions.length⟩] else []) :
    σ.committed name = σ.ended name (σ.underwayAt name phase) done.store promotions := by
  have hcommit : σ.host.store.commit (σ.host.session name) false =
      { done with session := { done.session with level := (σ.host.session name).level } } := by
    rw [← hdone]
    rfl
  unfold committed ended Host.perform
  dsimp only
  rw [hcommit, hpromotions, underwayAt, ← hsession]

/-- The commit of an idle session, with nothing in between its steps, is a commit at one go. -/
theorem commit_in_steps (hidle : σ.underway name = none) :
    ∃ n, σ.run (List.replicate n (.advance name)) = σ.committed name := by
  -- one step after the other, each phase either goes on or puts an end to the commit
  let store := σ.host.store
  let session := σ.host.session name
  have hselect : σ.advance name =
      σ.during name (σ.underwayAt name .selecting) (store.select session).world := by
    rw [advance, hidle]
    rfl
  have hverify : ((σ.advance name).advance name) =
      if (store.verified session).failures = [] then
        σ.during name (σ.underwayAt name .verifying) (store.verified session).world
      else σ.ended name (σ.underwayAt name .selecting)
        { store with world := (store.verified session).world } [] := by
    rw [hselect, advance, underway_during]
    exact proceed_during hidle _ _ .verifying (store.verified session)
  by_cases hverified : (store.verified session).failures = []
  · rw [if_pos hverified] at hverify
    have hgenerate : ((σ.advance name).advance name).advance name =
        if (store.generated session).failures = [] then
          σ.during name (σ.underwayAt name .generating) (store.generated session).world
        else σ.ended name (σ.underwayAt name .verifying)
          { store with world := (store.generated session).world } [] := by
      rw [hverify, advance, underway_during]
      exact proceed_during hidle _ _ .generating (store.generated session)
    by_cases hgenerated : (store.generated session).failures = []
    · rw [if_pos hgenerated] at hgenerate
      have happly : (((σ.advance name).advance name).advance name).advance name =
          if (store.applied session).failures = [] then
            σ.during name (σ.underwayAt name .applying) (store.applied session).world
          else σ.ended name (σ.underwayAt name .generating)
            { store with world := (store.applied session).world } [] := by
        rw [hgenerate, advance, underway_during]
        exact proceed_during hidle _ _ .applying (store.applied session)
      by_cases happlied : (store.applied session).failures = []
      · rw [if_pos happlied] at happly
        have hdone := Store.runPhases_of_applied hverified hgenerated happlied
        refine ⟨5, ?_⟩
        show ((((σ.advance name).advance name).advance name).advance name).advance name = _
        rw [happly, advance, underway_during]
        have hpromote := promote_during hidle (σ.underwayAt name .applying)
          (store.applied session).world
        exact hpromote.trans (committed_eq_ended .applying hdone rfl rfl).symm
      · rw [if_neg happlied] at happly
        have hdone := Store.runPhases_of_unapplied hverified hgenerated happlied
        refine ⟨4, ?_⟩
        show (((σ.advance name).advance name).advance name).advance name = _
        rw [happly]
        exact (committed_eq_ended .generating hdone rfl rfl).symm
    · rw [if_neg hgenerated] at hgenerate
      have hdone := Store.runPhases_of_ungenerated hverified hgenerated
      refine ⟨3, ?_⟩
      show ((σ.advance name).advance name).advance name = _
      rw [hgenerate]
      exact (committed_eq_ended .verifying hdone rfl rfl).symm
  · rw [if_neg hverified] at hverify
    have hdone := Store.runPhases_of_unverified hverified
    refine ⟨2, ?_⟩
    show (σ.advance name).advance name = _
    rw [hverify]
    exact (committed_eq_ended .selecting hdone rfl rfl).symm

end Interleaved

end RouterConfig
