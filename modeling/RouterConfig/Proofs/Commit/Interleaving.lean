import RouterConfig.Proofs.Commit.Conformance
import RouterConfig.Proofs.Schema.Owned

/-!
# RouterConfig — what interleaved commits do without an owner

A commit has tasks for what differs from the configuration that was running when it selected them.
By the time it promotes, another configuration may be running, and the promotion takes back what was
promoted in between, without a task for it. That is all that can happen without a task, as long as
modules read and do not edit. Main results:

* `covers_select` — selecting gives tasks for what differs at owned positions;
* `Interleaved.Consistent.run` — what holds of commits under way and of promotions, in any
  interleaving;
* `Interleaved.Consistent.has_task_of_undisturbed` — commits that nobody overtakes have tasks for
  all that they change;
* `Interleaved.takes_back_without_task` — a promotion takes back what another session has promoted;
* `Interleaved.change_has_task_or_is_taken_back` — nothing else changes without a task.
-/

namespace RouterConfig

variable {World Dict : Type}

/-- A module that always collects a configuration, and reads the session only. -/
def Module.ReadsOnly (m : Module World Dict) : Prop :=
  ∀ context world, (∃ config, (m.getConfig context world).attempt = .value config) ∧
    (m.getConfig context world).session.edit = context.session.edit

/-! ## What is selected -/

/-- A tag node that one of two configurations has a value in the place of. Instances are named by
their names, and a value has none. -/
def Schema.OwnedPath.Displaced (owned : Schema.OwnedPath) (t u : Tree) : Prop :=
  owned.isTag = true ∧
    ((t.subtreeAt owned.path).isSubtree = false ∨ (u.subtreeAt owned.path).isSubtree = false)

/-- Where all conforms no value is in the place of a tag node. -/
theorem not_displaced {schema : Schema} (hRead : schema.Read) {owned : Schema.OwnedPath}
    (howned : owned ∈ schema.ownedPaths) {t u : Tree} (ht : schema.Admits t)
    (hu : schema.Admits u) : ¬ owned.Displaced t u := by
  rintro ⟨hTag, hvalue⟩
  have hOrderly := hRead.orderly
  rw [hOrderly.isSubtree_of_isTag howned hTag ht,
    hOrderly.isSubtree_of_isTag howned hTag hu] at hvalue
  exact absurd hvalue (by simp)

/-- There is a task for an owned position wherever two configurations differ, displaced tag nodes
apart. -/
def Covers (schema : Schema) (modules : Modules World Dict) (base edit : Tree)
    (tasks : List TaskName) : Prop :=
  ∀ owned ∈ schema.ownedPaths, Keyed.contains modules owned.owner = true →
    base.subtreeAt owned.path ≠ edit.subtreeAt owned.path →
    (∃ task ∈ tasks, task.path = owned.path) ∨ owned.Displaced base edit

theorem namesAt_eq_keys (t : Tree) (path : Path) : t.namesAt path = (t.subtreeAt path).keys := by
  rw [Tree.namesAt, Tree.subtreeAt]
  cases t.get? path <;> rfl

/-- Subtrees without children are equal. -/
theorem eq_of_no_keys {t u : Tree} (ht : t.isSubtree = true) (hu : u.isSubtree = true)
    (h : t.keys = []) (h' : u.keys = []) : t = u := by
  have hempty : ∀ v : Tree, v.isSubtree = true → v.keys = [] → v = .subtree [] := by
    intro v hv hkeys
    cases v with
    | scalar value => exact absurd hv (by simp [Tree.isSubtree])
    | list values => exact absurd hv (by simp [Tree.isSubtree])
    | subtree children => rw [List.map_eq_nil_iff.mp hkeys]
  rw [hempty t ht h, hempty u hu h']

/-- An owned position that differs gives a candidate. -/
theorem covers_candidates (schema : Schema) (modules : Modules World Dict) (running : Tree)
    (session : Session) :
    Covers schema modules running session.edit
      ((candidates schema modules running session.resetLevel).map Candidate.name) := by
  intro owned howned hcontains hdiffers
  obtain ⟨m, hm⟩ := Option.isSome_iff_exists.mp hcontains
  -- at the root a position is changed if and only if the two sides differ there
  have hchanged : session.resetLevel.changed running owned.path = true := by
    cases hsame : session.resetLevel.changed running owned.path with
    | true => rfl
    | false => exact absurd ((Session.changed_eq_false_iff ..).mp hsame).symm hdiffers
  have hmem : ∀ c ∈ candidatesOf modules running session.resetLevel owned,
      c.name ∈ (candidates schema modules running session.resetLevel).map Candidate.name :=
    fun c hc => List.mem_map_of_mem (List.mem_flatMap.mpr ⟨owned, howned, hc⟩)
  rw [candidatesOf, if_pos hchanged, hm] at hmem
  dsimp only at hmem
  -- a tag node has a task for each of its instances; without any it is no subtree on one side
  by_cases hTag : owned.isTag = true
  · rw [if_pos hTag] at hmem
    cases hinstances : instancesAt running session.resetLevel owned.path with
    | cons name rest =>
      exact .inl ⟨_, hmem ⟨⟨owned.owner, owned.path, name⟩, m⟩ (by simp [hinstances]), rfl⟩
    | nil =>
      refine .inr ⟨hTag, ?_⟩
      -- neither side names an instance, and subtrees would not differ then
      have hnames : session.edit.namesAt owned.path ++ running.namesAt owned.path = [] := by
        by_cases hnil : session.edit.namesAt owned.path ++ running.namesAt owned.path = []
        · exact hnil
        · exact absurd hinstances (Keyed.sortedNames_ne_nil hnil)
      obtain ⟨hedit, hrunning⟩ := List.append_eq_nil_iff.mp hnames
      rw [namesAt_eq_keys] at hedit hrunning
      by_cases hbase : (running.subtreeAt owned.path).isSubtree = true
      · right
        by_cases hother : (session.edit.subtreeAt owned.path).isSubtree = true
        · exact absurd (eq_of_no_keys hbase hother hrunning hedit) hdiffers
        · simpa using hother
      · left
        simpa using hbase
  · rw [if_neg hTag] at hmem
    -- a plain node has just one task, under the empty instance name
    exact .inl ⟨_, hmem ⟨⟨owned.owner, owned.path, ""⟩, m⟩ (List.mem_singleton.mpr rfl), rfl⟩

/-- Modules that read only make tasks of all candidates, and leave the configuration alone. -/
theorem collect_of_readsOnly (schema : Schema) (running : Tree) (cs : List (Candidate World Dict))
    (hReads : ∀ c ∈ cs, c.module.ReadsOnly) (session : Session) (world : World) :
    (collect schema running cs session world).tasks.map Task.name = cs.map Candidate.name ∧
      (collect schema running cs session world).session.edit = session.edit := by
  induction cs generalizing session world with
  | nil => exact ⟨rfl, rfl⟩
  | cons c rest ih =>
    obtain ⟨⟨config, hconfig⟩, hedit⟩ := hReads c (List.mem_cons_self ..)
      ⟨schema, running, c.name.instanceName, session.resetLevel⟩ world
    obtain ⟨htasks, hrest⟩ := ih (fun d hd => hReads d (List.mem_cons_of_mem _ hd))
      (c.module.getConfig ⟨schema, running, c.name.instanceName, session.resetLevel⟩ world).session
      (c.module.getConfig ⟨schema, running, c.name.instanceName, session.resetLevel⟩ world).world
    rw [collect]
    dsimp only
    rw [hconfig]
    exact ⟨congrArg (c.name :: ·) htasks, hrest.trans hedit⟩

/-- Selecting gives tasks for what differs at owned positions, and leaves the configuration
alone. -/
theorem covers_select {store : Store World Dict}
    (hReads : ∀ owner m, Keyed.get? store.modules owner = some m → m.ReadsOnly)
    (session : Session) :
    Covers store.schema store.modules store.running (store.select session).session.edit
        ((store.select session).tasks.map Task.name) ∧
      (store.select session).session.edit = session.edit := by
  obtain ⟨htasks, hedit⟩ := collect_of_readsOnly store.schema store.running
    (candidates store.schema store.modules store.running session.resetLevel)
    (fun c hc => hReads _ _ (module_of_mem_candidates hc)) session.resetLevel store.world
  have hcovers := covers_candidates store.schema store.modules store.running session
  rw [← htasks] at hcovers
  have hsession : (store.select session).session.edit = session.edit := hedit
  rw [hsession]
  exact ⟨hcovers, rfl⟩

/-! ## Promotions -/

namespace Promotion

/-- Whether other things are running at a path from then on, where nothing is as good as an empty
subtree. -/
def Changes (p : Promotion) (path : Path) : Prop :=
  p.replaced.subtreeAt path ≠ p.promoted.subtreeAt path

/-- Whether there was a task for a path. -/
def HasTask (p : Promotion) (path : Path) : Prop := ∃ task ∈ p.tasks, task.path = path

/-- Whether a promotion brings back, at a path, what was running when its tasks were selected, after
another session has promoted something else there. `before` are the promotions before it. -/
def TakesBack (p : Promotion) (before : List Promotion) (path : Path) : Prop :=
  p.promoted.subtreeAt path = p.base.subtreeAt path ∧
    ∃ q ∈ before.drop p.seen, q.name ≠ p.name ∧ q.Changes path

end Promotion

/-- Promotions that follow one another, between what is running before the first and what is running
after the last. -/
inductive Chained : Tree → List Promotion → Tree → Prop where
  | nil (t : Tree) : Chained t [] t
  | cons {p : Promotion} {rest : List Promotion} {last : Tree} :
    Chained p.promoted rest last → Chained p.replaced (p :: rest) last

namespace Chained

variable {first last : Tree} {ps : List Promotion}

/-- A promotion that replaces the last one of a chain goes on with it. -/
theorem snoc {p : Promotion} (h : Chained first ps last) (hlast : last = p.replaced) :
    Chained first (ps ++ [p]) p.promoted := by
  induction h with
  | nil t =>
    subst hlast
    exact .cons (.nil _)
  | cons _ ih => exact .cons (ih hlast)

/-- What differs before and after has been changed by one of them. -/
theorem exists_changes (h : Chained first ps last) {path : Path}
    (hdiffers : first.subtreeAt path ≠ last.subtreeAt path) : ∃ q ∈ ps, q.Changes path := by
  induction h with
  | nil t => exact absurd rfl hdiffers
  | @cons p rest last _ ih =>
    -- if the first one does not change the path, what it promotes still differs from the last
    by_cases hchanges : p.Changes path
    · exact ⟨p, List.mem_cons_self .., hchanges⟩
    · have hsame : p.replaced.subtreeAt path = p.promoted.subtreeAt path :=
        Classical.not_not.mp hchanges
      rw [hsame] at hdiffers
      obtain ⟨q, hq, hqchanges⟩ := ih hdiffers
      exact ⟨q, List.mem_cons_of_mem _ hq, hqchanges⟩

end Chained

/-- There is a task for every owned position that a promotion changes, or it takes back there what
another session has promoted; displaced tag nodes apart. -/
def Promotion.Accounted (schema : Schema) (modules : Modules World Dict) (before : List Promotion)
    (p : Promotion) : Prop :=
  ∀ owned ∈ schema.ownedPaths, Keyed.contains modules owned.owner = true →
    p.Changes owned.path →
    p.HasTask owned.path ∨ p.TakesBack before owned.path ∨ owned.Displaced p.base p.promoted

/-! ## What all steps keep -/

/-- What holds of a commit under way of a session. -/
structure Underway.Follows (schema : Schema) (modules : Modules World Dict)
    (σ : Interleaved World Dict) (name : String) (c : Underway World Dict) : Prop where
  seen : c.seen ≤ σ.promotions.length
  /-- The promotions since its selection lead to what is running. -/
  chained : Chained c.base (σ.promotions.drop c.seen) σ.host.store.running
  /-- None of them is its own. -/
  others : ∀ q ∈ σ.promotions.drop c.seen, q.name ≠ name
  /-- Its session is as selecting has left it. -/
  session : ∃ s, Keyed.get? σ.host.sessions name = some s ∧ s.edit = c.selection.session.edit
  covers : Covers schema modules c.base c.selection.session.edit (c.selection.tasks.map Task.name)

namespace Interleaved

/-- What holds of a host on which commits are done step by step. -/
structure Consistent (schema : Schema) (modules : Modules World Dict) (first : Tree)
    (σ : Interleaved World Dict) : Prop where
  declared : σ.host.store.schema = schema
  registered : σ.host.store.modules = modules
  /-- What is running changes by promotions alone. -/
  chained : Chained first σ.promotions σ.host.store.running
  underway : ∀ name c, σ.underway name = some c → c.Follows schema modules σ name
  accounted : ∀ before p after, σ.promotions = before ++ p :: after →
    p.Accounted schema modules before

/-- A step that promotes nothing and leaves all sessions but one alone. -/
structure Aside (σ : Interleaved World Dict) (name : String) (σ' : Interleaved World Dict) :
    Prop where
  schema : σ'.host.store.schema = σ.host.store.schema
  modules : σ'.host.store.modules = σ.host.store.modules
  running : σ'.host.store.running = σ.host.store.running
  promotions : σ'.promotions = σ.promotions
  sessions : ∀ other, name ≠ other →
    Keyed.get? σ'.host.sessions other = Keyed.get? σ.host.sessions other
  underway : ∀ other, name ≠ other → σ'.underway other = σ.underway other

variable {σ σ' : Interleaved World Dict} {name : String} {c : Underway World Dict}

theorem mark_self (σ : Interleaved World Dict) (name : String) (c? : Option (Underway World Dict)) :
    (σ.mark name c?).underway name = c? :=
  if_pos rfl

/-- An edit leaves everything as it is that belongs to other sessions and to the store. -/
theorem aside_edit {operation : Operation} (hedit : operation.isEdit = true) :
    σ.Aside name { σ with host := (σ.host.perform name operation).host } := by
  -- whatever comes of the request, the store is not touched
  have hedited : ∀ result : Except Error Session,
      (σ.host.edited name result).host.store = σ.host.store := by
    intro result
    cases result <;> rfl
  have hstore : (σ.host.perform name operation).host.store = σ.host.store := by
    -- a load and a commit are no edits; the other operations only edit the session
    cases operation with
    | load text => exact absurd hedit (by simp [Operation.isEdit])
    | commit inMemory => exact absurd hedit (by simp [Operation.isEdit])
    | _ => exact hedited _
  exact
    { schema := congrArg Store.schema hstore
      modules := congrArg Store.modules hstore
      running := congrArg Store.running hstore
      promotions := rfl
      sessions := fun other hne => σ.host.perform_other hne operation
      underway := fun _ _ => rfl }

/-- The beginning of a commit leaves all that as it is; only the world and its own session
change. -/
theorem aside_begin : σ.Aside name (σ.begin name) where
  schema := rfl
  modules := rfl
  running := rfl
  promotions := rfl
  sessions := fun _ hne => Host.get?_putSession_of_ne _ _ hne
  underway := fun _ hne => if_neg (Ne.symm hne)

/-- A phase leaves it as it is as well, whether it goes on or ends the commit. -/
theorem aside_proceed {phase : Phase} {result : PhaseResult World Dict} :
    σ.Aside name (σ.proceed name c phase result) := by
  rw [proceed]
  by_cases hfailures : result.failures = []
  · rw [if_pos hfailures]
    exact ⟨rfl, rfl, rfl, rfl, fun _ _ => rfl, fun _ hne => if_neg (Ne.symm hne)⟩
  · rw [if_neg hfailures]
    exact ⟨rfl, rfl, rfl, rfl, fun _ hne => Host.get?_putSession_of_ne _ _ hne,
      fun _ hne => if_neg (Ne.symm hne)⟩

namespace Consistent

variable {schema : Schema} {modules : Modules World Dict} {first : Tree}

/-- A step aside only has to look after the commit of its own session. -/
theorem aside (h : σ.Consistent schema modules first) (hAside : σ.Aside name σ')
    (hown : ∀ c, σ'.underway name = some c → c.Follows schema modules σ' name) :
    σ'.Consistent schema modules first := by
  refine ⟨hAside.schema.trans h.declared, hAside.modules.trans h.registered, ?_, ?_, ?_⟩
  · rw [hAside.running, hAside.promotions]
    exact h.chained
  · intro other c hc
    -- the commits of other sessions are followed by what the step leaves alone
    by_cases hname : name = other
    · subst hname
      exact hown c hc
    · rw [hAside.underway other hname] at hc
      have hFollows := h.underway other c hc
      obtain ⟨s, hget, hedit⟩ := hFollows.session
      refine ⟨?_, ?_, ?_, ⟨s, ?_, hedit⟩, hFollows.covers⟩
      · rw [hAside.promotions]
        exact hFollows.seen
      · rw [hAside.promotions, hAside.running]
        exact hFollows.chained
      · rw [hAside.promotions]
        exact hFollows.others
      · rw [hAside.sessions other hname]
        exact hget
  · rw [hAside.promotions]
    exact h.accounted

theorem edit (h : σ.Consistent schema modules first) (hidle : σ.underway name = none)
    {operation : Operation} (hedit : operation.isEdit = true) :
    Consistent schema modules first { σ with host := (σ.host.perform name operation).host } := by
  refine h.aside (aside_edit hedit) fun c hc => ?_
  exact absurd (hidle.symm.trans hc) (by simp)

/-- A commit begins with tasks for what differs from what is running by then. -/
theorem begin (h : σ.Consistent schema modules first)
    (hReads : ∀ owner m, Keyed.get? modules owner = some m → m.ReadsOnly) :
    (σ.begin name).Consistent schema modules first := by
  refine h.aside aside_begin fun c hc => ?_
  rw [Interleaved.begin, mark_self, Option.some.injEq] at hc
  subst hc
  have hRegistered : ∀ owner m, Keyed.get? σ.host.store.modules owner = some m → m.ReadsOnly :=
    h.registered ▸ hReads
  obtain ⟨hcovers, -⟩ := covers_select hRegistered (σ.host.session name)
  rw [h.declared, h.registered] at hcovers
  -- there has been no promotion since
  have hnone : σ.promotions.drop σ.promotions.length = [] := List.drop_length
  exact
    { seen := Nat.le_refl _
      chained := by
        show Chained _ (σ.promotions.drop _) _
        rw [hnone]
        exact .nil _
      others := by
        show ∀ q ∈ σ.promotions.drop _, _
        rw [hnone]
        exact fun _ hq => absurd hq (by simp)
      session := ⟨_, Keyed.get?_insert_self _ _ _, rfl⟩
      covers := hcovers }

/-- A commit goes on with the tasks that it has begun with, or ends. -/
theorem proceed (h : σ.Consistent schema modules first) (hc : σ.underway name = some c)
    {phase : Phase} {result : PhaseResult World Dict} :
    (σ.proceed name c phase result).Consistent schema modules first := by
  refine h.aside aside_proceed fun c' hc' => ?_
  have hFollows := h.underway name c hc
  rw [Interleaved.proceed] at hc' ⊢
  by_cases hfailures : result.failures = []
  · rw [if_pos hfailures, mark_self, Option.some.injEq] at hc'
    rw [if_pos hfailures]
    subst hc'
    exact ⟨hFollows.seen, hFollows.chained, hFollows.others, hFollows.session, hFollows.covers⟩
  · rw [if_neg hfailures, finish, mark_self] at hc'
    exact absurd hc' (by simp)

/-- The promotion that a commit ends with is accounted for. -/
theorem accounted_promotion (h : σ.Consistent schema modules first)
    (hc : σ.underway name = some c) :
    (σ.promotionOf name c).Accounted schema modules σ.promotions := by
  intro owned howned hmodule hchanges
  have hFollows := h.underway name c hc
  -- the session has stood still since its commit began, so what is promoted is what was selected
  -- from
  obtain ⟨s, hget, hedit⟩ := hFollows.session
  have hpromoted : (σ.promotionOf name c).promoted = c.selection.session.edit := by
    rw [← hedit, promotionOf, Host.session, hget]
    rfl
  by_cases hback : (σ.promotionOf name c).promoted.subtreeAt owned.path =
      c.base.subtreeAt owned.path
  · -- what is running differs from what was running then, so someone has promoted in between
    have hdiffers : c.base.subtreeAt owned.path ≠ σ.host.store.running.subtreeAt owned.path :=
      fun hsame => hchanges (hsame.symm.trans hback.symm)
    obtain ⟨q, hq, hqchanges⟩ := hFollows.chained.exists_changes hdiffers
    exact .inr (.inl ⟨hback, q, hq, hFollows.others q hq, hqchanges⟩)
  · rw [hpromoted] at hback
    -- the commit itself changes the position, so its selection has covered it
    rcases hFollows.covers owned howned hmodule (Ne.symm hback) with htask | hdisplaced
    · exact .inl htask
    · refine .inr (.inr ?_)
      rw [hpromoted]
      exact hdisplaced

/-- A commit sees one promotion more if another session promotes. -/
theorem follows_promote {other : String} {c' : Underway World Dict} (hname : name ≠ other)
    (hFollows : c'.Follows schema modules σ other) :
    c'.Follows schema modules (σ.promote name c) other := by
  -- the new promotion is the last one, so it is added behind those the commit has seen go by
  have hdrop : (σ.promotions ++ [σ.promotionOf name c]).drop c'.seen =
      σ.promotions.drop c'.seen ++ [σ.promotionOf name c] :=
    List.drop_append_of_le_length hFollows.seen
  obtain ⟨s, hget, hedit⟩ := hFollows.session
  refine ⟨?_, ?_, ?_, ⟨s, ?_, hedit⟩, hFollows.covers⟩
  · show c'.seen ≤ (σ.promotions ++ [_]).length
    have hseen := hFollows.seen
    rw [List.length_append]
    omega
  · show Chained _ ((σ.promotions ++ [σ.promotionOf name c]).drop _) _
    rw [hdrop]
    exact hFollows.chained.snoc rfl
  · show ∀ q ∈ (σ.promotions ++ [σ.promotionOf name c]).drop _, _
    rw [hdrop]
    intro q hq
    rcases List.mem_append.mp hq with hold | hnew
    · exact hFollows.others q hold
    · rw [List.mem_singleton.mp hnew]
      exact hname
  · exact (Host.get?_putSession_of_ne _ _ hname).trans hget

/-- A promotion is accounted for, and the other commits see one more. -/
theorem promote (h : σ.Consistent schema modules first) (hc : σ.underway name = some c) :
    (σ.promote name c).Consistent schema modules first := by
  refine ⟨h.declared, h.registered, h.chained.snoc rfl, ?_, ?_⟩
  · intro other c' hc'
    by_cases hname : name = other
    · -- its own commit is over
      subst hname
      rw [Interleaved.promote, finish, mark_self] at hc'
      exact absurd hc' (by simp)
    · have hother : σ.underway other = some c' := by
        rw [← hc']
        exact (if_neg (Ne.symm hname)).symm
      exact follows_promote hname (h.underway other c' hother)
  · intro before p after hp
    -- the promotion is the new one, or there were as many before it already
    rcases List.eq_nil_or_concat after with rfl | ⟨earlier, q, rfl⟩
    · obtain ⟨hbefore, hsingle⟩ := List.append_inj' hp rfl
      rw [← hbefore, ← List.singleton_inj.mp hsingle]
      exact h.accounted_promotion hc
    · rw [List.concat_eq_append, ← List.cons_append, ← List.append_assoc] at hp
      exact h.accounted before p earlier (List.append_inj' hp rfl).1

/-- Whatever happens in whatever order, the promotions are accounted for. -/
theorem run (h : σ.Consistent schema modules first)
    (hReads : ∀ owner m, Keyed.get? modules owner = some m → m.ReadsOnly) (actions : List Action) :
    (σ.run actions).Consistent schema modules first := by
  refine run_keeps ?_ ?_ ?_ ?_ h actions
  · intro σ name h
    exact h.begin hReads
  · intro σ name c phase result h hc
    exact h.proceed hc
  · intro σ name c h hc
    exact h.promote hc
  · intro σ name operation h hedit hidle
    exact h.edit hidle hedit

/-- A commit that nobody has overtaken has tasks for all that it changes at owned positions. -/
theorem has_task_of_undisturbed (h : σ.Consistent schema modules first)
    {before after : List Promotion} {p : Promotion} (hp : σ.promotions = before ++ p :: after)
    (hlast : before.length ≤ p.seen) {owned : Schema.OwnedPath}
    (howned : owned ∈ schema.ownedPaths) (hmodule : Keyed.contains modules owned.owner = true)
    (hchanges : p.Changes owned.path) :
    p.HasTask owned.path ∨ owned.Displaced p.base p.promoted := by
  rcases h.accounted before p after hp owned howned hmodule hchanges with
    htask | ⟨-, q, hq, -⟩ | hdisplaced
  · exact .inl htask
  · rw [List.drop_eq_nil_of_le hlast] at hq
    exact absurd hq (by simp)
  · exact .inr hdisplaced

end Consistent

/-- Before any step nothing has been promoted and no commit is under way. -/
theorem consistent_start (h : Host World Dict) :
    (start h).Consistent h.store.schema h.store.modules h.store.running where
  declared := rfl
  registered := rfl
  chained := .nil _
  underway := fun _ _ hc => absurd hc (by simp [start])
  accounted := fun _ _ _ hp => absurd hp (by simp [start])

end Interleaved

namespace Sample

/-- The small host with modules that read only. -/
def readers : Host Unit Unit :=
  { host with store := { host.store with
      modules := [("host", module [] (.value ())), ("net", module [] (.value ()))] } }

/-- One session selects, another one commits meanwhile, and the first one goes on. -/
def overtaken : List Interleaved.Action :=
  [.edit "a" (.setWords ["interface", "eth0"]), .advance "a",
    .edit "b" (.set ["system", "name"] "core")] ++
    List.replicate 5 (.advance "b") ++ List.replicate 4 (.advance "a")

/-- A value is in the place of the tag node. -/
def displaced : Host Unit Unit :=
  { readers with store := { readers.store with
      running := .subtree [("interface", .scalar "eth0")] } }

/-- The value is deleted, and the deletion committed. -/
def cleared : List Interleaved.Action :=
  .edit "a" (.delete ["interface"] none) :: List.replicate 5 (.advance "a")

/-- The sample modules read their context and edit nothing. -/
theorem readers_readsOnly (owner : String) (m : Module Unit Unit)
    (hm : Keyed.get? readers.store.modules owner = some m) : m.ReadsOnly := by
  have hmodule : (module [] (.value ())).ReadsOnly := fun _ _ => ⟨⟨(), rfl⟩, rfl⟩
  rcases List.mem_cons.mp (Keyed.mem_of_get? hm) with heq | hmem
  · rw [(Prod.mk.inj heq).2]
    exact hmodule
  · rw [(Prod.mk.inj (List.mem_singleton.mp hmem)).2]
    exact hmodule

end Sample

namespace Interleaved

/-! ## Changes without an owner -/

/-- Some promotion changes an owned position without a task for it. -/
def ChangesWithoutTask (h : Host World Dict) (actions : List Action) : Prop :=
  ∃ p ∈ ((start h).run actions).promotions, ∃ owned ∈ h.store.schema.ownedPaths,
    Keyed.contains h.store.modules owned.owner = true ∧ p.Changes owned.path ∧
      ¬ p.HasTask owned.path

/-- A session takes back what another one has promoted since it has selected its tasks, and has no
task for that. Nor has a session that clears a value from the place of a tag node. -/
theorem takes_back_without_task :
    (∀ owner m, Keyed.get? Sample.readers.store.modules owner = some m → m.ReadsOnly) ∧
      ChangesWithoutTask Sample.readers Sample.overtaken ∧
      ChangesWithoutTask Sample.displaced Sample.cleared := by
  refine ⟨Sample.readers_readsOnly, ?_, ?_⟩
  · refine ⟨_, List.mem_cons_of_mem _ (List.mem_cons_self ..),
      ⟨["system", "name"], "host", none, false⟩, by decide, by decide, ?_, ?_⟩
    · unfold Promotion.Changes
      decide
    · unfold Promotion.HasTask
      decide
  · refine ⟨_, List.mem_cons_self .., ⟨["interface"], "net", none, true⟩, by decide, by decide,
      ?_, ?_⟩
    · unfold Promotion.Changes
      decide
    · unfold Promotion.HasTask
      decide

/-- Whatever sessions do and in whatever order their commits take their steps, as long as modules
read and do not edit: there is a task for every owned position that a promotion changes, or it
brings back there what was running when its tasks were selected, and another session has promoted
something else in between. Only a value in the place of a tag node has neither, which takes a host
where not all conformed when it started. -/
theorem change_has_task_or_is_taken_back {h : Host World Dict}
    (hReads : ∀ owner m, Keyed.get? h.store.modules owner = some m → m.ReadsOnly)
    (actions : List Action) {before after : List Promotion} {p : Promotion}
    (hp : ((start h).run actions).promotions = before ++ p :: after) {owned : Schema.OwnedPath}
    (howned : owned ∈ h.store.schema.ownedPaths)
    (hmodule : Keyed.contains h.store.modules owned.owner = true)
    (hchanges : p.Changes owned.path) :
    p.HasTask owned.path ∨ p.TakesBack before owned.path ∨
      (owned.Displaced p.base p.promoted ∧ ¬ (h.store.schema.Read ∧ h.Sound h.store.schema)) := by
  have hConsistent := (consistent_start h).run hReads actions
  rcases hConsistent.accounted before p after hp owned howned hmodule hchanges with
    htask | hback | hdisplaced
  · exact .inl htask
  · exact .inr (.inl hback)
  · refine .inr (.inr ⟨hdisplaced, ?_⟩)
    rintro ⟨hRead, hSound⟩
    have hmem : p ∈ ((start h).run actions).promotions :=
      hp ▸ List.mem_append_right _ (List.mem_cons_self ..)
    have hpSound := ((sound_start hSound).run hRead.compiled actions).promotions p hmem
    exact not_displaced hRead howned hpSound.base hpSound.promoted hdisplaced

/-- What one session has promoted is taken back by the one that it has overtaken. -/
theorem change_is_taken_back_when_overtaken :
    ∃ q p, ((start Sample.readers).run Sample.overtaken).promotions = [q] ++ p :: [] ∧
      p.Changes ["system", "name"] ∧ p.TakesBack [q] ["system", "name"] := by
  have hp : ((start Sample.readers).run Sample.overtaken).promotions = [_] ++ _ :: [] := rfl
  have howned : ⟨["system", "name"], "host", none, false⟩ ∈
      Sample.readers.store.schema.ownedPaths := by decide
  have hmodule : Keyed.contains Sample.readers.store.modules "host" = true := by decide
  refine ⟨_, _, hp, by unfold Promotion.Changes; decide, ?_⟩
  rcases change_has_task_or_is_taken_back Sample.readers_readsOnly Sample.overtaken hp howned
    hmodule (by unfold Promotion.Changes; decide) with htask | hback | ⟨hdisplaced, -⟩
  · exact absurd htask (by unfold Promotion.HasTask; decide)
  · exact hback
  · exact absurd hdisplaced.1 (by decide)

end Interleaved

end RouterConfig
