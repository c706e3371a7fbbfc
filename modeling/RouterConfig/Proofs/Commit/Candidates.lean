import RouterConfig.Proofs.Commit.Interleaving
import RouterConfig.Proofs.Schema.Turns

/-!
# RouterConfig — the candidates of a commit

Where both sides conform to an orderly schema, the candidates are determined by the schema and the
two configurations: which positions are owned, whether the sides differ there, and which instances
stand on either side. Main results:

* `mem_instancesAt_iff` — the instances of a tag node are the names on either side;
* `mem_candidates_iff` — a candidate is what is due and has a module;
* `candidates_exact` — the candidates are all that is due, in the order of their turns, and nothing
  that differs below an owned position goes without one.
-/

namespace RouterConfig

variable {World Dict : Type}

/-! ## What is due -/

namespace TaskName

/-- Whether a task is due: its owner owns a position where the two sides differ and, where that is a
tag node, its instance stands on one of them. -/
def Due (schema : Schema) (edit running : Tree) (task : TaskName) : Prop :=
  ∃ node, schema.declared? task.path = some node ∧ node.owner? = some task.owner ∧
    edit.subtreeAt task.path ≠ running.subtreeAt task.path ∧
    if node.isTag then
      (edit.get? (task.path ++ [task.instanceName])).isSome = true ∨
        (running.get? (task.path ++ [task.instanceName])).isSome = true
    else task.instanceName = ""

/-- Whether the turn of a task comes before that of another: by priority, by path and, last, by the
name of the instance. -/
def Before (schema : Schema) (a b : TaskName) : Prop :=
  Schema.Sooner (schema.priorityAt? a.path) (schema.priorityAt? b.path) ∨
    schema.priorityAt? a.path = schema.priorityAt? b.path ∧
      (a.path < b.path ∨ a.path = b.path ∧ a.instanceName < b.instanceName)

theorem Before.irrefl (schema : Schema) (a : TaskName) : ¬ a.Before schema a := by
  rintro (hsooner | ⟨-, hpath | ⟨-, hname⟩⟩)
  · exact Schema.Sooner.irrefl _ hsooner
  · exact List.lt_irrefl _ hpath
  · exact String.lt_irrefl _ hname

end TaskName

/-! ## Instances -/

/-- The names below a subtree are those under which something stands. -/
theorem mem_keys_iff {t : Tree} (ht : t.isSubtree = true) {name : String} :
    name ∈ t.keys ↔ (t.get? [name]).isSome = true := by
  cases t with
  | scalar value => exact absurd ht (by simp [Tree.isSubtree])
  | list values => exact absurd ht (by simp [Tree.isSubtree])
  | subtree children =>
    rw [Tree.keys, ← Keyed.isSome_get?_iff, Tree.get?]
    cases Keyed.get? children name <;> rfl

/-- Below a subtree a name is one that something stands under. -/
theorem mem_namesAt_iff {t : Tree} {path : Path} (ht : (t.subtreeAt path).isSubtree = true)
    {name : String} : name ∈ t.namesAt path ↔ (t.get? (path ++ [name])).isSome = true := by
  rw [namesAt_eq_keys, mem_keys_iff ht, Tree.get?_append, Tree.subtreeAt]
  cases t.get? path with
  -- where nothing stands there are no names, as in an empty subtree
  | none => exact ⟨fun h => absurd h (by simp [Tree.empty, Tree.get?]), fun h => absurd h (by simp)⟩
  | some node => rfl

/-- Where both sides have a subtree an instance is a name that something stands under on either
side. -/
theorem mem_instancesAt_iff {session : Session} {running : Tree} {path : Path}
    (hroot : session.level = []) (hedit : (session.edit.subtreeAt path).isSubtree = true)
    (hrunning : (running.subtreeAt path).isSubtree = true) {name : String} :
    name ∈ instancesAt running session path ↔
      (session.edit.get? (path ++ [name])).isSome = true ∨
        (running.get? (path ++ [name])).isSome = true := by
  have habsolute : session.absolute path = path := by rw [Session.absolute, hroot]; rfl
  rw [instancesAt, Keyed.mem_sortedNames, List.mem_append, Session.children, Session.children,
    habsolute, Session.side, Session.side, if_neg (by simp), if_pos rfl, mem_namesAt_iff hedit,
    mem_namesAt_iff hrunning]

/-- At the root a position is changed if and only if the two trees differ there. -/
theorem changed_iff {session : Session} {running : Tree} {path : Path}
    (hroot : session.level = []) :
    session.changed running path = true ↔
      session.edit.subtreeAt path ≠ running.subtreeAt path := by
  have habsolute : session.absolute path = path := by rw [Session.absolute, hroot]; rfl
  have h := Session.changed_eq_false_iff session running path
  rw [habsolute] at h
  rw [Ne, ← h, Bool.not_eq_false]

/-- What an owned position gives. -/
theorem mem_candidatesOf_iff {modules : Modules World Dict} {running : Tree} {session : Session}
    {owned : Schema.OwnedPath} {c : Candidate World Dict} :
    c ∈ candidatesOf modules running session owned ↔
      session.changed running owned.path = true ∧
        Keyed.get? modules c.name.owner = some c.module ∧
        c.name.owner = owned.owner ∧ c.name.path = owned.path ∧
        if owned.isTag then c.name.instanceName ∈ instancesAt running session owned.path
        else c.name.instanceName = "" := by
  obtain ⟨⟨owner, path, instanceName⟩, module⟩ := c
  rw [candidatesOf]
  -- an unchanged path gives no candidate, whatever is registered for its owner
  by_cases hchanged : session.changed running owned.path = true
  · rw [if_pos hchanged]
    cases hmodule : Keyed.get? modules owned.owner with
    | none =>
      refine ⟨fun h => absurd h (by simp), ?_⟩
      rintro ⟨-, hregistered, rfl, -⟩
      rw [hmodule] at hregistered
      exact absurd hregistered (by simp)
    | some m =>
      dsimp only
      -- a tag node gives one candidate an instance, any other node just one
      constructor
      · intro h
        split at h
        · rename_i hTag
          obtain ⟨name, hname, heq⟩ := List.mem_map.mp h
          cases heq
          exact ⟨hchanged, hmodule, rfl, rfl, by rw [if_pos hTag]; exact hname⟩
        · rename_i hTag
          cases List.mem_singleton.mp h
          exact ⟨hchanged, hmodule, rfl, rfl, by rw [if_neg hTag]⟩
      · rintro ⟨-, hregistered, rfl, rfl, hinstance⟩
        obtain rfl := Option.some.inj (hmodule.symm.trans hregistered)
        split at hinstance
        · rename_i hTag
          rw [if_pos hTag]
          exact List.mem_map.mpr ⟨instanceName, hinstance, rfl⟩
        · rename_i hTag
          rw [if_neg hTag, hinstance]
          exact List.mem_singleton.mpr rfl
  · rw [if_neg hchanged]
    refine ⟨fun h => absurd h (by simp), ?_⟩
    rintro ⟨h, -⟩
    exact absurd h hchanged

section Conforming

variable {schema : Schema} {modules : Modules World Dict} {running : Tree} {session : Session}

/-- Who is a candidate, for trees that conform: one that is due, with the module of its owner. -/
theorem mem_candidates_iff (hSchema : schema.Orderly) (hedit : schema.Admits session.edit)
    (hrunning : schema.Admits running) (hroot : session.level = []) {c : Candidate World Dict} :
    c ∈ candidates schema modules running session ↔
      c.name.Due schema session.edit running ∧
        Keyed.get? modules c.name.owner = some c.module := by
  -- both ways go through the declared paths; what is asked at each is whether it has changed
  rw [candidates, List.mem_flatMap]
  constructor
  · rintro ⟨owned, howned, hc⟩
    obtain ⟨node, hdeclared, howner, -, hTag⟩ := hSchema.mem_ownedPaths_iff.mp howned
    obtain ⟨hchanged, hregistered, howner', hpath, hinstance⟩ := mem_candidatesOf_iff.mp hc
    rw [changed_iff hroot] at hchanged
    rw [← hpath] at hdeclared hchanged hinstance
    have hLeads := Schema.declared?_eq_some_iff.mp hdeclared
    refine ⟨⟨node, hdeclared, howner' ▸ howner, hchanged, ?_⟩, hregistered⟩
    rw [← hTag] at hinstance
    -- at a tag node that conforms both sides have subtrees, so that names are instances
    split at hinstance
    · rename_i hnode
      rw [if_pos hnode]
      exact (mem_instancesAt_iff hroot (hedit.isSubtree_of_isTag hLeads hnode)
        (hrunning.isSubtree_of_isTag hLeads hnode)).mp hinstance
    · rename_i hnode
      rw [if_neg hnode]
      exact hinstance
  · rintro ⟨⟨node, hdeclared, howner, hdiffers, hinstance⟩, hregistered⟩
    have hLeads := Schema.declared?_eq_some_iff.mp hdeclared
    refine ⟨⟨c.name.path, c.name.owner, node.priority?, node.isTag⟩,
      hSchema.mem_ownedPaths_iff.mpr ⟨node, hdeclared, howner, rfl, rfl⟩,
      mem_candidatesOf_iff.mpr ⟨(changed_iff hroot).mpr hdiffers, hregistered, rfl, rfl, ?_⟩⟩
    dsimp only
    split at hinstance
    · rename_i hnode
      rw [if_pos hnode]
      exact (mem_instancesAt_iff hroot (hedit.isSubtree_of_isTag hLeads hnode)
        (hrunning.isSubtree_of_isTag hLeads hnode)).mpr hinstance
    · rename_i hnode
      rw [if_neg hnode]
      exact hinstance

/-! ## Their order -/

theorem priorityAt?_of_mem_ownedPaths (hSchema : schema.Orderly) {owned : Schema.OwnedPath}
    (h : owned ∈ schema.ownedPaths) : schema.priorityAt? owned.path = owned.priority? := by
  obtain ⟨node, hdeclared, -, hpriority, -⟩ := hSchema.mem_ownedPaths_iff.mp h
  rw [Schema.priorityAt?, hdeclared]
  exact hpriority

/-- The candidates of one position are in the order of their instances. -/
theorem candidatesOf_pairwise (owned : Schema.OwnedPath) :
    (candidatesOf modules running session owned).Pairwise
      fun a b => a.name.Before schema b.name := by
  rw [candidatesOf]
  split
  · cases Keyed.get? modules owned.owner with
    | none => exact List.Pairwise.nil
    | some m =>
      dsimp only
      split
      · rw [List.pairwise_map]
        exact (Keyed.sortedNames_pairwise _).imp fun hlt => .inr ⟨rfl, .inr ⟨rfl, hlt⟩⟩
      · exact List.pairwise_singleton _ _
  · exact List.Pairwise.nil

/-- The candidates come in their order: by priority, then by path, then by instance. -/
theorem candidates_pairwise (hSchema : schema.Orderly) :
    (candidates schema modules running session).Pairwise
      fun a b => a.name.Before schema b.name := by
  rw [candidates, List.pairwise_flatMap]
  refine ⟨fun owned _ => candidatesOf_pairwise owned, hSchema.ownedPaths_pairwise.imp_of_mem ?_⟩
  -- candidates of different positions stand to each other as their positions do
  intro first second hfirst hsecond hbefore a ha b hb
  obtain ⟨-, -, -, hapath, -⟩ := mem_candidatesOf_iff.mp ha
  obtain ⟨-, -, -, hbpath, -⟩ := mem_candidatesOf_iff.mp hb
  rw [TaskName.Before, hapath, hbpath, priorityAt?_of_mem_ownedPaths hSchema hfirst,
    priorityAt?_of_mem_ownedPaths hSchema hsecond]
  rcases hbefore with hsooner | ⟨hequal, hlt⟩
  · exact .inl hsooner
  · exact .inr ⟨hequal, .inl hlt⟩

/-! ## Nothing is missed -/

/-- Sides that differ strictly below a position differ at the position, where nothing is as good as
an empty subtree. -/
theorem subtreeAt_ne_of_below {t u : Tree} {path rest : Path} (hrest : rest ≠ [])
    (h : t.get? (path ++ rest) ≠ u.get? (path ++ rest)) :
    t.subtreeAt path ≠ u.subtreeAt path := by
  intro heq
  rw [← Tree.get?_subtreeAt _ _ hrest, ← Tree.get?_subtreeAt _ _ hrest, heq] at h
  exact h rfl

/-- Sides that differ at an owned position give a candidate for it. -/
theorem exists_candidate_of_differs (hSchema : schema.Orderly) (hedit : schema.Admits session.edit)
    (hrunning : schema.Admits running) {path : Path} {node : Schema.Node} {owner : String}
    (hdeclared : schema.declared? path = some node) (howner : node.owner? = some owner)
    (hmodule : Keyed.contains modules owner = true) (hroot : session.level = [])
    (hdiffers : session.edit.subtreeAt path ≠ running.subtreeAt path) :
    ∃ c ∈ candidates schema modules running session, c.name.path = path := by
  have howned : (⟨path, owner, node.priority?, node.isTag⟩ : Schema.OwnedPath) ∈
      schema.ownedPaths := hSchema.mem_ownedPaths_iff.mpr ⟨node, hdeclared, howner, rfl, rfl⟩
  have hreset : session.resetLevel = session := by
    rw [Session.resetLevel, ← hroot]
  -- a tag node that one side has a value in the place of would be the one exception
  rcases covers_candidates schema modules running session _ howned hmodule hdiffers.symm with
    ⟨task, htask, hpath⟩ | ⟨hTag, hvalue⟩
  · rw [hreset] at htask
    obtain ⟨c, hc, rfl⟩ := List.mem_map.mp htask
    exact ⟨c, hc, hpath⟩
  · dsimp only at hTag hvalue
    have hLeads := Schema.declared?_eq_some_iff.mp hdeclared
    rw [hrunning.isSubtree_of_isTag hLeads hTag, hedit.isSubtree_of_isTag hLeads hTag] at hvalue
    exact absurd hvalue (by simp)

/-- With the cursor at the root, and both sides conforming to an orderly schema:

* the candidates stand in the order of their turns, by priority (none last), path and instance, and
  none is there twice;
* they are what is due and has a module: each owned position that changed, once by itself or, where
  it is a tag node, once for each instance on either side;
* wherever the sides differ, in any way, strictly below an owned position whose owner has a module,
  there is a candidate for the position, and where they are equal at it there is none. -/
theorem candidates_exact (hSchema : schema.Orderly) (hedit : schema.Admits session.edit)
    (hrunning : schema.Admits running) (hroot : session.level = []) :
    (((candidates schema modules running session).map Candidate.name).Pairwise
        (TaskName.Before schema) ∧
      ((candidates schema modules running session).map Candidate.name).Nodup) ∧
    (∀ c, c ∈ candidates schema modules running session ↔
      c.name.Due schema session.edit running ∧
        Keyed.get? modules c.name.owner = some c.module) ∧
    (∀ path node owner, schema.declared? path = some node → node.owner? = some owner →
      Keyed.contains modules owner = true → ∀ rest, rest ≠ [] →
      session.edit.get? (path ++ rest) ≠ running.get? (path ++ rest) →
      ∃ c ∈ candidates schema modules running session, c.name.path = path) ∧
    ∀ path, session.edit.subtreeAt path = running.subtreeAt path →
      ∀ c ∈ candidates schema modules running session, c.name.path ≠ path := by
  have hpairwise : ((candidates schema modules running session).map Candidate.name).Pairwise
      (TaskName.Before schema) := List.pairwise_map.mpr (candidates_pairwise hSchema)
  refine ⟨⟨hpairwise, hpairwise.imp ?_⟩, ?_, ?_, ?_⟩
  · -- no name comes before itself, so none is listed twice
    rintro a b hbefore rfl
    exact TaskName.Before.irrefl schema a hbefore
  · intro c
    exact mem_candidates_iff hSchema hedit hrunning hroot
  · -- what differs below an owned path makes that path differ too
    intro path node owner hdeclared howner hmodule rest hrest hdiffers
    exact exists_candidate_of_differs hSchema hedit hrunning hdeclared howner hmodule hroot
      (subtreeAt_ne_of_below hrest hdiffers)
  · rintro path hsame c hc rfl
    obtain ⟨⟨node, -, -, hdiffers, -⟩, -⟩ :=
      (mem_candidates_iff hSchema hedit hrunning hroot).mp hc
    exact hdiffers hsame

end Conforming

namespace Sample

/-- The sample schema is orderly: every map of it has its names in order, and nothing is owned below
a tag. -/
theorem orderly : Sample.schema.Orderly := by
  refine ⟨definitions, ⟨by unfold Keyed.Ordered; decide, ?_⟩, rfl⟩
  have hleaf : ∀ d : Schema.Definition, d.children = [] → d.Orderly := by
    intro d hd
    exact .intro (hd ▸ List.Pairwise.nil) (by simp [hd])
  intro entry hentry
  rcases List.mem_cons.mp hentry with rfl | hentry
  · refine .intro (by unfold Keyed.Ordered; decide) fun child hchild => ?_
    rcases List.mem_cons.mp hchild with rfl | hchild
    · exact hleaf _ rfl
    · rw [List.mem_singleton.mp hchild]
      exact hleaf _ rfl
  · rw [List.mem_singleton.mp hentry]
    refine .intro (by unfold Keyed.Ordered; decide) fun child hchild => ?_
    rw [List.mem_singleton.mp hchild]
    exact hleaf _ rfl

/-- One instance goes, another one comes, and the system gets another name. -/
def changes : List (String × Operation) :=
  [("c", .deleteWords ["interface", "eth1"]), ("c", .setWords ["interface", "eth2"]),
    ("c", .setWords ["system", "name", "edge"])]

/-- The host on which these changes wait for their commit. -/
def changed : Host Unit Unit := host.run (steps ++ changes)

end Sample

/-- An instance that has gone gives a candidate, as do those that have come and that have stayed. -/
theorem candidates_exact_of_changes :
    (Sample.schema.Orderly ∧ Sample.schema.Admits (Sample.changed.session "c").edit ∧
      Sample.schema.Admits Sample.changed.store.running ∧
      (Sample.changed.session "c").level = []) ∧
    (candidates Sample.schema Sample.changed.store.modules Sample.changed.store.running
      (Sample.changed.session "c")).map Candidate.name =
        [⟨"net", ["interface"], "eth0"⟩, ⟨"net", ["interface"], "eth1"⟩,
          ⟨"net", ["interface"], "eth2"⟩, ⟨"host", ["system", "name"], ""⟩] ∧
    ∃ c ∈ candidates Sample.schema Sample.changed.store.modules Sample.changed.store.running
      (Sample.changed.session "c"), c.name.path = ["interface"] := by
  have hSound : Sample.changed.Sound Sample.schema :=
    (Sample.reachable (Sample.steps ++ Sample.changes)).sound Sample.compiled
  have hedit := (hSound.session "c").edit
  have hrunning := hSound.store.running
  -- the instance that has gone is strictly below the position of its owner
  have hdiffers : (Sample.changed.session "c").edit.get? (["interface"] ++ ["eth1"]) ≠
      Sample.changed.store.running.get? (["interface"] ++ ["eth1"]) := by decide
  exact ⟨⟨Sample.orderly, hedit, hrunning, rfl⟩, rfl,
    (candidates_exact Sample.orderly hedit hrunning rfl).2.2.1 ["interface"] _ "net" rfl rfl rfl
      ["eth1"] (by simp) hdiffers⟩

end RouterConfig
