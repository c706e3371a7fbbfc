import RouterConfig.Proofs.Schema.Owned

/-!
# RouterConfig — whose turn comes when

The owned positions of an orderly schema are the declared nodes that name an owner: listing
declarations and following paths find the same ones. They are listed in the order of their turns,
by priority and, among equals, by path, and none is listed twice. Main results:

* `Orderly.mem_ownedPaths_iff` — what is listed is what the schema declares;
* `declarationsBelow_pairwise` — declarations are listed in the order of their paths;
* `Orderly.ownedPaths_pairwise` — owned positions are listed in the order of their turns.
-/

namespace RouterConfig.Schema

/-- The priority that is declared at a path. -/
def priorityAt? (schema : Schema) (path : Path) : Option Int :=
  (schema.declared? path).bind Node.priority?

/-! ## Listing declarations -/

theorem Node.declarations_eq (n : Node) (path : Path) :
    n.declarations path = (path, n) :: declarationsBelow path n.children := by
  cases n
  rw [declarations]

/-- The declarations below a node are those of its children, one after the other. -/
theorem declarationsBelow_eq_flatMap (path : Path) (children : List (String × Node)) :
    declarationsBelow path children =
      children.flatMap fun entry => entry.2.declarations (path ++ [entry.1]) := by
  induction children with
  | nil => rw [declarationsBelow, List.flatMap_nil]
  | cons entry rest ih =>
    obtain ⟨name, child⟩ := entry
    rw [declarationsBelow, List.flatMap_cons, ih]

/-- What is declared at and below a node is listed with the path to the node and the way on. -/
theorem path_of_mem_declarations {n : Node} (hPlaced : n.Everywhere Node.Placed) {path : Path}
    {d : Path × Node} (h : d ∈ n.declarations path) : ∃ rest, d.1 = path ++ rest := by
  induction hPlaced generalizing path with
  | @intro n hplaced _ ih =>
    rw [Node.declarations_eq, declarationsBelow_eq_flatMap] at h
    rcases List.mem_cons.mp h with rfl | h
    · exact ⟨[], (List.append_nil path).symm⟩
    · obtain ⟨entry, hentry, hd⟩ := List.mem_flatMap.mp h
      obtain ⟨rest, hrest⟩ := ih entry hentry hd
      exact ⟨entry.1 :: rest, by rw [hrest, List.append_assoc]; rfl⟩

/-- A path is before those that go on from it, and the first names that differ decide between those
that part. -/
theorem path_lt_of_name_lt (path : Path) {name other : String} (h : name < other) (p q : Path) :
    path ++ name :: p < path ++ other :: q :=
  List.append_left_lt (List.cons_lt_cons_iff.mpr (.inl h))

theorem path_lt_append_cons (path : Path) (name : String) (rest : Path) :
    path < path ++ name :: rest := by
  have h : path ++ [] < path ++ name :: rest := List.append_left_lt (List.nil_lt_cons name rest)
  rwa [List.append_nil] at h

/-- The declarations of children are in the order of their paths, if those of each child are. -/
theorem declarationsBelow_pairwise {path : Path} {children : Keyed Node}
    (hOrdered : Keyed.Ordered children)
    (hbelow : ∀ entry ∈ children, entry.2.Everywhere Node.Placed)
    (hpairwise : ∀ entry ∈ children,
      (entry.2.declarations (path ++ [entry.1])).Pairwise fun a b => a.1 < b.1) :
    (declarationsBelow path children).Pairwise fun a b => a.1 < b.1 := by
  rw [declarationsBelow_eq_flatMap, List.pairwise_flatMap]
  refine ⟨hpairwise, hOrdered.imp_of_mem ?_⟩
  intro first second hfirst hsecond hlt a ha b hb
  -- the paths part at the names of the two children
  obtain ⟨p, hp⟩ := path_of_mem_declarations (hbelow first hfirst) ha
  obtain ⟨q, hq⟩ := path_of_mem_declarations (hbelow second hsecond) hb
  rw [hp, hq, List.append_assoc, List.append_assoc]
  exact path_lt_of_name_lt path hlt p q

/-- The declarations of a node are in the order of their paths. -/
theorem declarations_pairwise {n : Node} (hPlaced : n.Everywhere Node.Placed) (path : Path) :
    (n.declarations path).Pairwise fun a b => a.1 < b.1 := by
  induction hPlaced generalizing path with
  | @intro n hplaced hchildren ih =>
    rw [Node.declarations_eq]
    refine List.pairwise_cons.mpr ⟨fun d hd => ?_, declarationsBelow_pairwise hplaced.ordered
      hchildren fun entry hentry => ih entry hentry _⟩
    -- what is below the node is listed with a longer path
    rw [declarationsBelow_eq_flatMap] at hd
    obtain ⟨entry, hentry, hd⟩ := List.mem_flatMap.mp hd
    obtain ⟨rest, hrest⟩ := path_of_mem_declarations (hchildren entry hentry) hd
    rw [hrest, List.append_assoc]
    exact path_lt_append_cons path entry.1 rest

/-! ## What is listed is what is declared -/

/-- Below an instance of a tag node nothing is owned. -/
theorem owner?_of_instance_leads {n d : Node} (hPlaced : n.Placed) (hTag : n.isTag = true)
    {path : Path} (h : (Place.instanceOf n).Leads path (.declared d)) : d.owner? = none := by
  cases h with
  | @step _ next _ name rest henter hrest =>
    have hplain : (Place.instanceOf n).isTag = false ∧ (Place.instanceOf n).isLeaf = false :=
      ⟨rfl, rfl⟩
    obtain ⟨child, hchild, rfl⟩ :=
      (Place.enter_eq_ok_iff_of_not_isTag hplain.1 hplain.2).mp henter
    -- a schema that names an owner below a tag node is not compiled
    have hownerless : (Place.declared child).node.Everywhere Node.Ownerless :=
      hPlaced.ownerless hTag (name, child) (Keyed.mem_of_get? hchild)
    exact (Place.everywhere_of_leads hownerless hrest).here

/-- An owner that is found below a node is listed there. -/
theorem mem_declarations_of_leads {n d : Node} (hPlaced : n.Everywhere Node.Placed) (path : Path)
    {rest : Path} (hLeads : (Place.declared n).Leads rest (.declared d))
    (howner : d.owner?.isSome = true) : (path ++ rest, d) ∈ n.declarations path := by
  -- on the nodes, each of which lists itself and then what is below its children
  induction hPlaced generalizing path rest with
  | @intro n hplaced _ ih =>
    rw [Node.declarations_eq, declarationsBelow_eq_flatMap]
    cases rest with
    | nil =>
      obtain rfl := Place.declared.inj (Place.leads_nil_iff.mp hLeads)
      rw [List.append_nil]
      exact List.mem_cons_self ..
    | cons name rest =>
      obtain ⟨next, henter, hrest⟩ := Place.leads_cons_iff.mp hLeads
      by_cases hTag : (Place.declared n).isTag = true
      · -- the way would lead through an instance
        rw [Place.enter_of_isTag hTag, Except.ok.injEq] at henter
        subst henter
        rw [owner?_of_instance_leads hplaced hTag hrest] at howner
        exact absurd howner (by simp)
      · obtain ⟨child, hchild, rfl⟩ := (Place.enter_eq_ok_iff_of_not_isTag (by simpa using hTag)
          (Place.not_isLeaf_of_enter henter)).mp henter
        have hmem : (name, child) ∈ n.children := Keyed.mem_of_get? hchild
        have hlisted := ih (name, child) hmem (path ++ [name]) hrest
        rw [List.append_assoc] at hlisted
        exact List.mem_cons_of_mem _ (List.mem_flatMap.mpr ⟨(name, child), hmem, hlisted⟩)

/-- What is listed of the positions with an owner is what the schema declares of them. -/
theorem Orderly.mem_ownedPaths_iff {schema : Schema} (h : schema.Orderly) {owned : OwnedPath} :
    owned ∈ schema.ownedPaths ↔
      ∃ node, schema.declared? owned.path = some node ∧ node.owner? = some owned.owner ∧
        node.priority? = owned.priority? ∧ node.isTag = owned.isTag := by
  rw [ownedPaths, (sortBy_perm OwnedPath.precedes _).mem_iff, List.mem_filterMap]
  constructor
  · -- what is listed with an owner can be reached, so that it is what its path declares
    rintro ⟨⟨path, node⟩, hdeclared, hof⟩
    obtain ⟨owner, howner, rfl⟩ := Option.map_eq_some_iff.mp hof
    have hregular := h.compiled.regular
    have hroot : schema.rootNode.Everywhere Node.Placed := h.placed
    obtain ⟨rest, hpath, hLeads⟩ := leads_of_declarations schema.rootNode []
      path node hroot hregular
      (by rw [howner]; rfl) (by rw [Node.declarations_eq]; exact List.mem_cons_of_mem _ hdeclared)
    rw [List.nil_append] at hpath
    exact ⟨node, declared?_eq_some_iff.mpr (hpath ▸ hLeads), howner, rfl, rfl⟩
  · -- what its path declares is listed there, for owned nodes are below no tag
    rintro ⟨node, hdeclared, howner, hpriority, hTag⟩
    have hlisted := mem_declarations_of_leads h.placed []
      (declared?_eq_some_iff.mp hdeclared) (by rw [howner]; rfl)
    rw [Node.declarations_eq, List.nil_append] at hlisted
    refine ⟨(owned.path, node), ?_, ?_⟩
    · -- nobody owns the root
      rcases List.mem_cons.mp hlisted with heq | hbelow
      · rw [(Prod.mk.inj heq).2] at howner
        exact absurd howner (by simp [rootNode])
      · exact hbelow
    · rw [owned?, howner, hpriority, hTag]
      rfl

/-! ## The order of turns -/

/-- Whether a priority comes strictly before another one; any comes before none. -/
def Sooner : Option Int → Option Int → Prop
  | some p, some q => p < q
  | some _, none => True
  | none, _ => False

theorem Sooner.irrefl (p? : Option Int) : ¬ Sooner p? p? := by
  cases p? with
  | none => exact id
  | some p => exact Int.lt_irrefl p

/-- Whether the turn of an owned position comes strictly before that of another. -/
def OwnedPath.Before (a b : OwnedPath) : Prop :=
  Sooner a.priority? b.priority? ∨ a.priority? = b.priority? ∧ a.path < b.path

theorem OwnedPath.precedes_total (a b : OwnedPath) :
    a.precedes b = true ∨ b.precedes a = true := by
  rw [precedes, precedes]
  cases a.priority? <;> cases b.priority? <;> simp [Int.le_total]

/-- To come before one another is transitive among owned paths. -/
theorem OwnedPath.precedes_trans (a b c : OwnedPath) (hab : a.precedes b = true)
    (hbc : b.precedes c = true) : a.precedes c = true := by
  rw [precedes] at hab hbc ⊢
  -- of the eight cases all but the one of three priorities are settled by who has none
  cases ha : a.priority? <;> cases hb : b.priority? <;> cases hc : c.priority? <;>
    simp only [ha, hb, hc, decide_eq_true_eq, Bool.false_eq_true] at hab hbc ⊢
  omega

/-- Of two positions the first is sooner, or their priorities are equal. -/
theorem OwnedPath.sooner_or_eq {a b : OwnedPath} (h : a.precedes b = true) :
    Sooner a.priority? b.priority? ∨ (b.precedes a = true ∧ a.priority? = b.priority?) := by
  rw [precedes] at h ⊢
  -- a node without a priority comes last, so only two nodes with one are compared by it
  cases ha : a.priority? with
  | none =>
    cases hb : b.priority? with
    | none => exact .inr ⟨rfl, rfl⟩
    | some q => simp [ha, hb] at h
  | some p =>
    cases hb : b.priority? with
    | none => exact .inl trivial
    | some q =>
      simp only [ha, hb, decide_eq_true_eq] at h
      rcases Int.lt_or_eq_of_le h with hlt | rfl
      · exact .inl hlt
      · exact .inr ⟨by simp, rfl⟩

/-- The declarations of a schema are listed in the order of their paths. -/
theorem Orderly.declared_pairwise {schema : Schema} (h : schema.Orderly) :
    (declarationsBelow [] schema.top).Pairwise fun a b => a.1 < b.1 :=
  (List.pairwise_cons.mp (Node.declarations_eq _ _ ▸ declarations_pairwise h.placed [])).2

/-- The owned paths come in their order: those with a priority first, the rest by path. -/
theorem Orderly.ownedPaths_pairwise {schema : Schema} (h : schema.Orderly) :
    schema.ownedPaths.Pairwise OwnedPath.Before := by
  -- those without an owner drop out, and the others stay in the order of their paths
  have hlisted : ((declarationsBelow [] schema.top).filterMap owned?).Pairwise
      fun a b => a.path < b.path := by
    refine h.declared_pairwise.filterMap owned? fun a b hlt a' ha b' hb => ?_
    obtain ⟨_, -, rfl⟩ := Option.map_eq_some_iff.mp ha
    obtain ⟨_, -, rfl⟩ := Option.map_eq_some_iff.mp hb
    exact hlt
  -- sorting by priority keeps the order of the paths among equals
  refine (sortBy_pairwise OwnedPath.precedes_total OwnedPath.precedes_trans hlisted).imp ?_
  rintro a b ⟨hab, hstable⟩
  rcases OwnedPath.sooner_or_eq hab with hsooner | ⟨hba, hequal⟩
  · exact .inl hsooner
  · exact .inr ⟨hequal, hstable hba⟩

end RouterConfig.Schema
