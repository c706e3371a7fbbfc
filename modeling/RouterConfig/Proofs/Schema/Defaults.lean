import RouterConfig.Proofs.Schema.Owned
import RouterConfig.Proofs.Tree.Descending
import RouterConfig.Schema.Defaults

/-!
# RouterConfig — where defaults stand

The defaults below a position are collected in the shape of a configuration. A path that passes no
tag node finds there what is there by default at the declaration that it leads to: the default of a
leaf, or a subtree, which is there if a leaf with a default is below. Main results:

* `Schema.Orderly.fillable` — a default has the shape of its leaf;
* `Schema.Place.get?_defaultsBelow_iff` — what is found among the defaults below a place;
* `Schema.Place.Finds.subtree` — a subtree among the defaults is on the way to a leaf that has one;
* `Schema.Place.Finds.shaped` — defaults have the shape that the schema declares.
-/

namespace RouterConfig.Schema

/-! ## Shapes -/

/-- A node whose shape is that of a place, whatever its values are and whatever stands below it. -/
inductive Place.Shaped (place : Place) : Tree → Prop where
  | subtree {children : Children} :
    place.isLeaf = false → Keyed.Ordered children → Shaped place (.subtree children)
  | scalar {value : String} : place.isLeaf = true → place.node.multi = false →
    (place.node.valueless = true → value = "") → Shaped place (.scalar value)
  | list {values : List String} :
    place.isLeaf = true → place.node.multi = true → Shaped place (.list values)

theorem Place.Fits.shaped {place : Place} {t : Tree} (h : place.Fits t) : place.Shaped t := by
  cases h with
  | subtree hLeaf hOrdered => exact .subtree hLeaf hOrdered
  | presence hLeaf hone _ => exact .scalar hLeaf hone fun _ => rfl
  | value hLeaf hone hless _ => exact .scalar hLeaf hone fun h => absurd h (by simp [hless])
  | values hLeaf hmany _ _ _ => exact .list hLeaf hmany

/-- What has the shape of a leaf is no subtree. -/
theorem Place.Shaped.isSubtree_eq {place : Place} {t : Tree} (h : place.Shaped t) :
    t.isSubtree = !place.isLeaf := by
  cases h with
  | subtree hLeaf => simp [hLeaf, Tree.isSubtree]
  | scalar hLeaf => simp [hLeaf, Tree.isSubtree]
  | list hLeaf => simp [hLeaf, Tree.isSubtree]

/-- A default is a list if it is for a leaf of many values, and a scalar otherwise. -/
theorem defaultTree_eq_ok {multi : Bool} {value : Yaml.Value} {tree : Tree}
    (h : defaultTree multi value = .ok tree) :
    (multi = true ∧ ∃ values, tree = .list values) ∨
      (multi = false ∧ ∃ value, tree = .scalar value) := by
  unfold defaultTree at h
  split at h
  · split at h
    · rename_i hMulti
      split at h
      · exact .inl ⟨hMulti, _, (Except.ok.inj h).symm⟩
      · exact absurd h (by simp)
    · exact absurd h (by simp)
  · split at h
    · cases multi with
      | true => exact .inl ⟨rfl, _, (Except.ok.inj h).symm⟩
      | false => exact .inr ⟨rfl, _, (Except.ok.inj h).symm⟩
    · exact absurd h (by simp)

/-- A node whose default, if it has one, has the shape of the node. -/
def Node.DefaultShaped (n : Node) : Prop :=
  ∀ tree, n.default? = some tree → (Place.declared n).Shaped tree

/-- A definition gives a node whose default has the shape that `multi` asks for. -/
theorem Definition.gives_defaultShaped : Definition.Gives Node.DefaultShaped := by
  rintro d path belowTag default? constraint? nodes h - tree rfl
  obtain ⟨hfault, hdefault, -⟩ := attributes_eq_ok h
  obtain ⟨value, hvalue, htree⟩ := readDefault_eq_ok_some hdefault
  obtain ⟨-, hattribute, hvalueless, -⟩ := rules_of_attributeFault? hfault
  have hLeaf : (Place.declared (d.node (some tree) constraint? nodes)).isLeaf = true := by
    refine decide_eq_true (Decidable.byContradiction fun hkind => ?_)
    rw [(hattribute hkind).2.2.1] at hvalue
    exact absurd hvalue (by simp)
  rcases defaultTree_eq_ok htree with ⟨hmany, values, rfl⟩ | ⟨hone, text, rfl⟩
  · exact .list hLeaf hmany
  · refine .scalar hLeaf hone fun hless => ?_
    rw [(hvalueless hless).2] at hvalue
    exact absurd hvalue (by simp)

/-- What collecting defaults needs to know of a single node. -/
structure Node.Fillable (n : Node) : Prop where
  ordered : Keyed.Ordered n.children
  shaped : n.DefaultShaped

theorem Node.Everywhere.and {P Q R : Node → Prop} (hR : ∀ n, P n → Q n → R n) {n : Node}
    (hP : n.Everywhere P) (hQ : n.Everywhere Q) : n.Everywhere R := by
  induction hP with
  | intro hhere _ ih =>
    exact .intro (hR _ hhere hQ.here) fun entry hmem => ih entry hmem (hQ.child hmem)

theorem Orderly.fillable {schema : Schema} (h : schema.Orderly) :
    schema.rootNode.Everywhere Node.Fillable :=
  .and (fun _ hPlaced hShaped => ⟨hPlaced.ordered, hShaped⟩) h.placed
    (h.compiled.everywhere Definition.gives_defaultShaped fun tree htree =>
      absurd htree (by simp [rootNode]))

/-! ## Ways past tag nodes -/

/-- A path comes to a tag node, or leads on from one. -/
def Place.MeetsTag (place : Place) (path : Path) : Prop :=
  ∃ above tag, above <+: path ∧ place.Leads above tag ∧ tag.isTag = true

/-- A path leads to a leaf that has a default, through internal nodes only. -/
def Place.DefaultsTo (place : Place) (path : Path) (default : Tree) : Prop :=
  ∃ leaf, place.Leads path (.declared leaf) ∧ leaf.isLeaf = true ∧ leaf.default? = some default ∧
    ¬ place.MeetsTag path

namespace Place

variable {place next : Place} {name : String} {rest : Path}

theorem meetsTag_of_isTag (h : place.isTag = true) (path : Path) : place.MeetsTag path :=
  ⟨[], place, List.nil_prefix, .here place, h⟩

theorem meetsTag_nil_iff : place.MeetsTag [] ↔ place.isTag = true := by
  refine ⟨?_, fun h => meetsTag_of_isTag h []⟩
  rintro ⟨above, tag, habove, hLeads, hTag⟩
  rw [List.prefix_nil.mp habove] at hLeads
  rwa [← leads_nil_iff.mp hLeads]

/-- A tag node is met on a path at its first place or further on. -/
theorem meetsTag_cons_iff (henter : place.enter name = .ok next) :
    place.MeetsTag (name :: rest) ↔ place.isTag = true ∨ next.MeetsTag rest := by
  constructor
  · rintro ⟨above, tag, habove, hLeads, hTag⟩
    cases above with
    | nil => exact .inl (leads_nil_iff.mp hLeads ▸ hTag)
    | cons first below =>
      obtain ⟨rfl, hbelow⟩ := List.cons_prefix_cons.mp habove
      obtain ⟨next', henter', hrest⟩ := leads_cons_iff.mp hLeads
      rw [henter, Except.ok.injEq] at henter'
      exact .inr ⟨below, tag, hbelow, henter' ▸ hrest, hTag⟩
  · rintro (hTag | ⟨below, tag, hbelow, hLeads, hTag⟩)
    · exact meetsTag_of_isTag hTag _
    · exact ⟨name :: below, tag, List.cons_prefix_cons.mpr ⟨rfl, hbelow⟩, .step henter hLeads,
        hTag⟩

/-- A tag node is met on a path of two parts in the first part or in the second. -/
theorem meetsTag_append_iff {path : Path} (hLeads : place.Leads path next) :
    place.MeetsTag (path ++ rest) ↔ place.MeetsTag path ∨ next.MeetsTag rest := by
  induction hLeads with
  | here place =>
    rw [List.nil_append, meetsTag_nil_iff, or_iff_right_of_imp]
    exact fun hTag => meetsTag_of_isTag hTag rest
  | step henter _ ih =>
    rw [List.cons_append, meetsTag_cons_iff henter, meetsTag_cons_iff henter, ih, or_assoc]

end Place

/-! ## Collecting -/

section Collecting

variable {n : Node} {children : List (String × Node)}

theorem Node.default_of_isLeaf (h : n.isLeaf = true) : n.default = n.default? := by
  obtain ⟨kind, _, _, _, _, _, _, _, _, _⟩ := n
  obtain rfl : kind = .leaf := of_decide_eq_true h
  rw [Node.default]

theorem Node.default_of_isTag (h : n.isTag = true) : n.default = none := by
  obtain ⟨kind, _, _, _, _, _, _, _, _, _⟩ := n
  obtain rfl : kind = .tag := of_decide_eq_true h
  rw [Node.default]

/-- An inner node has those defaults that its children have, and none if they have none. -/
theorem Node.default_of_inner (hTag : n.isTag = false) (hLeaf : n.isLeaf = false) :
    n.default = Tree.filled? (defaultsBelow n.children) := by
  obtain ⟨kind, _, _, _, _, _, _, _, _, _⟩ := n
  cases kind with
  | node => rw [Node.default, Tree.filled?]
  | leaf => exact absurd hLeaf (by simp [Node.isLeaf])
  | tag => exact absurd hTag (by simp [Node.isTag])

theorem defaultsBelow_cons (name : String) (child : Node) (rest : List (String × Node)) :
    defaultsBelow ((name, child) :: rest) =
      (child.default.elim [] fun tree => [(name, tree)]) ++ defaultsBelow rest := by
  rw [defaultsBelow]
  cases child.default <;> rfl

/-- What stands in the defaults below a node is the default of one of its children. -/
theorem exists_mem_of_mem_defaultsBelow {entry : String × Tree}
    (h : entry ∈ defaultsBelow children) :
    ∃ child, (entry.1, child) ∈ children ∧ child.default = some entry.2 := by
  induction children with
  | nil => exact absurd h (by simp [defaultsBelow])
  | cons first rest ih =>
    obtain ⟨name, child⟩ := first
    rw [defaultsBelow_cons] at h
    rcases List.mem_append.mp h with hfirst | hrest
    · cases hdefault : child.default with
      | none => simp [hdefault] at hfirst
      | some tree =>
        obtain rfl : entry = (name, tree) := by simpa [hdefault] using hfirst
        exact ⟨child, List.mem_cons_self .., hdefault⟩
    · obtain ⟨child', hmem, hdefault⟩ := ih hrest
      exact ⟨child', List.mem_cons_of_mem _ hmem, hdefault⟩

/-- The defaults below a node have their names in order, as the children have. -/
theorem defaultsBelow_ordered (h : Keyed.Ordered children) :
    Keyed.Ordered (defaultsBelow children) := by
  induction children with
  | nil => exact List.Pairwise.nil
  | cons first rest ih =>
    obtain ⟨name, child⟩ := first
    obtain ⟨hlt, hrest⟩ := Keyed.ordered_cons.mp h
    rw [defaultsBelow_cons]
    cases child.default with
    | none => exact ih hrest
    | some tree =>
      refine Keyed.ordered_cons.mpr ⟨fun entry hentry => ?_, ih hrest⟩
      obtain ⟨child', hmem, -⟩ := exists_mem_of_mem_defaultsBelow hentry
      exact hlt _ hmem

/-- A name finds the default of the child that is declared under it. -/
theorem get?_defaultsBelow (h : Keyed.Ordered children) (name : String) :
    Keyed.get? (defaultsBelow children) name = (Keyed.get? children name).bind Node.default := by
  induction children with
  | nil => rfl
  | cons first rest ih =>
    obtain ⟨other, child⟩ := first
    obtain ⟨hlt, hrest⟩ := Keyed.ordered_cons.mp h
    rw [defaultsBelow_cons, Keyed.get?]
    by_cases hother : other = name
    · subst hother
      rw [if_pos rfl, Option.bind_some]
      cases child.default with
      | some tree => exact if_pos rfl
      | none =>
        -- no child further on is declared under the same name
        refine (ih hrest).trans ?_
        rw [Keyed.get?_eq_none_of_forall_lt hlt, Option.bind_none]
    · rw [if_neg hother, ← ih hrest]
      cases child.default with
      | none => rfl
      | some tree => exact if_neg hother

end Collecting

/-! ## What is found -/

/-- A path leads, past no tag node, to a declaration at which `found` is there by default. -/
def Place.Finds (place : Place) (path : Path) (found : Tree) : Prop :=
  ∃ last, place.Leads path (.declared last) ∧ ¬ place.MeetsTag path ∧ last.default = some found

/-- At a node itself its own default is found. -/
theorem Place.finds_nil_iff {n : Node} {found : Tree} :
    (Place.declared n).Finds [] found ↔ n.default = some found := by
  constructor
  · rintro ⟨last, hLeads, -, hdefault⟩
    obtain rfl := Place.declared.inj (leads_nil_iff.mp hLeads)
    exact hdefault
  · intro hdefault
    refine ⟨n, .here _, fun hTag => ?_, hdefault⟩
    rw [Node.default_of_isTag (meetsTag_nil_iff.mp hTag)] at hdefault
    exact absurd hdefault (by simp)

/-- At a place where names are declared, a path goes on from the declaration that its first name
finds. -/
theorem Place.finds_cons_iff {place : Place} (hTag : place.isTag = false)
    (hLeaf : place.isLeaf = false) {name : String} {rest : Path} {found : Tree} :
    place.Finds (name :: rest) found ↔
      ∃ child, Keyed.get? place.node.children name = some child ∧
        (Place.declared child).Finds rest found := by
  have henter : ∀ {next : Place}, place.enter name = .ok next ↔
      ∃ child, Keyed.get? place.node.children name = some child ∧ next = .declared child :=
    enter_eq_ok_iff_of_not_isTag hTag hLeaf
  have hmeets : ∀ {child : Node}, Keyed.get? place.node.children name = some child →
      (place.MeetsTag (name :: rest) ↔ (Place.declared child).MeetsTag rest) := fun hchild => by
    -- the tag nodes that are met are those that are met below the child
    rw [meetsTag_cons_iff (henter.mpr ⟨_, hchild, rfl⟩), hTag]
    simp
  constructor
  · rintro ⟨last, hLeads, hpast, hdefault⟩
    obtain ⟨next, hnext, hrest⟩ := leads_cons_iff.mp hLeads
    obtain ⟨child, hchild, rfl⟩ := henter.mp hnext
    exact ⟨child, hchild, last, hrest, fun h => hpast ((hmeets hchild).mpr h), hdefault⟩
  · rintro ⟨child, hchild, last, hLeads, hpast, hdefault⟩
    exact ⟨last, .step (henter.mpr ⟨child, hchild, rfl⟩) hLeads,
      fun h => hpast ((hmeets hchild).mp h), hdefault⟩

/-- A path finds what is there by default at the declaration to which it leads past tag nodes. -/
theorem Node.get?_default_iff {n : Node} (hn : n.Everywhere Fillable) {path : Path} {found : Tree} :
    (n.default.bind fun tree => tree.get? path) = some found ↔
      (Place.declared n).Finds path found := by
  -- on the path, with the nodes that are no inner nodes set apart first
  induction path generalizing n with
  | nil =>
    rw [Place.finds_nil_iff]
    cases n.default <;> rfl
  | cons name rest ih =>
    by_cases hTag : (Place.declared n).isTag = true
    · -- nothing is there by default, and the path leads on from a tag node
      have hmeets := Place.meetsTag_of_isTag hTag (name :: rest)
      rw [default_of_isTag hTag, Option.bind_none]
      simp [Place.Finds, hmeets]
    rw [Bool.not_eq_true] at hTag
    by_cases hLeaf : (Place.declared n).isLeaf = true
    · -- a default of a leaf is a value, and no path leads on from a leaf
      have hnone : (n.default.bind fun tree => tree.get? (name :: rest)) = none := by
        rw [default_of_isLeaf hLeaf]
        refine Option.bind_eq_none_iff.mpr fun tree htree => Tree.get?_cons_of_value ?_ name rest
        rw [(hn.here.shaped tree htree).isSubtree_eq, hLeaf]
        rfl
      rw [hnone]
      simp only [reduceCtorEq, false_iff]
      rintro ⟨last, hLeads, -⟩
      obtain ⟨next, henter, -⟩ := Place.leads_cons_iff.mp hLeads
      exact absurd hLeaf (by simp [Place.not_isLeaf_of_enter henter])
    -- an inner node has the defaults of its children below it
    rw [Bool.not_eq_true] at hLeaf
    rw [Place.finds_cons_iff hTag hLeaf, default_of_inner hTag hLeaf, Tree.get?_filled?,
      get?_defaultsBelow hn.here.ordered, Place.node]
    cases hchild : Keyed.get? n.children name with
    | none => simp
    | some child => simp [ih (hn.child (Keyed.mem_of_get? hchild))]

namespace Place

variable {place : Place}

/-- What is found among the defaults below a place where names are declared. -/
theorem get?_defaultsBelow_iff (hplace : place.node.Everywhere Node.Fillable)
    (hTag : place.isTag = false) (hLeaf : place.isLeaf = false) {name : String} {rest : Path}
    {found : Tree} :
    (Tree.subtree (defaultsBelow place.node.children)).get? (name :: rest) = some found ↔
      place.Finds (name :: rest) found := by
  rw [finds_cons_iff hTag hLeaf, Tree.get?_cons_subtree, get?_defaultsBelow hplace.here.ordered]
  cases hchild : Keyed.get? place.node.children name with
  | none => simp
  | some child =>
    simp [Node.get?_default_iff (hplace.child (Keyed.mem_of_get? hchild))]

/-- What is found at a leaf is its default. -/
theorem Finds.default_of_isLeaf {path : Path} {found : Tree} {leaf : Node}
    (h : place.Finds path found) (hLeads : place.Leads path (.declared leaf))
    (hLeaf : leaf.isLeaf = true) : place.DefaultsTo path found := by
  obtain ⟨last, hlast, hpast, hdefault⟩ := h
  obtain rfl := Place.declared.inj (hlast.unique hLeads)
  rw [Node.default_of_isLeaf hLeaf] at hdefault
  exact ⟨last, hLeads, hLeaf, hdefault, hpast⟩

theorem DefaultsTo.finds {path : Path} {default : Tree} (h : place.DefaultsTo path default) :
    place.Finds path default := by
  obtain ⟨leaf, hLeads, hLeaf, hdefault, hpast⟩ := h
  exact ⟨leaf, hLeads, hpast, (Node.default_of_isLeaf hLeaf).trans hdefault⟩

/-! ## What a subtree among the defaults is there for -/

/-- Where something is there by default, a leaf with a default is at the place or below. -/
theorem exists_defaultsTo {n : Node} (hn : n.Everywhere Node.Fillable) {found : Tree}
    (hdefault : n.default = some found) :
    ∃ path default, (Place.declared n).DefaultsTo path default := by
  induction hn generalizing found with
  | @intro n hhere hbelow ih =>
    by_cases hTag : (Place.declared n).isTag = true
    · rw [Node.default_of_isTag hTag] at hdefault
      exact absurd hdefault (by simp)
    rw [Bool.not_eq_true] at hTag
    by_cases hLeaf : (Place.declared n).isLeaf = true
    · exact ⟨[], found, (finds_nil_iff.mpr hdefault).default_of_isLeaf (.here _) hLeaf⟩
    rw [Bool.not_eq_true] at hLeaf
    -- a subtree is there for one of its children, which is there by default as well
    rw [Node.default_of_inner hTag hLeaf] at hdefault
    obtain ⟨-, hne⟩ := Tree.filled?_eq_some hdefault
    obtain ⟨⟨name, tree⟩, hentry⟩ := List.exists_mem_of_ne_nil _ hne
    obtain ⟨child, hmem, hchild⟩ := exists_mem_of_mem_defaultsBelow hentry
    obtain ⟨path, default, hto⟩ := ih _ hmem hchild
    have hget : Keyed.get? n.children name = some child :=
      (Keyed.mem_iff_get? hhere.ordered).mp hmem
    have hfinds : (Place.declared n).Finds (name :: path) default :=
      (finds_cons_iff hTag hLeaf).mpr ⟨child, hget, hto.finds⟩
    obtain ⟨leaf, hLeads, hleaf, -⟩ := hto
    have henter := (enter_eq_ok_iff_of_not_isTag hTag hLeaf).mpr ⟨child, hget, rfl⟩
    exact ⟨name :: path, default, hfinds.default_of_isLeaf (.step henter hLeads) hleaf⟩

/-- A subtree is found at a place that is no leaf, with its names in order, and on the way to a
default. -/
theorem Finds.subtree (hplace : place.node.Everywhere Node.Fillable) {path : Path}
    {children : Children} (h : place.Finds path (.subtree children)) :
    (∃ last, place.Leads path last ∧ last.isLeaf = false) ∧ Keyed.Ordered children ∧
      ∃ rest default, place.DefaultsTo (path ++ rest) default := by
  obtain ⟨last, hLeads, hpast, hdefault⟩ := h
  have hlast : last.Everywhere Node.Fillable := everywhere_of_leads hplace hLeads
  have hTag : last.isTag = false := by
    cases hTag : last.isTag with
    | false => rfl
    | true => exact absurd hdefault (by simp [Node.default_of_isTag hTag])
  have hLeaf : last.isLeaf = false := by
    cases hLeaf : last.isLeaf with
    | false => rfl
    | true =>
      -- the default of a leaf would be a value
      rw [Node.default_of_isLeaf hLeaf] at hdefault
      have hshape := (hlast.here.shaped _ hdefault).isSubtree_eq
      simp [isLeaf, hLeaf, Tree.isSubtree] at hshape
  have hchildren : children = defaultsBelow last.children := by
    rw [Node.default_of_inner hTag hLeaf] at hdefault
    exact Tree.subtree.inj (Tree.filled?_eq_some hdefault).1
  refine ⟨⟨_, hLeads, hLeaf⟩, hchildren ▸ defaultsBelow_ordered hlast.here.ordered, ?_⟩
  obtain ⟨rest, default, leaf, hrest, hleaf, hvalue, hmeets⟩ := exists_defaultsTo hlast hdefault
  refine ⟨rest, default, leaf, leads_append_iff.mpr ⟨_, hLeads, hrest⟩, hleaf, hvalue, ?_⟩
  rw [meetsTag_append_iff hLeads]
  exact fun h => h.elim hpast hmeets

/-- What is there by default has the shape of the place at which it is found. -/
theorem Finds.shaped (hplace : place.node.Everywhere Node.Fillable) {path : Path} {found : Tree}
    (h : place.Finds path found) : ∃ next, place.Leads path next ∧ next.Shaped found := by
  rcases Tree.isSubtree_cases found with hvalue | ⟨children, rfl⟩
  · obtain ⟨last, hLeads, -, hdefault⟩ := h
    refine ⟨_, hLeads, ?_⟩
    cases hLeaf : last.isLeaf with
    | true =>
      rw [Node.default_of_isLeaf hLeaf] at hdefault
      exact (everywhere_of_leads hplace hLeads).here.shaped found hdefault
    | false =>
      -- elsewhere only subtrees are there by default
      cases hTag : last.isTag with
      | true => exact absurd hdefault (by simp [Node.default_of_isTag hTag])
      | false =>
        rw [Node.default_of_inner hTag hLeaf] at hdefault
        rw [(Tree.filled?_eq_some hdefault).1] at hvalue
        exact absurd hvalue (by simp [Tree.isSubtree])
  · obtain ⟨⟨last, hLeads, hLeaf⟩, hOrdered, -⟩ := h.subtree hplace
    exact ⟨last, hLeads, .subtree hLeaf hOrdered⟩

/-- The defaults below an inner place have their names in order all the way down. -/
theorem defaultsBelow_orderly (hplace : place.node.Everywhere Node.Fillable)
    (hTag : place.isTag = false) (hLeaf : place.isLeaf = false) :
    (Tree.subtree (defaultsBelow place.node.children)).Orderly := by
  intro path children hget
  cases path with
  | nil =>
    obtain rfl := Tree.subtree.inj (Option.some.inj hget)
    exact defaultsBelow_ordered hplace.here.ordered
  | cons name rest =>
    exact (((get?_defaultsBelow_iff hplace hTag hLeaf).mp hget).subtree hplace).2.1

end Place

theorem defaults_eq {schema : Schema} {path : Path} {place : Place}
    (hPlace : schema.resolve path = .ok place) (hTag : place.isTag = false)
    (hLeaf : place.isLeaf = false) :
    schema.defaults path = defaultsBelow place.node.children := by
  rw [defaults, hPlace]
  simp [hTag, hLeaf]

end RouterConfig.Schema
