import RouterConfig.Proofs.Schema.Places
import RouterConfig.Proofs.Tree.Cutting
import RouterConfig.Proofs.Tree.Update

/-!
# RouterConfig — configurations that conform to a schema

A node fits a place if its shape is the one that the schema asks for there and its values are among
those that the schema admits. A configuration conforms to a schema if each of its nodes stands at a
place of the schema and fits it. Main results:

* `Place.conforms_subtree_iff` — a subtree conforms if and only if its children do;
* `Place.Conforms.update`, `Place.Conforms.update_exists` — an update conforms if what it puts in
  place conforms there, and nothing stands in its way;
* `Place.Conforms.remove`, `Place.Conforms.prune` — so does what a deletion leaves;
* `Admits.shapes` — what conformance says of the positions of a configuration.
-/

namespace RouterConfig.Schema

/-! ## Conformance -/

/-- A value that a leaf may hold. -/
structure Node.Takes (leaf : Node) (value : String) : Prop where
  nonempty : value ≠ ""
  valid : leaf.valueFault? value = none
  quotable : holdsBothQuotes value = false

/-- A node whose shape and values are those of a place, whatever stands below it. -/
inductive Place.Fits (place : Place) : Tree → Prop where
  /-- Leaves apart, a place holds a subtree. -/
  | subtree {children : Children} :
    place.isLeaf = false → Keyed.Ordered children → Fits place (.subtree children)
  /-- A leaf that takes no value is there or is not. -/
  | presence :
    place.isLeaf = true → place.node.multi = false → place.node.valueless = true →
      Fits place (.scalar "")
  | value {value : String} :
    place.isLeaf = true → place.node.multi = false → place.node.valueless = false →
      place.node.Takes value → Fits place (.scalar value)
  | values {values : List String} :
    place.isLeaf = true → place.node.multi = true → place.node.valueless = false → values ≠ [] →
      (∀ value ∈ values, place.node.Takes value) → Fits place (.list values)

/-- Each node at and below a place stands at a place of the schema and fits it. -/
def Place.Conforms (place : Place) (t : Tree) : Prop :=
  ∀ path node, t.get? path = some node → ∃ next, place.Leads path next ∧ next.Fits node

namespace Place

/-- Leaves apart, what fits a place is a subtree. -/
theorem Fits.isSubtree {place : Place} {t : Tree} (h : place.Fits t)
    (hLeaf : place.isLeaf = false) :
    ∃ children, t = .subtree children ∧ Keyed.Ordered children := by
  cases h with
  | subtree _ hOrdered => exact ⟨_, rfl, hOrdered⟩
  | presence h => exact absurd h (by simp [hLeaf])
  | value h => exact absurd h (by simp [hLeaf])
  | values h => exact absurd h (by simp [hLeaf])

/-- What fits a leaf is one value, or a list of some where the leaf takes many. -/
theorem Fits.leaf_cases {place : Place} {t : Tree} (h : place.Fits t)
    (hLeaf : place.isLeaf = true) :
    (place.node.multi = false ∧ ∃ value, t = .scalar value) ∨
      (place.node.multi = true ∧ ∃ values, t = .list values ∧ values ≠ []) := by
  cases h with
  | subtree hnot => exact absurd hLeaf (by simp [hnot])
  | presence _ hone => exact .inl ⟨hone, "", rfl⟩
  | value _ hone => exact .inl ⟨hone, _, rfl⟩
  | values _ hmany _ hne => exact .inr ⟨hmany, _, rfl, hne⟩

/-- Two nodes that fit one leaf are both one value, or both lists. -/
theorem Fits.leaf_pair {place : Place} {t t' : Tree} (h : place.Fits t) (h' : place.Fits t')
    (hLeaf : place.isLeaf = true) :
    (∃ value value', t = .scalar value ∧ t' = .scalar value') ∨
      ∃ values values', t = .list values ∧ t' = .list values' := by
  rcases h.leaf_cases hLeaf with ⟨hone, value, rfl⟩ | ⟨hmany, values, rfl, -⟩
  · rcases h'.leaf_cases hLeaf with ⟨-, value', rfl⟩ | ⟨hmany, -⟩
    · exact .inl ⟨value, value', rfl, rfl⟩
    · exact absurd hmany (by simp [hone])
  · rcases h'.leaf_cases hLeaf with ⟨hone, -⟩ | ⟨-, values', rfl, -⟩
    · exact absurd hmany (by simp [hone])
    · exact .inr ⟨values, values', rfl, rfl⟩

theorem Conforms.fits {place : Place} {t : Tree} (h : place.Conforms t) : place.Fits t := by
  obtain ⟨next, hnext, hfits⟩ := h [] t rfl
  rwa [leads_nil_iff.mp hnext] at hfits

/-- Below a value there is nothing that would have to conform. -/
theorem conforms_value_iff {place : Place} {t : Tree} (ht : t.isSubtree = false) :
    place.Conforms t ↔ place.Fits t := by
  refine ⟨Conforms.fits, fun h path node hget => ?_⟩
  cases path with
  | nil =>
    rw [Tree.get?, Option.some.injEq] at hget
    exact ⟨place, .here _, hget ▸ h⟩
  | cons name rest =>
    rw [Tree.get?_cons_of_value ht] at hget
    exact absurd hget (by simp)

/-- A subtree conforms if and only if its children do, each at the place that its name leads to. -/
theorem conforms_subtree_iff {place : Place} {children : Children} :
    place.Conforms (.subtree children) ↔
      place.isLeaf = false ∧ Keyed.Ordered children ∧
        ∀ name child, Keyed.get? children name = some child →
          ∃ next, place.enter name = .ok next ∧ next.Conforms child := by
  constructor
  · intro h
    have hLeaf : place.isLeaf = false ∧ Keyed.Ordered children := by
      cases h.fits with
      | subtree hLeaf hOrdered => exact ⟨hLeaf, hOrdered⟩
    -- every child conforms, for what stands below it is what stands below the node, one name
    -- further down
    refine ⟨hLeaf.1, hLeaf.2, fun name child hchild => ?_⟩
    have hbelow : ∀ path node, child.get? path = some node →
        ∃ next, place.enter name = .ok next ∧ ∃ last, next.Leads path last ∧ last.Fits node := by
      intro path node hget
      obtain ⟨last, hlast, hfits⟩ := h (name :: path) node (by rw [Tree.get?, hchild]; exact hget)
      obtain ⟨next, henter, hnext⟩ := leads_cons_iff.mp hlast
      exact ⟨next, henter, last, hnext, hfits⟩
    obtain ⟨next, henter, -⟩ := hbelow [] child rfl
    refine ⟨next, henter, fun path node hget => ?_⟩
    obtain ⟨next', henter', last, hlast, hfits⟩ := hbelow path node hget
    rw [henter, Except.ok.injEq] at henter'
    exact ⟨last, henter' ▸ hlast, hfits⟩
  · rintro ⟨hLeaf, hOrdered, hchildren⟩ path node hget
    -- the path ends at the node itself, or goes on below a child of it
    cases path with
    | nil =>
      rw [Tree.get?, Option.some.injEq] at hget
      exact ⟨place, .here _, hget ▸ .subtree hLeaf hOrdered⟩
    | cons name rest =>
      rw [Tree.get?] at hget
      cases hchild : Keyed.get? children name with
      | none => simp [hchild] at hget
      | some child =>
        rw [hchild] at hget
        obtain ⟨next, henter, hconforms⟩ := hchildren name child hchild
        obtain ⟨last, hlast, hfits⟩ := hconforms rest node hget
        exact ⟨last, .step henter hlast, hfits⟩

/-- Nothing is set in an empty subtree that does not conform. -/
theorem conforms_empty {place : Place} (hLeaf : place.isLeaf = false) :
    place.Conforms Tree.empty :=
  conforms_subtree_iff.mpr ⟨hLeaf, List.Pairwise.nil, fun _ _ h => absurd h (by simp)⟩

namespace Conforms

variable {place next target : Place} {t : Tree} {children : Children}

theorem ordered (h : place.Conforms t) {path : Path}
    (hget : t.get? path = some (.subtree children)) :
    Keyed.Ordered children := by
  obtain ⟨last, -, hfits⟩ := h path _ hget
  cases hfits with
  | subtree _ hOrdered => exact hOrdered

/-! ## Children -/

/-- A child that conforms to the place of its name may be put into a subtree that conforms. -/
theorem insert (h : place.Conforms (.subtree children)) {name : String} {child : Tree}
    (henter : place.enter name = .ok next) (hchild : next.Conforms child) :
    place.Conforms (.subtree (Keyed.insert children name child)) := by
  obtain ⟨hLeaf, hOrdered, hchildren⟩ := conforms_subtree_iff.mp h
  refine conforms_subtree_iff.mpr ⟨hLeaf, Keyed.insert_ordered hOrdered name child, ?_⟩
  intro other found hfound
  by_cases hname : name = other
  · rw [← hname, Keyed.get?_insert_self, Option.some.injEq] at hfound
    exact ⟨next, hname ▸ henter, hfound ▸ hchild⟩
  · rw [Keyed.get?_insert_of_ne _ _ hname] at hfound
    exact hchildren other found hfound

theorem erase (h : place.Conforms (.subtree children)) (name : String) :
    place.Conforms (.subtree (Keyed.erase children name)) := by
  obtain ⟨hLeaf, hOrdered, hchildren⟩ := conforms_subtree_iff.mp h
  exact conforms_subtree_iff.mpr ⟨hLeaf, Keyed.erase_ordered hOrdered name,
    fun other found hfound => hchildren other found (Keyed.get?_of_get?_erase hOrdered hfound)⟩

/-! ## Updates -/

/-- On the way of an update, where a path goes on, stands a subtree. -/
private theorem getD_empty {node? : Option Tree} (hnode : ∀ t, node? = some t → place.Conforms t)
    (hLeaf : place.isLeaf = false) :
    ∃ children, node?.getD Tree.empty = .subtree children ∧ place.Conforms (.subtree children) := by
  cases node? with
  | none => exact ⟨[], rfl, conforms_empty hLeaf⟩
  | some t =>
    have ht := hnode t rfl
    obtain ⟨children, rfl, -⟩ := ht.fits.isSubtree hLeaf
    exact ⟨children, rfl, ht⟩

/-- An update conforms if what it puts in place conforms there. -/
theorem update {deed : Option Tree → Option Tree} {node? : Option Tree} {path : Path}
    (hnode : ∀ t, node? = some t → place.Conforms t) (hLeads : place.Leads path target)
    (hdeed : ∀ found? t, (∀ u, found? = some u → target.Conforms u) → deed found? = some t →
      target.Conforms t)
    {t : Tree} (h : Tree.update? deed node? path = some t) : place.Conforms t := by
  induction hLeads generalizing node? t with
  | here => exact hdeed node? t hnode h
  | @step place next last name rest henter _ ih =>
    obtain ⟨children, hchildren, hconforms⟩ := getD_empty hnode (not_isLeaf_of_enter henter)
    rw [Tree.update?, hchildren] at h
    obtain ⟨child, hchild, rfl⟩ := Option.map_eq_some_iff.mp h
    refine hconforms.insert henter (ih (fun u hu => ?_) hdeed hchild)
    obtain ⟨next', henter', hu'⟩ := (conforms_subtree_iff.mp hconforms).2.2 name u hu
    rw [henter, Except.ok.injEq] at henter'
    exact henter' ▸ hu'

/-- Nothing stands in the way of an update where all conforms. -/
theorem update_exists {deed : Option Tree → Option Tree} {node? : Option Tree} {path : Path}
    (hnode : ∀ t, node? = some t → place.Conforms t) (hLeads : place.Leads path target)
    (hdeed : ∀ found?, (∀ u, found? = some u → target.Conforms u) → ∃ t, deed found? = some t) :
    ∃ t, Tree.update? deed node? path = some t := by
  induction hLeads generalizing node? with
  | here => exact hdeed node? hnode
  | @step place next last name rest henter _ ih =>
    obtain ⟨children, hchildren, hconforms⟩ := getD_empty hnode (not_isLeaf_of_enter henter)
    have hbelow : ∀ u, Keyed.get? children name = some u → next.Conforms u := by
      intro u hu
      obtain ⟨next', henter', hu'⟩ := (conforms_subtree_iff.mp hconforms).2.2 name u hu
      rw [henter, Except.ok.injEq] at henter'
      exact henter' ▸ hu'
    obtain ⟨child, hchild⟩ := ih hbelow hdeed
    refine ⟨.subtree (Keyed.insert children name child), ?_⟩
    rw [Tree.update?, hchildren]
    simp [hchild]

/-! ## Deletions -/

/-- A tree that something was removed from conforms as it did. -/
theorem remove (h : place.Conforms t) (path : Path) : place.Conforms (t.remove path) := by
  fun_induction Tree.remove t path generalizing place with
  | case1 => exact h
  | case2 name children => exact h.erase name
  | case3 => exact h
  | case4 name next rest children child hchild ih =>
    obtain ⟨place', henter, hconforms⟩ := (conforms_subtree_iff.mp h).2.2 name child hchild
    exact h.insert henter (ih hconforms)
  | case5 => exact h
  | case6 => exact h

/-- A tree that was pruned along a path conforms as it did. -/
theorem prune (h : place.Conforms t) (path : Path) : place.Conforms (t.prune path) := by
  induction path generalizing t place with
  | nil => exact h
  | cons name rest ih =>
    -- a value has nothing below it to be pruned
    cases t with
    | scalar _ => exact h
    | list _ => exact h
    | subtree children =>
      rw [Tree.prune]
      cases hchild : Keyed.get? children name with
      | none => exact h
      | some child =>
        obtain ⟨place', henter, hconforms⟩ := (conforms_subtree_iff.mp h).2.2 name child hchild
        dsimp only
        -- the child is taken out where it has become empty, and else put back as it was pruned
        split
        · exact h.erase name
        · exact h.insert henter (ih hconforms)

end Conforms

end Place

/-- Each node of a configuration stands at a place of the schema and fits it. -/
def Admits (schema : Schema) (t : Tree) : Prop := schema.rootPlace.Conforms t

theorem admits_empty (schema : Schema) : schema.Admits Tree.empty :=
  Place.conforms_empty rfl

/-! ## Conformance, path by path -/

theorem isLeaf_of_resolve {schema : Schema} {path : Path} {place : Place}
    (h : schema.resolve path = .ok place) : schema.isLeaf path = place.isLeaf := by
  rw [isLeaf, declared?, h]
  cases place <;> rfl

theorem isTag_of_resolve {schema : Schema} {path : Path} {place : Place}
    (h : schema.resolve path = .ok place) : schema.isTag path = place.isTag := by
  rw [isTag, declared?, h]
  cases place <;> rfl

theorem isMulti_of_resolve {schema : Schema} {path : Path} {place : Place}
    (h : schema.resolve path = .ok place) :
    schema.isMulti path = (place.isLeaf && place.node.multi) := by
  rw [isMulti, declared?, h]
  cases place <;> rfl

theorem isValueless_of_resolve {schema : Schema} {path : Path} {place : Place}
    (h : schema.resolve path = .ok place) :
    schema.isValueless path = (place.isLeaf && place.node.valueless) := by
  rw [isValueless, declared?, h]
  cases place <;> rfl

/-- The shape that a schema gives to a configuration, position by position. -/
structure Shapes (schema : Schema) (t : Tree) : Prop where
  root : t.isSubtree = true
  declared : ∀ path node, t.get? path = some node → schema.declares path = true
  /-- Each name stands once, in order. -/
  ordered : ∀ path children, t.get? path = some (.subtree children) → Keyed.Ordered children
  /-- Internal nodes, tag nodes and instances are subtrees. -/
  inner : ∀ path node, t.get? path = some node → schema.isLeaf path = false →
    node.isSubtree = true
  /-- A leaf of many values is a list of one or more. -/
  many : ∀ path node, t.get? path = some node → schema.isLeaf path = true →
    schema.isMulti path = true → ∃ values, node = .list values ∧ values ≠ []
  /-- Any other leaf is a scalar, which is empty if the leaf takes no value and only then. -/
  single : ∀ path node, t.get? path = some node → schema.isLeaf path = true →
    schema.isMulti path = false →
    ∃ value, node = .scalar value ∧ (value = "" ↔ schema.isValueless path = true)
  /-- The values of a leaf that takes values. -/
  taken : ∀ path node, t.get? path = some node → schema.isLeaf path = true →
    schema.isValueless path = false → ∀ value ∈ node.values,
      value ≠ "" ∧ schema.validateValue path value = .ok () ∧ holdsBothQuotes value = false

/-- At a leaf the check of values finds what is wrong with a value. -/
theorem validateValue_leaf {schema : Schema} {path : Path} {leaf : Node}
    (hplace : schema.resolve path = .ok (.declared leaf)) (hLeaf : leaf.isLeaf = true)
    (value : String) :
    schema.validateValue path value =
      match leaf.valueFault? value with
      | some fault => .error (.path path fault)
      | none => .ok () := by
  have hplain : (Place.declared leaf).isLeaf = true := hLeaf
  rw [validateValue, hplace]
  exact if_pos hplain

/-- A value that a leaf takes is valid there. -/
theorem validateValue_of_takes {schema : Schema} {path : Path} {place : Place} {value : String}
    (hplace : schema.resolve path = .ok place) (htakes : place.node.Takes value) :
    schema.validateValue path value = .ok () := by
  rw [validateValue, hplace]
  dsimp only
  split
  · rw [htakes.valid]
  · rfl

/-- A configuration that conforms has the shape that the schema gives to it. -/
theorem Admits.shapes {schema : Schema} {t : Tree} (h : schema.Admits t) : schema.Shapes t := by
  -- all is read off what fits at the place that a path leads to
  have hat : ∀ path node, t.get? path = some node →
      ∃ place, schema.resolve path = .ok place ∧ place.Fits node := by
    intro path node hget
    obtain ⟨place, hLeads, hfits⟩ := h path node hget
    exact ⟨place, resolve_eq_ok_iff.mpr hLeads, hfits⟩
  refine ⟨?root, ?declared, ?ordered, ?inner, ?many, ?single, ?taken⟩
  case root =>
    obtain ⟨children, rfl, -⟩ := (Place.Conforms.fits h).isSubtree rfl
    rfl
  case declared =>
    intro path node hget
    obtain ⟨place, hLeads, -⟩ := h path node hget
    exact declares_iff.mpr ⟨place, hLeads⟩
  case ordered =>
    intro path children hget
    exact Place.Conforms.ordered h hget
  case inner =>
    intro path node hget hLeaf
    obtain ⟨place, hplace, hfits⟩ := hat path node hget
    rw [isLeaf_of_resolve hplace] at hLeaf
    obtain ⟨children, rfl, -⟩ := hfits.isSubtree hLeaf
    rfl
  case many =>
    intro path node hget hLeaf hMulti
    obtain ⟨place, hplace, hfits⟩ := hat path node hget
    rw [isLeaf_of_resolve hplace] at hLeaf
    rw [isMulti_of_resolve hplace, hLeaf, Bool.true_and] at hMulti
    cases hfits with
    | values _ _ _ hne _ => exact ⟨_, rfl, hne⟩
    | subtree h => exact absurd hLeaf (by simp [h])
    | presence _ h => exact absurd hMulti (by simp [h])
    | value _ h => exact absurd hMulti (by simp [h])
  case single =>
    intro path node hget hLeaf hMulti
    obtain ⟨place, hplace, hfits⟩ := hat path node hget
    rw [isLeaf_of_resolve hplace] at hLeaf
    rw [isMulti_of_resolve hplace, hLeaf, Bool.true_and] at hMulti
    rw [isValueless_of_resolve hplace, hLeaf, Bool.true_and]
    cases hfits with
    | presence _ _ hless => exact ⟨"", rfl, by simp [hless]⟩
    | value _ _ hless htakes => exact ⟨_, rfl, by simp [hless, htakes.nonempty]⟩
    | subtree h => exact absurd hLeaf (by simp [h])
    | values _ h => exact absurd hMulti (by simp [h])
  case taken =>
    intro path node hget hLeaf hless value hvalue
    obtain ⟨place, hplace, hfits⟩ := hat path node hget
    rw [isLeaf_of_resolve hplace] at hLeaf
    rw [isValueless_of_resolve hplace, hLeaf, Bool.true_and] at hless
    have htakes : place.node.Takes value := by
      cases hfits with
      | value _ _ _ htakes => exact List.mem_singleton.mp hvalue ▸ htakes
      | values _ _ _ _ hvalues => exact hvalues value hvalue
      | subtree h => exact absurd hLeaf (by simp [h])
      | presence _ _ h => exact absurd hless (by simp [h])
    exact ⟨htakes.nonempty, validateValue_of_takes hplace htakes, htakes.quotable⟩

end RouterConfig.Schema
