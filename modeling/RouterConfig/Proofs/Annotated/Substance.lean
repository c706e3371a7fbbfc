import RouterConfig.Proofs.Annotated.Contents

/-!
# RouterConfig — what a configuration says

Two configurations may differ without saying different things: in the order of the values of a list,
in how often a value stands in it, and in tag nodes without instances. The substance of a
configuration leaves these out. Main results:

* `sortedNames_eq_iff` — two lists are the same as sets if and only if they have the same values;
* `substance_children` — the substance of a subtree is that of its children, name by name, without
  tag nodes that have no instances.
-/

namespace RouterConfig

/-! ## Lists as sets -/

/-- Two lists of names are the same when they are sorted if and only if they have the same
members. -/
theorem Keyed.sortedNames_eq_iff {names names' : List String} :
    sortedNames names = sortedNames names' ↔ ∀ name, name ∈ names ↔ name ∈ names' := by
  constructor
  · intro h name
    rw [← mem_sortedNames, h, mem_sortedNames]
  · intro h
    refine congrArg keys (ext (ofList_ordered _) (ofList_ordered _) fun key => ?_)
    -- a map into one value is determined by its names
    have hunit : ∀ found found' : Option Unit, (found.isSome = true ↔ found'.isSome = true) →
        found = found' := by
      intro found found' hsome
      cases found <;> cases found' <;> simp_all
    refine hunit _ _ ?_
    have hkeys : ∀ names : List String,
        (get? (ofList (names.map fun name => (name, ()))) key).isSome = true ↔ key ∈ names :=
      fun names => isSome_get?_iff.trans mem_sortedNames
    rw [hkeys, hkeys]
    exact h key

namespace Tree

mutual

/-- The tree with the values of each list in order, each once. -/
def withSets : Tree → Tree
  | .scalar value => .scalar value
  | .list values => .list (Keyed.sortedNames values)
  | .subtree children => .subtree (withSetsBelow children)

/-- Children with the values of each list in order, each once. -/
def withSetsBelow : List (String × Tree) → List (String × Tree)
  | [] => []
  | (name, child) :: rest => (name, child.withSets) :: withSetsBelow rest

end

mutual

/-- The tree of a place without the tag nodes that have no instances. -/
def withoutBareTags : Tree → Schema.Place → Tree
  | .subtree children, place => .subtree (withoutBareTagsBelow children place)
  | node, _ => node

/-- The children at a place without the tag nodes that have no instances. -/
def withoutBareTagsBelow : List (String × Tree) → Schema.Place → List (String × Tree)
  | [], _ => []
  | (name, child) :: rest, place =>
    match place.enter name with
    | .ok next =>
      if next.isTag && child.isEmpty then withoutBareTagsBelow rest place
      else (name, child.withoutBareTags next) :: withoutBareTagsBelow rest place
    | .error _ => (name, child) :: withoutBareTagsBelow rest place

end

/-- The children are taken as sets of values one by one, under their own names. -/
theorem withSetsBelow_eq_map (children : Children) :
    withSetsBelow children = children.map fun entry => (entry.1, entry.2.withSets) := by
  induction children with
  | nil => rfl
  | cons entry rest ih =>
    obtain ⟨k, child⟩ := entry
    rw [withSetsBelow, ih]
    rfl

theorem get?_withSetsBelow (children : Children) (name : String) :
    Keyed.get? (withSetsBelow children) name = (Keyed.get? children name).map withSets := by
  rw [withSetsBelow_eq_map]
  exact Keyed.get?_map (fun _ => withSets) children name

theorem withSetsBelow_ordered {children : Children} (h : Keyed.Ordered children) :
    Keyed.Ordered (withSetsBelow children) := by
  rw [withSetsBelow_eq_map]
  exact Keyed.ordered_map h fun _ => withSets

/-- The child that is left of one under a name. -/
def leftBelow (place : Schema.Place) (name : String) (child : Tree) : Option Tree :=
  match place.enter name with
  | .ok next => if next.isTag && child.isEmpty then none else some (child.withoutBareTags next)
  | .error _ => some child

/-- The first child is kept with what is left of it, or it is left out, and the rest goes on by
itself. -/
theorem withoutBareTagsBelow_cons (name : String) (child : Tree) (rest : List (String × Tree))
    (place : Schema.Place) : withoutBareTagsBelow ((name, child) :: rest) place =
      match leftBelow place name child with
      | some left => (name, left) :: withoutBareTagsBelow rest place
      | none => withoutBareTagsBelow rest place := by
  rw [withoutBareTagsBelow, leftBelow]
  cases place.enter name with
  | error fault => rfl
  | ok next =>
    dsimp only
    split <;> rfl

/-- No name is new. -/
theorem exists_of_mem_withoutBareTagsBelow {children : Children} {place : Schema.Place}
    {entry : String × Tree} (h : entry ∈ withoutBareTagsBelow children place) :
    ∃ old ∈ children, old.1 = entry.1 := by
  -- on the children: each is kept or left out, and what is kept bears the name it had
  induction children with
  | nil => exact absurd h (by simp [withoutBareTagsBelow])
  | cons first rest ih =>
    obtain ⟨name, child⟩ := first
    have hrest : entry ∈ withoutBareTagsBelow rest place →
        ∃ old ∈ (name, child) :: rest, old.1 = entry.1 := by
      intro hmem
      obtain ⟨old, hold, hname⟩ := ih hmem
      exact ⟨old, List.mem_cons_of_mem _ hold, hname⟩
    rw [withoutBareTagsBelow_cons] at h
    split at h
    · rcases List.mem_cons.mp h with rfl | h
      · exact ⟨_, List.mem_cons_self .., rfl⟩
      · exact hrest h
    · exact hrest h

/-- Leaving bare tag nodes out keeps the names of a subtree in order. -/
theorem withoutBareTagsBelow_ordered {children : Children} (h : Keyed.Ordered children)
    (place : Schema.Place) : Keyed.Ordered (withoutBareTagsBelow children place) := by
  induction children with
  | nil => exact List.Pairwise.nil
  | cons first rest ih =>
    obtain ⟨name, child⟩ := first
    obtain ⟨hfirst, hrest⟩ := Keyed.ordered_cons.mp h
    rw [withoutBareTagsBelow_cons]
    split
    · refine Keyed.ordered_cons.mpr ⟨fun other hother => ?_, ih hrest⟩
      obtain ⟨old, hold, hname⟩ := exists_of_mem_withoutBareTagsBelow hother
      exact hname ▸ hfirst old hold
    · exact ih hrest

/-- Under a name stands what is left of the child that was there. -/
theorem get?_withoutBareTagsBelow {children : Children} (h : Keyed.Ordered children)
    (place : Schema.Place) (name : String) :
    Keyed.get? (withoutBareTagsBelow children place) name =
      (Keyed.get? children name).bind (leftBelow place name) := by
  induction children with
  | nil => rfl
  | cons first rest ih =>
    obtain ⟨k, child⟩ := first
    obtain ⟨hfirst, hrest⟩ := Keyed.ordered_cons.mp h
    rw [withoutBareTagsBelow_cons, Keyed.get?]
    by_cases hk : k = name
    · subst hk
      rw [if_pos rfl, Option.bind_some]
      split
      next left hleft => rw [hleft, Keyed.get?, if_pos rfl]
      next hnone =>
        -- each name stands once, so nothing comes to light behind the one that is left out
        have hrestNone : Keyed.get? rest k = none := Keyed.get?_eq_none_of_forall_lt hfirst
        rw [ih hrest, hrestNone, hnone]
        rfl
    · rw [if_neg hk]
      split
      · rw [Keyed.get?, if_neg hk]
        exact ih hrest
      · exact ih hrest

end Tree

/-! ## Substance -/

/-- What a configuration says at a place. -/
def Schema.Place.substance (place : Schema.Place) (t : Tree) : Tree :=
  (t.withoutBareTags place).withSets

namespace Annotated

/-- What the child under a name contributes to the substance of a node that may be missing. -/
def substanceAt (place : Schema.Place) (node? : Option Tree) (name : String) : Option Tree :=
  (child? node? name).bind fun child => (Tree.leftBelow place name child).map Tree.withSets

/-- The substance of a subtree is that of its children, name by name. -/
theorem substance_children {place : Schema.Place} (hLeaf : place.isLeaf = false)
    {node? : Option Tree} (h : ∀ t, node? = some t → place.Conforms t) :
    ∃ children, place.substance (node?.getD Tree.empty) = .subtree children ∧
      Keyed.Ordered children ∧
      ∀ name, Keyed.get? children name = substanceAt place node? name := by
  -- a missing node and an empty subtree are looked into alike
  have hnode : ∃ children, node?.getD Tree.empty = .subtree children ∧ Keyed.Ordered children ∧
      ∀ name, child? node? name = Keyed.get? children name := by
    cases node? with
    | none => exact ⟨[], rfl, List.Pairwise.nil, fun name => rfl⟩
    | some t =>
      obtain ⟨children, rfl, hOrdered⟩ := (h t rfl).fits.isSubtree hLeaf
      exact ⟨children, rfl, hOrdered, child?_subtree children⟩
  obtain ⟨children, hchildren, hOrdered, hget⟩ := hnode
  refine ⟨Tree.withSetsBelow (Tree.withoutBareTagsBelow children place), ?_, ?_, fun name => ?_⟩
  · rw [hchildren, Schema.Place.substance, Tree.withoutBareTags, Tree.withSets]
  · exact Tree.withSetsBelow_ordered (Tree.withoutBareTagsBelow_ordered hOrdered place)
  · rw [Tree.get?_withSetsBelow, Tree.get?_withoutBareTagsBelow hOrdered, substanceAt, hget,
      Option.map_bind]
    rfl

/-- Two nodes have the same substance if and only if their children do, name by name. -/
theorem Beside.substance_eq_iff {place : Schema.Place} {edited? running? : Option Tree}
    (h : Beside place edited? running?) (hLeaf : place.isLeaf = false) :
    place.substance (edited?.getD Tree.empty) = place.substance (running?.getD Tree.empty) ↔
      ∀ name ∈ namesBelow edited? running?,
        substanceAt place edited? name = substanceAt place running? name := by
  -- both sides are subtrees with the children of their substance, to be compared name by name
  obtain ⟨edited, hedited, heditedOrdered, heditedGet⟩ := substance_children hLeaf h.edited
  obtain ⟨running, hrunning, hrunningOrdered, hrunningGet⟩ := substance_children hLeaf h.running
  rw [hedited, hrunning, Tree.subtree.injEq]
  constructor
  · rintro rfl name -
    rw [← heditedGet, ← hrunningGet]
  · intro hnames
    refine Keyed.ext heditedOrdered hrunningOrdered fun name => ?_
    rw [heditedGet, hrunningGet]
    by_cases hname : name ∈ namesBelow edited? running?
    · exact hnames name hname
    · -- there is no child under the name on either side
      rw [h.mem_namesBelow_iff hLeaf, not_or, Bool.not_eq_true, Bool.not_eq_true,
        Option.isSome_eq_false_iff, Option.isSome_eq_false_iff, Option.isNone_iff_eq_none,
        Option.isNone_iff_eq_none] at hname
      rw [substanceAt, substanceAt, hname.1, hname.2]

end Annotated

end RouterConfig
