import RouterConfig.Proofs.Tree.Descending
import RouterConfig.Tree.Overlay

/-!
# RouterConfig — filling a tree, position by position

A tree is filled from another one name after name. What stands at a position afterwards depends on
what the two trees hold at that position alone (`Tree.overlay?`), unless the tree that is filled has
a value where the other has a subtree: what the subtree holds is then left out. Main results:

* `Tree.get?_overlayChildren` — what is found among filled children;
* `Tree.get?_overlay` — what is found at a position of a filled tree;
* `Tree.Orderly.overlay` — filling keeps names in order;
* `Tree.overlayChildren_overlayChildren` — filling a second time changes nothing.
-/

namespace RouterConfig.Tree

variable {t d : Tree} {cs ds : Children} {name : String}

/-- Every tree is built from values and from subtrees of trees that have been built before. -/
theorem node_induction {motive : Tree → Prop} (value : ∀ t, t.isSubtree = false → motive t)
    (subtree : ∀ children : Children, (∀ entry ∈ children, motive entry.2) →
      motive (.subtree children)) (t : Tree) : motive t := by
  refine @Tree.rec motive (fun children => ∀ entry ∈ children, motive entry.2)
    (fun entry => motive entry.2) (fun v => value (.scalar v) rfl) (fun vs => value (.list vs) rfl)
    subtree ?nil ?cons (fun _ _ h => h) t
  case nil => exact fun entry hmem => absurd hmem List.not_mem_nil
  case cons =>
    intro first rest hfirst hrest entry hmem
    rcases List.mem_cons.mp hmem with rfl | hmem
    · exact hfirst
    · exact hrest entry hmem

/-! ## Single nodes -/

theorem overlay_value (h : d.isSubtree = false) (t : Tree) : t.overlay d = t := by
  cases d with
  | scalar _ => rfl
  | list _ => rfl
  | subtree _ => exact absurd h (by simp [isSubtree])

theorem overlay_subtree (cs ds : Children) :
    (Tree.subtree cs).overlay (.subtree ds) = .subtree (overlayChildren cs ds) := by
  rw [overlay]

/-- A value stays, whatever is there by default. -/
theorem overlay_of_value (h : t.isSubtree = false) (d : Tree) : t.overlay d = t := by
  rcases isSubtree_cases d with hd | ⟨ds, rfl⟩
  · exact overlay_value hd t
  · cases t with
    | scalar _ => rfl
    | list _ => rfl
    | subtree _ => exact absurd h (by simp [isSubtree])

/-- What filling leaves at a position at which `node?` stands, and by default `default?`. -/
def overlay? : (node? default? : Option Tree) → Option Tree
  | none, default? => default?
  | some node, none => some node
  | some node, some default => some (node.overlay default)

@[simp] theorem overlay?_none_left (default? : Option Tree) :
    overlay? none default? = default? := by
  cases default? <;> rfl

@[simp] theorem overlay?_none_right (node? : Option Tree) : overlay? node? none = node? := by
  cases node? <;> rfl

/-- A value stays at its position, whatever is there by default. -/
theorem overlay?_of_value (h : t.isSubtree = false) (default? : Option Tree) :
    overlay? (some t) default? = some t := by
  cases default? with
  | none => rfl
  | some d => rw [overlay?, overlay_of_value h]

/-- A subtree stays one. -/
theorem overlay?_of_subtree (cs : Children) (default? : Option Tree) :
    ∃ filled, overlay? (some (.subtree cs)) default? = some (.subtree filled) := by
  cases default? with
  | none => exact ⟨cs, rfl⟩
  | some d =>
    rcases isSubtree_cases d with hd | ⟨ds, rfl⟩
    · exact ⟨cs, congrArg some (overlay_value hd _)⟩
    · exact ⟨overlayChildren cs ds, congrArg some (overlay_subtree cs ds)⟩

/-! ## Children -/

theorem overlayChildren_cons (cs : Children) (name : String) (d : Tree) (ds : Children) :
    overlayChildren cs ((name, d) :: ds) =
      overlayChildren (Keyed.insert cs name ((Keyed.get? cs name).elim d fun child =>
        child.overlay d)) ds := by
  rw [overlayChildren]
  cases Keyed.get? cs name <;> rfl

/-- Overlaying defaults keeps the names in order. -/
theorem overlayChildren_ordered (hcs : Keyed.Ordered cs) (ds : Children) :
    Keyed.Ordered (overlayChildren cs ds) := by
  induction ds generalizing cs with
  | nil => rwa [overlayChildren]
  | cons entry rest ih =>
    rw [overlayChildren_cons]
    exact ih (Keyed.insert_ordered hcs _ _)

/-- Where nothing is there by default, filling leaves the children as they are. -/
theorem get?_overlayChildren_of_absent (cs : Children) (h : Keyed.get? ds name = none) :
    Keyed.get? (overlayChildren cs ds) name = Keyed.get? cs name := by
  induction ds generalizing cs with
  | nil => rw [overlayChildren]
  | cons entry rest ih =>
    obtain ⟨other, d⟩ := entry
    rw [Keyed.get?] at h
    by_cases hother : other = name
    · rw [if_pos hother] at h
      exact absurd h (by simp)
    · rw [if_neg hother] at h
      rw [overlayChildren_cons, ih _ h, Keyed.get?_insert_of_ne _ _ hother]

/-- What is found among filled children. The defaults are ordered: under a name given twice, the
second would fill what the first has filled. -/
theorem get?_overlayChildren (cs : Children) (hds : Keyed.Ordered ds) (name : String) :
    Keyed.get? (overlayChildren cs ds) name =
      overlay? (Keyed.get? cs name) (Keyed.get? ds name) := by
  induction ds generalizing cs with
  | nil => rw [overlayChildren, Keyed.get?_nil, overlay?_none_right]
  | cons entry rest ih =>
    obtain ⟨other, d⟩ := entry
    obtain ⟨hlt, hrest⟩ := Keyed.ordered_cons.mp hds
    rw [overlayChildren_cons, Keyed.get?]
    by_cases hother : other = name
    · subst hother
      -- no name further on is this one again
      rw [get?_overlayChildren_of_absent _ (Keyed.get?_eq_none_of_forall_lt hlt),
        Keyed.get?_insert_self, if_pos rfl]
      cases Keyed.get? cs other <;> rfl
    · rw [ih _ hrest, Keyed.get?_insert_of_ne _ _ hother, if_neg hother]

/-- A child is there after filling if it was before or is there by default. -/
theorem isSome_get?_overlayChildren (cs ds : Children) (name : String) :
    (Keyed.get? (overlayChildren cs ds) name).isSome =
      ((Keyed.get? cs name).isSome || (Keyed.get? ds name).isSome) := by
  induction ds generalizing cs with
  | nil => rw [overlayChildren, Keyed.get?_nil, Option.isSome_none, Bool.or_false]
  | cons entry rest ih =>
    obtain ⟨other, d⟩ := entry
    rw [overlayChildren_cons, ih, Keyed.get?]
    by_cases hother : other = name
    · simp [hother]
    · rw [Keyed.get?_insert_of_ne _ _ hother, if_neg hother]

/-! ## Positions -/

/-- What is found at a position of a filled tree, where no value is in the way of a default. -/
theorem get?_overlay (hd : d.Orderly)
    (hFree : ∀ p node ds, t.get? p = some node → d.get? p = some (.subtree ds) →
      node.isSubtree = true) (q : Path) :
    (t.overlay d).get? q = overlay? (t.get? q) (d.get? q) := by
  -- on the path; a value is nowhere overlaid by a subtree, and that is kept below each child
  induction q generalizing t d with
  | nil => rfl
  | cons name rest ih =>
    rcases isSubtree_cases d with hvalue | ⟨ds, rfl⟩
    · rw [overlay_value hvalue, get?_cons_of_value hvalue, overlay?_none_right]
    · obtain ⟨cs, rfl⟩ : ∃ cs, t = .subtree cs :=
        (isSubtree_cases t).resolve_left (by simp [hFree [] t ds rfl rfl])
      rw [overlay_subtree, get?_cons_subtree, get?_cons_subtree, get?_cons_subtree,
        get?_overlayChildren _ hd.children]
      -- the child is from one side alone, or from both, and then the path goes on below it
      cases hc : Keyed.get? cs name with
      | none => rw [overlay?_none_left, Option.bind_none, overlay?_none_left]
      | some child =>
        cases hdefault : Keyed.get? ds name with
        | none => rw [overlay?_none_right, Option.bind_none, overlay?_none_right]
        | some default =>
          refine ih (hd.child hdefault) fun p node below hnode hbelow => ?_
          exact hFree (name :: p) node below (by rw [get?_cons_of_get? hc, hnode])
            (by rw [get?_cons_of_get? hdefault, hbelow])

/-- Filling keeps names in order. -/
theorem Orderly.overlay (ht : t.Orderly) (hd : d.Orderly) : (t.overlay d).Orderly := by
  -- on the default; what is overlaid comes from both sides, and both are in order
  induction d using node_induction generalizing t with
  | value d hvalue => rwa [overlay_value hvalue]
  | subtree ds ih =>
    rcases isSubtree_cases t with hvalue | ⟨cs, rfl⟩
    · rwa [overlay_of_value hvalue]
    · rw [overlay_subtree]
      refine orderly_subtree (overlayChildren_ordered ht.children ds) fun name child hchild => ?_
      rw [get?_overlayChildren _ hd.children] at hchild
      cases hc : Keyed.get? cs name with
      | none =>
        rw [hc, overlay?_none_left] at hchild
        exact hd.child hchild
      | some node =>
        cases hdefault : Keyed.get? ds name with
        | none =>
          rw [hdefault, overlay?_none_right] at hchild
          exact ht.child hchild
        | some default =>
          rw [hc, hdefault, overlay?, Option.some.injEq] at hchild
          exact hchild ▸ ih (name, default) (Keyed.mem_of_get? hdefault) (ht.child hc)
            (hd.child hdefault)

/-! ## Filling twice -/

/-- A subtree in which nothing is set is filled with all that is there by default. -/
theorem overlayChildren_nil (hds : Keyed.Ordered ds) : overlayChildren [] ds = ds := by
  refine Keyed.ext (overlayChildren_ordered List.Pairwise.nil ds) hds fun name => ?_
  rw [get?_overlayChildren _ hds, Keyed.get?_nil, overlay?_none_left]

/-- A tree that changes nothing after it has filled another one changes nothing in itself. -/
private theorem overlay_self_of (hd : d.Orderly)
    (h : ∀ t : Tree, t.Orderly → (t.overlay d).overlay d = t.overlay d) : d.overlay d = d := by
  rcases isSubtree_cases d with hvalue | ⟨ds, rfl⟩
  · exact overlay_value hvalue d
  · have hempty : empty.overlay (.subtree ds) = .subtree ds := by
      rw [empty, overlay_subtree, overlayChildren_nil hd.children]
    have htwice := h empty orderly_empty
    rwa [hempty] at htwice

/-- Filling a second time changes nothing. -/
theorem overlay_overlay (ht : t.Orderly) (hd : d.Orderly) :
    (t.overlay d).overlay d = t.overlay d := by
  -- on the default: what was filled in is there now, so nothing is filled in again
  induction d using node_induction generalizing t with
  | value d hvalue => exact overlay_value hvalue _
  | subtree ds ih =>
    rcases isSubtree_cases t with hvalue | ⟨cs, rfl⟩
    · rw [overlay_of_value hvalue, overlay_of_value hvalue]
    · rw [overlay_subtree, overlay_subtree]
      have hfilled := overlayChildren_ordered ht.children ds
      refine congrArg subtree (Keyed.ext (overlayChildren_ordered hfilled ds) hfilled
        fun name => ?_)
      rw [get?_overlayChildren _ hd.children, get?_overlayChildren _ hd.children]
      cases hdefault : Keyed.get? ds name with
      | none => rw [overlay?_none_right]
      | some default =>
        have hbelow := fun t ht => ih _ (Keyed.mem_of_get? hdefault) (t := t) ht
          (hd.child hdefault)
        cases hc : Keyed.get? cs name with
        | none => exact congrArg some (overlay_self_of (hd.child hdefault) hbelow)
        | some child => exact congrArg some (hbelow child (ht.child hc))

theorem overlayChildren_overlayChildren (ht : (Tree.subtree cs).Orderly)
    (hd : (Tree.subtree ds).Orderly) :
    overlayChildren (overlayChildren cs ds) ds = overlayChildren cs ds := by
  have htwice := overlay_overlay ht hd
  rw [overlay_subtree, overlay_subtree] at htwice
  exact Tree.subtree.inj htwice

end RouterConfig.Tree
