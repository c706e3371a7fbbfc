import RouterConfig.Proofs.Tree.Cutting

/-!
# RouterConfig — positions on paths that part

What is neither on the way to a position nor below it stands on a path that parts from the way.
There an update or a cut of the position leaves all as it is, but for empty subtrees that it makes
or takes out further up: on the common part of both paths. For all that, two of them do the same in
either order. Main results:

* `Path.parts_iff` — paths part unless one of them goes on from the other;
* `Tree.get?_cut_of_parts`, `Tree.get?_update?_of_parts` — what stands on a path that parts stays;
* `Tree.cut_comm`, `Tree.update?_comm`, `Tree.cut_update?_comm` — cuts and updates of positions on
  paths that part commute.
-/

namespace RouterConfig

/-! ## Paths that part -/

/-- Paths of which neither goes on from the other. -/
inductive Path.Parts : Path → Path → Prop where
  | here {name other : String} {p q : Path} : name ≠ other → Parts (name :: p) (other :: q)
  | further {name : String} {p q : Path} : Parts p q → Parts (name :: p) (name :: q)

namespace Path

theorem Parts.symm {p q : Path} (h : p.Parts q) : q.Parts p := by
  induction h with
  | here hne => exact .here hne.symm
  | further _ ih => exact .further ih

theorem Parts.ne_nil {p q : Path} (h : p.Parts q) : p ≠ [] := by
  cases h <;> simp

/-- Two paths part unless one of them goes on from the other. -/
theorem parts_iff {p q : Path} : p.Parts q ↔ ¬ p <+: q ∧ ¬ q <+: p := by
  -- where the paths part there are two names that differ, and before that they agree
  constructor
  · intro h
    induction h with
    | here hne =>
      refine ⟨fun hbelow => hne ?_, fun hbelow => hne ?_⟩
      · exact (List.cons_prefix_cons.mp hbelow).1
      · exact (List.cons_prefix_cons.mp hbelow).1.symm
    | further _ ih =>
      refine ⟨fun hbelow => ih.1 ?_, fun hbelow => ih.2 ?_⟩
      · exact (List.cons_prefix_cons.mp hbelow).2
      · exact (List.cons_prefix_cons.mp hbelow).2
  · rintro ⟨hp, hq⟩
    induction p generalizing q with
    | nil => exact absurd List.nil_prefix hp
    | cons name p ih =>
      cases q with
      | nil => exact absurd List.nil_prefix hq
      | cons other q =>
        by_cases hname : name = other
        · subst hname
          rw [List.prefix_cons_inj] at hp hq
          exact .further (ih hp hq)
        · exact .here hname

end Path

namespace Tree

variable {deed first second : Tree → Option Tree} {t : Tree} {p q : Path}

/-! ## Cuts and what stands beside them -/

/-- A cut leaves alone what is neither on its way nor below it. -/
theorem get?_cut_of_parts (h : p.Parts q) (ht : t.Orderly) (deed : Tree → Option Tree) :
    ((t.cut deed q).bind fun left => left.get? p) = t.get? p := by
  induction h generalizing t with
  | @here name other p q hne =>
    -- by where they part: at this step, or below the child they share
    rcases isSubtree_cases t with hvalue | ⟨children, rfl⟩
    · rw [cut_cons_of_value hvalue, Option.bind_some]
    · cases hother : Keyed.get? children other with
      | none => rw [cut_cons_of_absent hother, Option.bind_some]
      | some child =>
        rw [cut_cons_of_get? hother, get?_filled?, Keyed.get?_assign_of_ne _ _ hne.symm,
          get?_cons_subtree]
  | @further name p q hparts ih =>
    rcases isSubtree_cases t with hvalue | ⟨children, rfl⟩
    · rw [cut_cons_of_value hvalue, Option.bind_some]
    · cases hchild : Keyed.get? children name with
      | none => rw [cut_cons_of_absent hchild, Option.bind_some]
      | some child =>
        rw [cut_cons_of_get? hchild, get?_filled?, Keyed.get?_assign_self ht.children,
          ih (ht.child hchild), get?_cons_of_get? hchild]

/-- As long as something stands that a cut leaves alone, something is left. -/
theorem cut_isSome_of_parts (h : p.Parts q) {node : Tree} (hnode : t.get? p = some node)
    (deed : Tree → Option Tree) : ∃ left, t.cut deed q = some left := by
  induction h generalizing t with
  | @here name other p q hne =>
    -- the other path does not lead to what is cut, so it keeps standing
    obtain ⟨children, child, rfl, hchild, -⟩ := child_of_get?_cons hnode
    cases hother : Keyed.get? children other with
    | none => exact ⟨_, cut_cons_of_absent hother q⟩
    | some found =>
      have hassigned := Keyed.get?_assign_of_ne children (found.cut deed q) hne.symm
      rw [hchild] at hassigned
      rw [cut_cons_of_get? hother]
      exact ⟨_, filled?_of_ne_nil (Keyed.ne_nil_of_get? hassigned)⟩
  | @further name p q hparts ih =>
    obtain ⟨children, child, rfl, hchild, hbelow⟩ := child_of_get?_cons hnode
    obtain ⟨left, hleft⟩ := ih hbelow
    rw [cut_cons_of_get? hchild, hleft]
    exact ⟨_, filled?_of_ne_nil (Keyed.insert_ne_nil children name left)⟩

/-- Cuts of positions on paths that part commute. -/
theorem cut_comm (h : p.Parts q) (ht : t.Orderly) :
    ((t.cut first p).bind fun left => left.cut second q) =
      (t.cut second q).bind fun left => left.cut first p := by
  induction h generalizing t with
  | @here name other p q hne =>
    rcases isSubtree_cases t with hvalue | ⟨children, rfl⟩
    · rw [cut_cons_of_value hvalue, cut_cons_of_value hvalue, Option.bind_some, Option.bind_some,
        cut_cons_of_value hvalue, cut_cons_of_value hvalue]
    · by_cases hfilled : children = []
      · rw [hfilled]
        rfl
      · -- neither cut finds anything changed under its name by the other one
        have hOrdered := ht.children
        rw [cut_cons_of_ne_nil hOrdered hfilled, cut_cons_of_ne_nil hOrdered hfilled,
          cut_filled? (Keyed.assign_ordered hOrdered _ _),
          cut_filled? (Keyed.assign_ordered hOrdered _ _), Keyed.get?_assign_of_ne _ _ hne,
          Keyed.get?_assign_of_ne _ _ hne.symm, Keyed.assign_comm hOrdered hne]
  | @further name p q hparts ih =>
    rcases isSubtree_cases t with hvalue | ⟨children, rfl⟩
    · rw [cut_cons_of_value hvalue, cut_cons_of_value hvalue, Option.bind_some, Option.bind_some,
        cut_cons_of_value hvalue, cut_cons_of_value hvalue]
    · have hOrdered := ht.children
      cases hchild : Keyed.get? children name with
      | none =>
        rw [cut_cons_of_absent hchild, cut_cons_of_absent hchild, Option.bind_some,
          Option.bind_some, cut_cons_of_absent hchild, cut_cons_of_absent hchild]
      | some child =>
        -- both cuts are made of one child, after which it is put back or not
        rw [cut_cons_of_get? hchild, cut_cons_of_get? hchild,
          cut_filled? (Keyed.assign_ordered hOrdered _ _),
          cut_filled? (Keyed.assign_ordered hOrdered _ _), Keyed.get?_assign_self hOrdered,
          Keyed.get?_assign_self hOrdered, Keyed.assign_assign_self hOrdered,
          Keyed.assign_assign_self hOrdered, ih (ht.child hchild)]

section Updates

variable {make make' : Option Tree → Option Tree} {node? : Option Tree}

/-! ## Updates and what stands beside them -/

theorem update?_cons_of_getD {children : Children} (h : node?.getD empty = .subtree children)
    (name : String) (rest : Path) :
    update? make node? (name :: rest) =
      (update? make (Keyed.get? children name) rest).map fun child =>
        .subtree (Keyed.insert children name child) := by
  rw [update?, h]

/-- To an update nothing is as good as an empty subtree. -/
theorem update?_getD (hp : p ≠ []) (node? : Option Tree) :
    update? make (some (node?.getD empty)) p = update? make node? p := by
  obtain ⟨name, rest, rfl⟩ := List.exists_cons_of_ne_nil hp
  rw [update?, update?, Option.getD_some]

/-- A value stands in the way of every update that goes on from it. -/
theorem update?_cons_of_value (h : (node?.getD empty).isSubtree = false) (name : String)
    (rest : Path) : update? make node? (name :: rest) = none := by
  rw [update?]
  cases hnode : node?.getD empty with
  | scalar _ => rfl
  | list _ => rfl
  | subtree _ =>
    rw [hnode] at h
    exact absurd h (by simp [isSubtree])

/-- An update that goes on from a node finds a subtree there, or nothing. -/
theorem update?_cons_eq_some {name : String} {rest : Path} {t' : Tree}
    (h : update? make node? (name :: rest) = some t') :
    ∃ children child, node?.getD empty = .subtree children ∧
      update? make (Keyed.get? children name) rest = some child ∧
      t' = .subtree (Keyed.insert children name child) := by
  rcases isSubtree_cases (node?.getD empty) with hvalue | ⟨children, hchildren⟩
  · rw [update?_cons_of_value hvalue] at h
    exact absurd h (by simp)
  · rw [update?_cons_of_getD hchildren] at h
    obtain ⟨child, hchild, rfl⟩ := Option.map_eq_some_iff.mp h
    exact ⟨children, child, hchildren, hchild, rfl⟩

/-- What is found from a node on, where nothing is as good as an empty subtree. -/
theorem bind_get?_of_getD {children : Children} (h : node?.getD empty = .subtree children)
    (name : String) (rest : Path) :
    (node?.bind fun node => node.get? (name :: rest)) =
      (Keyed.get? children name).bind fun child => child.get? rest := by
  cases node? with
  | none =>
    obtain rfl : [] = children := Tree.subtree.inj h
    rfl
  | some node =>
    rw [Option.getD_some] at h
    rw [h, Option.bind_some, get?_cons_subtree]

/-- What is there is in order, and so is the empty subtree where nothing is. -/
theorem orderly_getD (hnode : ∀ t, node? = some t → t.Orderly) : (node?.getD empty).Orderly := by
  cases node? with
  | some node => exact hnode node rfl
  | none =>
    intro path children hget
    cases path with
    | nil =>
      rw [← Tree.subtree.inj (Option.some.inj hget)]
      exact List.Pairwise.nil
    | cons name rest => exact absurd hget (by simp [empty, get?])

/-- What an update makes is found at its end. -/
theorem get?_update?_self {t' : Tree} (h : update? make node? p = some t') :
    ∃ made, make (node?.bind fun node => node.get? p) = some made ∧ t'.get? p = some made := by
  induction p generalizing node? t' with
  | nil =>
    have hnode : (node?.bind fun node => node.get? []) = node? := by cases node? <;> rfl
    rw [hnode]
    exact ⟨t', h, rfl⟩
  | cons name rest ih =>
    obtain ⟨children, child, hchildren, hchild, rfl⟩ := update?_cons_eq_some h
    rw [get?_cons_subtree, Keyed.get?_insert_self, bind_get?_of_getD hchildren]
    exact ih hchild

/-- On the way of an update something stands afterwards. -/
theorem get?_of_update?_append {t' : Tree} (h : update? make node? (p ++ q) = some t') :
    ∃ node, t'.get? p = some node := by
  rw [update?_append] at h
  obtain ⟨node, -, hnode⟩ := get?_update?_self h
  exact ⟨node, hnode⟩

/-- An update leaves alone what is neither on its way nor below it. -/
theorem get?_update?_of_parts (hparts : p.Parts q) {t' : Tree}
    (h : update? make node? q = some t') :
    t'.get? p = node?.bind fun node => node.get? p := by
  induction hparts generalizing node? t' with
  | @here name other p q hne =>
    obtain ⟨children, child, hchildren, -, rfl⟩ := update?_cons_eq_some h
    rw [get?_cons_subtree, Keyed.get?_insert_of_ne _ _ hne.symm, bind_get?_of_getD hchildren]
  | @further name p q hparts ih =>
    obtain ⟨children, child, hchildren, hchild, rfl⟩ := update?_cons_eq_some h
    rw [get?_cons_subtree, Keyed.get?_insert_self, Option.bind_some, ih hchild,
      bind_get?_of_getD hchildren]

/-- Updates of positions on paths that part commute. -/
theorem update?_comm (h : p.Parts q) (hnode : ∀ t, node? = some t → t.Orderly) :
    ((update? make node? p).bind fun made => update? make' (some made) q) =
      (update? make' node? q).bind fun made => update? make (some made) p := by
  induction h generalizing node? with
  | @here name other p q hne =>
    -- at this step the two make what they make under different names
    rcases isSubtree_cases (node?.getD empty) with hvalue | ⟨children, hchildren⟩
    · rw [update?_cons_of_value hvalue, update?_cons_of_value hvalue]
      rfl
    · have hOrdered : Keyed.Ordered children :=
        Orderly.children (hchildren ▸ orderly_getD hnode)
      rw [update?_cons_of_getD hchildren, update?_cons_of_getD hchildren]
      -- each of the two finds under its name what was there before the other one
      cases hmade : update? make (Keyed.get? children name) p with
      | none =>
        cases hmade' : update? make' (Keyed.get? children other) q with
        | none => rfl
        | some made' =>
          simp only [Option.map_none, Option.bind_none, Option.map_some, Option.bind_some,
            update?_cons_subtree, Keyed.get?_insert_of_ne _ _ hne.symm, hmade]
      | some made =>
        simp only [Option.map_some, Option.bind_some, update?_cons_subtree,
          Keyed.get?_insert_of_ne _ _ hne]
        cases hmade' : update? make' (Keyed.get? children other) q with
        | none => rfl
        | some made' =>
          have hcomm := Keyed.assign_comm hOrdered hne (some made) (some made')
          simp only [Option.map_some, Option.bind_some, update?_cons_subtree,
            Keyed.get?_insert_of_ne _ _ hne.symm, hmade]
          exact congrArg (some ∘ Tree.subtree) hcomm
  | @further name p q hparts ih =>
    rcases isSubtree_cases (node?.getD empty) with hvalue | ⟨children, hchildren⟩
    · rw [update?_cons_of_value hvalue, update?_cons_of_value hvalue]
      rfl
    · have hOrderly : (Tree.subtree children).Orderly := hchildren ▸ orderly_getD hnode
      have hbelow : ∀ t, Keyed.get? children name = some t → t.Orderly :=
        fun t ht => hOrderly.child ht
      -- the second update finds under the name what the first one has put there
      have hsame : ∀ (make : Option Tree → Option Tree) (made? : Option Tree) (q : Path),
          ((made?.map fun child => Tree.subtree (Keyed.insert children name child)).bind
              fun made => update? make (some made) (name :: q)) =
            (made?.bind fun child => update? make (some child) q).map fun child =>
              .subtree (Keyed.insert children name child) := by
        intro make made? q
        cases made? with
        | none => rfl
        | some child =>
          simp only [Option.map_some, Option.bind_some, update?_cons_subtree,
            Keyed.get?_insert_self, Keyed.insert_insert_self]
      rw [update?_cons_of_getD hchildren, update?_cons_of_getD hchildren, hsame, hsame, ih hbelow]

/-! ## Updates and cuts -/

/-- What a cut leaves of a node, where nothing is as good as an empty subtree. -/
theorem cut_getD {children : Children} (hchildren : node?.getD empty = .subtree children)
    (hOrdered : Keyed.Ordered children) (name : String) (rest : Path) :
    (node?.bind fun node => node.cut deed (name :: rest)).getD empty =
      .subtree (Keyed.assign children name
        ((Keyed.get? children name).bind fun child => child.cut deed rest)) := by
  cases node? with
  | none =>
    obtain rfl : [] = children := Tree.subtree.inj hchildren
    rfl
  | some node =>
    rw [Option.getD_some] at hchildren
    rw [hchildren, Option.bind_some]
    by_cases hfilled : children = []
    · rw [hfilled]
      rfl
    · rw [cut_cons_of_ne_nil hOrdered hfilled, filled?_getD]

/-- An update and a cut that start at a value change nothing about it. -/
theorem cut_update?_of_value (hvalue : (node?.getD empty).isSubtree = false) (name other : String)
    (p q : Path) :
    ((update? make node? (name :: p)).bind fun made => made.cut deed (other :: q)) =
      update? make (node?.bind fun node => node.cut deed (other :: q)) (name :: p) := by
  cases node? with
  | none => exact absurd hvalue (by simp [empty, isSubtree])
  | some node =>
    have hnode : node.isSubtree = false := hvalue
    rw [update?_cons_of_value hvalue, Option.bind_none, Option.bind_some,
      cut_cons_of_value hnode, update?_cons_of_value hvalue]

/-- A cut and an update of positions on paths that part commute. -/
theorem cut_update?_comm (h : p.Parts q) (hnode : ∀ t, node? = some t → t.Orderly) :
    ((update? make node? p).bind fun made => made.cut deed q) =
      update? make (node?.bind fun node => node.cut deed q) p := by
  induction h generalizing node? with
  | @here name other p q hne =>
    rcases isSubtree_cases (node?.getD empty) with hvalue | ⟨children, hchildren⟩
    · exact cut_update?_of_value hvalue name other p q
    · have hOrdered : Keyed.Ordered children :=
        Orderly.children (hchildren ▸ orderly_getD hnode)
      rw [update?_cons_of_getD hchildren, update?_cons_of_getD (cut_getD hchildren hOrdered _ _),
        Keyed.get?_assign_of_ne _ _ hne.symm]
      cases update? make (Keyed.get? children name) p with
      | none => rfl
      | some made =>
        -- what has been made stands beside the cut, so that something is left
        have hinserted := Keyed.insert_ordered hOrdered name made
        have hfound := Keyed.get?_insert_self children name made
        have hleft := fun left? =>
          (Keyed.get?_assign_of_ne (Keyed.insert children name made) left? hne.symm).trans hfound
        have hcomm := Keyed.assign_comm hOrdered hne (some made)
        rw [Option.map_some, Option.bind_some, Option.map_some, cut_cons_of_ne_nil hinserted
          (Keyed.ne_nil_of_get? hfound), Keyed.get?_insert_of_ne _ _ hne,
          filled?_of_ne_nil (Keyed.ne_nil_of_get? (hleft _))]
        exact congrArg (some ∘ Tree.subtree) (hcomm _)
  | @further name p q hparts ih =>
    rcases isSubtree_cases (node?.getD empty) with hvalue | ⟨children, hchildren⟩
    · exact cut_update?_of_value hvalue name name p q
    · have hOrderly : (Tree.subtree children).Orderly := hchildren ▸ orderly_getD hnode
      have hOrdered := hOrderly.children
      have hbelow : ∀ t, Keyed.get? children name = some t → t.Orderly :=
        fun t ht => hOrderly.child ht
      rw [update?_cons_of_getD hchildren, update?_cons_of_getD (cut_getD hchildren hOrdered _ _),
        Keyed.get?_assign_self hOrdered, ← ih hbelow]
      cases hmade : update? make (Keyed.get? children name) p with
      | none => rfl
      | some made =>
        have hfound := Keyed.get?_insert_self children name made
        obtain ⟨node, -, hnode⟩ := get?_update?_self hmade
        obtain ⟨left, hleft⟩ := cut_isSome_of_parts hparts hnode deed
        have hsame := Keyed.assign_assign_self hOrdered name (some made) (some left)
        have hsame' := fun left? => Keyed.assign_assign_self hOrdered name left? (some left)
        rw [Option.map_some, Option.bind_some, cut_cons_of_get? hfound, Option.bind_some, hleft,
          Option.map_some]
        refine (filled?_of_ne_nil (Keyed.insert_ne_nil _ name left)).trans ?_
        exact congrArg (some ∘ Tree.subtree) (hsame.trans (hsame' _).symm)

end Updates

end Tree

end RouterConfig
