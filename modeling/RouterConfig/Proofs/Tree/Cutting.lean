import RouterConfig.Proofs.Tree.Update

/-!
# RouterConfig — one cut for every deletion

All that is ever taken out of a tree is taken out at one position, and the nodes above that it
leaves empty go with it. `Tree.cut` follows a path to a node, has a function say what is left of it,
and takes out whatever is empty after that and was not before. Nodes that were empty before stay,
and so does all if the path leads nowhere. Main results:

* `Tree.follow_induction` — a path followed from a tree on ends, or leads to a value, to nothing or
  through a child;
* `Tree.found_induction` — a path to a node ends there or leads through a child;
* `Tree.cut_append`, `Tree.cut_bind` — a cut may be followed in two parts, and two cuts at one
  position are one;
* `Tree.get?_cut_self` — what a cut leaves is found at its position;
* `Tree.prune_remove_eq_cut`, `Tree.prune_replace_eq_cut` — deleting is cutting.
-/

namespace RouterConfig.Tree

/-! ## Following a path -/

theorem isSubtree_cases (t : Tree) : t.isSubtree = false ∨ ∃ children, t = .subtree children := by
  cases t with
  | scalar _ => exact .inl rfl
  | list _ => exact .inl rfl
  | subtree children => exact .inr ⟨children, rfl⟩

/-- A path followed from a tree on ends, or leads to a value, to nothing or through a child. -/
theorem follow_induction {motive : Tree → Path → Prop} (here : ∀ t, motive t [])
    (value : ∀ t name rest, t.isSubtree = false → motive t (name :: rest))
    (missing : ∀ children name rest, Keyed.get? children name = none →
      motive (.subtree children) (name :: rest))
    (through : ∀ children name rest child, Keyed.get? children name = some child →
      motive child rest → motive (.subtree children) (name :: rest))
    (t : Tree) (p : Path) : motive t p := by
  induction p generalizing t with
  | nil => exact here t
  | cons name rest ih =>
    rcases isSubtree_cases t with hvalue | ⟨children, rfl⟩
    · exact value t name rest hvalue
    · cases hchild : Keyed.get? children name with
      | none => exact missing children name rest hchild
      | some child => exact through children name rest child hchild (ih child)

theorem get?_cons_subtree (children : Children) (name : String) (rest : Path) :
    (Tree.subtree children).get? (name :: rest) =
      (Keyed.get? children name).bind fun child => child.get? rest := by
  rw [get?]
  cases Keyed.get? children name <;> rfl

theorem get?_cons_of_get? {children : Children} {name : String} {child : Tree}
    (h : Keyed.get? children name = some child) (rest : Path) :
    (Tree.subtree children).get? (name :: rest) = child.get? rest := by
  rw [get?_cons_subtree, h, Option.bind_some]

theorem get?_cons_of_absent {children : Children} {name : String}
    (h : Keyed.get? children name = none) (rest : Path) :
    (Tree.subtree children).get? (name :: rest) = none := by
  rw [get?_cons_subtree, h, Option.bind_none]

theorem get?_cons_of_value {t : Tree} (h : t.isSubtree = false) (name : String) (rest : Path) :
    t.get? (name :: rest) = none := by
  cases t with
  | scalar _ => rfl
  | list _ => rfl
  | subtree _ => exact absurd h (by simp [isSubtree])

/-- What is found further down is found in a child. -/
theorem child_of_get?_cons {t node : Tree} {name : String} {rest : Path}
    (h : t.get? (name :: rest) = some node) :
    ∃ children child, t = .subtree children ∧ Keyed.get? children name = some child ∧
      child.get? rest = some node := by
  rcases isSubtree_cases t with hvalue | ⟨children, rfl⟩
  · rw [get?_cons_of_value hvalue] at h
    exact absurd h (by simp)
  · rw [get?_cons_subtree] at h
    obtain ⟨child, hchild, hbelow⟩ := Option.bind_eq_some_iff.mp h
    exact ⟨children, child, rfl, hchild, hbelow⟩

/-- A path to a node ends there or leads through a child. -/
theorem found_induction {node : Tree}
    {motive : (t : Tree) → (p : Path) → t.get? p = some node → Prop}
    (here : motive node [] rfl)
    (through : ∀ children name rest child (hchild : Keyed.get? children name = some child)
      (hbelow : child.get? rest = some node), motive child rest hbelow →
      motive (.subtree children) (name :: rest) ((get?_cons_of_get? hchild rest).trans hbelow))
    (t : Tree) (p : Path) (h : t.get? p = some node) : motive t p h := by
  induction p generalizing t with
  | nil =>
    obtain rfl : t = node := Option.some.inj h
    exact here
  | cons name rest ih =>
    obtain ⟨children, child, rfl, hchild, hbelow⟩ := child_of_get?_cons h
    exact through children name rest child hchild hbelow (ih child hbelow)

/-- Each subtree of a tree names its children in order. -/
def Orderly (t : Tree) : Prop :=
  ∀ path children, t.get? path = some (.subtree children) → Keyed.Ordered children

theorem Orderly.children {children : Children} (h : (Tree.subtree children).Orderly) :
    Keyed.Ordered children :=
  h [] children rfl

theorem Orderly.child {children : Children} (h : (Tree.subtree children).Orderly) {name : String}
    {child : Tree} (hchild : Keyed.get? children name = some child) : child.Orderly :=
  fun path grandchildren hget =>
    h (name :: path) grandchildren (by rw [get?_cons_of_get? hchild, hget])

theorem Orderly.found {t node : Tree} {p : Path} (h : t.Orderly) (hnode : t.get? p = some node) :
    node.Orderly :=
  fun path children hget =>
    h (p ++ path) children (by rw [get?_append, hnode, Option.bind_some, hget])

/-- A subtree, if there is anything in it. -/
def filled? (children : Children) : Option Tree :=
  if children.isEmpty then none else some (.subtree children)

theorem filled?_of_ne_nil {children : Children} (h : children ≠ []) :
    filled? children = some (.subtree children) :=
  if_neg (by rwa [List.isEmpty_iff])

/-- What is put back is a subtree with something in it. -/
theorem filled?_eq_some {children : Children} {t : Tree} (h : filled? children = some t) :
    t = .subtree children ∧ children ≠ [] := by
  rw [filled?] at h
  split at h
  · exact absurd h (by simp)
  · rename_i hfilled
    exact ⟨(Option.some.inj h).symm, by simpa using hfilled⟩

/-- What is found in a subtree does not depend on whether it stands there when it is empty. -/
theorem get?_filled? (children : Children) (name : String) (rest : Path) :
    ((filled? children).bind fun t => t.get? (name :: rest)) =
      (Keyed.get? children name).bind fun child => child.get? rest := by
  cases children with
  | nil => rfl
  | cons entry others => exact get?_cons_subtree _ name rest

theorem filled?_getD (children : Children) : (filled? children).getD empty = .subtree children := by
  cases children <;> rfl

/-! ## Cutting -/

/-- What is left of a tree when `deed` says what is left of the node at `path`; nothing, if the tree
is empty by that. -/
def cut (deed : Tree → Option Tree) : Tree → Path → Option Tree
  | t, [] => deed t
  | .subtree children, name :: rest =>
    match Keyed.get? children name with
    | some child => filled? (Keyed.assign children name (cut deed child rest))
    -- nothing is taken out here, so the subtree stays even if it is empty
    | none => some (.subtree children)
  | t, _ :: _ => some t

variable {deed first second : Tree → Option Tree} {t : Tree} {p q : Path}

theorem cut_nil (deed : Tree → Option Tree) (t : Tree) : t.cut deed [] = deed t := by
  cases t <;> rfl

theorem cut_cons_of_get? {children : Children} {name : String} {child : Tree}
    (h : Keyed.get? children name = some child) (rest : Path) :
    (Tree.subtree children).cut deed (name :: rest) =
      filled? (Keyed.assign children name (child.cut deed rest)) := by
  rw [cut, h]

theorem cut_cons_of_absent {children : Children} {name : String}
    (h : Keyed.get? children name = none) (rest : Path) :
    (Tree.subtree children).cut deed (name :: rest) = some (.subtree children) := by
  rw [cut, h]

theorem cut_cons_of_value (h : t.isSubtree = false) (name : String) (rest : Path) :
    t.cut deed (name :: rest) = some t := by
  cases t with
  | scalar _ => rfl
  | list _ => rfl
  | subtree _ => exact absurd h (by simp [isSubtree])

/-- A cut of a subtree in which something stands, whether or not under the name that comes first. -/
theorem cut_cons_of_ne_nil {children : Children} (hOrdered : Keyed.Ordered children)
    (hne : children ≠ []) (name : String) (rest : Path) :
    (Tree.subtree children).cut deed (name :: rest) =
      filled? (Keyed.assign children name
        ((Keyed.get? children name).bind fun child => child.cut deed rest)) := by
  cases hchild : Keyed.get? children name with
  | none =>
    rw [cut_cons_of_absent hchild, Option.bind_none, ← hchild, Keyed.assign_get? hOrdered,
      filled?_of_ne_nil hne]
  | some child => rw [cut_cons_of_get? hchild, Option.bind_some]

/-- A cut of what is left of a subtree, whether or not there is anything left. -/
theorem cut_filled? {children : Children} (hOrdered : Keyed.Ordered children) (name : String)
    (rest : Path) :
    ((filled? children).bind fun left => left.cut deed (name :: rest)) =
      filled? (Keyed.assign children name
        ((Keyed.get? children name).bind fun child => child.cut deed rest)) := by
  by_cases hne : children = []
  · rw [hne]
    rfl
  · rw [filled?_of_ne_nil hne, Option.bind_some, cut_cons_of_ne_nil hOrdered hne]

/-- A cut below a node leaves it what it is, if it leaves anything. -/
theorem isSubtree_of_cut {name : String} {rest : Path} {left : Tree}
    (h : t.cut deed (name :: rest) = some left) : left.isSubtree = t.isSubtree := by
  rcases isSubtree_cases t with hvalue | ⟨children, rfl⟩
  · rw [cut_cons_of_value hvalue] at h
    rw [← Option.some.inj h]
  · cases hchild : Keyed.get? children name with
    | none =>
      rw [cut_cons_of_absent hchild] at h
      rw [← Option.some.inj h]
    | some child =>
      rw [cut_cons_of_get? hchild] at h
      rw [(filled?_eq_some h).1]
      rfl

/-- A cut at a path of two parts is a cut by the second part of the node at the first. -/
theorem cut_append (deed : Tree → Option Tree) (t : Tree) (p q : Path) :
    t.cut deed (p ++ q) = t.cut (fun found => found.cut deed q) p := by
  induction t, p using follow_induction with
  | here t => rw [List.nil_append, cut_nil]
  | value t name rest hvalue =>
    rw [List.cons_append, cut_cons_of_value hvalue, cut_cons_of_value hvalue]
  | missing children name rest hchild =>
    rw [List.cons_append, cut_cons_of_absent hchild, cut_cons_of_absent hchild]
  | through children name rest child hchild ih =>
    rw [List.cons_append, cut_cons_of_get? hchild, cut_cons_of_get? hchild, ih]

/-- A cut depends on what is left of the node that it finds, and on nothing else of its deed. -/
theorem cut_congr (h : ∀ node, t.get? p = some node → first node = second node) :
    t.cut first p = t.cut second p := by
  induction t, p using follow_induction with
  | here t => rw [cut_nil, cut_nil, h t rfl]
  | value t name rest hvalue => rw [cut_cons_of_value hvalue, cut_cons_of_value hvalue]
  | missing children name rest hchild => rw [cut_cons_of_absent hchild, cut_cons_of_absent hchild]
  | through children name rest child hchild ih =>
    have hbelow : child.cut first rest = child.cut second rest :=
      ih fun node hnode => h node (by rw [get?_cons_of_get? hchild, hnode])
    rw [cut_cons_of_get? hchild, cut_cons_of_get? hchild, hbelow]

/-- Where nothing is found, or nothing is taken of it, all stays. -/
theorem cut_eq_self (ht : t.Orderly) (h : ∀ node, t.get? p = some node → deed node = some node) :
    t.cut deed p = some t := by
  induction t, p using follow_induction with
  | here t => rw [cut_nil, h t rfl]
  | value t name rest hvalue => rw [cut_cons_of_value hvalue]
  | missing children name rest hchild => rw [cut_cons_of_absent hchild]
  | through children name rest child hchild ih =>
    have hleft : child.cut deed rest = some child :=
      ih (ht.child hchild) fun node hnode => h node (by rw [get?_cons_of_get? hchild, hnode])
    -- the child is put back where it has been
    rw [cut_cons_of_get? hchild, hleft, ← hchild, Keyed.assign_get? ht.children,
      filled?_of_ne_nil (Keyed.ne_nil_of_get? hchild)]

/-- Two cuts at one position are one, which leaves of a node what the second leaves of what the
first has left. -/
theorem cut_bind (ht : t.Orderly) :
    ((t.cut first p).bind fun left => left.cut second p) =
      t.cut (fun found => (first found).bind second) p := by
  induction t, p using follow_induction with
  | here t => simp only [cut_nil]
  | value t name rest hvalue =>
    rw [cut_cons_of_value hvalue, Option.bind_some, cut_cons_of_value hvalue,
      cut_cons_of_value hvalue]
  | missing children name rest hchild =>
    rw [cut_cons_of_absent hchild, Option.bind_some, cut_cons_of_absent hchild,
      cut_cons_of_absent hchild]
  | through children name rest child hchild ih =>
    have hOrdered := ht.children
    rw [cut_cons_of_get? hchild, cut_cons_of_get? hchild, ← ih (ht.child hchild),
      cut_filled? (Keyed.assign_ordered hOrdered _ _), Keyed.get?_assign_self hOrdered,
      Keyed.assign_assign_self hOrdered]

/-- Cuts at one position commute if what they leave does. -/
theorem cut_comm_of_deeds (ht : t.Orderly)
    (h : ∀ node, (first node).bind second = (second node).bind first) :
    ((t.cut first p).bind fun left => left.cut second p) =
      (t.cut second p).bind fun left => left.cut first p := by
  rw [cut_bind ht, cut_bind ht]
  exact cut_congr fun node _ => h node

/-- What a cut leaves is found at its position. -/
theorem get?_cut_self (ht : t.Orderly) :
    ((t.cut deed p).bind fun left => left.get? p) = (t.get? p).bind deed := by
  induction t, p using follow_induction with
  | here t =>
    rw [cut_nil]
    cases hleft : deed t <;> simp [get?, hleft]
  | value t name rest hvalue =>
    rw [cut_cons_of_value hvalue, Option.bind_some, get?_cons_of_value hvalue, Option.bind_none]
  | missing children name rest hchild =>
    rw [cut_cons_of_absent hchild, Option.bind_some, get?_cons_of_absent hchild, Option.bind_none]
  | through children name rest child hchild ih =>
    rw [cut_cons_of_get? hchild, get?_filled?, Keyed.get?_assign_self ht.children,
      ih (ht.child hchild), get?_cons_of_get? hchild]

/-! ## Deletions as cuts -/

/-- What is left of a node above the position of a cut is not empty. -/
theorem not_isEmpty_of_cut {name : String} {rest : Path} {node left : Tree}
    (hnode : t.get? (name :: rest) = some node) (h : t.cut deed (name :: rest) = some left) :
    left.isEmpty = false := by
  obtain ⟨children, child, rfl, hchild, -⟩ := child_of_get?_cons hnode
  rw [cut_cons_of_get? hchild] at h
  obtain ⟨rfl, hfilled⟩ := filled?_eq_some h
  simpa [isEmpty] using hfilled

/-- Taking a node out and pruning the way to it, or to its parent, is cutting it out. -/
theorem prune_remove_eq_cut (ht : t.Orderly) (hp : p ≠ []) {node : Tree}
    (hnode : t.get? p = some node) {way : Path} (hway : way = p ∨ way = p.dropLast) :
    (t.remove p).prune way = (t.cut (fun _ => none) p).getD empty := by
  induction t, p, hnode using found_induction generalizing way with
  | here => exact absurd rfl hp
  | through children name rest child hchild hbelow ih =>
    have hOrdered := ht.children
    rw [cut_cons_of_get? hchild, filled?_getD]
    cases rest with
    | nil =>
      -- the node itself goes, and pruning finds nothing in its place
      have hgone := Keyed.get?_erase_self hOrdered name
      rw [cut_nil]
      rcases hway with rfl | rfl
      · rw [remove, prune, hgone]
        rfl
      · rfl
    | cons next rest =>
      obtain ⟨way', rfl, hway'⟩ : ∃ way', way = name :: way' ∧
          (way' = next :: rest ∨ way' = (next :: rest).dropLast) := by
        rcases hway with rfl | rfl
        · exact ⟨_, rfl, .inl rfl⟩
        · exact ⟨_, rfl, .inr rfl⟩
      have hpruned := ih (ht.child hchild) (by simp) hway'
      rw [remove, hchild]
      dsimp only
      rw [prune, Keyed.get?_insert_self]
      dsimp only
      rw [hpruned]
      -- pruning takes the child out by hand that the cut has left nothing of
      cases hleft : child.cut (fun _ => none) (next :: rest) with
      | none => exact congrArg Tree.subtree (Keyed.erase_insert_self hOrdered name _)
      | some left =>
        rw [Option.getD_some, if_neg (by simp [not_isEmpty_of_cut hbelow hleft]),
          Keyed.insert_insert_self]
        rfl

/-- A node that is there can be replaced. -/
theorem replace?_isSome (node : Tree) {found : Tree} (h : t.get? p = some found) :
    ∃ t', t.replace? node p = some t' := by
  induction t, p, h using found_induction with
  | here => exact ⟨node, rfl⟩
  | through children name rest child hchild _ ih =>
    obtain ⟨child', hchild'⟩ := ih
    rw [replace?, hchild]
    exact ⟨_, Option.map_eq_some_iff.mpr ⟨child', hchild', rfl⟩⟩

/-- Pruning takes nothing away where what has been put at the end of the way is not empty, so that
putting it there is cutting, too. -/
theorem prune_replace_eq_cut {node t' : Tree} (hnode : node.isEmpty = false)
    (h : t.replace? node p = some t') :
    t.cut (fun _ => some node) p = some (t'.prune p) ∧ (t'.prune p).isEmpty = false := by
  -- on the path: at its end both leave the node, and above it both put back the same child
  induction p generalizing t t' with
  | nil =>
    obtain rfl : node = t' := Option.some.inj h
    exact ⟨cut_nil _ t, hnode⟩
  | cons name rest ih =>
    cases t with
    | scalar _ => exact absurd h (by simp [replace?])
    | list _ => exact absurd h (by simp [replace?])
    | subtree children =>
      rw [replace?] at h
      cases hchild : Keyed.get? children name with
      | none => simp [hchild] at h
      | some child =>
        rw [hchild] at h
        obtain ⟨child', hchild', rfl⟩ := Option.map_eq_some_iff.mp h
        obtain ⟨hcut, hfilled⟩ := ih hchild'
        -- the child is not empty, so the cut leaves it in its place
        have hpruned : (Tree.subtree (Keyed.insert children name child')).prune (name :: rest) =
            .subtree (Keyed.insert children name (child'.prune rest)) := by
          rw [prune, Keyed.get?_insert_self]
          dsimp only
          rw [if_neg (by simp [hfilled]), Keyed.insert_insert_self]
        rw [cut_cons_of_get? hchild, hcut, hpruned]
        have hne := Keyed.insert_ne_nil children name (child'.prune rest)
        exact ⟨filled?_of_ne_nil hne, by simpa [isEmpty] using hne⟩

end RouterConfig.Tree
