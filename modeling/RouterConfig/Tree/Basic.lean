import RouterConfig.Keyed
import RouterConfig.Text.Words

/-!
# RouterConfig — configuration trees

A configuration is a tree of values: a scalar holds one value (the empty text for a position that
takes none), a list holds values in order, a subtree holds further nodes by name. Positions are
named by paths. Main results:

* `Tree.get?_append` — a path may be followed in two parts.
-/

namespace RouterConfig

/-- A position, as the names met on the way to it. -/
abbrev Path := List String

/-- The path written as words between blanks. -/
def Path.ofText (text : String) : Path := blankWords text

/-- The names with one space between neighbours. -/
def Path.text (path : Path) : String := joinWords path

/-- A node of a configuration (`ConfigTree`). -/
inductive Tree where
  | scalar (value : String)
  | list (values : List String)
  | subtree (children : List (String × Tree))

/-- The nodes directly below a subtree. -/
abbrev Children := Keyed Tree

namespace Tree

/-- The subtree without children: the configuration in which nothing is set. -/
def empty : Tree := .subtree []

instance : Inhabited Tree := ⟨empty⟩

/-! ## Equality -/

mutual

/-- Equality of nodes is decidable. -/
def decEq : (a b : Tree) → Decidable (a = b)
  | .scalar v, .scalar w =>
    if h : v = w then isTrue (by rw [h]) else isFalse (by simp [h])
  | .list vs, .list ws =>
    if h : vs = ws then isTrue (by rw [h]) else isFalse (by simp [h])
  | .subtree cs, .subtree ds =>
    match decEqChildren cs ds with
    | isTrue h => isTrue (by rw [h])
    | isFalse h => isFalse (by simp [h])
  | .scalar _, .list _ | .scalar _, .subtree _ | .list _, .scalar _ | .list _, .subtree _
  | .subtree _, .scalar _ | .subtree _, .list _ => isFalse (by simp)

/-- Equality of children is decidable. -/
def decEqChildren : (cs ds : List (String × Tree)) → Decidable (cs = ds)
  | [], [] => isTrue rfl
  | [], _ :: _ => isFalse (by simp)
  | _ :: _, [] => isFalse (by simp)
  | (k, t) :: cs, (l, u) :: ds =>
    if hk : k = l then
      match decEq t u, decEqChildren cs ds with
      | isTrue ht, isTrue hcs => isTrue (by rw [hk, ht, hcs])
      | isFalse ht, _ => isFalse (by simp [ht])
      | _, isFalse hcs => isFalse (by simp [hcs])
    else isFalse (by simp [hk])

end

instance : DecidableEq Tree := decEq

/-! ## Looking around -/

/-- Whether the node is a subtree. -/
def isSubtree : Tree → Bool
  | .subtree _ => true
  | _ => false

/-- The children of a subtree. -/
def children? : Tree → Option Children
  | .subtree children => some children
  | _ => none

/-- Whether nothing is set here (`is_empty`). A scalar always sets something, even without a
value. -/
def isEmpty : Tree → Bool
  | .scalar _ => false
  | .list values => values.isEmpty
  | .subtree children => children.isEmpty

/-- The node at `path` (`get`). -/
def get? (t : Tree) : Path → Option Tree
  | [] => some t
  | name :: rest =>
    match t with
    | .subtree children =>
      match Keyed.get? children name with
      | some child => child.get? rest
      | none => none
    | _ => none

/-- The node at `path`, or an empty subtree where nothing stands. -/
def subtreeAt (t : Tree) (path : Path) : Tree := (t.get? path).getD empty

/-- The names directly below a node (`keys`): the names of its children or the entries of a list. -/
def keys : Tree → List String
  | .scalar _ => []
  | .list values => values
  | .subtree children => Keyed.keys children

/-- The values a node holds: the one of a scalar, otherwise the names directly below. -/
def values : Tree → List String
  | .scalar value => [value]
  | node => node.keys

mutual

/-- How many levels of names there are below a node. -/
def height : Tree → Nat
  | .scalar _ => 0
  | .list _ => 1
  | .subtree children => heightBelow children + 1

/-- How many levels of names there are below the highest of several nodes. -/
def heightBelow : List (String × Tree) → Nat
  | [] => 0
  | (_, child) :: rest => max child.height (heightBelow rest)

end

theorem get?_append (t : Tree) (p q : Path) : t.get? (p ++ q) = (t.get? p).bind (·.get? q) := by
  induction p generalizing t with
  | nil => simp [get?]
  | cons name rest ih =>
    cases t with
    | scalar _ => simp [get?]
    | list _ => simp [get?]
    | subtree children =>
      simp only [List.cons_append, get?]
      cases Keyed.get? children name with
      | none => rfl
      | some child => exact ih child

/-- Strictly below a position, an empty subtree is as good as nothing. -/
theorem get?_subtreeAt (t : Tree) (path : Path) {rest : Path} (hrest : rest ≠ []) :
    (t.subtreeAt path).get? rest = t.get? (path ++ rest) := by
  rw [get?_append, subtreeAt]
  cases t.get? path with
  | some node => rfl
  | none =>
    cases rest with
    | nil => exact absurd rfl hrest
    | cons name others => rfl

end Tree

end RouterConfig
