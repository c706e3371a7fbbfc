import RouterConfig.Tree.Basic

/-!
# RouterConfig — changing a tree at a path

Every change follows a path and leaves all that does not lie on it as it is. Main results:

* `Tree.get?_replace_self` — the node at the path is the new one.
-/

namespace RouterConfig.Tree

/-- Alters the children of the subtree at `path`, making empty subtrees where the path leads nowhere
yet (`subtree_mut`). Nothing comes of it where a scalar or a list stands on the path, or where
`change` declines. -/
def alter? (change : Children → Option Children) (t : Tree) : Path → Option Tree
  | [] =>
    match t with
    | .subtree children => (change children).map .subtree
    | _ => none
  | name :: rest =>
    match t with
    | .subtree children =>
      (((Keyed.get? children name).getD empty).alter? change rest).map fun child =>
        .subtree (Keyed.insert children name child)
    | _ => none

/-- Makes sure that a subtree stands at `path`. -/
def ensureSubtree? (t : Tree) (path : Path) : Option Tree := t.alter? some path

/-- Puts `node` in the place of the one at `path`, if there is one. -/
def replace? (t node : Tree) : Path → Option Tree
  | [] => some node
  | name :: rest =>
    match t with
    | .subtree children =>
      match Keyed.get? children name with
      | some child =>
        (child.replace? node rest).map fun child => .subtree (Keyed.insert children name child)
      | none => none
    | _ => none

/-- Takes the node at `path` out, children and all (`remove`). The root stays. -/
def remove (t : Tree) : Path → Tree
  | [] => t
  | [name] =>
    match t with
    | .subtree children => .subtree (Keyed.erase children name)
    | node => node
  | name :: next :: rest =>
    match t with
    | .subtree children =>
      match Keyed.get? children name with
      | some child => .subtree (Keyed.insert children name (child.remove (next :: rest)))
      | none => .subtree children
    | node => node

/-- What `remove` takes out. -/
def removed? (t : Tree) (path : Path) : Option Tree :=
  if path.isEmpty then none else t.get? path

/-- Takes the empty nodes along `path` out, deepest first, up to the first that is not empty
(`prune`). The root stays. -/
def prune (t : Tree) : Path → Tree
  | [] => t
  | name :: rest =>
    match t with
    | .subtree children =>
      match Keyed.get? children name with
      | some child =>
        -- Below first: a node may be empty only because what was in it has just gone.
        let child := child.prune rest
        if child.isEmpty then .subtree (Keyed.erase children name)
        else .subtree (Keyed.insert children name child)
      | none => .subtree children
    | node => node

theorem get?_replace_self {t t' node : Tree} {path : Path} (h : t.replace? node path = some t') :
    t'.get? path = some node := by
  induction path generalizing t t' with
  | nil =>
    simp only [replace?, Option.some.injEq] at h
    rw [h]
    rfl
  | cons name rest ih =>
    cases t with
    | scalar _ => simp [replace?] at h
    | list _ => simp [replace?] at h
    | subtree children =>
      simp only [replace?] at h
      cases hc : Keyed.get? children name with
      | none => simp [hc] at h
      | some child =>
        simp only [hc, Option.map_eq_some_iff] at h
        obtain ⟨child', hchild, rfl⟩ := h
        simp [get?, ih hchild]

end RouterConfig.Tree
