import RouterConfig.Tree.Basic

/-!
# RouterConfig — whole-tree transformations

Filling a tree from another one, and renaming all of its names.
-/

namespace RouterConfig.Tree

mutual

/-- Fills the positions of `t` at which nothing stands from `defaults` (`overlay_defaults`); what
stands in `t` stays. -/
def overlay (t : Tree) : (defaults : Tree) → Tree
  | .subtree defaults =>
    match t with
    | .subtree children => .subtree (overlayChildren children defaults)
    | node => node
  | _ => t

/-- Fills children from default children, one name after the other. -/
def overlayChildren (children : Children) : (defaults : List (String × Tree)) → Children
  | [] => children
  | (name, default) :: rest =>
    let filled :=
      match Keyed.get? children name with
      | none => default
      | some child => child.overlay default
    overlayChildren (Keyed.insert children name filled) rest

end

mutual

/-- Renames every name of the tree (`map_keys`). Where two names of one subtree become equal, the
node whose name came later stays. -/
def mapKeys (rename : String → String) : Tree → Tree
  | .scalar value => .scalar value
  | .list values => .list values
  | .subtree children => .subtree (Keyed.ofList (mapEntries rename children))

/-- The children under their new names, still in the order of the old ones. -/
def mapEntries (rename : String → String) : List (String × Tree) → List (String × Tree)
  | [] => []
  | (name, child) :: rest => (rename name, child.mapKeys rename) :: mapEntries rename rest

end

end RouterConfig.Tree
