import RouterConfig.Tree.Basic

/-!
# RouterConfig — the entries of a tree

A tree written as one list of words per position at which something is set.
-/

namespace RouterConfig.Tree

mutual

/-- The entries of a node at `path` (`flatten`): the path of a node without value or children, the
path followed by a value for each value. Nothing is said of an empty root. -/
def entries (path : Path) : Tree → List Path
  | .scalar value => [if value.isEmpty then path else path ++ [value]]
  | .list values => values.map fun value => path ++ [value]
  | .subtree [] => if path.isEmpty then [] else [path]
  | .subtree (child :: rest) => childEntries path (child :: rest)

/-- The entries of all children, in the order of their names. -/
def childEntries (path : Path) : List (String × Tree) → List Path
  | [] => []
  | (name, child) :: rest => child.entries (path ++ [name]) ++ childEntries path rest

end

end RouterConfig.Tree
