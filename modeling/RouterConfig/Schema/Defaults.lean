import RouterConfig.Schema.Resolve

/-!
# RouterConfig — what is there by default

The defaults of the leaves below a position, in the shape of a configuration. Instances of tag nodes
are not known here, so nothing below a tag node has a default.
-/

namespace RouterConfig.Schema

mutual

/-- The default at a node: that of a leaf, or those below an internal node if there are any. -/
def Node.default : Node → Option Tree
  | ⟨.leaf, _, _, _, _, _, default?, _, _, _⟩ => default?
  | ⟨.node, _, _, _, _, _, _, _, _, children⟩ =>
    let inside := defaultsBelow children
    if inside.isEmpty then none else some (.subtree inside)
  | ⟨.tag, _, _, _, _, _, _, _, _, _⟩ => none

/-- The defaults of declared children. -/
def defaultsBelow : List (String × Node) → Children
  | [] => []
  | (name, child) :: rest =>
    match child.default with
    | some tree => (name, tree) :: defaultsBelow rest
    | none => defaultsBelow rest

end

/-- The defaults below `path` (`defaults`). A path that leads nowhere, to a leaf or to a tag node
has none. -/
def defaults (schema : Schema) (path : Path) : Children :=
  match schema.resolve path with
  | .ok place => if place.isTag || place.isLeaf then [] else defaultsBelow place.node.children
  | .error _ => []

end RouterConfig.Schema
