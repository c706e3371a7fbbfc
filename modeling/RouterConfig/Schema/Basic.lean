import RouterConfig.Pattern.Basic
import RouterConfig.Tree.Basic

/-!
# RouterConfig — schemas

A schema declares which positions a configuration may have. An internal node has the children that
the schema names, a leaf holds values, and a tag node holds instances whose names are free and whose
children are those of the tag node.
-/

namespace RouterConfig

/-- What a schema node declares (`NodeKind`). -/
inductive Schema.Kind where
  | node
  | leaf
  | tag
  deriving DecidableEq

/-- A condition on the values of a leaf. -/
structure Schema.Constraint where
  /-- The pattern as text, with its anchors. -/
  text : String
  pattern : Pattern

/-- A node of a schema (`SchemaNode`). -/
structure Schema.Node where
  kind : Schema.Kind
  /-- The leaf holds a list of values. -/
  multi : Bool
  /-- The leaf holds no value: that it is there is all. -/
  valueless : Bool
  hidden : Bool
  /-- The module that commits the configuration below. -/
  owner? : Option String
  /-- The lower, the earlier the owner's turn comes. -/
  priority? : Option Int
  default? : Option Tree
  constraint? : Option Schema.Constraint
  help? : Option String
  children : List (String × Schema.Node)

/-- The schema of a whole configuration (`SchemaRepository`). -/
structure Schema where
  /-- The declarations at the top. -/
  top : Keyed Schema.Node

namespace Schema

/-- The node at the root, which has no attributes. -/
def rootNode (schema : Schema) : Node where
  kind := .node
  multi := false
  valueless := false
  hidden := false
  owner? := none
  priority? := none
  default? := none
  constraint? := none
  help? := none
  children := schema.top

namespace Node

/-- Whether the node is a leaf. -/
def isLeaf (n : Node) : Bool := n.kind = .leaf

/-- Whether the node is a tag node. -/
def isTag (n : Node) : Bool := n.kind = .tag

/-- The child declared under a name. -/
def child? (n : Node) (name : String) : Option Node := Keyed.get? n.children name

end Node

end Schema

end RouterConfig
