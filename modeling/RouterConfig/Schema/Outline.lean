import RouterConfig.Schema.Basic

/-!
# RouterConfig — schemas as drawings

A schema is drawn as a tree of labels, one a line. A label has the name of a node, its kind where
that is not plain, and its owner.
-/

namespace RouterConfig

/-- A tree of labels. -/
inductive Outline where
  | node (label : String) (below : List Outline)

namespace Outline

mutual

/-- The lines of an outline: `first` stands in front of its label, and `rest` in front of all other
lines. -/
def lines (first rest : String) : Outline → List String
  | .node label below => (first ++ label) :: linesBelow rest below

/-- The lines of outlines side by side, with the branches that lead to them. -/
def linesBelow (indent : String) : List Outline → List String
  | [] => []
  | [last] => last.lines (indent ++ "└─ ") (indent ++ "   ")
  | outline :: next :: more =>
    outline.lines (indent ++ "├─ ") (indent ++ "│  ") ++ linesBelow indent (next :: more)

end

end Outline

namespace Schema

/-- The name of a node with its kind. -/
def Node.kindLabel (n : Node) (name : String) : String :=
  match n.kind with
  | .tag => name ++ " <tag>"
  | .leaf =>
    if n.multi then name ++ " [multi]" else if n.valueless then name ++ " [valueless]" else name
  | .node => name

/-- The owner and the priority of a node. -/
def Node.ownerLabel (n : Node) : String :=
  match n.owner?, n.priority? with
  | some owner, some priority => " (" ++ owner ++ ", priority " ++ toString priority ++ ")"
  | some owner, none => " (" ++ owner ++ ")"
  | none, some priority => " (priority " ++ toString priority ++ ")"
  | none, none => ""

mutual

/-- The outline of a node with `depth?` levels below it, or all of them. -/
def Node.outline (withHidden : Bool) (depth? : Option Nat) (name : String) : Node → Outline
  | ⟨kind, multi, valueless, hidden, owner?, priority?, default?, constraint?, help?, children⟩ =>
    let n : Node :=
      ⟨kind, multi, valueless, hidden, owner?, priority?, default?, constraint?, help?, children⟩
    .node (n.kindLabel name ++ n.ownerLabel)
      (if depth? = some 0 then [] else outlinesBelow withHidden (depth?.map (· - 1)) children)

/-- The outlines of children, without hidden ones unless they are asked for. -/
def outlinesBelow (withHidden : Bool) (depth? : Option Nat) :
    List (String × Node) → List Outline
  | [] => []
  | (name, child) :: rest =>
    let others := outlinesBelow withHidden depth? rest
    if child.hidden && !withHidden then others
    else child.outline withHidden depth? name :: others

end

/-- The outline of a schema. Its top level is always there. -/
def outline (schema : Schema) (withHidden : Bool) (depth? : Option Nat) : Outline :=
  .node "schema" (outlinesBelow withHidden depth? schema.top)

end Schema

end RouterConfig
