import RouterConfig.Annotated.Line
import RouterConfig.Schema.Resolve
import RouterConfig.Text.Quoted

/-!
# RouterConfig — annotated configurations

The edited configuration in braces, with what differs from the running one marked. Names stand in
order; a line of a leaf holds one value; the instances of a tag node stand where the tag node would.
-/

namespace RouterConfig.Annotated

/-- The names below either of two nodes, in order and each once. -/
def namesBelow (edited? running? : Option Tree) : List String :=
  Keyed.sortedNames ((edited?.elim [] Tree.keys) ++ running?.elim [] Tree.keys)

/-- The child of a node that may be missing itself. -/
def child? (node? : Option Tree) (name : String) : Option Tree := node?.bind (·.get? [name])

/-- Whether a node is there and holds something. -/
def isFilled (node? : Option Tree) : Bool := node?.any fun node => !node.isEmpty

/-- A leaf with one of its values. -/
def leafText (name value : String) : String :=
  if value.isEmpty then name else name ++ " " ++ quote value

/-- The lines of a leaf (`leaf`): the values that are gone, then those that are there. -/
def leafLines (depth : Nat) (name : String) (edited? running? : Option Tree) : List AnnotatedLine :=
  let edited := edited?.elim [] Tree.values
  let running := running?.elim [] Tree.values
  -- Values are told apart by what they are and not by their place in a list.
  let gone := running.filter fun value => !edited.contains value
  (gone.map fun value => ⟨depth, .removed, leafText name value⟩) ++
    edited.map fun value => ⟨depth, Mark.ofSides true (running.contains value), leafText name value⟩

/-- The lines of a node under a label, around the lines of what is inside (`block`). A node without
content is its label alone. -/
def block (depth : Nat) (label : String) (edited? running? : Option Tree)
    (inside : List AnnotatedLine) : List AnnotatedLine :=
  let mark := Mark.ofSides edited?.isSome running?.isSome
  -- Braces are for content; a node that is empty on both sides is a line of its own.
  if isFilled edited? || isFilled running? then
    ⟨depth, mark, label ++ " \x7b"⟩ :: inside ++ [⟨depth, mark, "\x7d"⟩]
  else [⟨depth, mark, label⟩]

/-- The lines of all that stands below the node at `path` (`node`), down to `levels` levels of
names. -/
def nodeLines (schema : Schema) : (levels depth : Nat) → (path : Path) →
    (edited? running? : Option Tree) → List AnnotatedLine
  | 0, _, _, _, _ => []
  | levels + 1, depth, path, edited?, running? =>
    (namesBelow edited? running?).flatMap fun name =>
      let path := path ++ [name]
      let edited? := child? edited? name
      let running? := child? running? name
      if schema.isLeaf path then leafLines depth name edited? running?
      else if schema.isTag path then
        -- A tag node has no line of its own: each instance repeats its name.
        (namesBelow edited? running?).flatMap fun inst =>
          let edited? := child? edited? inst
          let running? := child? running? inst
          block depth (name ++ " " ++ inst) edited? running?
            (nodeLines schema levels (depth + 1) (path ++ [inst]) edited? running?)
      else
        block depth name edited? running?
          (nodeLines schema levels (depth + 1) path edited? running?)

/-- The lines of the instances of the tag node `tag` at `path` (`instances`). -/
def instanceLines (schema : Schema) (levels depth : Nat) (path : Path) (tag : String)
    (edited? running? : Option Tree) : List AnnotatedLine :=
  (namesBelow edited? running?).flatMap fun name =>
    let edited? := child? edited? name
    let running? := child? running? name
    block depth (tag ++ " " ++ name) edited? running?
      (nodeLines schema levels (depth + 1) (path ++ [name]) edited? running?)

/-- The lines of what stands at `path` on either side. -/
def lines (schema : Schema) (path : Path) (edited? running? : Option Tree) : List AnnotatedLine :=
  -- No name stands deeper than the higher of the two trees.
  let levels := max (edited?.elim 0 Tree.height) (running?.elim 0 Tree.height)
  let name := path.getLast?.getD ""
  if schema.isTag path then instanceLines schema levels 0 path name edited? running?
  else if edited?.any Tree.isSubtree || running?.any Tree.isSubtree then
    nodeLines schema levels 0 path edited? running?
  else leafLines 0 name edited? running?

/-- The annotated text of what stands at `path` on either side (`render`). -/
def render (schema : Schema) (path : Path) (edited? running? : Option Tree) : String :=
  AnnotatedLine.printAll (lines schema path edited? running?)

end RouterConfig.Annotated
