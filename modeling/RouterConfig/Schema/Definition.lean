import RouterConfig.Error
import RouterConfig.Schema.Constraint
import RouterConfig.Yaml.Value

/-!
# RouterConfig — schema definitions

A definition is a schema node as an author wrote it, before any rule but the form of its fields has
been checked. Compiling checks the rules node by node, from the root on.
-/

namespace RouterConfig

/-- A node as defined (`NodeDefinition`). -/
structure Schema.Definition where
  kind : Schema.Kind := .node
  multi : Bool := false
  valueless : Bool := false
  hidden : Bool := false
  owner? : Option String := none
  priority? : Option Int := none
  default? : Option Yaml.Value := none
  constraint? : Option String := none
  help? : Option String := none
  children : List (String × Schema.Definition) := []

namespace Schema

/-! ## Default values -/

/-- The text of a scalar default (`scalar_text`). -/
def defaultText? : Yaml.Value → Option String
  | .scalar s => s.configText?
  | _ => none

/-- A default as a node of a configuration (`default_value`): a list for a leaf that holds many
values, where a single default makes a list of one; a scalar for any other. -/
def defaultTree (multi : Bool) : Yaml.Value → Except DefinitionFault Tree
  | .sequence items =>
    if multi then
      match items.mapM defaultText? with
      | some texts => .ok (.list texts)
      | none => .error .compositeDefault
    else .error .listDefaultOnSingle
  | value =>
    -- Nothing, a mapping and a value under a tag have no text.
    match defaultText? value with
    | some text => .ok (if multi then .list [text] else .scalar text)
    | none => .error .compositeDefault

/-! ## Compiling -/

namespace Definition

/-- The first rule on attributes that a definition breaks; `belowTag` tells that it stands below a
tag node. -/
def attributeFault? (d : Definition) (belowTag : Bool) : Option DefinitionFault :=
  if d.kind = .leaf && !d.children.isEmpty then some .leafWithChildren
  else if d.kind ≠ .leaf &&
      (d.multi || d.valueless || d.default?.isSome || d.constraint?.isSome) then
    some .leafAttribute
  else if d.valueless && (d.multi || d.default?.isSome) then some .valuelessWithValue
  -- Below a tag node a path stands for one position in each instance; an owner has a single one.
  else if belowTag && d.owner?.isSome then some .ownerBelowTag
  else none

/-- The default and the constraint of a definition, ready for use. -/
def attributes (d : Definition) (path : Path) (belowTag : Bool) :
    Except Error (Option Tree × Option Constraint) := do
  match d.attributeFault? belowTag with
  | some fault => .error (.definition path fault)
  | none =>
    -- The default is read here and kept; the constraint below is not held against it.
    let default? ←
      match d.default? with
      | none => .ok none
      | some value =>
        match defaultTree d.multi value with
        | .ok tree => .ok (some tree)
        | .error fault => .error (.definition path fault)
    let constraint? ←
      match d.constraint? with
      | none => .ok none
      | some text =>
        match Constraint.ofText? text with
        | some c => .ok (some c)
        | none => .error (.unreadable .pattern)
    .ok (default?, constraint?)

mutual

/-- The schema node that a definition at `path` defines (`compile`). -/
def compile (path : Path) (belowTag : Bool) : Definition → Except Error Node
  | ⟨kind, multi, valueless, hidden, owner?, priority?, default?, constraint?, help?,
      children⟩ => do
    let d : Definition :=
      ⟨kind, multi, valueless, hidden, owner?, priority?, default?, constraint?, help?, children⟩
    let (default?, constraint?) ← d.attributes path belowTag
    -- Once below a tag node, always below one: at any depth, and not only right below it.
    let children ← compileAll path (belowTag || kind = .tag) children
    .ok ⟨kind, multi, valueless, hidden, owner?, priority?, default?, constraint?, help?, children⟩

/-- The schema nodes that definitions below `path` define, in their order. -/
def compileAll (path : Path) (belowTag : Bool) :
    List (String × Definition) → Except Error (List (String × Node))
  | [] => .ok []
  | (name, d) :: rest => do
    let node ← d.compile (path ++ [name]) belowTag
    let nodes ← compileAll path belowTag rest
    .ok ((name, node) :: nodes)

end

end Definition

/-- The schema that definitions at the top define. -/
def ofDefinitions (definitions : Keyed Definition) : Except Error Schema := do
  .ok ⟨← Definition.compileAll [] false definitions⟩

end Schema

end RouterConfig
