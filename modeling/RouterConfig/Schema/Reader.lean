import RouterConfig.Schema.Definition

/-!
# RouterConfig — schema definitions in YAML

A definition is a mapping from node names to nodes, and a node a mapping of the fields below. A
field that is missing, or stands for nothing where it may, has its initial value. A missing mapping
is an empty one. Of two nodes with one name the later counts; no field may come twice. -/

namespace RouterConfig.Schema

open Yaml (Scalar Value)

/-- The text of a scalar, whatever it would stand for. -/
def scalarText? : Yaml.Node → Option String
  | .scalar text _ _ => some text
  | _ => none

/-- What is known of a field before it is read. -/
inductive Presence where
  | absent
  | present
  /-- It is said to be absent, but something stands there. -/
  | contradictory

/-- Whether a node stands for nothing. -/
def presence : Yaml.Node → Presence
  | .scalar text .plain none => if Yaml.isNull text then .absent else .present
  | .scalar text .plain (some tag) =>
    if tag ≠ Yaml.standardTag "null" then .present
    -- Under the tag for nothing the text must say so too, and not by being empty.
    else if Yaml.isNull text && text ≠ "" then .absent
    else .contradictory
  | _ => .present

/-- A field that may stand for nothing. -/
def optional? {α : Type} (read? : Yaml.Node → Option α) (node : Yaml.Node) : Option (Option α) :=
  match presence node with
  | .absent => some none
  | .present => (read? node).map some
  | .contradictory => none

/-- The text of a scalar that may stand for a value of a standard type: a plain one, or a literal
block with the tag of just that type. -/
def typedText? (type : String) : Yaml.Node → Option String
  | .scalar text .plain _ => some text
  | .scalar text .literal (some tag) => if tag = Yaml.standardTag type then some text else none
  | _ => none

/-- A truth value. -/
def truth? (node : Yaml.Node) : Option Bool := (typedText? "bool" node).bind Yaml.bool?

/-- A priority, a whole number of 32 bits. -/
def priorityOf? (node : Yaml.Node) : Option Int :=
  ((typedText? "int" node).bind fun text => Yaml.integer? text.toList).filter fun n =>
    -(Int.pow 2 31) ≤ n && n < Int.pow 2 31

/-- The kind with the given name. -/
def kindNamed? : String → Option Kind
  | "node" => some .node
  | "leaf" => some .leaf
  | "tag" => some .tag
  | _ => none

/-- The kind of a node: its name is a text, or a tag with nothing behind it. -/
def kindOf? : Yaml.Node → Option Kind
  | .scalar text style tag? =>
    match tag?.bind Yaml.Tag.localName? with
    | some name => if style = .plain && Yaml.isNull text then kindNamed? name else none
    | none => kindNamed? text
  | _ => none

/-- Sets a field other than the children. -/
def setField? (d : Definition) (name : String) (node : Yaml.Node) : Option Definition :=
  match name with
  | "type" => (kindOf? node).map fun kind => { d with kind := kind }
  | "multi" => (truth? node).map fun b => { d with multi := b }
  | "valueless" => (truth? node).map fun b => { d with valueless := b }
  | "hidden" => (truth? node).map fun b => { d with hidden := b }
  | "owner" => (optional? scalarText? node).map fun owner? => { d with owner? := owner? }
  | "priority" =>
    (optional? priorityOf? node).map fun priority? => { d with priority? := priority? }
  | "default" =>
    (optional? Yaml.Node.value? node).map fun default? => { d with default? := default? }
  | "constraint" => (optional? scalarText? node).map fun text? => { d with constraint? := text? }
  | "help" => (optional? scalarText? node).map fun help? => { d with help? := help? }
  | _ => none

mutual

/-- The definition that a node writes. -/
def definition? : Yaml.Node → Option Definition
  | .mapping entries _ => fields? entries [] {}
  | .scalar text style _ => if style = .plain && text.isEmpty then some {} else none
  | .sequence _ _ => none

/-- The fields of a definition, none of which is among `seen`. -/
def fields? : List (Yaml.Node × Yaml.Node) → (seen : List String) → Definition → Option Definition
  | [], _, d => some d
  | (key, value) :: rest, seen, d =>
    match scalarText? key with
    | none => none
    | some name =>
      -- A field twice is refused; a name of a child twice is not, see `namedDefinitions?`.
      if seen.contains name then none
      else if name = "children" then
        match children? value with
        | some children => fields? rest (name :: seen) { d with children := children }
        | none => none
      else
        match setField? d name value with
        | some d => fields? rest (name :: seen) d
        | none => none

/-- The definitions that a node of children writes. -/
def children? : Yaml.Node → Option (Keyed Definition)
  | .mapping entries _ => namedDefinitions? entries []
  | .scalar text style _ => if style = .plain && text.isEmpty then some [] else none
  | .sequence _ _ => none

/-- Definitions by name, added to those before. -/
def namedDefinitions? :
    List (Yaml.Node × Yaml.Node) → Keyed Definition → Option (Keyed Definition)
  | [], before => some before
  | (key, value) :: rest, before =>
    match scalarText? key, definition? value with
    -- Insertion replaces, so that of two children with one name the later counts.
    | some name, some d => namedDefinitions? rest (Keyed.insert before name d)
    | _, _ => none

end

/-- The definitions that a document writes; an empty document writes none. -/
def definitionsOf? : Yaml.Document Yaml.Node → Option (Keyed Definition)
  | .missing => some []
  | .one root => children? root

/-- The schema that a YAML text defines (`from_yaml`). -/
def ofYaml (text : String) : Except Error Schema :=
  match (Yaml.Document.ofText? text).bind definitionsOf? with
  | some definitions => ofDefinitions definitions
  | none => .error (.unreadable .yaml)

end RouterConfig.Schema
