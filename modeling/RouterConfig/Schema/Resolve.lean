import RouterConfig.Error
import RouterConfig.Schema.Constraint

/-!
# RouterConfig — what a path means

A path is followed from the root: to a declared child, or from a tag node to an instance of any
name, where the children of the tag node are declared again. Main results:

* `Schema.Place.follow_append` — a path may be followed in two parts.
-/

namespace RouterConfig.Schema

/-- Where a path leads in a schema (`Resolved`). -/
inductive Place where
  /-- To a declared node. -/
  | declared (node : Node)
  /-- To an instance of a tag node. -/
  | instanceOf (tag : Node)

namespace Place

/-- The node that declares the place: for an instance its tag node. -/
def node : Place → Node
  | declared node => node
  | instanceOf tag => tag

/-- The kind of the place: an instance is like an internal node. -/
def kind : Place → Kind
  | declared node => node.kind
  | instanceOf _ => .node

/-- Whether the place is an instance. -/
def isInstance : Place → Bool
  | declared _ => false
  | instanceOf _ => true

/-- Whether the place is a tag node, none of its instances. -/
def isTag : Place → Bool
  | declared node => node.isTag
  | instanceOf _ => false

/-- Whether the place is a leaf. -/
def isLeaf : Place → Bool
  | declared node => node.isLeaf
  | instanceOf _ => false

/-- One step down. -/
def enter (place : Place) (name : String) : Except PathFault Place :=
  -- Any name is an instance; whether it is fit for one is not for the schema to say.
  if place.isTag then .ok (.instanceOf place.node)
  else if place.isLeaf then .error .pastLeaf
  else
    match place.node.child? name with
    | some child => .ok (.declared child)
    | none => .error .undeclared

/-- Follows a path down; `walked` is the way up to here. The first step that fails tells why. -/
def follow (place : Place) (walked : Path) : Path → Except Error Place
  | [] => .ok place
  | name :: rest =>
    match place.enter name with
    | .ok next => next.follow (walked ++ [name]) rest
    | .error fault => .error (.path (walked ++ [name]) fault)

theorem follow_append (place : Place) (walked p q : Path) :
    place.follow walked (p ++ q) =
      (place.follow walked p).bind fun next => next.follow (walked ++ p) q := by
  induction p generalizing place walked with
  | nil => simp [follow, Except.bind]
  | cons name rest ih =>
    simp only [List.cons_append, follow]
    cases place.enter name with
    | error fault => rfl
    | ok next =>
      simp only
      rw [ih]
      simp

end Place

/-- Where a path leads (`resolve`). -/
def resolve (schema : Schema) (path : Path) : Except Error Place :=
  (Place.declared schema.rootNode).follow [] path

/-- Whether a path leads anywhere (`exists`). -/
def declares (schema : Schema) (path : Path) : Bool := (schema.resolve path).toBool

/-- The declared node to which a path leads, instances of tag nodes apart. -/
def declared? (schema : Schema) (path : Path) : Option Node :=
  match schema.resolve path with
  | .ok (.declared node) => some node
  | _ => none

/-- Whether a path names a tag node itself (`is_tag`). -/
def isTag (schema : Schema) (path : Path) : Bool := (schema.declared? path).any Node.isTag

/-- Whether a path names a leaf (`is_leaf`). -/
def isLeaf (schema : Schema) (path : Path) : Bool := (schema.declared? path).any Node.isLeaf

/-- Whether a path names a leaf that holds a list of values (`is_multi`). -/
def isMulti (schema : Schema) (path : Path) : Bool :=
  (schema.declared? path).any fun node => node.isLeaf && node.multi

/-- Whether a path names a leaf that takes no value (`is_valueless`). -/
def isValueless (schema : Schema) (path : Path) : Bool :=
  (schema.declared? path).any fun node => node.isLeaf && node.valueless

/-! ## Values -/

/-- What is wrong with a value for a leaf, if anything is. -/
def Node.valueFault? (leaf : Node) (value : String) : Option PathFault :=
  -- That a value is there comes first, so that no constraint is asked about the empty text unless
  -- the leaf is valueless.
  if leaf.valueless && !value.isEmpty then some .valueRefused
  else if !leaf.valueless && value.isEmpty then some .valueMissing
  else
    match leaf.constraint? with
    | some c => if c.admits value then none else some (.mismatch value c.text)
    | none => none

/-- Refuses a value that the leaf at `path` does not take (`validate_value`). Any value passes where
no leaf stands. -/
def validateValue (schema : Schema) (path : Path) (value : String) : Except Error Unit :=
  match schema.resolve path with
  | .error e => .error e
  | .ok place =>
    if place.isLeaf then
      match place.node.valueFault? value with
      | some fault => .error (.path path fault)
      | none => .ok ()
    else .ok ()

end RouterConfig.Schema
