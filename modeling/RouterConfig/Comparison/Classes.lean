import RouterConfig.Tree.Basic

/-!
# RouterConfig — classes of names

Two nodes are compared by the names directly below them. Every name falls into one or more classes:
to merge (in the edited node), to delete (in the running node alone), to add (in the edited node
alone) and stable (in both).
-/

namespace RouterConfig

/-- A class of names in a comparison (`DiffClass`). -/
inductive Class where
  | merge
  | delete
  | add
  | stable
  deriving DecidableEq

/-- The classes in the order in which they are listed. -/
def Class.all : List Class := [.merge, .delete, .add, .stable]

/-- What a class is called. -/
def Class.name : Class → String
  | merge => "merge"
  | delete => "delete"
  | add => "add"
  | stable => "stable"

/-- The members of a class (`DiffSet`): bare names, or nodes by name. -/
inductive Members where
  | names (list : List String)
  | nodes (children : Children)

namespace Members

/-- The names of the members. -/
def keys : Members → List String
  | .names list => list
  | .nodes children => Keyed.keys children

/-- Whether a name is among the members. -/
def contains (m : Members) (name : String) : Bool := m.keys.contains name

/-- Whether there are no members. -/
def isEmpty (m : Members) : Bool := m.keys.isEmpty

end Members

/-- The members of every class (`DiffResult`). -/
structure Classes where
  merge : Members
  delete : Members
  add : Members
  stable : Members

namespace Classes

/-- The members of one class. -/
def get (classes : Classes) : Class → Members
  | .merge => classes.merge
  | .delete => classes.delete
  | .add => classes.add
  | .stable => classes.stable

/-- The names of a class, for the names below an edited and a running node, in the order in which
they stand there. -/
def names (edited running : List String) : Class → List String
  | .merge => edited
  | .delete => running.filter fun name => !edited.contains name
  | .add => edited.filter fun name => !running.contains name
  | .stable => edited.filter fun name => running.contains name

/-- The four classes, each with the members that `members` gives it. -/
def ofMembers (members : Class → Members) : Classes where
  merge := members .merge
  delete := members .delete
  add := members .add
  stable := members .stable

/-- The classes of the names below two nodes (`key_sets`). -/
def ofTrees (edited running : Tree) : Classes :=
  ofMembers fun c => .names (names edited.keys running.keys c)

@[simp] theorem get_ofMembers (members : Class → Members) (c : Class) :
    (ofMembers members).get c = members c := by
  cases c <;> rfl

end Classes

end RouterConfig
