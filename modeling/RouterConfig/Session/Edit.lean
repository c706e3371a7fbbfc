import RouterConfig.Session.Basic
import RouterConfig.Text.Quoted

/-!
# RouterConfig — setting and deleting

What a set creates is for the schema to say:

* a leaf holds the value, a leaf of many values one value more, and a valueless leaf only that it is
  there;
* a tag node gets an instance of that name;
* an internal node or an instance gets the child that the schema declares under that name.

Nodes missing on the way come into being, and nodes that a deletion leaves empty go. An edit either
succeeds with the session after it, or fails without one. Main results:

* `Session.set_level`, `Session.delete_level` — edits leave the cursor where it is.
-/

namespace RouterConfig

namespace Tree

/-- The tree without the node at `path`, if there is one; the root cannot be taken out. -/
def without? (t : Tree) (path : Path) : Option Tree :=
  (t.removed? path).map fun _ => t.remove path

/-- The tree without one occurrence of `value` at the leaf at `path` (`remove_leaf_value`): the
scalar if it is the value, or the first entry of the list that is. -/
def withoutValue? (t : Tree) (path : Path) (value : String) : Option Tree :=
  match t.get? path with
  | some (.scalar stored) => if stored = value then t.without? path else none
  | some (.list stored) =>
    if stored.contains value then t.replace? (.list (stored.erase value)) path else none
  | _ => none

/-- A list with one value more, from what is stored so far. -/
def appended? (stored? : Option Tree) (value : String) : Option Tree :=
  match stored? with
  | none => some (.list [value])
  | some (.list values) => some (.list (values ++ [value]))
  | some _ => none

end Tree

namespace Session

/-! ## Setting -/

/-- Makes sure that a subtree stands at `full`. -/
def makeNode (s : Session) (full : Path) : Except Error Session :=
  match s.edit.ensureSubtree? full with
  | some edit => .ok { s with edit := edit }
  | none => .error (.path full .valueOnPath)

/-- Stores a single value at `full`, in place of what was there (`store_leaf`). -/
def storeValue (s : Session) (full : Path) (value : String) : Except Error Session :=
  match full.getLast? with
  | none => .error (.path full .valueAtRoot)
  | some name =>
    match s.edit.alter? (fun cs => some (Keyed.insert cs name (.scalar value))) full.dropLast with
    | some edit => .ok { s with edit := edit }
    | none => .error (.path full.dropLast .valueOnPath)

/-- Stores one value more at `full`. -/
def addValue (s : Session) (full : Path) (value : String) : Except Error Session :=
  match full.getLast? with
  | none => .error (.path full .valueAtRoot)
  | some name =>
    let extend (cs : Children) : Option Children :=
      (Tree.appended? (Keyed.get? cs name) value).map (Keyed.insert cs name)
    match s.edit.alter? extend full.dropLast with
    | some edit => .ok { s with edit := edit }
    | none =>
      -- The way there is free, so it is the node itself that takes no further value.
      if (s.edit.ensureSubtree? full.dropLast).isSome then .error (.path full .notAList)
      else .error (.path full.dropLast .valueOnPath)

/-- Sets a leaf (`set_leaf`). -/
def setLeaf (s : Session) (leaf : Schema.Node) (full : Path) (value : String) :
    Except Error Session :=
  match leaf.valueFault? value with
  | some fault => .error (.path full fault)
  | none =>
    if leaf.multi then s.addValue full value
    else s.storeValue full (if leaf.valueless then "" else value)

/-- Sets what is declared under a name at a node or an instance. -/
def setChild (s : Session) (node : Schema.Node) (full : Path) (name : String) :
    Except Error Session :=
  match node.child? name with
  | none => .error (.path (full ++ [name]) .undeclared)
  | some child =>
    if !child.isLeaf then s.makeNode (full ++ [name])
    else if !child.valueless then .error (.path (full ++ [name]) .valueMissing)
    -- Stored as it is: the constraint of the child is not asked.
    else s.storeValue (full ++ [name]) ""

/-- Makes an instance of a tag node. -/
def setInstance (s : Session) (full : Path) (name : String) : Except Error Session :=
  if name.isEmpty then .error (.path full .unnamedInstance) else s.makeNode (full ++ [name])

/-- Sets a value, given as typed, at `path` (`set`). -/
def set (s : Session) (schema : Schema) (path : Path) (typed : String) : Except Error Session :=
  let full := s.absolute path
  let value := unquote typed
  -- The value is tested before the path: one with both quotes is refused wherever it is to go.
  if holdsBothQuotes value then .error (.path full .bothQuotes)
  else
    match schema.resolve full with
    | .error e => .error e
    | .ok place =>
      if place.isLeaf then s.setLeaf place.node full value
      else if place.isTag then s.setInstance full value
      else s.setChild place.node full value

/-- Sets what words say: a path and, last, a value (`set_words`). -/
def setWords (s : Session) (schema : Schema) (words : List String) : Except Error Session :=
  match words.getLast? with
  | none => .error (.path s.level .nothingToSet)
  | some typed => s.set schema words.dropLast typed

/-! ## Deleting -/

/-- The configuration after a deletion at `place`, if there is anything to delete. -/
def deleted? (edit : Tree) (place : Schema.Place) (full : Path) :
    (value? : Option String) → Option Tree
  | none => edit.without? full
  | some value =>
    if place.isLeaf then edit.withoutValue? full value else edit.without? (full ++ [value])

/-- Deletes the node at `path` or, with a value given as typed, one value of the leaf or the child
of that name (`delete`). Nodes along the path that are left empty go too. What is not there need not
be deleted. -/
def delete (s : Session) (schema : Schema) (path : Path) (typed? : Option String) :
    Except Error Session :=
  let full := s.absolute path
  match schema.resolve full with
  | .error e => .error e
  | .ok place =>
    match deleted? s.edit place full (typed?.map unquote) with
    -- The node at `full` may be gone by now; the nodes above it are looked at all the same.
    | some edit => .ok { s with edit := edit.prune full }
    | none => .ok s

/-- Deletes what words say (`delete_words`): the last is a value if the others name a leaf,
otherwise all of them are a path. -/
def deleteWords (s : Session) (schema : Schema) (words : List String) : Except Error Session :=
  let path := words.dropLast
  -- The words are tested without the cursor: at a leaf, a single word is never its value.
  if !path.isEmpty && schema.isLeaf (s.absolute path) then s.delete schema path words.getLast?
  else s.delete schema words none

/-! ## The cursor -/

private theorem makeNode_level {s s' : Session} {full : Path} (h : s.makeNode full = .ok s') :
    s'.level = s.level := by
  simp only [makeNode] at h
  split at h <;> simp only [Except.ok.injEq, reduceCtorEq] at h
  rw [← h]

private theorem storeValue_level {s s' : Session} {full : Path} {value : String}
    (h : s.storeValue full value = .ok s') : s'.level = s.level := by
  simp only [storeValue] at h
  repeat' split at h
  all_goals simp only [Except.ok.injEq, reduceCtorEq] at h
  rw [← h]

private theorem addValue_level {s s' : Session} {full : Path} {value : String}
    (h : s.addValue full value = .ok s') : s'.level = s.level := by
  simp only [addValue] at h
  repeat' split at h
  all_goals simp only [Except.ok.injEq, reduceCtorEq] at h
  rw [← h]

theorem set_level {s s' : Session} {schema : Schema} {path : Path} {typed : String}
    (h : s.set schema path typed = .ok s') : s'.level = s.level := by
  simp only [set, setLeaf, setInstance, setChild] at h
  repeat' split at h
  all_goals grind [makeNode_level, storeValue_level, addValue_level]

theorem delete_level {s s' : Session} {schema : Schema} {path : Path} {typed? : Option String}
    (h : s.delete schema path typed? = .ok s') : s'.level = s.level := by
  simp only [delete] at h
  repeat' split at h
  all_goals simp only [Except.ok.injEq, reduceCtorEq] at h
  all_goals rw [← h]

end Session

end RouterConfig
