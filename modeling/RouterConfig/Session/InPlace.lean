import RouterConfig.Session.Edit

/-!
# RouterConfig — edits in place

An edit changes the session that it is given, and one that fails leaves what it has made of the
session by then. Nodes missing on the way to a position are made while the way is followed, before
it is known what stands further down, or whether the position takes what it is to be given. Main
results:

* `Tree.descend_reaches` — whether a position can be reached is not for the act to say;
* `Session.Request.inPlace`, `Session.Request.result` — an edit as a program on the session, and as
  what comes of it.
-/

namespace RouterConfig

namespace Tree

/-- Follows a path down, makes empty subtrees where it leads nowhere yet, and acts on the children
of the subtree at its end (`subtree_mut`). The tree as it is by then comes with the answer, and also
without one, where a scalar or a list stands in the way. -/
def descend {α : Type} (act : Children → Children × α) (t : Tree) : Path → Tree × Option α
  | [] =>
    match t with
    | .subtree children =>
      let done := act children
      (.subtree done.1, some done.2)
    | value => (value, none)
  | name :: rest =>
    match t with
    | .subtree children =>
      -- What has been made further down is kept, whether or not the end is reached.
      let below := ((Keyed.get? children name).getD empty).descend act rest
      (.subtree (Keyed.insert children name below.1), below.2)
    | value => (value, none)

/-- Puts one value more into the list of a name; where nothing stands there, an empty list is made
first. The answer is whether it is a list. -/
def pushEntry (name value : String) (children : Children) : Children × Bool :=
  let entry := (Keyed.get? children name).getD (.list [])
  -- A missing list is made first; only then is it asked whether a list stands here.
  let made := Keyed.insert children name entry
  match entry with
  | .list values => (Keyed.insert made name (.list (values ++ [value])), true)
  | _ => (made, false)

/-- Takes the node at `path` out. The answer is whether there was one. -/
def takeNode (t : Tree) (path : Path) : Tree × Bool := (t.remove path, (t.removed? path).isSome)

/-- Takes one occurrence of `value` out of the leaf at `path` (`remove_leaf_value`). The answer is
whether it was there. -/
def takeValue (t : Tree) (path : Path) (value : String) : Tree × Bool :=
  match t.get? path with
  | some (.scalar stored) => if stored = value then t.takeNode path else (t, false)
  | some (.list stored) =>
    if stored.contains value then ((t.replace? (.list (stored.erase value)) path).getD t, true)
    else (t, false)
  | _ => (t, false)

theorem descend_reaches {α β : Type} (act : Children → Children × α)
    (act' : Children → Children × β) (t : Tree) (path : Path) :
    (t.descend act path).2.isSome = (t.descend act' path).2.isSome := by
  induction path generalizing t with
  | nil => cases t <;> rfl
  | cons name rest ih =>
    cases t with
    | scalar _ => rfl
    | list _ => rfl
    | subtree children => exact ih ((Keyed.get? children name).getD empty)

end Tree

/-- An edit of the session that it is given: where it fails, there is a session after it all the
same. -/
abbrev InPlace := EStateM Error Session

namespace InPlace

/-- Acts on the children of the subtree at `path`, making what is missing on the way. -/
def reach {α : Type} (path : Path) (act : Children → Children × α) : InPlace α := do
  -- The tree is put back first, so that a throw leaves the nodes that were made on the way.
  let answer? ← modifyGet fun s =>
    let reached := s.edit.descend act path
    (reached.2, { s with edit := reached.1 })
  match answer? with
  | some answer => return answer
  | none => throw (.path path .valueOnPath)

/-- Makes sure that a subtree stands at `full`. -/
def makeNode (full : Path) : InPlace Unit := reach full fun children => (children, ())

/-- Stores a single value at `full`, in place of what was there. -/
def storeValue (full : Path) (value : String) : InPlace Unit :=
  match full.getLast? with
  | none => throw (.path full .valueAtRoot)
  | some name =>
    reach full.dropLast fun children => (Keyed.insert children name (.scalar value), ())

/-- Stores one value more at `full`. -/
def addValue (full : Path) (value : String) : InPlace Unit :=
  match full.getLast? with
  | none => throw (.path full .valueAtRoot)
  | some name => do
    let added ← reach full.dropLast (Tree.pushEntry name value)
    if added then return () else throw (.path full .notAList)

/-- Sets a leaf. -/
def setLeaf (leaf : Schema.Node) (full : Path) (value : String) : InPlace Unit :=
  match leaf.valueFault? value with
  | some fault => throw (.path full fault)
  | none =>
    if leaf.multi then addValue full value
    else storeValue full (if leaf.valueless then "" else value)

/-- Makes an instance of a tag node. -/
def setInstance (full : Path) (name : String) : InPlace Unit :=
  if name.isEmpty then throw (.path full .unnamedInstance) else makeNode (full ++ [name])

/-- Sets what is declared under a name at a node or an instance. -/
def setChild (node : Schema.Node) (full : Path) (name : String) : InPlace Unit :=
  match node.child? name with
  | none => throw (.path (full ++ [name]) .undeclared)
  | some child =>
    if !child.isLeaf then makeNode (full ++ [name])
    else if !child.valueless then throw (.path (full ++ [name]) .valueMissing)
    else storeValue (full ++ [name]) ""

/-- Sets a value, given as typed, at `path` (`set`). -/
def set (schema : Schema) (path : Path) (typed : String) : InPlace Unit := do
  let full := (← get).absolute path
  let value := unquote typed
  if holdsBothQuotes value then throw (.path full .bothQuotes)
  else
    let place ← MonadExcept.ofExcept (schema.resolve full)
    if place.isLeaf then setLeaf place.node full value
    else if place.isTag then setInstance full value
    else setChild place.node full value

/-- Sets what words say: a path and, last, a value (`set_words`). -/
def setWords (schema : Schema) (words : List String) : InPlace Unit := do
  match words.getLast? with
  | none => throw (.path (← get).level .nothingToSet)
  | some typed => set schema words.dropLast typed

/-- Takes out what is to be deleted at `place`. The answer is whether there was anything. -/
def take (place : Schema.Place) (full : Path) (value? : Option String) : InPlace Bool :=
  modifyGet fun s =>
    let taken := match value? with
      | none => s.edit.takeNode full
      | some value =>
        if place.isLeaf then s.edit.takeValue full value else s.edit.takeNode (full ++ [value])
    (taken.2, { s with edit := taken.1 })

/-- Deletes the node at `path` or, with a value given as typed, one value of the leaf or the child
of that name (`delete`). -/
def delete (schema : Schema) (path : Path) (typed? : Option String) : InPlace Unit := do
  let full := (← get).absolute path
  let place ← MonadExcept.ofExcept (schema.resolve full)
  let taken ← take place full (typed?.map unquote)
  if taken then modify fun s => { s with edit := s.edit.prune full }

/-- Deletes what words say (`delete_words`): the last is a value if the others name a leaf,
otherwise all of them are a path. -/
def deleteWords (schema : Schema) (words : List String) : InPlace Unit := do
  let path := words.dropLast
  if !path.isEmpty && schema.isLeaf ((← get).absolute path) then
    delete schema path words.getLast?
  else delete schema words none

/-- Moves the cursor to `path`, which is seen from the root and must be declared (`set_level`). -/
def setLevel (schema : Schema) (path : Path) : InPlace Unit := do
  let _ ← MonadExcept.ofExcept (schema.resolve path)
  modify fun s => { s with level := path }

end InPlace

namespace Session

/-- What a session can be asked for that may fail. -/
inductive Request where
  | set (path : Path) (typed : String)
  | setWords (words : List String)
  | delete (path : Path) (typed? : Option String)
  | deleteWords (words : List String)
  | setLevel (path : Path)

namespace Request

/-- The session that comes of a request. -/
def result (schema : Schema) (s : Session) : Request → Except Error Session
  | set path typed => s.set schema path typed
  | setWords words => s.setWords schema words
  | delete path typed? => s.delete schema path typed?
  | deleteWords words => s.deleteWords schema words
  | setLevel path => s.setLevel schema path

/-- What a request does to the session that it is made of. -/
def inPlace (schema : Schema) : Request → InPlace Unit
  | set path typed => InPlace.set schema path typed
  | setWords words => InPlace.setWords schema words
  | delete path typed? => InPlace.delete schema path typed?
  | deleteWords words => InPlace.deleteWords schema words
  | setLevel path => InPlace.setLevel schema path

end Request

end Session

end RouterConfig
