import RouterConfig.Comparison.Classes
import RouterConfig.Schema.Defaults
import RouterConfig.Tree.Overlay

/-!
# RouterConfig — comparing a position

An edited configuration is compared with the running one at a position or right below it. A class
may be asked for with its nodes: those to delete come from the running side, all others from the
edited side, and those to merge are filled from the defaults of the schema. Main results:

* `Comparison.values_eq_ok_iff` — values can be compared where neither side has a subtree.
-/

namespace RouterConfig

/-- Two configurations under one schema, compared from a cursor on (`ConfigDiff`). -/
structure Comparison where
  schema : Schema
  edited : Tree
  running : Tree
  level : Path
  /-- How the nodes of a class are renamed before they are handed out. -/
  rename : Children → Children

namespace Comparison

/-- What a comparison is asked for: the classes whose nodes are wanted besides their names, and
whether defaults fill the nodes to merge. -/
structure Request where
  /-- The classes to tell with their nodes. -/
  expanded : List Class
  /-- Whether nodes to merge are filled from the defaults. -/
  withDefaults : Bool

/-- The comparison of two configurations from the root on, with all names as they are
(`from_trees`). -/
def ofTrees (schema : Schema) (edited running : Tree) : Comparison :=
  ⟨schema, edited, running, [], id⟩

/-- The comparison with its cursor at `path`, which is seen from the root and must be declared. -/
def setLevel (c : Comparison) (path : Path) : Except Error Comparison :=
  (c.schema.resolve path).map fun _ => { c with level := path }

/-- The nodes that stand under `names` in a tree (`expand`). -/
def nodesUnder (names : List String) (tree : Tree) : Children :=
  match tree with
  | .subtree children =>
    Keyed.ofList (names.filterMap fun name => (Keyed.get? children name).map (name, ·))
  | _ => []

/-- The nodes of a class: those to delete are read from the running side, all others from the edited
one; `defaults` fill those to merge. -/
def nodes (class_ : Class) (names : List String) (edited running : Tree) (defaults : Children) :
    Children :=
  -- A name of the class `delete` stands on the running side alone, so that there is no choice.
  let found := nodesUnder names (if class_ = .delete then running else edited)
  if class_ = .merge then Tree.overlayChildren found defaults else found

/-- The classes of the names below two nodes (`classify`); `defaults` are those of the schema at
this position. -/
def classes (c : Comparison) (request : Request) (edited running : Tree) (defaults : Children) :
    Classes :=
  Classes.ofMembers fun class_ =>
    let names := Classes.names edited.keys running.keys class_
    if request.expanded.contains class_ then
      -- All classes are handed the defaults; only nodes to merge are filled from them.
      let defaults := if request.withDefaults then defaults else []
      .nodes (c.rename (nodes class_ names edited running defaults))
    else .names names

/-- The classes of the names right below `path` (`child_nodes_diff`), which must be declared and no
leaf. -/
def below (c : Comparison) (request : Request) (path : Path) : Except Error Classes :=
  let full := c.level ++ path
  match c.schema.resolve full with
  | .error e => .error e
  | .ok place =>
    if place.isLeaf then .error (.comparison full .childrenOfLeaf)
    else
      .ok (c.classes request (c.edited.subtreeAt full) (c.running.subtreeAt full)
        (c.schema.defaults full))

/-- A subtree with one node under `name`, or without any. -/
def single (name : String) (node? : Option Tree) : Children :=
  match node? with
  | some node => [(name, node)]
  | none => []

/-- The classes of the node at `path` itself (`node_diff`), as the only name below an empty node. -/
def node (c : Comparison) (request : Request) (path : Path) : Except Error Classes :=
  let full := c.level ++ path
  match c.schema.resolve full, full.getLast? with
  | .error e, _ => .error e
  | .ok _, none => .error (.comparison full .rootNode)
  | .ok _, some name =>
    let defaults := c.schema.defaults full
    .ok (c.classes request (.subtree (single name (c.edited.get? full)))
      (.subtree (single name (c.running.get? full)))
      (single name (if defaults.isEmpty then none else some (.subtree defaults))))

/-- What stands at `path` on the edited and on the running side, where that is no subtree
(`value_diff`). -/
def values (c : Comparison) (path : Path) : Except Error (Option Tree × Option Tree) :=
  let full := c.level ++ path
  let edited? := c.edited.get? full
  let running? := c.running.get? full
  if edited?.any Tree.isSubtree || running?.any Tree.isSubtree then
    .error (.comparison full .valueOfNode)
  else .ok (edited?, running?)

theorem values_eq_ok_iff (c : Comparison) (path : Path) (edited? running? : Option Tree) :
    c.values path = .ok (edited?, running?) ↔
      c.edited.get? (c.level ++ path) = edited? ∧ c.running.get? (c.level ++ path) = running? ∧
        edited?.any Tree.isSubtree = false ∧ running?.any Tree.isSubtree = false := by
  simp only [values]
  split <;> rename_i h
  · simp only [reduceCtorEq, false_iff, not_and]
    rintro rfl rfl hedited
    simpa [hedited] using h
  · simp only [Except.ok.injEq, Prod.mk.injEq]
    constructor
    · rintro ⟨rfl, rfl⟩
      simpa using h
    · exact fun ⟨h1, h2, _⟩ => ⟨h1, h2⟩

end Comparison

end RouterConfig
