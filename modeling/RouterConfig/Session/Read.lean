import RouterConfig.Annotated.Render
import RouterConfig.CommandFile.Commands
import RouterConfig.Comparison.Compare
import RouterConfig.Session.Basic
import RouterConfig.Tree.Json

/-!
# RouterConfig — reading a session

Paths start at the cursor. The edited configuration is read unless `effective` asks for the running
one. Main results:

* `Session.changed_eq_false_iff` — an unchanged position holds the same on both sides, where nothing
  is as good as an empty subtree.
-/

namespace RouterConfig

namespace Tree

/-- Whether something is set at `path`. -/
def isSetAt (t : Tree) (path : Path) : Bool := (t.get? path).any fun node => !node.isEmpty

/-- The names right below `path`: of children, of instances, or the values of a list. -/
def namesAt (t : Tree) (path : Path) : List String := (t.get? path).elim [] keys

/-- The value at `path`, if it is a single one. -/
def valueAt? (t : Tree) (path : Path) : Option String :=
  match t.get? path with
  | some (.scalar value) => some value
  | _ => none

/-- The values at `path`. -/
def valuesAt (t : Tree) (path : Path) : List String := (t.get? path).elim [] values

end Tree

namespace Session

/-- The configuration that is read. -/
def side (s : Session) (running : Tree) (effective : Bool) : Tree :=
  if effective then running else s.edit

/-- Whether something is set at `path` (`exists`, `exists_effective`). -/
def isSet (s : Session) (running : Tree) (effective : Bool) (path : Path) : Bool :=
  (s.side running effective).isSetAt (s.absolute path)

/-- The names right below `path` (`children`, `effective_children`). -/
def children (s : Session) (running : Tree) (effective : Bool) (path : Path) : List String :=
  (s.side running effective).namesAt (s.absolute path)

/-- The single value at `path` (`return_value`, `return_effective_value`). -/
def value? (s : Session) (running : Tree) (effective : Bool) (path : Path) : Option String :=
  (s.side running effective).valueAt? (s.absolute path)

/-- The values at `path`, or the names of its instances (`return_values`,
`return_effective_values`). -/
def values (s : Session) (running : Tree) (effective : Bool) (path : Path) : List String :=
  (s.side running effective).valuesAt (s.absolute path)

/-- The node at `path`, or an empty subtree. -/
def subtreeAt (s : Session) (running : Tree) (effective : Bool) (path : Path) : Tree :=
  (s.side running effective).subtreeAt (s.absolute path)

/-- The node at `path` as JSON (`show_config`). -/
def json (s : Session) (running : Tree) (effective : Bool) (path : Path) : String :=
  (s.subtreeAt running effective path).json

/-- Whether the edited configuration differs from the running one at `path` (`changed`). -/
def changed (s : Session) (running : Tree) (path : Path) : Bool :=
  s.subtreeAt running false path ≠ s.subtreeAt running true path

/-- The annotated text of what stands at `path` (`show`). -/
def annotated (s : Session) (schema : Schema) (running : Tree) (path : Path) : String :=
  let full := s.absolute path
  Annotated.render schema full (s.edit.get? full) (running.get? full)

/-- The command lines of what is running at `path` (`commands`). -/
def commands (s : Session) (running : Tree) (path : Path) : String :=
  let full := s.absolute path
  commandLines full (running.get? full)

/-- The session compared with the running configuration, from its cursor on. -/
def comparison (s : Session) (schema : Schema) (running : Tree) : Comparison :=
  { Comparison.ofTrees schema s.edit running with level := s.level }

theorem changed_eq_false_iff (s : Session) (running : Tree) (path : Path) :
    s.changed running path = false ↔
      s.edit.subtreeAt (s.absolute path) = running.subtreeAt (s.absolute path) := by
  simp [changed, subtreeAt, side]

end Session

end RouterConfig
