import RouterConfig.Schema.Basic
import RouterConfig.StableSort

/-!
# RouterConfig — who commits what

Every owner of a part of the configuration, in the order in which their turns come: by ascending
priority, owners without one last, and by path among equals.
-/

namespace RouterConfig.Schema

/-- A part of the configuration that a module owns (`OwnedPath`). -/
structure OwnedPath where
  path : Path
  owner : String
  priority? : Option Int
  isTag : Bool
  deriving DecidableEq

/-- Whether the turn of `a` may come before that of `b`: a priority before a greater one and before
none. -/
def OwnedPath.precedes (a b : OwnedPath) : Bool :=
  match a.priority?, b.priority? with
  | some p, some q => p ≤ q
  -- Without a priority the turn comes last.
  | none, some _ => false
  | _, none => true

mutual

/-- The declarations of a node and of all below it with their paths, a node before its children: the
order in which `collect_owners` meets them. -/
def Node.declarations (path : Path) : Node → List (Path × Node)
  | ⟨kind, multi, valueless, hidden, owner?, priority?, default?, constraint?, help?, children⟩ =>
    (path,
      ⟨kind, multi, valueless, hidden, owner?, priority?, default?, constraint?, help?, children⟩)
      :: declarationsBelow path children

/-- The declarations of all children, in the order of their names. -/
def declarationsBelow (path : Path) : List (String × Node) → List (Path × Node)
  | [] => []
  | (name, child) :: rest => child.declarations (path ++ [name]) ++ declarationsBelow path rest

end

/-- The part that a declaration gives to an owner. -/
def owned? (d : Path × Node) : Option OwnedPath :=
  d.2.owner?.map fun owner => ⟨d.1, owner, d.2.priority?, d.2.isTag⟩

/-- The priority that a declaration has without naming an owner. -/
def unowned? (d : Path × Node) : Option (Int × Path) :=
  if d.2.owner?.isSome then none else d.2.priority?.map fun p => (p, d.1)

/-- The owned parts in the order of their turns (`owned_paths`, as `index_owners` sorts them). -/
def ownedPaths (schema : Schema) : List OwnedPath :=
  sortBy OwnedPath.precedes ((declarationsBelow [] schema.top).filterMap owned?)

/-- The paths that have a priority but no owner, by ascending priority (`unowned_priorities`). -/
def unownedPriorities (schema : Schema) : List (Int × Path) :=
  sortBy (fun a b => a.1 ≤ b.1) ((declarationsBelow [] schema.top).filterMap unowned?)

end RouterConfig.Schema
