import RouterConfig.Files.Fault
import RouterConfig.Tree.Basic

/-!
# RouterConfig — what can go wrong

Failures are values that name their cause; `Error.message` is the one place that words them. Main
results:

* `map_eq_ok`, `map_eq_error` — where a result comes from that something has been made of.
-/

namespace RouterConfig

/-- What is wrong with a path or with the value meant for it. -/
inductive PathFault where
  /-- The schema knows no such position. -/
  | undeclared
  /-- The path goes on below a leaf. -/
  | pastLeaf
  /-- A value for a leaf that takes none. -/
  | valueRefused
  /-- No value for a leaf that takes one. -/
  | valueMissing
  /-- The value is not one of those that the leaf's constraint admits. -/
  | mismatch (value constraint : String)
  /-- No quoting could write the value on a command line. -/
  | bothQuotes
  /-- A tag instance without a name. -/
  | unnamedInstance
  /-- A scalar or a list stands where a subtree is needed. -/
  | valueOnPath
  /-- Something else stands where a list is needed. -/
  | notAList
  /-- A value for the root. -/
  | valueAtRoot
  /-- A command without words. -/
  | nothingToSet
  /-- A reason in other words. -/
  | stated (reason : String)
  deriving DecidableEq

/-- What is wrong with the definition of a schema node. -/
inductive DefinitionFault where
  | leafWithChildren
  | leafAttribute
  | valuelessWithValue
  | ownerBelowTag
  | compositeDefault
  | listDefaultOnSingle
  deriving DecidableEq

/-- What is wrong with a request to compare two trees. -/
inductive ComparisonFault where
  | childrenOfLeaf
  | rootNode
  | valueOfNode
  | stated (reason : String)
  deriving DecidableEq

/-- A kind of outside text whose own failure texts are not part of this library. -/
inductive Source where
  | yaml
  | json
  | toml
  | pattern
  deriving DecidableEq

/-- A failure, by its cause (`Error`). -/
inductive Error where
  /-- A path, or a value for it, that the schema or the tree does not admit. -/
  | path (path : Path) (fault : PathFault)
  /-- A schema node that must not be as it is defined. -/
  | definition (path : Path) (fault : DefinitionFault)
  /-- A schema definition refused for a reason in other words. -/
  | definitionStated (reason : String)
  /-- A comparison that has no meaning at the path. -/
  | comparison (path : Path) (fault : ComparisonFault)
  /-- A module that failed a commit task. -/
  | module (owner action : String) (path : Path) (instance? : Option String) (reason : String)
  /-- A failure that a module reports of itself. -/
  | moduleFault (reason : String)
  /-- A command file that cannot be read on. -/
  | commandFile (line : Nat) (reason : String)
  /-- A settings file that asks for the impossible. -/
  | settings (reason : String)
  /-- A commit phase that ended before all its tasks did. -/
  | phaseTimeout (phase : String) (pending : Nat)
  /-- A shared value left unusable by a failed holder. -/
  | poisoned (context : String)
  /-- A file that refuses what is asked of it. -/
  | file (fault : FileFault)
  /-- A text that could not be read at all. -/
  | unreadable (source : Source)
  deriving DecidableEq

/-- The reason in words. -/
def PathFault.message : PathFault → String
  | undeclared => "path is not declared"
  | pastLeaf => "path continues past a leaf node"
  | valueRefused => "node does not take a value"
  | valueMissing => "node requires a value"
  | mismatch value constraint => "value '" ++ value ++ "' does not match " ++ constraint
  | bothQuotes => "a value cannot hold both quote characters"
  | unnamedInstance => "tag instance name cannot be empty"
  | valueOnPath => "a value is stored where a node is expected"
  | notAList => "stored value is not a list"
  | valueAtRoot => "the root cannot hold a value"
  | nothingToSet => "nothing to set"
  | stated reason => reason

@[inherit_doc PathFault.message]
def DefinitionFault.message : DefinitionFault → String
  | leafWithChildren => "leaf nodes cannot have children"
  | leafAttribute => "multi, valueless, default and constraint apply to leaf nodes only"
  | valuelessWithValue => "valueless leaves cannot be multi or carry a default"
  | ownerBelowTag => "owners cannot be declared below a tag node"
  | compositeDefault => "default must be a scalar or list"
  | listDefaultOnSingle => "only multi leaves can default to a list"

@[inherit_doc PathFault.message]
def ComparisonFault.message : ComparisonFault → String
  | childrenOfLeaf => "leaf nodes have no children to diff"
  | rootNode => "node diff needs a non-empty path"
  | valueOfNode => "value diff requested on a non-leaf node"
  | stated reason => reason

/-- The failure in words (its `Display` text). An unreadable source has no words of its own here. -/
def Error.message : Error → String
  | .path place fault => "Schema error at '" ++ place.text ++ "': " ++ fault.message
  | .definition place fault => "Schema definition error: " ++ place.text ++ ": " ++ fault.message
  | .definitionStated reason => "Schema definition error: " ++ reason
  | .comparison place fault => "Diff error at '" ++ place.text ++ "': " ++ fault.message
  | .module owner action place instance? reason =>
    "Module " ++ owner ++ " failed to " ++ action ++ " '" ++ place.text ++ "'" ++
      (match instance? with
        | some name => " (" ++ name ++ ")"
        | none => "") ++ ": " ++ reason
  | .moduleFault reason => reason
  | .commandFile line reason => "Load error on line " ++ toString line ++ ": " ++ reason
  | .settings reason => "Settings error: " ++ reason
  | .phaseTimeout phase pending =>
    "Phase " ++ phase ++ " timed out with " ++ toString pending ++ " task(s) still running"
  | .poisoned context => "Lock poisoned: " ++ context
  | .file fault => "I/O error: " ++ fault.message
  | .unreadable .yaml => "YAML parsing error"
  | .unreadable .json => "JSON error"
  | .unreadable .toml => "TOML parsing error"
  | .unreadable .pattern => "Regex error"

/-! ## What comes of what may fail -/

section Outcomes

variable {ε α β : Type} {outcome : Except ε α} {f : α → β}

theorem map_eq_ok {b : β} (h : outcome.map f = .ok b) : ∃ a, outcome = .ok a ∧ f a = b := by
  cases outcome with
  | error e => exact absurd h (by simp [Except.map])
  | ok a => exact ⟨a, rfl, Except.ok.inj h⟩

theorem map_eq_error {e : ε} (h : outcome.map f = .error e) : outcome = .error e := by
  cases outcome with
  | error e' => exact congrArg Except.error (Except.error.inj h)
  | ok a => exact absurd h (by simp [Except.map])

end Outcomes

end RouterConfig
