import RouterConfig.Error

/-!
# RouterConfig — phases and tasks of a commit

A commit hands every changed part of the configuration to its owner, in four phases. A task is one
such part: an owned position or, below an owned tag node, one of its instances. Main results:

* `TaskName.instance?_eq_none_iff` — a task is about an instance if and only if it names one.
-/

namespace RouterConfig

/-- A phase of a commit (`Phase`). -/
inductive Phase where
  | selecting
  | verifying
  | generating
  | applying
  deriving DecidableEq

namespace Phase

/-- What the phase is called in reports. -/
def name : Phase → String
  | selecting => "selecting"
  | verifying => "verifying"
  | generating => "generating"
  | applying => "applying"

/-- What a module is asked to do in the phase. -/
def verb : Phase → String
  | selecting => "get_config"
  | verifying => "verify"
  | generating => "generate"
  | applying => "apply"

end Phase

/-- What a task is about: the owner, the position and the instance (`TaskSummary`). -/
structure TaskName where
  owner : String
  path : Path
  /-- The instance of the tag node at `path`, or the empty text where an owner owns all of it. -/
  instanceName : String
  deriving DecidableEq

namespace TaskName

/-- The instance, if the task is about one. -/
def instance? (t : TaskName) : Option String :=
  if t.instanceName.isEmpty then none else some t.instanceName

/-- The position and the instance in words. -/
def text (t : TaskName) : String :=
  match t.instance? with
  | some name => t.path.text ++ " " ++ name
  | none => t.path.text

/-- The failure of the task's module in a phase. -/
def failure (t : TaskName) (phase : Phase) (cause : Error) : Error :=
  .module t.owner phase.verb t.path t.instance? cause.message

theorem instance?_eq_none_iff (t : TaskName) : t.instance? = none ↔ t.instanceName = "" := by
  simp [instance?]

end TaskName

end RouterConfig
