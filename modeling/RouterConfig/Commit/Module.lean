import RouterConfig.Commit.Event
import RouterConfig.Keyed
import RouterConfig.Session.Basic

/-!
# RouterConfig — modules

A module turns a part of the configuration into a running system. It is outside of this library: a
module may keep a state in the world, may fail and may even break down, and while it collects its
configuration it may move the cursor of the session and edit it.
-/

namespace RouterConfig

variable {World Dict : Type}

/-- How a call to a module ends. -/
inductive Attempt (α : Type) where
  | value (result : α)
  | failed (cause : Error)
  /-- The module broke down, leaving perhaps a text. -/
  | panicked (text? : Option String)

/-- The result of a call (`guarded`): a panic is a failure like others. -/
def Attempt.guarded {α : Type} : Attempt α → Except Error α
  | .value result => .ok result
  | .failed cause => .error cause
  | .panicked text? =>
    .error (.moduleFault ("module panicked: " ++ text?.getD "unknown panic payload"))

/-- What a module is shown while it collects its configuration (`ModuleContext`). -/
structure Context where
  schema : Schema
  running : Tree
  /-- The instance that the task is about, or the empty text. -/
  instanceName : String
  /-- The session to be committed, with its cursor at the root. -/
  session : Session

namespace Context

/-- The instance that the task is about, if it is about one (`tag_node`). -/
def instance? (c : Context) : Option String :=
  if c.instanceName.isEmpty then none else some c.instanceName

/-- The instance, for a module that makes sense for instances only (`require_tag_node`). -/
def requireInstance (c : Context) : Except Error String :=
  match c.instance? with
  | some name => .ok name
  | none => .error (.moduleFault "tag node instance not specified")

end Context

/-- How collecting a configuration ends, with the session and the world that the module leaves. -/
structure Collected (World Dict : Type) where
  attempt : Attempt Dict
  session : Session
  world : World

/-- A unit of work in the outside world. It has no result if it does not come to an end in time. -/
abbrev Job (World : Type) := World → Option (Attempt Unit) × World

/-- A module (`ConfigModule`). -/
structure Module (World Dict : Type) where
  /-- Collects the configuration of a task from the session. -/
  getConfig : Context → World → Collected World Dict
  /-- Rejects a configuration that must not be applied. -/
  verify : Dict → World → Attempt Unit × World
  /-- Writes what the system needs for the configuration. -/
  generate : Dict → Job World
  /-- Makes the configuration live. -/
  apply : Dict → Job World

/-- The modules by owner (`ModuleRegistry`). -/
abbrev Modules (World Dict : Type) := Keyed (Module World Dict)

end RouterConfig
