import RouterConfig.Cli.Commands

/-!
# RouterConfig — the program

Scripts are carried out on the files, the output and the environment of the system.
-/

namespace RouterConfig.Program

/-- Whether something went well. -/
def succeeds {α : Type} (action : IO α) : IO Bool := do
  match ← action.toBaseIO with
  | .ok _ => pure true
  | .error _ => pure false

/-- What the system says is wrong with a file. -/
def faultOf : IO.Error → FileFault
  | .noFileOrDirectory .. => .missing
  | .resourceBusy .. => .inUse
  | .inappropriateType _ code _ => if code = 20 then .notFolder else .isFolder
  | .unsatisfiedConstraints .. => .folderNotEmpty
  | other => .stated (toString other)

/-- The result of something with files, or what is wrong with them. -/
def attempt {α : Type} (action : IO α) : IO (Except FileFault α) := do
  pure ((← action.toBaseIO).mapError faultOf)

/-- Carries out a script. -/
def perform {α : Type} : Script α → IO α
  | .done result => pure result
  | .read path next => do perform (next (← attempt (IO.FS.readFile path)))
  | .probe path next => do perform (next (← succeeds (IO.FS.Handle.mk path .read)))
  | .move source target next => do perform (next (← attempt (IO.FS.rename source target)))
  | .write path text next => do perform (next (← attempt (IO.FS.writeFile path text)))
  | .print text next => do
    IO.print text
    perform next

/-- The values of the environment variables that requests and standard places depend on. -/
def environment : IO Environment := do
  let names := ["HOME", "XDG_CONFIG_HOME", "XDG_DATA_HOME", "ROUTECFG_SETTINGS", "ROUTECFG_SCHEMA"]
  let entries ← names.mapM fun name => do pure (name, ← IO.getEnv name)
  pure fun name => (entries.lookup name).join

/-- What is printed of an ending where errors go. -/
def remark : Cli.Ending → String
  | .success => ""
  | .failure failure => "Error: " ++ ": ".intercalate failure.texts ++ "\n"
  | .refused _ => "Usage: routecfg [OPTIONS] <load|show|diff|validate|tree> ...\n"

end RouterConfig.Program

open RouterConfig in
/-- Does what the arguments ask for. -/
def main (arguments : List String) : IO UInt32 := do
  let ending ← Program.perform (Cli.run (← Program.environment) arguments)
  IO.eprint (Program.remark ending)
  pure ending.exitCode
