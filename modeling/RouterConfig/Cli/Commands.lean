import RouterConfig.Cli.Action
import RouterConfig.Cli.Request
import RouterConfig.Cli.Staging
import RouterConfig.CommandFile.Save
import RouterConfig.Palette
import RouterConfig.Schema.Outline
import RouterConfig.Schema.Reader
import RouterConfig.Settings.Basic

/-!
# RouterConfig — commands of the command line

Each command reads the files it is given, works on a store without modules and prints what came of
it. -/

namespace RouterConfig.Cli

/-- The store of a command: it has no modules, so neither they nor the world can tell anything. -/
abbrev CommandStore := Store Unit Unit

/-! ## What commands need -/

/-- The settings (`load_settings`): of a named file, which must be there, or of the standard one if
that is there. -/
def readSettings (env : Environment) (file? : Option String) : Action Settings := do
  match file? with
  | some file =>
    let context := "Failed to read settings from " ++ file
    Action.getWhile context (Settings.ofText (← Action.getWhile context (← Action.readFile file)))
  | none =>
    let file := Locations.settingsFile env
    if ← ExceptT.lift (Script.pathExists file) then
      Action.get (Settings.ofText (← Action.get (← Action.readFile file)))
    else pure {}

/-- The schema that a request or the settings name. -/
def readSchema (file? : Option String) (settings : Settings) : Action Schema := do
  match file?.or settings.schemaFile? with
  | some file =>
    let context := "Failed to load schema from " ++ file
    Action.getWhile context (Schema.ofYaml (← Action.getWhile context (← Action.readFile file)))
  | none =>
    Action.fail (.ofText
      "No schema given: pass --schema, set ROUTECFG_SCHEMA or add `schema` to the settings file")

/-- A store in which nothing is running yet. -/
def newStore (schema : Schema) (settings : Settings) : CommandStore where
  schema := schema
  modules := []
  executor := Pool.executor ⟨settings.maxWorkers, 1000 * settings.phaseTimeout⟩
  keepsBackup := settings.keepsBackup
  running := Tree.empty
  world := ()

/-- A store for the schema that a request or the settings name (`open_store`). -/
def openStore (schemaFile? : Option String) (settings : Settings) : Action CommandStore := do
  pure (newStore (← readSchema schemaFile? settings) settings)

/-- The text of a command file that is to be staged. -/
def readStaged (file : String) : Action String := do
  Action.getWhile ("Failed to read " ++ file) (← Action.readFile file)

/-! ## Load -/

/-- The last part of loading: commits what changed. -/
def commitLoaded (palette : Palette) (store : CommandStore) (session : Session) :
    Action CommandStore := do
  if session.changed store.running [] then
    let done := store.commit session false
    Action.sayAll (done.report.dropped.map fun e => palette.status .warn ++ " " ++ e.message)
    match done.report.state with
    | .aborted phase =>
      Action.sayAll (done.report.failures.map fun e => palette.status .error ++ " " ++ e.message)
      Action.fail (.ofText ("Commit aborted during " ++ phase.name))
    | .promoted =>
      Action.say (palette.status .ok ++ " Committed " ++ toString done.report.tasks.length ++
        " task(s)")
      Action.sayAll (done.report.tasks.map fun task => "   " ++ task.text)
      pure done.store
  else
    Action.say (palette.status .ok ++ " No changes to commit")
    pure store

/-- Loads a command file and commits it. -/
def loadCommand (palette : Palette) (settings : Settings) (schemaFile? file? : Option String)
    (shows dryRun : Bool) (saveTo? : Option String) : Action Unit := do
  match file?.or settings.configFile? with
  | none =>
    Action.fail (.ofText "No command file given and no `config_file` in the settings file")
  | some file =>
    let store ← openStore schemaFile? settings
    Action.say (palette.status .info ++ " Loading configuration: " ++ file)
    let loaded ← ExceptT.lift (loadFile store store.openSession file)
    let summary ← Action.get loaded.result
    Action.say ("   Applied " ++ toString summary.applied ++ " line(s)")
    Action.sayAll (summary.skipped.map fun (line, e) =>
      palette.status .warn ++ " Skipped line " ++ toString line ++ ": " ++ e.message)
    if summary.commits.contains false then
      Action.fail (.ofText ("A commit in " ++ file ++ " failed"))
    else
      if shows then
        Action.write (palette.paintLines
          (loaded.session.annotated store.schema loaded.store.running []))
      if dryRun then
        Action.say (palette.status .info ++ " Dry run, nothing committed")
      else
        let store ← commitLoaded palette loaded.store loaded.session
        match saveTo? with
        | none => pure ()
        | some file =>
          Action.get (← ExceptT.lift (save store.running store.keepsBackup file))
          Action.say (palette.status .info ++ " Saved running configuration to " ++ file)

/-! ## Display -/

/-- Prints what a command file produces. -/
def displayCommand (settings : Settings) (schemaFile? : Option String) (file : String) (path : Path)
    (form : ConfigForm) : Action Unit := do
  let store ← openStore schemaFile? settings
  let loaded ← ExceptT.lift (loadFile store store.openSession file)
  let _ ← Action.get loaded.result
  let running := (runningAfter loaded).running
  let session := loaded.session
  if !path.isEmpty && !session.isSet running true path then
    Action.fail (.ofText ("Configuration under '" ++ path.text ++ "' is empty"))
  else
    match form with
    | .json => Action.say (session.json running true path)
    | .commands => Action.write (session.commands running path)
    | .annotated => Action.write (session.annotated store.schema running path)

/-! ## Compare -/

/-- Compares what two command files produce. -/
def compareCommand (palette : Palette) (settings : Settings) (schemaFile? : Option String)
    (base target : String) (path : Path) (summary withDefaults : Bool) : Action Unit := do
  let store ← openStore schemaFile? settings
  let loaded ← ExceptT.lift (loadFile store store.openSession base)
  let _ ← Action.get loaded.result
  let store := runningAfter loaded
  let cleared ← Action.get (clearedSession store)
  let staged := stage store cleared (← readStaged target)
  let _ ← Action.get staged.result
  let session := staged.session
  if summary then
    let classes ← Action.get
      ((session.comparison store.schema store.running).below ⟨Class.all, withDefaults⟩ path)
    Action.sayAll (Class.all.map fun c => c.name ++ ": " ++ joinWords (classes.get c).keys)
  else
    Action.write (palette.paintLines (session.annotated store.schema store.running path))

/-! ## Validate -/

/-- An owned position with its owner. -/
def ownerLine (owned : Schema.OwnedPath) : String :=
  "   " ++ owned.path.text ++ " (" ++ owned.owner ++ ", priority " ++
    owned.priority?.elim "-" toString ++ ")"

/-- Prints a failure and fails with it. -/
def sayFailure {α : Type} (palette : Palette) (failure : Failure) : Action α := do
  Action.say (palette.status .error ++ " " ++ ": ".intercalate failure.texts)
  Action.fail failure

/-- Checks a command file. -/
def validateCommand (palette : Palette) (settings : Settings) (schemaFile? : Option String)
    (file : String) : Action Unit := do
  Action.say (palette.status .info ++ " Validating configuration: " ++ file)
  let store ← tryCatch (openStore schemaFile? settings) (sayFailure palette)
  let staged := stage store store.openSession (← readStaged file)
  let summary ← Action.get staged.result
  Action.say ("   Lines applied: " ++ toString summary.applied)
  Action.sayAll (summary.skipped.map fun (line, e) =>
    palette.status .error ++ " Line " ++ toString line ++ ": " ++ e.message)
  let owners := changedOwners store staged.session
  if !owners.isEmpty then
    Action.say ("\n" ++ palette.status .info ++ " Commit order:")
    Action.sayAll (owners.map ownerLine)
  if !summary.skipped.isEmpty then
    Action.fail (.ofText (toString summary.skipped.length ++ " line(s) rejected by the schema"))
  else
    Action.say ("\n" ++ palette.status .ok ++ " Configuration is valid")

/-! ## Draw -/

/-- Draws the schema. -/
def drawCommand (settings : Settings) (schemaFile? : Option String) (depth? : Option Nat)
    (hidden : Bool) : Action Unit := do
  let schema ← readSchema schemaFile? settings
  Action.sayAll ((schema.outline hidden depth?).lines "" "")

/-! ## Requests -/

/-- Does what a request asks for. -/
def runRequest (env : Environment) (request : Request) : Action Unit := do
  let settings ← readSettings env request.settingsFile?
  let palette := Palette.ofFlag request.color
  let schema? := request.schemaFile?
  match request.command with
  | .load file? shows dryRun saveTo? =>
    loadCommand palette settings schema? file? shows dryRun saveTo?
  | .display file path form => displayCommand settings schema? file path form
  | .compare base target path summary withDefaults =>
    compareCommand palette settings schema? base target path summary withDefaults
  | .validate file => validateCommand palette settings schema? file
  | .drawSchema depth? hidden => drawCommand settings schema? depth? hidden

/-- How the command line ends. -/
inductive Ending where
  | success
  | failure (failure : Failure)
  /-- The arguments are no request. -/
  | refused (refusal : Refusal)
  deriving DecidableEq

/-- The exit code of an ending. -/
def Ending.exitCode : Ending → UInt32
  | success => 0
  | failure _ => 1
  | refused .misuse => 2
  | refused .help => 0

/-- Does what arguments ask for. -/
def run (env : Environment) (arguments : List String) : Script Ending :=
  match Request.ofArguments env arguments with
  | .error refusal => .done (.refused refusal)
  | .ok request => do
    match ← (runRequest env request).run with
    | .ok () => pure .success
    | .error failure => pure (.failure failure)

end RouterConfig.Cli
