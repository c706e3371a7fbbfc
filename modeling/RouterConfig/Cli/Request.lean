import RouterConfig.Cli.Arguments
import RouterConfig.Locations
import RouterConfig.Text.Numerals
import RouterConfig.Tree.Basic

/-!
# RouterConfig — requests of the command line

A request is one of five commands with its options. Some options apply to every command and may
stand in front of the command or behind it, where the latter counts. Options that name files may be
given by environment variables too, and no file has an empty name.
-/

namespace RouterConfig

/-- How a configuration is to be written. -/
inductive ConfigForm where
  | annotated
  | json
  | commands
  deriving DecidableEq

/-- What is asked for. -/
inductive Command where
  /-- Load a command file and commit it. -/
  | load (file? : Option String) (shows dryRun : Bool) (saveTo? : Option String)
  /-- Print what a command file produces. -/
  | display (file : String) (path : Path) (form : ConfigForm)
  /-- Compare what two command files produce. -/
  | compare (base target : String) (path : Path) (summary withDefaults : Bool)
  /-- Check a command file. -/
  | validate (file : String)
  /-- Draw the schema. -/
  | drawSchema (depth? : Option Nat) (hidden : Bool)
  deriving DecidableEq

/-- A command with the options of all commands. -/
structure Request where
  command : Command
  color : String
  settingsFile? : Option String
  schemaFile? : Option String
  deriving DecidableEq

namespace Request

/-! ## Forms -/

/-- The options of all commands. -/
def sharedOptions : List String := ["color", "log-level", "settings"]

/-- What may stand in front of a command. -/
def outerForm : ArgumentForm :=
  ⟨sharedOptions, [], [("help", 'h'), ("version", 'V')], 0, false, true⟩

/-- What may stand behind a command with these options, flags and places of its own. -/
def commandForm (options flags : List String) (places : Nat) (openEnd : Bool) : ArgumentForm :=
  ⟨sharedOptions ++ options, flags, [("help", 'h')], places, openEnd, false⟩

/-- What may stand behind a command. -/
def innerForm? : (command : String) → Option ArgumentForm
  | "load" => some (commandForm ["schema", "save"] ["show", "dry-run"] 1 false)
  | "show" => some (commandForm ["schema"] ["json", "commands"] 1 true)
  | "diff" => some (commandForm ["schema"] ["summary", "no-defaults"] 2 true)
  | "validate" => some (commandForm ["schema"] [] 1 false)
  | "tree" => some (commandForm ["schema", "depth"] ["hidden"] 0 false)
  | _ => none

/-! ## Values -/

/-- The name of a file, which is not empty. -/
def fileName? : Option String → Except Refusal (Option String)
  | some "" => .error .misuse
  | name? => .ok name?

/-- The name of a file that an option or, without it, an environment variable gives. -/
def fileOption (env : Environment) (a : Arguments) (name variableName : String) :
    Except Refusal (Option String) :=
  fileName? ((a.option? name).or (env variableName))

/-- The settings file. Both places are looked at, and what is given in neither comes from the
environment. -/
def settingsOption (env : Environment) (outer inner : Arguments) :
    Except Refusal (Option String) := do
  let outside? ← fileOption env outer "settings" "ROUTECFG_SETTINGS"
  let inside? ← fileOption env inner "settings" "ROUTECFG_SETTINGS"
  .ok (if (inner.option? "settings").isSome then inside? else outside?)

/-- A whole number of 64 bits, perhaps behind a plus sign. -/
def wordNumber? (text : String) : Option Nat :=
  let digits :=
    match text.toList with
    | '+' :: digits => digits
    | digits => digits
  (digitsNumber? 10 digits).filter fun n => n < Nat.pow 2 64

/-- How deep to draw a schema. -/
def depthOption (a : Arguments) : Except Refusal (Option Nat) :=
  match a.option? "depth" with
  | none => .ok none
  | some text =>
    match wordNumber? text with
    | some depth => .ok (some depth)
    | none => .error .misuse

/-! ## Commands -/

/-- The command that the arguments behind its name complete. -/
def commandOf (name : String) (a : Arguments) : Except Refusal Command :=
  match name, a.words with
  | "load", words => do
    .ok (.load (← fileName? words.head?) (a.has "show") (a.has "dry-run")
      (← fileName? (a.option? "save")))
  | "show", file :: path =>
    if file = "" || (a.has "json" && a.has "commands") then .error .misuse
    else
      .ok (.display file path
        (if a.has "json" then .json else if a.has "commands" then .commands else .annotated))
  | "diff", base :: target :: path =>
    if base = "" || target = "" || (a.has "no-defaults" && !a.has "summary") then .error .misuse
    else .ok (.compare base target path (a.has "summary") (!a.has "no-defaults"))
  | "validate", [file] => if file = "" then .error .misuse else .ok (.validate file)
  | "tree", [] => do .ok (.drawSchema (← depthOption a) (a.has "hidden"))
  | _, _ => .error .misuse

/-- Whether there is help on a word. -/
def isHelpTopic (word : String) : Bool := word = "help" || (innerForm? word).isSome

/-- The request that arguments make. -/
def ofArguments (env : Environment) (arguments : List String) : Except Refusal Request := do
  let (outer, rest) ← Arguments.read outerForm arguments .empty
  match rest with
  | [] => .error .misuse
  | name :: rest =>
    match innerForm? name with
    | none => if name = "help" && rest.all isHelpTopic then .error .help else .error .misuse
    | some form =>
      let (inner, _) ← Arguments.read form rest .empty
      let command ← commandOf name inner
      let settings? ← settingsOption env outer inner
      let schema? ← fileOption env inner "schema" "ROUTECFG_SCHEMA"
      .ok ⟨command, ((inner.option? "color").or (outer.option? "color")).getD "auto", settings?,
        schema?⟩

end Request

end RouterConfig
