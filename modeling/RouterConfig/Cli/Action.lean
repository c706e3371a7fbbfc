import RouterConfig.Error
import RouterConfig.Files.Script

/-!
# RouterConfig — actions of the command line

An action is a script that may fail. A failure is printed from the outside in: what was being done,
and at last the cause where the library has one.
-/

namespace RouterConfig

/-- Why an action failed. -/
structure Failure where
  /-- What was being done, from the outside in. -/
  contexts : List String
  cause? : Option Error
  deriving DecidableEq

namespace Failure

/-- A failure of the library. -/
def ofError (cause : Error) : Failure := ⟨[], some cause⟩

/-- A failure in words. -/
def ofText (text : String) : Failure := ⟨[text], none⟩

/-- A failure of the library while something was being done. -/
def because (context : String) (cause : Error) : Failure := ⟨[context], some cause⟩

/-- The cause in words. What is wrong with a file is printed once more on its own. -/
def causeTexts : Error → List String
  | .file fault => [(Error.file fault).message, fault.message]
  | cause => [cause.message]

/-- All that is said of a failure, from the outside in. -/
def texts (f : Failure) : List String := f.contexts ++ (f.cause?.elim [] causeTexts)

end Failure

/-- A script that may fail. -/
abbrev Action := ExceptT Failure Script

namespace Action

/-- Prints a line. -/
def say (text : String) : Action Unit := ExceptT.lift (Script.printLine text)

/-- Prints a text as it is. -/
def write (text : String) : Action Unit := ExceptT.lift (Script.printText text)

/-- Prints lines. -/
def sayAll (lines : List String) : Action Unit := write (String.join (lines.map (· ++ "\n")))

/-- Fails. -/
def fail {α : Type} (failure : Failure) : Action α := ExceptT.mk (pure (.error failure))

/-- The result, or a failure of the library. -/
def get {α : Type} (result : Except Error α) : Action α :=
  ExceptT.mk (pure (result.mapError Failure.ofError))

/-- The result, or a failure of the library while something was being done. -/
def getWhile {α : Type} (context : String) (result : Except Error α) : Action α :=
  ExceptT.mk (pure (result.mapError (Failure.because context)))

/-- The text of a file. -/
def readFile (path : String) : Action (Except Error String) := do
  pure ((← ExceptT.lift (Script.readFile path)).mapError .file)

end Action

end RouterConfig
