import RouterConfig.Commit.Phase

/-!
# RouterConfig — what happens during a commit

The journal of a commit holds the calls to modules, as the engine makes them or its executor reports
them, and the notices to the operator, in the order of both. Main results:

* `calls_append`, `calls_notices` — calls are read off a journal part by part, and notices are none.
-/

namespace RouterConfig

/-! ## Durations -/

/-- The digits of `n` as a fraction of a thousand, without zeros at the end. -/
def thousandths (n : Nat) : List Char :=
  let digit (k : Nat) : Char := Nat.digitChar (k % 10)
  [digit (n / 100), digit (n / 10), digit n].reverse.dropWhile (· = '0') |>.reverse

/-- A duration given in milliseconds, in the largest unit of which it holds at least one. -/
def durationText (milliseconds : Nat) : String :=
  if milliseconds = 0 then "0ns"
  else if milliseconds < 1000 then toString milliseconds ++ "ms"
  else
    let fraction := thousandths (milliseconds % 1000)
    toString (milliseconds / 1000) ++
      (if fraction.isEmpty then "" else "." ++ String.ofList fraction) ++ "s"

/-! ## Notices -/

/-- Something the operator should know. -/
inductive Notice where
  /-- The schema gives a position a priority but no owner to make use of it. -/
  | unownedPriority (priority : Int) (path : Path)
  /-- Changes at a position whose owner has no module. -/
  | missingModule (owner : String) (path : Path)
  /-- A task whose configuration could not be collected. -/
  | taskDropped (failure : Error)
  /-- A phase that ran out of time. -/
  | watchdogFired (phase : Phase) (timeout outstanding : Nat)
  /-- A task that failed. -/
  | taskFailed (failure : Error)
  /-- A commit that a phase put an end to. -/
  | commitAborted (phase : Phase) (failures : Nat)
  /-- A commit, asked for by a line of a command file, that failed. -/
  | commitLineFailed (line : Nat)
  /-- A line of a command file that cannot be done. -/
  | lineSkipped (line : Nat) (text : String) (failure : Error)
  deriving DecidableEq

namespace Notice

/-- Whether the notice is an error, rather than a warning. -/
def isFailure : Notice → Bool
  | taskFailed _ | commitAborted _ _ => true
  | _ => false

/-- The notice in words. -/
def message : Notice → String
  | unownedPriority priority path =>
    "priority " ++ toString priority ++ " declared on '" ++ path.text ++ "' without an owner"
  | missingModule owner path =>
    "no module registered for '" ++ owner ++ "', skipping changes at '" ++ path.text ++ "'"
  | taskDropped failure => "dropping task: " ++ failure.message
  | watchdogFired phase timeout outstanding =>
    phase.name ++ " phase watchdog fired after " ++ durationText timeout ++ " with " ++
      toString outstanding ++ " task(s) outstanding"
  | taskFailed failure => failure.message
  | commitAborted phase failures =>
    "configuration update failed: " ++ phase.name ++ " phase reported " ++ toString failures ++
      " failure(s)"
  | commitLineFailed line => "line " ++ toString line ++ ": commit failed"
  | lineSkipped line text failure =>
    "line " ++ toString line ++ ": skipping \"" ++ text ++ "\": " ++ failure.message

end Notice

/-! ## Calls -/

/-- A call to a module. `Dict` is what modules collect their configuration in. -/
structure Call (Dict : Type) where
  phase : Phase
  task : TaskName
  /-- What the module gets: nothing when it collects its configuration, and that afterwards. -/
  config? : Option Dict

/-- An entry of the journal. -/
inductive Event (Dict : Type) where
  | call (call : Call Dict)
  | notice (notice : Notice)

/-- The calls in a journal. -/
def calls {Dict : Type} (journal : List (Event Dict)) : List (Call Dict) :=
  journal.filterMap fun event =>
    match event with
    | .call call => some call
    | .notice _ => none

/-- The notices in a journal. -/
def notices {Dict : Type} (journal : List (Event Dict)) : List Notice :=
  journal.filterMap fun event =>
    match event with
    | .call _ => none
    | .notice notice => some notice

theorem calls_nil : calls ([] : List (Event Dict)) = [] := rfl

theorem calls_append (first second : List (Event Dict)) :
    calls (first ++ second) = calls first ++ calls second :=
  List.filterMap_append

theorem calls_notices {α : Type} (f : α → Notice) (entries : List α) :
    (calls (entries.map fun a => .notice (f a)) : List (Call Dict)) = [] := by
  induction entries with
  | nil => rfl
  | cons a rest ih => exact ih

end RouterConfig
