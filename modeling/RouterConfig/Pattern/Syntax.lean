import RouterConfig.Pattern.Bracket
import RouterConfig.Pattern.Group
import RouterConfig.Pattern.Repetition

/-!
# RouterConfig — the notation of patterns

Reads a pattern expression from its text: alternatives of sequences of elements, groups and
repetitions. Every reader yields nothing where the notation is broken.
-/

namespace RouterConfig.Pattern

open RouterConfig.Unicode

/-- The parts of a sequence so far; inline flags leave a gap that cannot be repeated. -/
abbrev Parts := List (Option Expression)

/-- The sequence of some parts. -/
def sequenceOf (parts : Parts) : Expression := .inSequence (parts.map fun part => part.getD .empty)

/-- Repeats the last part. -/
def repeatLast? (parts : Parts) (least : Nat) (most? : Option Nat) (greedy : Bool) : Option Parts :=
  match parts.getLast? with
  | some (some e) => some (parts.dropLast ++ [some (.repeated e least most? greedy)])
  | _ => none

/-- The expression of an element outside brackets. -/
def elementExpression? (flags : Flags) : Element → Option Expression
  | .literal code byte =>
    if !flags.unicode && byte && 0x7F < code then none
    else some (.chars (foldSet flags (.single code)))
  | .set s => (allowedSet? flags s).map .chars
  | .anchor a => some (.anchor a)

/-- Reads the element of a single character outside brackets. -/
def takeElement (r : Reading) : Option (Expression × Reading) :=
  let flags := r.flags
  match r.rest with
  | [] => none
  | '\\' :: rest => do
    let (element, r) ← takeEscape (r.moveTo rest)
    some (← elementExpression? flags element, r)
  | '.' :: rest =>
    let set : CodeSet :=
      if flags.dotMatchesAll then .everything
      else if flags.returns then (CodeSet.ofRanges [(0x0A, 0x0A), (0x0D, 0x0D)]).complement
      else (CodeSet.single 0x0A).complement
    -- Without Unicode the point would match single bytes of a character.
    if flags.unicode then some (.chars set, r.moveTo rest) else none
  | '^' :: rest =>
    some (.anchor (if flags.multiLine then .lineStart flags.returns else .textStart), r.moveTo rest)
  | '$' :: rest =>
    some (.anchor (if flags.multiLine then .lineEnd flags.returns else .textEnd), r.moveTo rest)
  | c :: rest => do
    some (← elementExpression? flags (.literal c.toNat false), r.moveTo rest)

/-- Reads alternatives up to a closing parenthesis, which is left to be read, or to the end. -/
def takeAlternatives :
    (fuel : Nat) → Reading → (alternatives : List Expression) → Parts →
      Option (Expression × Reading)
  | 0, _, _, _ => none
  | fuel + 1, r, alternatives, parts =>
    let r := r.skipBlanks
    let repeatLast (r : Reading) (least : Nat) (most? : Option Nat) :
        Option (Expression × Reading) :=
      let (greedy, r) := takeGreed r
      match repeatLast? parts least most? greedy with
      | some parts => takeAlternatives fuel r alternatives parts
      | none => none
    match r.rest with
    | [] => some (.between (alternatives ++ [sequenceOf parts]), r)
    | ')' :: _ => some (.between (alternatives ++ [sequenceOf parts]), r)
    | '|' :: rest => takeAlternatives fuel (r.moveTo rest) (alternatives ++ [sequenceOf parts]) []
    | '*' :: rest => repeatLast (r.moveTo rest) 0 none
    | '+' :: rest => repeatLast (r.moveTo rest) 1 none
    | '?' :: rest => repeatLast (r.moveTo rest) 0 (some 1)
    | '\x7b' :: rest =>
      match takeCounts (r.moveTo rest) with
      | some ((least, most?), after) => repeatLast after least most?
      | none => none
    | '(' :: rest =>
      match takeGroupStart (r.moveTo rest) with
      | none => none
      | some (.flags r) => takeAlternatives fuel r alternatives (parts ++ [none])
      | some (.group number? inner) =>
        match takeAlternatives fuel inner [] [] with
        | some (e, after) =>
          match after.rest with
          | ')' :: rest =>
            -- What is known of groups stays, but flags set inside end with the group.
            let r := { after with rest := rest, flags := r.flags }
            takeAlternatives fuel r alternatives (parts ++ [some (.group number? e)])
          | _ => none
        | none => none
    | '[' :: rest =>
      match takeSet (2 * rest.length + 2) (r.moveTo rest) false false none {} with
      | some (set, after) =>
        takeAlternatives fuel after alternatives (parts ++ [some (.bracket set.set set.depth)])
      | none => none
    | _ =>
      match takeElement r with
      | some (e, r) => takeAlternatives fuel r alternatives (parts ++ [some e])
      | none => none

/-- The expression that a text writes, unless it nests too deep. -/
def Expression.ofText? (text : List Char) : Option Expression :=
  match takeAlternatives (text.length + 1) { rest := text } [] [] with
  | some (e, r) =>
    -- What is left can only be a closing parenthesis too many.
    if r.rest.isEmpty && e.depth ≤ greatestDepth then some e else none
  | none => none

end RouterConfig.Pattern
