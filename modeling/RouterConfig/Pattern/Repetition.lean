import RouterConfig.Pattern.Reading

/-!
# RouterConfig — repetitions in patterns

A counted repetition gives the least number of times and perhaps the greatest. A lazy one tries few
times first, which makes no difference to what it matches.
-/

namespace RouterConfig.Pattern

/-- The greatest count that may be written. -/
def greatestCount : Nat := Nat.pow 2 32 - 1

/-- Reads a decimal count with blanks around it. -/
def takeCount (r : Reading) : Option (Option Nat × Reading) :=
  let r := r.moveTo (r.rest.dropWhile isBlank)
  let rec digits : (fuel : Nat) → Reading → List Char → List Char × Reading
    | 0, r, ds => (ds, r)
    | fuel + 1, r, ds =>
      match r.rest with
      | c :: rest => if c.isDigit then digits fuel (r.past rest) (ds ++ [c]) else (ds, r)
      | [] => (ds, r)
  let (ds, r) := digits r.rest.length r []
  let r := r.moveTo (r.rest.dropWhile isBlank)
  if ds.isEmpty then some (none, r)
  else
    let n := ds.foldl (fun n c => 10 * n + (c.toNat - '0'.toNat)) 0
    if n ≤ greatestCount then some (some n, r) else none

/-- Reads a counted repetition behind its opening brace: the least and the greatest count. -/
def takeCounts (r : Reading) : Option ((Nat × Option Nat) × Reading) := do
  let (least?, r) ← takeCount (r.past r.rest)
  let least ← least?
  let (most?, r) ←
    match r.rest with
    | ',' :: rest =>
      let r := r.past rest
      match r.rest with
      | '\x7d' :: _ => some (none, r)
      | _ => do
        let (most?, r) ← takeCount r
        some (some (← most?), r)
    | _ => some (some least, r)
  match r.rest with
  | '\x7d' :: rest =>
    let r := r.past rest
    -- A greatest count below the least one leaves nothing to match and is refused.
    if most?.any (· < least) then none else some ((least, most?), r)
  | _ => none

/-- Reads the mark that makes a repetition a lazy one, if it is there, and tells whether the
repetition is greedy. -/
def takeGreed (r : Reading) : Bool × Reading :=
  match r.rest with
  | '?' :: rest => (r.flags.swapGreed, r.moveTo rest)
  | _ => (!r.flags.swapGreed, r)

end RouterConfig.Pattern
