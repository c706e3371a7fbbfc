import RouterConfig.Pattern.Encoded
import RouterConfig.Pattern.Expression

/-!
# RouterConfig — plans of patterns

A plan is what is left of an expression when everything is put into its plainest form: characters on
their own are bytes, sequences and choices stand in no others of their kind, and what all
alternatives start with comes once.
-/

namespace RouterConfig.Pattern

open RouterConfig.Unicode

/-- An expression in its plainest form. -/
inductive Plan where
  | empty
  /-- Some bytes in a row, at least one. -/
  | literal (bytes : List Nat)
  /-- One character of a set. -/
  | chars (set : CodeSet)
  | anchor (a : Anchor)
  /-- Two plans or more in a row. -/
  | sequence (parts : List Plan)
  /-- One of two plans or more. -/
  | choice (parts : List Plan)
  /-- A plan whose match is remembered under a number. -/
  | group (number : Nat) (p : Plan)
  /-- A plan some times in a row; a greedy one tries many times first. -/
  | repeated (p : Plan) (least : Nat) (most? : Option Nat) (greedy : Bool)

namespace Plan

/-! ## Views -/

/-- The bytes of a literal. -/
def literal? : Plan → Option (List Nat)
  | literal bytes => some bytes
  | _ => none

/-- The set of a plan for one character of a set. -/
def chars? : Plan → Option CodeSet
  | chars set => some set
  | _ => none

/-- The parts of a sequence. -/
def sequence? : Plan → Option (List Plan)
  | sequence parts => some parts
  | _ => none

mutual

/-- Whether two plans are the same. -/
def same : Plan → Plan → Bool
  | empty, empty => true
  | literal a, literal b => a = b
  | chars a, chars b => a = b
  | anchor a, anchor b => a = b
  | sequence a, sequence b => allSame a b
  | choice a, choice b => allSame a b
  | group i p, group j q => i = j && p.same q
  | repeated p least most? greedy, repeated q least' most'? greedy' =>
    least = least' && most? = most'? && greedy = greedy' && p.same q
  | _, _ => false

/-- Whether two lists hold the same plans. -/
def allSame : List Plan → List Plan → Bool
  | [], [] => true
  | p :: ps, q :: qs => p.same q && allSame ps qs
  | _, _ => false

end

mutual

/-- Of how many plans a plan is made, itself included. -/
def weight : Plan → Nat
  | empty | literal _ | chars _ | anchor _ => 1
  | sequence parts => weights parts + 1
  | choice parts => weights parts + 1
  | group _ p => p.weight + 1
  | repeated p _ _ _ => p.weight + 1

/-- Of how many plans some plans are made. -/
def weights : List Plan → Nat
  | [] => 0
  | p :: rest => p.weight + weights rest

end

/-! ## Lengths -/

mutual

/-- The bytes of a shortest match, unless there is no match. -/
def shortest? : Plan → Option Nat
  | empty => some 0
  | literal bytes => some bytes.length
  | chars set => set.ranges.head?.map fun (first, _) => (bytesOf first).length
  | anchor _ => some 0
  | sequence parts => shortestInOrder? parts
  | choice parts => shortestOfAny? parts
  | group _ p => p.shortest?
  | repeated p least _ _ => p.shortest?.map (· * least)

/-- The bytes of a shortest match of some plans in a row. -/
def shortestInOrder? : List Plan → Option Nat
  | [] => some 0
  | p :: rest =>
    match p.shortest?, shortestInOrder? rest with
    | some n, some m => some (n + m)
    | _, _ => none

/-- The bytes of a shortest match of any of some plans, all of which must be able to match. -/
def shortestOfAny? : List Plan → Option Nat
  | [] => none
  | [p] => p.shortest?
  | p :: rest =>
    match p.shortest?, shortestOfAny? rest with
    | some n, some m => some (min n m)
    | _, _ => none

end

mutual

/-- Whether all matches are empty. -/
def matchesNoBytes : Plan → Bool
  | empty | anchor _ => true
  | literal _ | chars _ => false
  | sequence parts => allMatchNoBytes parts
  | choice parts => allMatchNoBytes parts
  | group _ p => p.matchesNoBytes
  | repeated p _ most? _ => most?.isSome && p.matchesNoBytes

/-- Whether all matches of some plans are empty. -/
def allMatchNoBytes : List Plan → Bool
  | [] => true
  | p :: rest => p.matchesNoBytes && allMatchNoBytes rest

end

/-! ## Plainest forms -/

/-- The plan for one character of a set. -/
def ofSet (set : CodeSet) : Plan :=
  match set.ranges with
  | [(first, last)] => if first = last then literal (bytesOf first) else chars set
  | _ => chars set

/-- A plan some times in a row. What matches no bytes need not be done twice. -/
def repeating (p : Plan) (least : Nat) (most? : Option Nat) (greedy : Bool) : Plan :=
  let (least, most?) :=
    if p.matchesNoBytes then (min least 1, some (min (most?.getD 1) 1)) else (least, most?)
  if most? = some 0 then empty
  else if least = 1 && most? = some 1 then p
  else repeated p least most? greedy

/-- A part more in front of a sequence: literals grow together, and empty parts vanish. -/
def before : Plan → List Plan → List Plan
  | empty, rest => rest
  | literal bytes, literal others :: rest => literal (bytes ++ others) :: rest
  | p, rest => p :: rest

/-- The sequence of some plans. -/
def inSequence (plans : List Plan) : Plan :=
  let flat := plans.flatMap fun p => p.sequence?.getD [p]
  match flat.foldr before [] with
  | [] => empty
  | [p] => p
  | parts => sequence parts

/-- What is common to two sequences at the start. -/
def commonStart : List Plan → List Plan → List Plan
  | p :: ps, q :: qs => if p.same q then p :: commonStart ps qs else []
  | _, _ => []

/-- The character whose encoding is some bytes, if they are a single one. -/
def singleChar? (bytes : List Nat) : Option Nat :=
  match String.fromUTF8? ⟨(bytes.map Nat.toUInt8).toArray⟩ with
  | some text =>
    match text.toList with
    | [c] => some c.toNat
    | _ => none
  | none => none

/-- The set of characters that stands for a choice between plans that are characters each, or sets
each. -/
def choiceOfChars? (plans : List Plan) : Option CodeSet :=
  match plans.mapM fun p => p.literal?.bind singleChar? with
  | some codes => some (.ofRanges (codes.map fun n => (n, n)))
  | none => (plans.mapM chars?).map .unionOf

/-- The choice between some plans. What all of them start with comes in front of the choice. -/
def between : (fuel : Nat) → (plans : List Plan) → Plan
  | 0, plans => choice plans
  | fuel + 1, plans =>
    let flat := plans.flatMap fun
      | choice parts => parts
      | p => [p]
    match flat with
    | [p] => p
    | _ =>
      match choiceOfChars? flat with
      | some set => ofSet set
      | none =>
        match flat.mapM sequence? with
        | some (first :: rest) =>
          -- Only what every alternative starts with may come out, or a match would be lost.
          let common := rest.foldl commonStart first
          if common.isEmpty then choice flat
          else
            let behind := (first :: rest).map fun parts => inSequence (parts.drop common.length)
            inSequence (common ++ [between fuel behind])
        | _ => choice flat

mutual

/-- The plan of an expression. -/
def ofExpression : Expression → Plan
  | .empty => empty
  | .chars set => ofSet set
  | .bracket set _ => ofSet set
  | .anchor a => anchor a
  | .sequence parts => inSequence (ofExpressions parts)
  | .choice parts =>
    let plans := ofExpressions parts
    -- Every common start that is taken out makes the plans of a choice lighter.
    between (weights plans + 1) plans
  | .group none e => ofExpression e
  | .group (some number) e => group number (ofExpression e)
  | .repeated e least most? greedy => repeating (ofExpression e) least most? greedy

/-- The plans of some expressions. -/
def ofExpressions : List Expression → List Plan
  | [] => []
  | e :: rest => ofExpression e :: ofExpressions rest

end

end Plan

end RouterConfig.Pattern
