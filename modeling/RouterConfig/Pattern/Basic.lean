import RouterConfig.Pattern.AsciiClass
import RouterConfig.Unicode.Derived

/-!
# RouterConfig — patterns

A pattern matches stretches of a text, given by the places where they start and end. `Matches` says
which; `ends` finds, for places to start at, all places at which a match may end.
-/

namespace RouterConfig.Pattern

open RouterConfig.Unicode

/-- A condition on a place in a text. -/
inductive Anchor where
  | textStart
  | textEnd
  /-- At the start of a line; `returns` tells that a carriage return ends a line too. -/
  | lineStart (returns : Bool)
  | lineEnd (returns : Bool)
  /-- Where a word starts or ends; `ascii` tells that only ASCII characters form words. -/
  | wordBoundary (ascii : Bool)
  | insideOrOutsideWord (ascii : Bool)
  | wordStart (ascii : Bool)
  | wordEnd (ascii : Bool)
  | afterNoWord (ascii : Bool)
  | beforeNoWord (ascii : Bool)
  deriving DecidableEq

/-- The character before a place. -/
def charBefore? (text : List Char) (i : Nat) : Option Char := if i = 0 then none else text[i - 1]?

/-- Whether a character belongs to words. -/
def isWordChar (ascii : Bool) (c : Char) : Bool :=
  (if ascii then asciiWord else wordCharacter).has c.toNat

/-- Whether the condition holds at a place. -/
def Anchor.holds (text : List Char) (i : Nat) : Anchor → Bool
  | textStart => i = 0
  | textEnd => text.length = i
  | lineStart returns =>
    match charBefore? text i with
    | none => true
    | some c => c = '\n' || (returns && c = '\r' && text[i]? ≠ some '\n')
  | lineEnd returns =>
    match text[i]? with
    | none => true
    | some c =>
      if returns then c = '\r' || (c = '\n' && charBefore? text i ≠ some '\r') else c = '\n'
  | wordBoundary ascii => wordBefore ascii != wordAfter ascii
  | insideOrOutsideWord ascii => wordBefore ascii == wordAfter ascii
  | wordStart ascii => !wordBefore ascii && wordAfter ascii
  | wordEnd ascii => wordBefore ascii && !wordAfter ascii
  | afterNoWord ascii => !wordBefore ascii
  | beforeNoWord ascii => !wordAfter ascii
where
  wordBefore (ascii : Bool) : Bool := (charBefore? text i).any (isWordChar ascii)
  wordAfter (ascii : Bool) : Bool := text[i]?.any (isWordChar ascii)

end Pattern

/-- A pattern over texts. -/
inductive Pattern where
  | empty
  /-- One character of a set. -/
  | chars (set : Unicode.CodeSet)
  | anchor (a : Pattern.Anchor)
  | append (first second : Pattern)
  | either (left right : Pattern)
  /-- At least `least` times in a row, and at most `most?` times if that is given. -/
  | repeated (p : Pattern) (least : Nat) (most? : Option Nat)

namespace Pattern

open RouterConfig.Unicode

/-- The pattern matches the text from place `i` to place `j`. -/
inductive Matches (text : List Char) : Pattern → Nat → Nat → Prop
  | empty (i : Nat) : i ≤ text.length → Matches text .empty i i
  | chars {set : CodeSet} {i : Nat} {c : Char} :
      text[i]? = some c → set.has c.toNat = true → Matches text (.chars set) i (i + 1)
  | anchor {a : Anchor} {i : Nat} : i ≤ text.length → a.holds text i = true →
      Matches text (.anchor a) i i
  | append {p q : Pattern} {i j k : Nat} :
      Matches text p i j → Matches text q j k → Matches text (.append p q) i k
  | left {p q : Pattern} {i j : Nat} : Matches text p i j → Matches text (.either p q) i j
  | right {p q : Pattern} {i j : Nat} : Matches text q i j → Matches text (.either p q) i j
  | done {p : Pattern} {most? : Option Nat} {i : Nat} : i ≤ text.length →
      Matches text (.repeated p 0 most?) i i
  | more {p : Pattern} {least : Nat} {most? : Option Nat} {i j k : Nat} :
      most? ≠ some 0 → Matches text p i j →
      Matches text (.repeated p (least - 1) (most?.map (· - 1))) j k →
      Matches text (.repeated p least most?) i k

/-- The pattern matches the whole text. -/
def MatchesWhole (p : Pattern) (text : List Char) : Prop := Matches text p 0 text.length

/-- The pattern matches some stretch of the text. -/
def MatchesSomewhere (p : Pattern) (text : List Char) : Prop := ∃ i j, Matches text p i j

/-! ## Finding matches -/

/-- The places of either list, without repeating those of the first. -/
def joinPlaces (a b : List Nat) : List Nat := a ++ b.filter fun i => !a.contains i

/-- `step` done `count` times. Once nothing changes, further steps change nothing. -/
def iterate (step : List Nat → List Nat) : (count : Nat) → List Nat → List Nat
  | 0, places => places
  | count + 1, places =>
    let next := step places
    if next = places then places else iterate step count next

/-- The places reached from `fresh` by at most `count` steps, together with those already `seen`. -/
def spread (step : List Nat → List Nat) : (count : Nat) → (seen fresh : List Nat) → List Nat
  | 0, seen, _ => seen
  | count + 1, seen, fresh =>
    let next := (step fresh).filter fun i => !seen.contains i
    if next.isEmpty then seen else spread step count (seen ++ next) next

/-- The places at which a match may end that starts at one of `places`. -/
def ends (text : List Char) : Pattern → (places : List Nat) → List Nat
  | .empty, places => places
  | .chars set, places =>
    places.filterMap fun i =>
      match text[i]? with
      | some c => if set.has c.toNat then some (i + 1) else none
      | none => none
  | .anchor a, places => places.filter fun i => a.holds text i
  | .append p q, places => q.ends text (p.ends text places)
  | .either p q, places => joinPlaces (p.ends text places) (q.ends text places)
  | .repeated p least most?, places =>
    let reached := iterate (p.ends text) least places
    -- Matches without length aside, no more repetitions fit in than the text has characters.
    let further := match most? with
      | some most => most - least
      | none => text.length
    spread (p.ends text) further reached reached

/-- Whether the pattern matches a stretch of the text. -/
def occursIn (p : Pattern) (text : List Char) : Bool :=
  !(p.ends text (List.range (text.length + 1))).isEmpty

end Pattern

end RouterConfig
