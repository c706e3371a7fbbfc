import RouterConfig.Pattern.Expression
import RouterConfig.Text.Blank

/-!
# RouterConfig — reading pattern texts

What readers of pattern texts hand to each other: the rest of the text, the inline flags in force
and the groups so far. Under one of the flags, blanks and comments mean nothing.
-/

namespace RouterConfig.Pattern

/-- What inline flags can switch. -/
structure Flags where
  anyCase : Bool := false
  multiLine : Bool := false
  dotMatchesAll : Bool := false
  /-- Repetitions prefer few times rather than many. -/
  swapGreed : Bool := false
  unicode : Bool := true
  returns : Bool := false
  /-- Blanks and comments in the pattern mean nothing. -/
  spaced : Bool := false

/-- What is left of a pattern text, and what is known while reading it. -/
structure Reading where
  rest : List Char
  flags : Flags := {}
  /-- The names of the groups so far. -/
  names : List (List Char) := []
  /-- How many groups there are so far that capture what they match. -/
  groups : Nat := 0

namespace Reading

/-- The text behind blanks and comments. -/
def skipSpaced : (fuel : Nat) → List Char → List Char
  | 0, cs => cs
  | fuel + 1, c :: cs =>
    if isBlank c then skipSpaced fuel cs
    else if c = '#' then skipSpaced fuel ((cs.dropWhile (· ≠ '\n')).drop 1)
    else c :: cs
  | _ + 1, [] => []

/-- Behind blanks and comments, where they mean nothing. -/
def skipBlanks (r : Reading) : Reading :=
  if r.flags.spaced then { r with rest := skipSpaced (r.rest.length + 1) r.rest } else r

/-- Goes on with `rest`. -/
def moveTo (r : Reading) (rest : List Char) : Reading := { r with rest := rest }

/-- Goes on with `rest`, behind blanks and comments. -/
def past (r : Reading) (rest : List Char) : Reading := (r.moveTo rest).skipBlanks

end Reading

end RouterConfig.Pattern
