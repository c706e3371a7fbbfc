import RouterConfig.Pattern.Reading
import RouterConfig.Unicode.CaseFold
import RouterConfig.Unicode.Property

/-!
# RouterConfig — literals and escapes of patterns

Behind a backslash a character stands for itself, for another character, for a class of characters
or for a condition on the place.
-/

namespace RouterConfig.Pattern

open RouterConfig.Unicode

/-- A single element of a pattern or of a bracket expression. -/
inductive Element where
  /-- A character; `byte` tells that it was written as a byte. -/
  | literal (code : Nat) (byte : Bool)
  | set (s : CodeSet)
  | anchor (a : Anchor)

/-- A character with a meaning of its own in patterns. -/
def isMeta (c : Char) : Bool := "\\.+*?()|[]\x7b\x7d^$#&-~".toList.contains c

/-- A character that may stand behind a backslash for itself. -/
def isEscapable (c : Char) : Bool :=
  isMeta c || (c.toNat < 0x80 && !c.isAlphanum && c ≠ '<' && c ≠ '>')

/-- Reads exactly `count` hexadecimal digits. -/
def takeHexDigits (r : Reading) : (count : Nat) → List Char → Option (List Char × Reading)
  | 0, digits => some (digits, r)
  | count + 1, digits =>
    match r.rest with
    | c :: rest =>
      if (hexDigit? c).isSome then takeHexDigits (r.past rest) count (digits ++ [c])
      else none
    | [] => none

/-- Reads hexadecimal digits up to a closing brace. -/
def takeHexBraced : (fuel : Nat) → Reading → List Char → Option (List Char × Reading)
  | 0, _, _ => none
  | fuel + 1, r, digits =>
    match r.rest with
    | '\x7d' :: rest => if digits.isEmpty then none else some (digits, r.past rest)
    | c :: rest =>
      if (hexDigit? c).isSome then takeHexBraced fuel (r.past rest) (digits ++ [c]) else none
    | [] => none

/-- Reads a character by its number, behind the letter that announces `width` digits. -/
def takeHex (r : Reading) (width : Nat) : Option (Element × Reading) :=
  match r.rest with
  | '\x7b' :: rest => do
    let (digits, r) ← takeHexBraced (rest.length + 1) (r.past rest) []
    let c ← (hexNumber? digits).bind charOfNumber?
    some (.literal c.toNat false, r)
  | _ => do
    let (digits, r) ← takeHexDigits r width []
    let c ← (hexNumber? digits).bind charOfNumber?
    some (.literal c.toNat (width = 2), r)

/-- The part of a text before the first `mark`, and the part behind it. -/
def splitAtMark? (mark : List Char) : List Char → Option (List Char × List Char)
  | [] => none
  | c :: rest =>
    if mark.isPrefixOf (c :: rest) then some ([], (c :: rest).drop mark.length)
    else (splitAtMark? mark rest).map fun (before, after) => (c :: before, after)

/-- A set as the flags want it: with both cases where case does not matter. -/
def foldSet (flags : Flags) (s : CodeSet) : CodeSet :=
  if flags.anyCase then (if flags.unicode then s.foldCase else s.foldAsciiCase) else s

/-- The set that a property expression names, and whether what is not in it is meant. -/
def propertySet? (text : List Char) : Option (CodeSet × Bool) :=
  let ofKind (pair : List Char × List Char) : Option CodeSet :=
    propertyOfKind? (String.ofList pair.1) (String.ofList pair.2)
  match splitAtMark? ['!', '='] text with
  | some pair => (ofKind pair).map fun set => (set, true)
  | none =>
    match splitAtMark? [':'] text with
    | some pair => (ofKind pair).map fun set => (set, false)
    | none =>
      match splitAtMark? ['='] text with
      | some pair => (ofKind pair).map fun set => (set, false)
      | none => (property? (String.ofList text)).map fun set => (set, false)

/-- Reads the characters up to a closing brace. -/
def takeBraced : (fuel : Nat) → Reading → List Char → Option (List Char × Reading)
  | 0, _, _ => none
  | fuel + 1, r, text =>
    match r.rest with
    | '\x7d' :: rest => some (text, r.moveTo rest)
    | c :: rest => takeBraced fuel (r.past rest) (text ++ [c])
    | [] => none

/-- Reads a property behind the letter that announces it. Properties need Unicode. -/
def takeProperty (r : Reading) (negated : Bool) : Option (Element × Reading) := do
  if !r.flags.unicode then none
  else
    let ((set, others), r) ←
      match r.rest with
      | '\x7b' :: rest => do
        let (text, r) ← takeBraced (rest.length + 1) (r.past rest) []
        some (← propertySet? text, r)
      | c :: rest =>
        -- The letter of a property stands for itself and is never escaped.
        if c = '\\' then none
        else do some (← propertySet? [c], r.past rest)
      | [] => none
    -- Case is folded before the set is turned over.
    let set := foldSet r.flags set
    some (.set (if negated != others then set.complement else set), r)

/-- The set behind a class letter such as `d`. -/
def classOfLetter? (unicode : Bool) (c : Char) : Option CodeSet :=
  match c with
  | 'd' | 'D' => some (if unicode then decimalNumber else asciiDigit)
  | 's' | 'S' => some (if unicode then whiteSpace else asciiBlank)
  | 'w' | 'W' => some (if unicode then wordCharacter else asciiWord)
  | _ => none

/-- A letter or hyphen, of which names of word assertions are made. -/
def isAssertionChar (c : Char) : Bool := c.isAlpha || c = '-'

/-- Reads the name of a word assertion up to a closing brace. -/
def takeAssertionName : (fuel : Nat) → Reading → List Char → Option (List Char × Reading)
  | 0, _, _ => none
  | fuel + 1, r, name =>
    match r.rest with
    | '\x7d' :: rest => some (name, r.moveTo rest)
    | c :: rest =>
      if isAssertionChar c then takeAssertionName fuel (r.past rest) (name ++ [c]) else none
    | [] => none

/-- Reads what may follow `b` behind a backslash: a braced name makes it another assertion, unless
the braces hold a count. -/
def takeWordAssertion (r : Reading) : Option (Element × Reading) :=
  let ascii := !r.flags.unicode
  match r.rest with
  | '\x7b' :: rest =>
    let inside := r.past rest
    match inside.rest with
    | [] => none
    | c :: _ =>
      if !isAssertionChar c then some (.anchor (.wordBoundary ascii), r)
      else do
        let (name, r) ← takeAssertionName (rest.length + 1) inside []
        let anchor : Anchor ←
          match String.ofList name with
          | "start" => some (.wordStart ascii)
          | "end" => some (.wordEnd ascii)
          | "start-half" => some (.afterNoWord ascii)
          | "end-half" => some (.beforeNoWord ascii)
          | _ => none
        some (.anchor anchor, r)
  | _ => some (.anchor (.wordBoundary ascii), r)

/-- Reads an escape behind its backslash. -/
def takeEscape (r : Reading) : Option (Element × Reading) :=
  match r.rest with
  | [] => none
  | c :: rest =>
    let ascii := !r.flags.unicode
    let after := r.moveTo rest
    let char (n : Nat) : Option (Element × Reading) := some (.literal n false, after)
    -- There are no references back to what a group has matched.
    if c.isDigit then none
    else if c = 'x' then takeHex (r.past rest) 2
    else if c = 'u' then takeHex (r.past rest) 4
    else if c = 'U' then takeHex (r.past rest) 8
    else if c = 'p' then takeProperty (r.past rest) false
    else if c = 'P' then takeProperty (r.past rest) true
    else if isEscapable c then char c.toNat
    else
      match classOfLetter? r.flags.unicode c with
      | some set => some (.set (if c.isUpper then set.complement else set), after)
      | none =>
        match c with
        | 'a' => char 7
        | 'f' => char 12
        | 't' => char 9
        | 'n' => char 10
        | 'r' => char 13
        | 'v' => char 11
        | 'A' => some (.anchor .textStart, after)
        | 'z' => some (.anchor .textEnd, after)
        | 'b' => takeWordAssertion after
        | 'B' => some (.anchor (.insideOrOutsideWord ascii), after)
        | '<' => some (.anchor (.wordStart ascii), after)
        | '>' => some (.anchor (.wordEnd ascii), after)
        | _ => none

end RouterConfig.Pattern
