import RouterConfig.Text.Numerals
import RouterConfig.Yaml.Cursor

/-!
# RouterConfig — the text of YAML scalars

Reads plain, quoted and block scalars. Line breaks inside flow scalars fold: one break becomes a
space, further ones stay. Every reader yields nothing where the text breaks a rule.
-/

namespace RouterConfig.Yaml

/-- What separates two words of a flow scalar. -/
structure Spacing where
  /-- Spaces and tabs before the first line break. -/
  gap : List Char := []
  /-- Whether there was a line break, perhaps an escaped one. -/
  broken : Bool := false
  /-- The first line break, if it was not escaped. -/
  first : Option Char := none
  /-- The line breaks after the first. -/
  more : List Char := []

/-- What the spacing contributes to the scalar. -/
def Spacing.folded (s : Spacing) : List Char :=
  if s.broken then
    match s.first with
    -- A single newline folds to a space; with empty lines behind it, it is dropped.
    | some '\n' => if s.more.isEmpty then [' '] else s.more
    | some b => b :: s.more
    | none => s.more
  else s.gap

/-- Reads spaces, tabs and line breaks. Where `tabsFrom` is set, a tab that indents a continued line
to less than that column is refused. -/
def takeSpacing (tabsFrom : Option Int) :
    (fuel : Nat) → Spacing → Cursor → Option (Spacing × Cursor)
  | 0, s, c => some (s, c)
  | fuel + 1, s, c =>
    match c.takeBreak? with
    | some (b, next) =>
      let s :=
        if s.broken then { s with more := s.more ++ [b] }
        else { s with gap := [], broken := true, first := some b }
      takeSpacing tabsFrom fuel s next
    | none =>
      match c.peek 0 with
      | some ch =>
        if isGap ch then
          if s.broken && ch = '\t' && tabsFrom.any fun column => (c.column : Int) < column then none
          else
            -- Behind a break spaces are indentation and say nothing.
            let s := if s.broken then s else { s with gap := s.gap ++ [ch] }
            takeSpacing tabsFrom fuel s c.next
        else some (s, c)
      | none => some (s, c)

/-! ## Plain scalars -/

/-- A character that separates the parts of a flow collection. -/
def isFlowIndicator (c : Char) : Bool :=
  c = ',' || c = '[' || c = ']' || c = '{' || c = '}'

/-- Reads a run of a plain scalar up to a space, a line end or an indicator that ends it. -/
def takePlainRun (inFlow : Bool) : (fuel : Nat) → List Char → Cursor → Option (List Char × Cursor)
  | 0, run, c => some (run, c)
  | fuel + 1, run, c =>
    match c.peek 0 with
    | none => some (run, c)
    | some ch =>
      if c.wordEndAt 0 then some (run, c)
      -- In a flow collection it would be unclear whether this colon ends a key.
      else if inFlow && ch = ':' &&
          (c.peek 1).any (fun next => isFlowIndicator next || next = '?') then
        none
      else if (ch = ':' && c.wordEndAt 1) || (inFlow && isFlowIndicator ch) then some (run, c)
      else takePlainRun inFlow fuel (run ++ [ch]) c.next

/-- The text of a plain scalar, whether its line ended behind it, and the place after it. -/
structure PlainScalar where
  text : List Char
  brokeLine : Bool
  after : Cursor

/-- Reads a plain scalar whose further lines must be indented to the column `indent`. -/
def takePlain (inFlow : Bool) (indent : Int) :
    (fuel : Nat) → List Char → Spacing → Cursor → Option PlainScalar
  | 0, text, spacing, c => some ⟨text, spacing.broken, c⟩
  | fuel + 1, text, spacing, c =>
    if c.atDocumentMark || c.startsAt 0 '#' then some ⟨text, spacing.broken, c⟩
    else do
      let (run, c) ← takePlainRun inFlow c.rest.length [] c
      -- Spacing counts only once a run follows it.
      let text := if run.isEmpty then text else text ++ spacing.folded ++ run
      let broken := run.isEmpty && spacing.broken
      if !(c.gapAt 0 || c.breakAt 0) then some ⟨text, broken, c⟩
      else
        let start : Spacing := if run.isEmpty then spacing else {}
        let (spacing, c) ← takeSpacing (some indent) c.rest.length start c
        -- A line that stands less deep belongs to the collection around the scalar.
        if !inFlow && (c.column : Int) < indent then some ⟨text, spacing.broken, c⟩
        else takePlain inFlow indent fuel text spacing c

/-! ## Quoted scalars -/

/-- The character that an escape of one letter stands for. -/
def escapedChar? : Char → Option Char
  | '0' => some (Char.ofNat 0)
  | 'a' => some (Char.ofNat 7)
  | 'b' => some (Char.ofNat 8)
  | 't' | '\t' => some '\t'
  | 'n' => some '\n'
  | 'v' => some (Char.ofNat 11)
  | 'f' => some (Char.ofNat 12)
  | 'r' => some '\r'
  | 'e' => some (Char.ofNat 27)
  | ' ' => some ' '
  | '"' => some '"'
  | '/' => some '/'
  | '\\' => some '\\'
  | 'N' => some (Char.ofNat 0x85)
  | '_' => some (Char.ofNat 0xA0)
  | 'L' => some (Char.ofNat 0x2028)
  | 'P' => some (Char.ofNat 0x2029)
  | _ => none

/-- How many hexadecimal digits follow the letter of an escape. -/
def escapeWidth? : Char → Option Nat
  | 'x' => some 2
  | 'u' => some 4
  | 'U' => some 8
  | _ => none

/-- Reads an escape behind its backslash. -/
def takeEscape? (c : Cursor) : Option (Char × Cursor) := do
  let letter ← c.peek 0
  match escapeWidth? letter with
  | some width =>
    let digits := (c.rest.drop 1).take width
    if digits.length < width then none
    else
      let ch ← (hexNumber? digits).bind charOfNumber?
      some (ch, c.skip (width + 1))
  | none =>
    let ch ← escapedChar? letter
    some (ch, c.next)

/-- Reads a run of a quoted scalar up to a space, a line end or the closing quote; the last part
tells whether an escaped line break ended it. -/
def takeQuotedRun (double : Bool) :
    (fuel : Nat) → List Char → Cursor → Option (List Char × Bool × Cursor)
  | 0, run, c => some (run, false, c)
  | fuel + 1, run, c =>
    match c.peek 0 with
    | none => some (run, false, c)
    | some ch =>
      if c.wordEndAt 0 then some (run, false, c)
      -- Doubled, a single quote stands for itself.
      else if !double && ch = '\'' && c.startsAt 1 '\'' then
        takeQuotedRun double fuel (run ++ ['\'']) (c.skip 2)
      else if ch = (if double then '"' else '\'') then some (run, false, c)
      else if double && ch = '\\' then
        if c.breakAt 1 then some (run, true, c.next.skipBreak)
        else do
          let (escaped, c) ← takeEscape? c.next
          takeQuotedRun double fuel (run ++ [escaped]) c
      else takeQuotedRun double fuel (run ++ [ch]) c.next

/-- Reads a quoted scalar behind its opening quote. -/
def takeQuoted (double : Bool) : (fuel : Nat) → List Char → Cursor → Option (List Char × Cursor)
  | 0, _, _ => none
  | fuel + 1, text, c =>
    -- A mark of a document may not stand inside quotes, and they must close.
    if c.atDocumentMark || c.rest.isEmpty then none
    else do
      let (run, escapedBreak, c) ← takeQuotedRun double c.rest.length [] c
      let text := text ++ run
      if c.startsAt 0 (if double then '"' else '\'') then some (text, c.next)
      else
        -- An escaped break joins two lines without a space.
        let start : Spacing := { broken := escapedBreak }
        let (spacing, c) ← takeSpacing none c.rest.length start c
        takeQuoted double fuel (text ++ spacing.folded) c

/-! ## Block scalars -/

/-- What is done with the line breaks at the end of a block scalar. -/
inductive Chomping where
  | strip
  | clip
  | keep
  deriving DecidableEq

/-- The header of a block scalar: an explicit indentation, if any, and the chomping. -/
structure BlockHeader where
  increment : Option Nat
  chomping : Chomping

/-- Reads a chomping indicator. -/
private def takeChomping? (c : Cursor) : Option (Chomping × Cursor) :=
  if c.startsAt 0 '+' then some (.keep, c.next)
  else if c.startsAt 0 '-' then some (.strip, c.next)
  else none

/-- Reads an indentation indicator. -/
private def takeIncrement? (c : Cursor) : Option (Option Nat × Cursor) :=
  match c.peek 0 with
  | some ch =>
    if ch = '0' then none
    else if ch.isDigit then some (some (ch.toNat - '0'.toNat), c.next)
    else some (none, c)
  | none => some (none, c)

/-- Reads the header of a block scalar, both indicators in either order, to the end of its line. -/
def takeBlockHeader? (c : Cursor) : Option (BlockHeader × Cursor) := do
  let (header, c) ←
    match takeChomping? c with
    | some (chomping, c) => do
      let (increment, c) ← takeIncrement? c
      some (BlockHeader.mk increment chomping, c)
    | none => do
      let (increment, c) ← takeIncrement? c
      match increment, takeChomping? c with
      | some _, some (chomping, c) => some (BlockHeader.mk increment chomping, c)
      | _, _ => some (BlockHeader.mk increment .clip, c)
  let c := (c.skipWhile isGap).skipComment
  if c.lineEndAt 0 then some (header, c.skipBreak) else none

/-- Reads empty lines, and the indentation of the line after them. With `indent = 0` the indentation
is still to be found; the greatest column reached is the third part of the answer. -/
def takeBlockBreaks (indent : Nat) :
    (fuel : Nat) → List Char → Nat → Cursor → Option (List Char × Nat × Cursor)
  | 0, breaks, deepest, c => some (breaks, deepest, c)
  | fuel + 1, breaks, deepest, c =>
    let spaces := (c.rest.takeWhile (· = ' ')).length
    -- Spaces beyond the known indentation belong to the text.
    let c := c.skip (if indent = 0 then spaces else min spaces (indent - c.column))
    let deepest := max deepest c.column
    if (indent = 0 || c.column < indent) && c.startsAt 0 '\t' then none
    else
      match c.takeBreak? with
      | some (b, next) => takeBlockBreaks indent fuel (breaks ++ [b]) deepest next
      | none => some (breaks, deepest, c)

/-- The parts of a block scalar read so far. -/
structure BlockText where
  text : List Char := []
  /-- The break that ended the last line. -/
  lastBreak : List Char := []
  /-- The breaks of empty lines behind it. -/
  emptyLines : List Char := []
  /-- Whether the last line started with a space or tab. -/
  indented : Bool := false

/-- Reads the lines of a block scalar that stand at the column `indent`. -/
def takeBlockLines (literal : Bool) (indent : Nat) :
    (fuel : Nat) → BlockText → Cursor → Option (BlockText × Cursor)
  | 0, b, c => some (b, c)
  | fuel + 1, b, c =>
    if c.column ≠ indent ∨ c.rest.isEmpty then some (b, c)
    else do
      let more := c.gapAt 0
      -- Folding spares lines that are indented further, and the breaks around them.
      let joined :=
        if !literal && b.lastBreak.head? = some '\n' && !b.indented && !more then
          if b.emptyLines.isEmpty then [' '] else []
        else b.lastBreak
      let line := c.rest.takeWhile fun ch => !isBreak ch
      let c := c.skip line.length
      let (lastBreak, c) :=
        match c.takeBreak? with
        | some (br, next) => ([br], next)
        | none => ([], c)
      let (emptyLines, _, c) ← takeBlockBreaks indent (c.rest.length + 1) [] 0 c
      takeBlockLines literal indent fuel
        ⟨b.text ++ joined ++ b.emptyLines ++ line, lastBreak, emptyLines, more⟩ c

/-- Reads a block scalar behind its indicator, in a collection indented to `parent`. -/
def takeBlock? (literal : Bool) (parent : Int) (c : Cursor) : Option (List Char × Cursor) := do
  let (header, c) ← takeBlockHeader? c
  -- Zero stands for an indentation that the first line with text decides.
  let given : Nat :=
    match header.increment with
    | some n => if 0 ≤ parent then parent.toNat + n else n
    | none => 0
  let (emptyLines, deepest, c) ← takeBlockBreaks given (c.rest.length + 1) [] 0 c
  let indent : Nat := if given = 0 then max (max deepest (parent + 1).toNat) 1 else given
  let (b, c) ← takeBlockLines literal indent (c.rest.length + 1) { emptyLines := emptyLines } c
  let tail :=
    match header.chomping with
    | .strip => []
    | .clip => b.lastBreak
    | .keep => b.lastBreak ++ b.emptyLines
  some (b.text ++ tail, c)

end RouterConfig.Yaml
