/-!
# RouterConfig — places in a YAML text

A cursor is what is left of a text with the line and column it starts at. Indentation and the reach
of a simple key are counted with it.
-/

namespace RouterConfig.Yaml

/-- A place in a text and the text from there on. -/
structure Cursor where
  rest : List Char
  /-- Bytes before the place. -/
  index : Nat
  line : Nat
  column : Nat

/-- A character that ends a line. -/
def isBreak (c : Char) : Bool :=
  c = '\n' || c = '\r' || c.toNat = 0x85 || c.toNat = 0x2028 || c.toNat = 0x2029

/-- A space or a tab. -/
def isGap (c : Char) : Bool := c = ' ' || c = '\t'

/-- A character of the names of anchors, tag handles and directives. -/
def isWordChar (c : Char) : Bool := c.isAlphanum || c = '_' || c = '-'

/-- The mark that may start a line without being part of it. -/
def isOrderMark (c : Char) : Bool := c.toNat = 0xFEFF

/-- A character that may stand in a YAML text. -/
def isPrintable (c : Char) : Bool :=
  let n := c.toNat
  n = 0x09 || n = 0x0A || n = 0x0D || (0x20 ≤ n && n ≤ 0x7E) || n = 0x85 ||
    (0xA0 ≤ n && n ≤ 0xD7FF) || (0xE000 ≤ n && n ≤ 0xFFFD) || 0x10000 ≤ n

namespace Cursor

/-- The start of a text. -/
def ofText (text : List Char) : Cursor := ⟨text, 0, 0, 0⟩

/-- The character `k` places on. -/
def peek (c : Cursor) (k : Nat) : Option Char := c.rest[k]?

/-- Whether the character `k` places on is `ch`. -/
def startsAt (c : Cursor) (k : Nat) (ch : Char) : Bool := c.peek k = some ch

/-- Whether a space or tab stands `k` places on. -/
def gapAt (c : Cursor) (k : Nat) : Bool := (c.peek k).any isGap

/-- Whether a line ends `k` places on. -/
def breakAt (c : Cursor) (k : Nat) : Bool := (c.peek k).any isBreak

/-- Whether a line or the text ends `k` places on. -/
def lineEndAt (c : Cursor) (k : Nat) : Bool := (c.peek k).all isBreak

/-- Whether a word ends `k` places on: at a space, a tab, or the end of the line or text. -/
def wordEndAt (c : Cursor) (k : Nat) : Bool := c.gapAt k || c.lineEndAt k

/-- How many bytes some characters take. -/
def byteCount (cs : List Char) : Nat := cs.foldl (fun count c => count + c.utf8Size) 0

/-- `k` characters further on the same line. -/
def skip (c : Cursor) (k : Nat) : Cursor :=
  let skipped := c.rest.take k
  ⟨c.rest.drop k, c.index + byteCount skipped, c.line, c.column + skipped.length⟩

/-- Behind the character at the cursor, which ends no line. -/
def next (c : Cursor) : Cursor := c.skip 1

/-- Behind the characters that `p` accepts, all on this line. -/
def skipWhile (c : Cursor) (p : Char → Bool) : Cursor :=
  c.skip (c.rest.takeWhile p).length

/-- Behind a comment at the cursor, at the end of its line. -/
def skipComment (c : Cursor) : Cursor :=
  if c.startsAt 0 '#' then c.skipWhile (fun ch => !isBreak ch) else c

/-- The line break at the cursor, as it stands in the text of a scalar, and the next line. -/
def takeBreak? (c : Cursor) : Option (Char × Cursor) :=
  match c.rest with
  | '\r' :: '\n' :: rest => some ('\n', ⟨rest, c.index + 2, c.line + 1, 0⟩)
  | ch :: rest =>
    if isBreak ch then
      let kept := if ch.toNat = 0x2028 ∨ ch.toNat = 0x2029 then ch else '\n'
      some (kept, ⟨rest, c.index + ch.utf8Size, c.line + 1, 0⟩)
    else none
  | [] => none

/-- Behind the line break at the cursor, if there is one. -/
def skipBreak (c : Cursor) : Cursor :=
  match c.takeBreak? with
  | some (_, next) => next
  | none => c

/-- Whether three times `ch` stand at the start of a line as a word of their own. -/
def documentMark (c : Cursor) (ch : Char) : Bool :=
  c.column = 0 && c.startsAt 0 ch && c.startsAt 1 ch && c.startsAt 2 ch && c.wordEndAt 3

/-- Whether a document starts or ends at this line. -/
def atDocumentMark (c : Cursor) : Bool := c.documentMark '-' || c.documentMark '.'

end Cursor

end RouterConfig.Yaml
