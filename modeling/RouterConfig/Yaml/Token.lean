import RouterConfig.Yaml.ScalarText
import RouterConfig.Yaml.Tag

/-!
# RouterConfig — YAML tokens

Cuts a text into tokens. Block structure is found from the indentation: a deeper entry opens a
collection, a shallower one closes all collections that are deeper. Whether a node is a key shows
only at the `:` behind it, so each place at which a key may start is remembered until it is settled,
and the key token goes in front of what was read since.
-/

namespace RouterConfig.Yaml

/-- How a scalar is written. -/
inductive Style where
  | plain
  | quoted
  | literal
  | folded
  deriving DecidableEq

/-- A token of a YAML text. -/
inductive Token where
  | directive (d : Directive)
  | documentStart
  | documentEnd
  | blockSequenceStart
  | blockMappingStart
  | blockEnd
  | flowSequenceStart
  | flowSequenceEnd
  | flowMappingStart
  | flowMappingEnd
  | blockEntry
  | flowEntry
  | key
  | value
  | alias (name : String)
  | anchor (name : String)
  | tag (t : TagText)
  | scalar (text : String) (style : Style)
  deriving DecidableEq

/-- A place at which a simple key may have started. -/
structure KeyStart where
  /-- Whether the text is wrong unless this is a key. -/
  required : Bool
  /-- Tokens read before it. -/
  before : Nat
  index : Nat
  line : Nat
  column : Nat

/-- How far the tokens of a text have been read. -/
structure Scan where
  cursor : Cursor
  /-- The tokens read so far, the last one first. -/
  read : List Token := []
  /-- Number of tokens read so far. -/
  count : Nat := 0
  /-- The column of the innermost block collection, `-1` outside all of them. -/
  indent : Int := -1
  /-- The columns of the collections around it. -/
  outer : List Int := []
  /-- How many flow collections are open. -/
  flow : Nat := 0
  /-- Whether a simple key may start here. -/
  keyAllowed : Bool := true
  /-- Where a key may have started, in the innermost flow collection and in each one around it. -/
  keyStarts : List (Option KeyStart) := [none]

namespace Scan

/-- Appends a token. -/
def emit (s : Scan) (t : Token) : Scan := { s with read := t :: s.read, count := s.count + 1 }

/-- Puts a token behind the first `before` ones. -/
def insertAt (s : Scan) (before : Nat) (t : Token) : Scan :=
  let late := s.count - before
  { s with read := s.read.take late ++ t :: s.read.drop late, count := s.count + 1 }

/-- Moves the cursor. -/
def moveTo (s : Scan) (c : Cursor) : Scan := { s with cursor := c }

/-- Says whether a simple key may start next. -/
def allowKey (s : Scan) (allowed : Bool) : Scan := { s with keyAllowed := allowed }

/-- Where the key of the innermost collection may have started. -/
def keyStart? (s : Scan) : Option KeyStart := s.keyStarts.head?.join

/-- Sets that place. -/
def setKeyStart (s : Scan) (k : Option KeyStart) : Scan :=
  { s with keyStarts := k :: s.keyStarts.drop 1 }

/-- Gives a possible key up; a required one cannot be given up. -/
def dropKeyStart? (s : Scan) : Option Scan :=
  match s.keyStart? with
  | some k => if k.required then none else some (s.setKeyStart none)
  | none => some s

/-- Remembers that a key may start at the cursor. -/
def saveKeyStart? (s : Scan) : Option Scan :=
  if s.keyAllowed then do
    let s ← s.dropKeyStart?
    -- Where the next entry of a block collection must start, only a key can stand.
    let required := s.flow = 0 && s.indent = (s.cursor.column : Int)
    some (s.setKeyStart (some ⟨required, s.count, s.cursor.index, s.cursor.line, s.cursor.column⟩))
  else some s

/-- Closes the block collections that stand deeper than `column`, given the columns around the
innermost one. -/
def unrollTo (column : Int) : (outer : List Int) → Scan → Scan
  | [], s => s
  | next :: outer, s =>
    if column < s.indent then
      unrollTo column outer { s.emit .blockEnd with indent := next, outer := outer }
    else s

/-- Closes the block collections that stand deeper than `column`. Indentation has no meaning inside
flow collections. -/
def unroll (s : Scan) (column : Int) : Scan := if s.flow = 0 then unrollTo column s.outer s else s

/-- Opens a block collection at `column`, unless the innermost one stands there already; its token
goes behind the first `before` ones. -/
def roll (s : Scan) (column : Int) (before : Nat) (t : Token) : Scan :=
  if s.flow = 0 && s.indent < column then
    { s.insertAt before t with indent := column, outer := s.indent :: s.outer }
  else s

/-- Goes to the next token: over spaces, comments and line ends. Tabs count as spaces only where no
key may start. -/
def skipSpace (fuel : Nat) (s : Scan) : Scan :=
  match fuel with
  | 0 => s
  | fuel + 1 =>
    let c := s.cursor
    let c := if c.column = 0 && (c.peek 0).any isOrderMark then c.next else c
    -- In front of a key a tab would be indentation.
    let tabs := s.flow ≠ 0 || !s.keyAllowed
    let c := (c.skipWhile fun ch => ch = ' ' || (tabs && ch = '\t')).skipComment
    match c.takeBreak? with
    | some (_, next) =>
      -- A new line of block style may start a key.
      skipSpace fuel { s with cursor := next, keyAllowed := s.keyAllowed || s.flow = 0 }
    | none => s.moveTo c

/-! ## One kind of token each -/

/-- A directive line. -/
def takeDirective? (s : Scan) : Option Scan := do
  let s ← (s.unroll (-1)).dropKeyStart?
  let (directive, c) ← takeDirectiveText? s.cursor
  some (((s.allowKey false).emit (.directive directive)).moveTo c)

/-- A line that starts or ends a document. -/
def takeDocumentMark? (s : Scan) (t : Token) : Option Scan := do
  let s ← (s.unroll (-1)).dropKeyStart?
  some (((s.allowKey false).emit t).moveTo (s.cursor.skip 3))

/-- The bracket that opens a flow collection. -/
def takeFlowStart? (s : Scan) (t : Token) : Option Scan := do
  let s ← s.saveKeyStart?
  -- Inside, keys are looked for anew; the place outside waits.
  let s := { s with flow := s.flow + 1, keyStarts := none :: s.keyStarts, keyAllowed := true }
  some ((s.emit t).moveTo s.cursor.next)

/-- The bracket that closes a flow collection. -/
def takeFlowEnd? (s : Scan) (t : Token) : Option Scan := do
  let s ← s.dropKeyStart?
  -- A bracket too many is left to the reader of nodes to refuse.
  let s := if s.flow = 0 then s else { s with flow := s.flow - 1, keyStarts := s.keyStarts.drop 1 }
  some (((s.allowKey false).emit t).moveTo s.cursor.next)

/-- The comma of a flow collection. -/
def takeFlowEntry? (s : Scan) : Option Scan := do
  let s ← s.dropKeyStart?
  some (((s.allowKey true).emit .flowEntry).moveTo s.cursor.next)

/-- The dash of a block sequence. -/
def takeBlockEntry? (s : Scan) : Option Scan := do
  let s ←
    if s.flow = 0 then
      if s.keyAllowed then some (s.roll s.cursor.column s.count .blockSequenceStart) else none
    else some s
  let s ← s.dropKeyStart?
  some (((s.allowKey true).emit .blockEntry).moveTo s.cursor.next)

/-- The question mark of an explicit key. -/
def takeKey? (s : Scan) : Option Scan := do
  let s ←
    if s.flow = 0 then
      if s.keyAllowed then some (s.roll s.cursor.column s.count .blockMappingStart) else none
    else some s
  let s ← s.dropKeyStart?
  some (((s.allowKey (s.flow = 0)).emit .key).moveTo s.cursor.next)

/-- Whether the key that started at `k` may end at the cursor: on the same line, and near. -/
def reaches (s : Scan) (k : KeyStart) : Bool :=
  k.line = s.cursor.line && s.cursor.index ≤ k.index + 1024

/-- The colon before the value of the key that started at `k`. -/
def takeValueOf (s : Scan) (k : KeyStart) : Scan :=
  -- Both tokens go in front of the key, which has been read already.
  let s := (s.insertAt k.before .key).roll k.column k.before .blockMappingStart
  (((s.setKeyStart none).allowKey false).emit .value).moveTo s.cursor.next

/-- The colon before a value whose key, if there is one, was an explicit one. -/
def takeLoneValue? (s : Scan) : Option Scan := do
  let s ←
    if s.flow = 0 then
      if s.keyAllowed then some (s.roll s.cursor.column s.count .blockMappingStart) else none
    else some s
  some (((s.allowKey (s.flow = 0)).emit .value).moveTo s.cursor.next)

/-- The colon before a value. It settles that the place remembered last is a key. -/
def takeValue? (s : Scan) : Option Scan :=
  match s.keyStart? with
  | some k =>
    -- What was remembered is the key, was needed as one, or was none after all.
    if s.reaches k then some (s.takeValueOf k)
    else if k.required then none
    else (s.setKeyStart none).takeLoneValue?
  | none => s.takeLoneValue?

/-- The name of an anchor or alias behind its indicator. -/
def takeAnchor? (s : Scan) (t : String → Token) : Option Scan := do
  let s ← s.saveKeyStart?
  let name := (s.cursor.rest.drop 1).takeWhile isWordChar
  let c := s.cursor.skip (name.length + 1)
  let closed := c.wordEndAt 0 || (c.peek 0).any fun ch =>
    ch = '?' || ch = ':' || ch = ',' || ch = ']' || ch = '}' || ch = '%' || ch = '@' || ch = '\x60'
  if name.isEmpty || !closed then none
  else some (((s.allowKey false).emit (t (String.ofList name))).moveTo c)

/-- A tag. In a flow collection a comma may follow at once. -/
def takeTag? (s : Scan) : Option Scan := do
  let s ← s.saveKeyStart?
  let (tag, c) ← takeTagText? s.cursor
  if c.wordEndAt 0 || (s.flow ≠ 0 && c.startsAt 0 ',') then
    some (((s.allowKey false).emit (.tag tag)).moveTo c)
  else none

/-- A block scalar. -/
def takeBlockScalar? (s : Scan) (literal : Bool) : Option Scan := do
  let s ← s.dropKeyStart?
  let (text, c) ← takeBlock? literal s.indent s.cursor.next
  let style : Style := if literal then .literal else .folded
  some (((s.allowKey true).emit (.scalar (String.ofList text) style)).moveTo c)

/-- A quoted scalar. -/
def takeQuotedScalar? (s : Scan) (double : Bool) : Option Scan := do
  let s ← s.saveKeyStart?
  let c := s.cursor.next
  let (text, c) ← takeQuoted double (c.rest.length + 1) [] c
  some (((s.allowKey false).emit (.scalar (String.ofList text) .quoted)).moveTo c)

/-- A plain scalar. A line end behind it allows a key again. -/
def takePlainScalar? (s : Scan) : Option Scan := do
  let s ← s.saveKeyStart?
  let p ← takePlain (s.flow ≠ 0) (s.indent + 1) (s.cursor.rest.length + 1) [] {} s.cursor
  some (((s.allowKey p.brokeLine).emit (.scalar (String.ofList p.text) .plain)).moveTo p.after)

/-- A character with a meaning of its own at the start of a token. -/
def isIndicator (c : Char) : Bool :=
  "-?:,[]\x7b\x7d#&*!|>'\"%@\x60".toList.contains c

/-! ## All tokens -/

/-- Reads the token at the cursor, which stands on a character `ch`. -/
def takeToken? (s : Scan) (ch : Char) : Option Scan :=
  let c := s.cursor
  let inFlow := s.flow ≠ 0
  -- Marks that fill a whole line come first: they mean the same in every collection.
  if c.column = 0 && ch = '%' then s.takeDirective?
  else if c.documentMark '-' then s.takeDocumentMark? .documentStart
  else if c.documentMark '.' then s.takeDocumentMark? .documentEnd
  else if ch = '[' then s.takeFlowStart? .flowSequenceStart
  else if ch = '\x7b' then s.takeFlowStart? .flowMappingStart
  else if ch = ']' then s.takeFlowEnd? .flowSequenceEnd
  else if ch = '\x7d' then s.takeFlowEnd? .flowMappingEnd
  else if ch = ',' then s.takeFlowEntry?
  -- These need a space behind them, the last two not inside a flow collection.
  else if ch = '-' && c.wordEndAt 1 then s.takeBlockEntry?
  else if ch = '?' && (inFlow || c.wordEndAt 1) then s.takeKey?
  else if ch = ':' && (inFlow || c.wordEndAt 1) then s.takeValue?
  else if ch = '*' then s.takeAnchor? .alias
  else if ch = '&' then s.takeAnchor? .anchor
  else if ch = '!' then s.takeTag?
  else if ch = '|' && !inFlow then s.takeBlockScalar? true
  else if ch = '>' && !inFlow then s.takeBlockScalar? false
  else if ch = '\'' then s.takeQuotedScalar? false
  else if ch = '"' then s.takeQuotedScalar? true
  -- All that is left is plain, if no indicator stands there or one that has no meaning here.
  else if !(c.wordEndAt 0 || isIndicator ch) || (ch = '-' && !c.gapAt 1) ||
      (!inFlow && (ch = '?' || ch = ':') && !c.wordEndAt 1) then
    s.takePlainScalar?
  else none

/-- Reads all tokens that are left. -/
def run? : (fuel : Nat) → Scan → Option (List Token)
  | 0, _ => none
  | fuel + 1, s =>
    let s := s.skipSpace (s.cursor.rest.length + 1)
    match s.cursor.rest with
    | [] => do
      let s ← (s.unroll (-1)).dropKeyStart?
      some s.read.reverse
    | ch :: _ => do
      let s ← (s.unroll s.cursor.column).takeToken? ch
      run? fuel s

end Scan

/-- The tokens of a text. -/
def tokens? (text : String) : Option (List Token) :=
  let cs := text.toList
  if cs.all isPrintable then
    Scan.run? (cs.length + 1) { cursor := Cursor.ofText cs }
  else none

end RouterConfig.Yaml
