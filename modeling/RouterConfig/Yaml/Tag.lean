import RouterConfig.Text.Numerals
import RouterConfig.Yaml.Cursor

/-!
# RouterConfig — YAML tags and directives

A tag names the type of a node. It is written with a handle, which stands for the start of the name,
or whole between angle brackets. Directives before a document explain further handles.
-/

namespace RouterConfig.Yaml

/-- The name of a tag in bytes; its escapes need not spell a text. -/
structure Tag where
  bytes : List UInt8
  deriving DecidableEq

/-- A tag as written: a handle, unless the rest is the whole name, and the rest. -/
structure TagText where
  handle? : Option String
  rest : Tag
  deriving DecidableEq

/-- A handle and the start of the names that it stands for. -/
structure Handle where
  name : String
  start : Tag
  deriving DecidableEq

/-- What a line that starts with a percent sign says. -/
inductive Directive where
  | version (major minor : Nat)
  | handle (h : Handle)
  deriving DecidableEq

namespace Tag

/-- The tag with the name `text`. -/
def ofText (text : String) : Tag := ⟨text.toUTF8.toList⟩

/-- The tag as far as it counts: a zero byte ends a name. -/
def cut (t : Tag) : Tag := ⟨t.bytes.takeWhile (· ≠ 0)⟩

/-- The tag that continues `t` with `u`. -/
def append (t u : Tag) : Tag := ⟨t.bytes ++ u.bytes⟩

/-- The tag that stands for none. -/
def bare : Tag := ofText "!"

/-- Whether the tag is of the application's own making. -/
def isLocal (t : Tag) : Bool := t.bytes.head? = some 0x21

/-- The name of a tag of the application's own making, without its mark if there is more of it. -/
def localName? (t : Tag) : Option String :=
  match t.bytes with
  | 0x21 :: rest =>
    let name := if rest.isEmpty then t.bytes else rest
    String.fromUTF8? ⟨name.toArray⟩
  | _ => none

end Tag

/-- What the names of standard types start with. -/
def standardStart : String := "tag:yaml.org,2002:"

/-- The tag of a standard type. -/
def standardTag (name : String) : Tag := (Tag.ofText standardStart).append (Tag.ofText name)

/-- The handles that need no directive. -/
def standardHandles : List Handle :=
  [⟨"!", Tag.bare⟩, ⟨"!!", Tag.ofText standardStart⟩]

/-- The tag that a written one stands for, where its handle is known. -/
def TagText.tag? (t : TagText) (handles : List Handle) : Option Tag :=
  match t.handle? with
  | none => some t.rest
  | some name => (handles.find? fun h => h.name = name).map fun h => h.start.append t.rest

/-! ## Names -/

/-- A character of the name of a tag. Commas and brackets, which mean something in flow
collections, are such only where nothing else can follow. -/
def isTagChar (closed : Bool) (c : Char) : Bool :=
  isWordChar c || ";/?:@&=+$.%!~*'()".toList.contains c || (closed && ",[]".toList.contains c)

/-- Reads the octet that an escape stands for. -/
def takeOctet? (c : Cursor) : Option (Nat × Cursor) :=
  match c.rest with
  | '%' :: high :: low :: _ => (hexNumber? [high, low]).map fun n => (n, c.skip 3)
  | _ => none

/-- Reads the escapes of the octets behind the first one of a character. -/
def takeTrailing? : (count : Nat) → Cursor → Option (List UInt8 × Cursor)
  | 0, c => some ([], c)
  | count + 1, c => do
    let (octet, c) ← takeOctet? c
    if octet / 0x40 ≠ 2 then none
    else
      let (more, c) ← takeTrailing? count c
      some (octet.toUInt8 :: more, c)

/-- How many octets follow the first one of a character. -/
def trailingCount? (lead : Nat) : Option Nat :=
  if lead < 0x80 then some 0
  else if lead < 0xC0 then none
  else if lead < 0xE0 then some 1
  else if lead < 0xF0 then some 2
  else if lead < 0xF8 then some 3
  else none

/-- Reads the escapes of one character. -/
def takeEscapedBytes? (c : Cursor) : Option (List UInt8 × Cursor) := do
  let (lead, c) ← takeOctet? c
  let (more, c) ← takeTrailing? (← trailingCount? lead) c
  some (lead.toUInt8 :: more, c)

/-- Reads the characters of the name of a tag, none perhaps. -/
def takeTagName? (closed : Bool) :
    (fuel : Nat) → (name : List UInt8) → Cursor → Option (Tag × Cursor)
  | 0, name, c => some (⟨name⟩, c)
  | fuel + 1, name, c =>
    match c.peek 0 with
    | none => some (⟨name⟩, c)
    | some ch =>
      if !isTagChar closed ch then some (⟨name⟩, c)
      else if ch = '%' then do
        let (bytes, c) ← takeEscapedBytes? c
        takeTagName? closed fuel (name ++ bytes) c
      else takeTagName? closed fuel (name ++ [ch.toNat.toUInt8]) c.next

/-- Reads the name of a tag of one character at least. -/
def takeNonemptyName? (closed : Bool) (c : Cursor) : Option (Tag × Cursor) := do
  let (name, after) ← takeTagName? closed c.rest.length [] c
  if after.index = c.index then none else some (name.cut, after)

/-- Reads a tag, whose first mark is at the cursor. -/
def takeTagText? (c : Cursor) : Option (TagText × Cursor) :=
  if c.startsAt 1 '<' then do
    let (name, c) ← takeNonemptyName? true (c.skip 2)
    if c.startsAt 0 '>' then some (⟨none, name⟩, c.next) else none
  else
    let word := (c.rest.drop 1).takeWhile isWordChar
    let after := c.skip (word.length + 1)
    if after.startsAt 0 '!' then do
      let (rest, c) ← takeNonemptyName? false after.next
      some (⟨some (String.ofList ('!' :: word ++ ['!'])), rest⟩, c)
    else do
      -- Without a second mark, the word is the start of the name.
      let (rest, c) ← takeTagName? false after.rest.length [] after
      let name := ((Tag.ofText (String.ofList word)).append rest).cut
      if name.bytes.isEmpty then some (⟨none, Tag.bare⟩, c) else some (⟨some "!", name⟩, c)

/-! ## Directives -/

/-- Reads a number of at most nine digits. -/
def takeVersionNumber? (c : Cursor) : Option (Nat × Cursor) :=
  let digits := c.rest.takeWhile Char.isDigit
  if digits.length ≤ 9 then
    (digitsNumber? 10 digits).map fun n => (n, c.skip digits.length)
  else none

/-- Reads a version of YAML. -/
def takeVersion? (c : Cursor) : Option (Directive × Cursor) := do
  let (major, c) ← takeVersionNumber? c
  if c.startsAt 0 '.' then
    let (minor, c) ← takeVersionNumber? c.next
    some (.version major minor, c)
  else none

/-- Reads a handle and the start of names that it stands for. -/
def takeHandle? (c : Cursor) : Option (Directive × Cursor) := do
  if !c.startsAt 0 '!' then none
  else
    let word := (c.rest.drop 1).takeWhile isWordChar
    let after := c.skip (word.length + 1)
    let (mark, after) := if after.startsAt 0 '!' then (['!'], after.next) else ([], after)
    -- A word must stand between two marks.
    if (mark.isEmpty && !word.isEmpty) || !after.gapAt 0 then none
    else
      let (start, c) ← takeNonemptyName? true (after.skipWhile isGap)
      if c.wordEndAt 0 then some (.handle ⟨String.ofList ('!' :: word ++ mark), start⟩, c) else none

/-- Reads a directive, whose percent sign is at the cursor, and the rest of its line. -/
def takeDirectiveText? (c : Cursor) : Option (Directive × Cursor) := do
  let name := (c.rest.drop 1).takeWhile isWordChar
  let after := c.skip (name.length + 1)
  if !after.wordEndAt 0 then none
  else
    let (directive, c) ←
      match String.ofList name with
      | "YAML" => takeVersion? (after.skipWhile isGap)
      | "TAG" => takeHandle? (after.skipWhile isGap)
      | _ => none
    let c := (c.skipWhile isGap).skipComment
    if c.lineEndAt 0 then some (directive, c.skipBreak) else none

/-- Whether a text of a version can be read. -/
def Directive.known : Directive → Bool
  | version major minor => major = 1 && (minor = 1 || minor = 2)
  | handle _ => true

end RouterConfig.Yaml
