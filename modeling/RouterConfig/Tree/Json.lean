import RouterConfig.Tree.Basic

/-!
# RouterConfig — trees as JSON

A tree as JSON text in lines, each level indented by three spaces. Text values are written with the
short escapes of JSON where there are any, with four hexadecimal digits for the other control
characters, and with all other characters as they are.
-/

namespace RouterConfig

/-- A control character by its number. -/
def jsonNumberEscape (c : Char) : List Char :=
  ['\\', 'u', '0', '0', Nat.digitChar (c.toNat / 16), Nat.digitChar (c.toNat % 16)]

/-- A character inside a JSON text. -/
def jsonChar (c : Char) : List Char :=
  match c with
  | '"' => ['\\', '"']
  | '\\' => ['\\', '\\']
  | '\n' => ['\\', 'n']
  | '\r' => ['\\', 'r']
  | '\t' => ['\\', 't']
  | c =>
    if c.toNat = 0x08 then ['\\', 'b']
    else if c.toNat = 0x0C then ['\\', 'f']
    else if c.toNat < 0x20 then jsonNumberEscape c
    else [c]

/-- A text as JSON. -/
def jsonString (text : String) : String :=
  "\"" ++ String.ofList (text.toList.flatMap jsonChar) ++ "\""

/-- The start of a line at a depth. -/
def jsonNewline (depth : Nat) : String := "\n" ++ String.ofList (List.replicate (3 * depth) ' ')

/-- Items between brackets, one a line, or nothing between the brackets. -/
def jsonBracketed (opening closing : String) (depth : Nat) (items : List String) : String :=
  if items.isEmpty then opening ++ closing
  else
    opening ++ ",".intercalate (items.map fun item => jsonNewline (depth + 1) ++ item) ++
      jsonNewline depth ++ closing

namespace Tree

mutual

/-- The node as JSON, where its first line stands at `depth`. -/
def jsonAt (depth : Nat) : Tree → String
  | .scalar value => jsonString value
  | .list values => jsonBracketed "[" "]" depth (values.map jsonString)
  | .subtree children => jsonBracketed "\x7b" "\x7d" depth (jsonFields (depth + 1) children)

/-- The children as the fields of a JSON object. -/
def jsonFields (depth : Nat) : List (String × Tree) → List String
  | [] => []
  | (name, child) :: rest =>
    (jsonString name ++ ": " ++ child.jsonAt depth) :: jsonFields depth rest

end

/-- The tree as JSON. -/
def json (t : Tree) : String := t.jsonAt 0

end Tree

end RouterConfig
