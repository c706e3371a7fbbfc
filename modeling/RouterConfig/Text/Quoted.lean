import RouterConfig.Text.Blank

/-!
# RouterConfig — quoted values

A value that would not survive as one word of a command line is written between quotes, and read
back without them.
-/

namespace RouterConfig

/-- Drops one leading `q`, if there is one. -/
def dropLeading (q : Char) : List Char → List Char
  | [] => []
  | c :: rest => if c = q then rest else c :: rest

/-- Drops one trailing `q`, if there is one. -/
def dropTrailing (q : Char) (cs : List Char) : List Char :=
  if cs.getLast? = some q then cs.dropLast else cs

/-- What stands between a leading and a different trailing double quote. -/
def betweenDoubleQuotes? : List Char → Option (List Char)
  | '"' :: rest => if rest.getLast? = some '"' then some rest.dropLast else none
  | _ => none

/-- A value as typed, without its quotes (`unquote`): a pair of double quotes goes as a pair;
otherwise one single quote goes from each end, whether or not the other end has one. -/
def unquoteChars (cs : List Char) : List Char :=
  match betweenDoubleQuotes? cs with
  | some inner => inner
  | none => dropTrailing '\'' (dropLeading '\'' cs)

@[inherit_doc unquoteChars]
def unquote (value : String) : String := String.ofList (unquoteChars value.toList)

/-- Whether a value would be cut, vanish or lose a character as a bare word. -/
def needsQuotes (value : String) : Bool :=
  value.toList.isEmpty || value.toList.any fun c => isBlank c || isQuote c

/-- Whether a value holds both quote characters, so that no quoting reads back. -/
def holdsBothQuotes (value : String) : Bool :=
  value.toList.contains '\'' && value.toList.contains '"'

/-- A value as one word of a command line (`quote`): double quotes around a value with a single
quote, single quotes around any other that needs them. -/
def quote (value : String) : String :=
  if needsQuotes value then
    -- No value that was set has both quote characters: setting refuses them.
    if value.toList.contains '\'' then "\"" ++ value ++ "\"" else "'" ++ value ++ "'"
  else value

end RouterConfig
