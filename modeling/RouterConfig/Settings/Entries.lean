import RouterConfig.Text.Numerals
import RouterConfig.Text.Words

/-!
# RouterConfig — entries of a settings file

A settings file is TOML, of which settings need only the simplest part: lines with one key, an
equals sign and a text, a whole number or a truth value. A file with anything else in it is refused
as a whole.
-/

namespace RouterConfig.Toml

/-- A value. -/
inductive Value where
  | text (value : String)
  | number (value : Int)
  | flag (value : Bool)
  deriving DecidableEq

/-! ## Lines -/

/-- Whether a character may stand between the parts of a line. -/
def isSpace (c : Char) : Bool := c = ' ' || c = '\t'

/-- Whether a character may stand in a comment or a text: no control character but a tab. -/
def isPlain (c : Char) : Bool := c = '\t' || (0x20 ≤ c.toNat && c.toNat ≠ 0x7F)

/-- What follows a line end. -/
def lineEnd? : List Char → Option (List Char)
  | [] => some []
  | '\n' :: rest => some rest
  | '\r' :: '\n' :: rest => some rest
  | _ => none

/-- What follows the rest of a line that holds nothing but perhaps a comment. -/
def endOfLine? (cs : List Char) : Option (List Char) :=
  match cs.dropWhile isSpace with
  | '#' :: rest => lineEnd? (rest.dropWhile isPlain)
  | rest => lineEnd? rest

/-! ## Texts -/

/-- The character that a one-letter escape stands for. -/
def shortEscape? : Char → Option Char
  | 'b' => some '\x08'
  | 't' => some '\t'
  | 'n' => some '\n'
  | 'f' => some '\x0c'
  | 'r' => some '\r'
  | '"' => some '"'
  | '\\' => some '\\'
  | _ => none

/-- Puts a character in front of a text that has been read. -/
def consTo (c? : Option Char) (read? : Option (List Char × List Char)) :
    Option (List Char × List Char) :=
  match c?, read? with
  | some c, some (text, rest) => some (c :: text, rest)
  | _, _ => none

/-- The character with the number that hexadecimal digits stand for. -/
def escaped? (digits : List Char) : Option Char := (hexNumber? digits).bind charOfNumber?

/-- The text up to a double quote, with its escapes resolved, and what follows. -/
def basicText? : List Char → Option (List Char × List Char)
  | '"' :: rest => some ([], rest)
  | '\\' :: 'u' :: a :: b :: c :: d :: rest => consTo (escaped? [a, b, c, d]) (basicText? rest)
  | '\\' :: 'U' :: a :: b :: c :: d :: e :: f :: g :: h :: rest =>
    consTo (escaped? [a, b, c, d, e, f, g, h]) (basicText? rest)
  | '\\' :: c :: rest => consTo (shortEscape? c) (basicText? rest)
  | c :: rest => consTo (if isPlain c then some c else none) (basicText? rest)
  | [] => none

/-- The text up to a single quote, in which nothing is escaped, and what follows. -/
def literalText? (cs : List Char) : Option (List Char × List Char) :=
  match cs.dropWhile fun c => isPlain c && c ≠ '\'' with
  | '\'' :: rest => some (cs.takeWhile fun c => isPlain c && c ≠ '\'', rest)
  | _ => none

/-- The text up to three double quotes, of which up to two more before them are part, and what
follows. A line end is a line feed, and a backslash at the end of a line takes all blanks after it
away, which is what `folding` says. -/
def basicLines? : (folding : Bool) → List Char → Option (List Char × List Char)
  | true, ' ' :: rest => basicLines? true rest
  | true, '\t' :: rest => basicLines? true rest
  | true, '\n' :: rest => basicLines? true rest
  | true, '\r' :: '\n' :: rest => basicLines? true rest
  | _, '"' :: '"' :: '"' :: '"' :: '"' :: rest => some (['"', '"'], rest)
  | _, '"' :: '"' :: '"' :: '"' :: rest => some (['"'], rest)
  | _, '"' :: '"' :: '"' :: rest => some ([], rest)
  | _, '\r' :: '\n' :: rest => consTo (some '\n') (basicLines? false rest)
  | _, '\n' :: rest => consTo (some '\n') (basicLines? false rest)
  | _, '\\' :: 'u' :: a :: b :: c :: d :: rest =>
    consTo (escaped? [a, b, c, d]) (basicLines? false rest)
  | _, '\\' :: 'U' :: a :: b :: c :: d :: e :: f :: g :: h :: rest =>
    consTo (escaped? [a, b, c, d, e, f, g, h]) (basicLines? false rest)
  | _, '\\' :: c :: rest =>
    if (lineEnd? ((c :: rest).dropWhile isSpace)).isSome then basicLines? true (c :: rest)
    else consTo (shortEscape? c) (basicLines? false rest)
  | _, c :: rest => consTo (if isPlain c then some c else none) (basicLines? false rest)
  | _, [] => none

/-- The text up to three single quotes, of which up to two more before them are part, and what
follows. Nothing is escaped, and a line end is a line feed. -/
def literalLines? : List Char → Option (List Char × List Char)
  | '\'' :: '\'' :: '\'' :: '\'' :: '\'' :: rest => some (['\'', '\''], rest)
  | '\'' :: '\'' :: '\'' :: '\'' :: rest => some (['\''], rest)
  | '\'' :: '\'' :: '\'' :: rest => some ([], rest)
  | '\r' :: '\n' :: rest => consTo (some '\n') (literalLines? rest)
  | '\n' :: rest => consTo (some '\n') (literalLines? rest)
  | c :: rest => consTo (if isPlain c then some c else none) (literalLines? rest)
  | [] => none

/-- Without a line end right after the opening quotes. -/
def dropFirstLineEnd : List Char → List Char
  | '\n' :: rest => rest
  | '\r' :: '\n' :: rest => rest
  | rest => rest

/-! ## Values -/

/-- The number that digits stand for, between which single underscores may stand. -/
def groupedNumber? (base : Nat) (cs : List Char) : Option Nat :=
  let groups := cutAt (· = '_') cs
  -- An empty group is an underscore at an end, or two in a row.
  if groups.any List.isEmpty then none else digitsNumber? base groups.flatten

/-- A decimal number without a leading zero. -/
def decimalNumber? : List Char → Option Nat
  | ['0'] => some 0
  | '0' :: _ => none
  | cs => groupedNumber? 10 cs

/-- A whole number of 64 bits. Only a decimal number may have a sign. -/
def wholeNumber? (cs : List Char) : Option Int :=
  let number? :=
    match cs with
    | '0' :: 'x' :: digits => (groupedNumber? 16 digits).map Int.ofNat
    | '0' :: 'o' :: digits => (groupedNumber? 8 digits).map Int.ofNat
    | '0' :: 'b' :: digits => (groupedNumber? 2 digits).map Int.ofNat
    | '+' :: digits => (decimalNumber? digits).map Int.ofNat
    | '-' :: digits => (decimalNumber? digits).map fun n => -Int.ofNat n
    | digits => (decimalNumber? digits).map Int.ofNat
  number?.filter fun n => -(Int.pow 2 63) ≤ n && n < Int.pow 2 63

/-- The truth value or the number that a word stands for. -/
def wordValue? (word : List Char) : Option Value :=
  if word = ['t', 'r', 'u', 'e'] then some (.flag true)
  else if word = ['f', 'a', 'l', 's', 'e'] then some (.flag false)
  else (wholeNumber? word).map .number

/-- Whether a character can be part of a word. -/
def isWordPart (c : Char) : Bool := !isSpace c && c ≠ '#' && c ≠ '\r' && c ≠ '\n'

/-- A text value that has been read. -/
def textValue? (read? : Option (List Char × List Char)) : Option (Value × List Char) :=
  read?.map fun (text, rest) => (.text (String.ofList text), rest)

/-- The value at the front, and what follows. -/
def value? : List Char → Option (Value × List Char)
  | '"' :: '"' :: '"' :: rest => textValue? (basicLines? false (dropFirstLineEnd rest))
  | '"' :: rest => textValue? (basicText? rest)
  | '\'' :: '\'' :: '\'' :: rest => textValue? (literalLines? (dropFirstLineEnd rest))
  | '\'' :: rest => textValue? (literalText? rest)
  | cs => (wordValue? (cs.takeWhile isWordPart)).map (·, cs.dropWhile isWordPart)

/-! ## Entries -/

/-- Whether a character may stand in a key without quotes. -/
def isKeyPart (c : Char) : Bool := c.isAlphanum || c = '_' || c = '-'

/-- The key at the front, and what follows. -/
def key? : List Char → Option (List Char × List Char)
  | '"' :: rest => basicText? rest
  | '\'' :: rest => literalText? rest
  | cs =>
    match cs.takeWhile isKeyPart with
    | [] => none
    | key => some (key, cs.dropWhile isKeyPart)

/-- The entry at the front, up to the end of its line, and what follows. -/
def entry? (cs : List Char) : Option ((String × Value) × List Char) :=
  (key? cs).bind fun (key, rest) =>
    match rest.dropWhile isSpace with
    | '=' :: rest =>
      (value? (rest.dropWhile isSpace)).bind fun (value, rest) =>
        (endOfLine? rest).map fun rest => ((String.ofList key, value), rest)
    | _ => none

/-- The entries of a file, in their order. -/
def entries? (cs : List Char) : Option (List (String × Value)) :=
  match cs.dropWhile isSpace with
  | [] => some []
  | c :: line =>
    match endOfLine? (c :: line) with
    | some rest => if rest.length < cs.length then entries? rest else none
    | none =>
      match entry? (c :: line) with
      | some (entry, rest) =>
        if rest.length < cs.length then (entries? rest).map (entry :: ·) else none
      | none => none
termination_by cs.length

/-- The entries of a file, which may start with a byte order mark. -/
def ofText? (text : String) : Option (List (String × Value)) :=
  match text.toList with
  | '\ufeff' :: rest => entries? rest
  | cs => entries? cs

end RouterConfig.Toml
