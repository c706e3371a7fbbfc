import RouterConfig.Decimal.Text
import RouterConfig.Yaml.Node

/-!
# RouterConfig — what YAML scalars stand for

A plain scalar stands for nothing, a truth value, a number or its own text; a quoted one always for
its text. A tag of a standard type demands that type, and a tag of the application's own making is
kept beside the value. Main results:

* `Scalar.same_comm` — it does not matter which of two scalars is compared with the other.
-/

namespace RouterConfig.Yaml

/-- What a scalar stands for. -/
inductive Scalar where
  | null
  | bool (value : Bool)
  | integer (value : Int)
  | real (value : Double)
  | infinity (negative : Bool)
  | notANumber
  | text (value : String)
  deriving DecidableEq

/-- Whether a plain text stands for nothing. -/
def isNull (text : String) : Bool :=
  text = "" || text = "~" || text = "null" || text = "Null" || text = "NULL"

/-- The truth value that a plain text stands for. -/
def bool? (text : String) : Option Bool :=
  if text = "true" || text = "True" || text = "TRUE" then some true
  else if text = "false" || text = "False" || text = "FALSE" then some false
  else none

/-! ## Numbers -/

/-- The number behind a base mark such as `0x`, or in decimal without one. -/
def markedNumber? : List Char → Option Nat
  | '0' :: 'x' :: digits => digitsNumber? 16 digits
  | '0' :: 'o' :: digits => digitsNumber? 8 digits
  | '0' :: 'b' :: digits => digitsNumber? 2 digits
  | digits => digitsNumber? 10 digits

/-- Whether a text is digits behind a leading zero, and so no number. -/
def zeroPadded (cs : List Char) : Bool :=
  let digits :=
    match cs with
    | '+' :: rest | '-' :: rest => rest
    | rest => rest
  match digits with
  | '0' :: c :: rest => (c :: rest).all Char.isDigit
  | _ => false

/-- The whole number that a plain text stands for, of any size. -/
def integer? (cs : List Char) : Option Int :=
  if zeroPadded cs then none
  else
    match cs with
    | '+' :: rest => (markedNumber? rest).map Int.ofNat
    | '-' :: rest => (markedNumber? rest).map fun n => -Int.ofNat n
    | rest => (markedNumber? rest).map Int.ofNat

/-- A decimal number as written: digits and a power of ten. -/
structure DecimalText where
  negative : Bool
  digits : Nat
  power : Int

/-- The exponent behind the digits of a decimal, zero if there is none. -/
def exponent? : List Char → Option Int
  | [] => some 0
  | e :: rest =>
    if e = 'e' || e = 'E' then
      match rest with
      | '-' :: digits => (digitsNumber? 10 digits).map fun n => -Int.ofNat n
      | '+' :: digits => (digitsNumber? 10 digits).map Int.ofNat
      | digits => (digitsNumber? 10 digits).map Int.ofNat
    else none

/-- Reads an unsigned decimal: digits, at most one point among or around them, and an exponent. -/
def decimal? (negative : Bool) (cs : List Char) : Option DecimalText :=
  let whole := cs.takeWhile Char.isDigit
  let rest := cs.dropWhile Char.isDigit
  let (fraction, rest) :=
    match rest with
    | '.' :: more => (more.takeWhile Char.isDigit, more.dropWhile Char.isDigit)
    | _ => ([], rest)
  (digitsNumber? 10 (whole ++ fraction)).bind fun digits =>
    (exponent? rest).map fun e => ⟨negative, digits, e - fraction.length⟩

/-- The finite number that a plain text stands for; none beyond the greatest of double precision. -/
def real? (cs : List Char) : Option Double :=
  let text :=
    match cs with
    | '+' :: rest => decimal? false rest
    | '-' :: rest => decimal? true rest
    | rest => decimal? false rest
  text.bind fun d => Double.ofDecimal? d.negative d.digits d.power

/-- The infinity or non-number that a plain text stands for. -/
def special? (text : String) : Option Scalar :=
  if [".inf", ".Inf", ".INF", "+.inf", "+.Inf", "+.INF"].contains text then some (.infinity false)
  else if ["-.inf", "-.Inf", "-.INF"].contains text then some (.infinity true)
  else if [".nan", ".NaN", ".NAN"].contains text then some .notANumber
  else none

/-- Whether a whole number fits into 64 bits, unsigned or with a sign. -/
def fitsWord (n : Int) : Bool := -(Int.pow 2 63) ≤ n && n < Int.pow 2 64

/-- Whether a whole number fits into 128 bits, unsigned or with a sign. -/
def fitsDoubleWord (n : Int) : Bool := -(Int.pow 2 127) ≤ n && n < Int.pow 2 128

/-- The number of double precision that a text stands for. -/
def double? (text : String) : Option Scalar :=
  (special? text).orElse fun _ => (real? text.toList).map .real

/-- The number or text that a plain text stands for which is not a whole number. -/
def realOrText (text : String) : Scalar :=
  if zeroPadded text.toList then .text text else (double? text).getD (.text text)

/-- What a plain text stands for. A whole number that needs more than 64 bits is refused, unless
even 128 bits do not hold it: then it is read as any other number. -/
def Scalar.ofPlain? (text : String) : Option Scalar :=
  if isNull text then some .null
  else
    match bool? text with
    | some b => some (.bool b)
    | none =>
      match integer? text.toList with
      | some n =>
        if fitsWord n then some (.integer n)
        -- Between 64 and 128 bits the reader takes the number, and a value has no place for it.
        else if fitsDoubleWord n then none
        else some (realOrText text)
      | none => some (realOrText text)

/-- The text of a scalar as a configuration value; nothing has none. -/
def Scalar.configText? : Scalar → Option String
  | null => none
  | bool value => some (if value then "true" else "false")
  | integer value => some (toString value)
  | real value => some value.text
  | infinity negative => some (if negative then "-.inf" else ".inf")
  | notANumber => some ".nan"
  | text value => some value

/-- Whether two scalars count as one key: zero has no sign there. -/
def Scalar.same : Scalar → Scalar → Bool
  | real x, real y => x = y || (x.significand = 0 && y.significand = 0)
  | a, b => a = b

theorem Scalar.same_comm (a b : Scalar) : a.same b = b.same a := by
  cases a <;> cases b <;> simp [Scalar.same, eq_comm, Bool.and_comm]

/-! ## Values -/

/-- What a node stands for. -/
inductive Value where
  | scalar (value : Scalar)
  | sequence (items : List Value)
  | mapping (entries : List (Value × Value))
  /-- A value under an application's own tag. -/
  | tagged (name : String) (value : Value)

mutual

/-- Whether two values count as one key. The order of the entries of a mapping means nothing. -/
def Value.same : Value → Value → Bool
  | .scalar a, .scalar b => a.same b
  | .sequence a, .sequence b => sameItems a b
  | .mapping a, .mapping b => a.length = b.length && entriesAmong a b
  | .tagged m a, .tagged n b => m = n && a.same b
  | _, _ => false

/-- Whether the items of two sequences count as the same. -/
def sameItems : List Value → List Value → Bool
  | [], [] => true
  | a :: as, b :: bs => a.same b && sameItems as bs
  | _, _ => false

/-- Whether each entry of one mapping is in the other. -/
def entriesAmong : List (Value × Value) → List (Value × Value) → Bool
  | [], _ => true
  | (key, value) :: rest, others =>
    (others.any fun other => key.same other.1 && value.same other.2) && entriesAmong rest others

end

/-- What the text of a scalar stands for, where no tag says it. -/
def untaggedScalar? (text : String) (style : Style) : Option Scalar :=
  if style = .plain then Scalar.ofPlain? text else some (.text text)

/-- What a scalar stands for under a tag that is none of the application's own. -/
def standardScalar? (text : String) (style : Style) (tag : Tag) : Option Scalar :=
  if tag = standardTag "bool" then (bool? text).map .bool
  else if tag = standardTag "int" then ((integer? text.toList).filter fitsWord).map .integer
  else if tag = standardTag "float" then double? text
  else if tag = standardTag "null" then
    if isNull text && text ≠ "" then some .null else none
  -- The name of such a tag is no text, so that it says nothing.
  else if tag.isLocal then untaggedScalar? text style
  else some (.text text)

/-- A value under the tag of its node. -/
def Value.underTag (value : Value) (tag? : Option Tag) : Value :=
  match tag?.bind Tag.localName? with
  | some name => .tagged name value
  | none => value

/-- What a scalar node stands for. -/
def scalarValue? (text : String) (style : Style) (tag? : Option Tag) : Option Value :=
  match tag?, tag?.bind Tag.localName? with
  | some tag, none => (standardScalar? text style tag).map .scalar
  | _, some name => (untaggedScalar? text style).map fun s => .tagged name (.scalar s)
  | none, none => (untaggedScalar? text style).map .scalar

mutual

/-- What a node stands for. A mapping that has a key twice is refused. -/
def Node.value? : Node → Option Value
  | .scalar text style tag? => scalarValue? text style tag?
  | .sequence items tag? =>
    (itemValues? items).map fun values => (Value.sequence values).underTag tag?
  | .mapping entries tag? =>
    (entryValues? entries []).map fun values => (Value.mapping values).underTag tag?

/-- What the items of a sequence stand for. -/
def itemValues? : List Node → Option (List Value)
  | [] => some []
  | item :: rest =>
    match item.value?, itemValues? rest with
    | some value, some values => some (value :: values)
    | _, _ => none

/-- What the entries of a mapping stand for, after those in `before`. -/
def entryValues? :
    List (Node × Node) → (before : List (Value × Value)) → Option (List (Value × Value))
  | [], before => some before
  | (key, value) :: rest, before =>
    match key.value?, value.value? with
    | some key, some value =>
      if before.any fun entry => key.same entry.1 then none
      else entryValues? rest (before ++ [(key, value)])
    | _, _ => none

end

end RouterConfig.Yaml
