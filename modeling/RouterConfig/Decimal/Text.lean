import RouterConfig.Decimal.Rounding

/-!
# RouterConfig — decimals as text

How a number of double precision is written: the shortest decimal that reads back, positional while
the decimal point stands near the digits, with an exponent otherwise.
-/

namespace RouterConfig

/-- Decisions of a decimal notation: between which places the point is written out. -/
structure DecimalNotation where
  /-- The point stands at most this far right of the first digit in positional notation. -/
  pointAtMost : Int
  /-- The point stands further right than this in positional notation. -/
  pointAbove : Int

/-- The notation of default values: positional from five places left of the digits to sixteen places
right of the first. A whole number keeps `.0`; an exponent has no padding, and no plus sign. -/
def defaultNotation : DecimalNotation := ⟨16, -5⟩

/-- `count` zeros. -/
private def zeros (count : Int) : String := String.ofList (List.replicate count.toNat '0')

/-- A decimal `digits · 10 ^ power`, of a positive number, in the notation. -/
def DecimalNotation.write (style : DecimalNotation) (digits : Nat) (power : Int) : String :=
  let ds := Nat.toDigits 10 digits
  let count : Int := ds.length
  let point := count + power
  if 0 ≤ power ∧ point ≤ style.pointAtMost then String.ofList ds ++ zeros power ++ ".0"
  else if 0 < point ∧ point ≤ style.pointAtMost then
    String.ofList (ds.take point.toNat) ++ "." ++ String.ofList (ds.drop point.toNat)
  else if style.pointAbove < point ∧ point ≤ 0 then
    "0." ++ zeros (-point) ++ String.ofList ds
  else
    let fraction := ds.drop 1
    String.ofList (ds.take 1) ++ (if fraction.isEmpty then "" else "." ++ String.ofList fraction)
      ++ "e" ++ toString (point - 1)

/-- A number as the text of a default value. -/
def Double.text (x : Double) : String :=
  let sign := if x.negative then "-" else ""
  if x.significand = 0 then sign ++ "0.0"
  else
    let (digits, power) := x.shortest
    sign ++ defaultNotation.write digits power

end RouterConfig
