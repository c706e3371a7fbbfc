/-!
# RouterConfig — numbers of double precision

A finite number of double precision is `± significand · 2 ^ exponent`. This module reads one from a
decimal, rounding to the nearest, and finds the shortest decimal that reads back as it. All of it is
exact arithmetic on natural numbers. Main results:

* `roundQuotient_near` — rounding moves a quotient by half a unit at most.
-/

namespace RouterConfig

/-- A finite number of double precision: `significand < 2 ^ 53` and `-1074 ≤ exponent ≤ 971`. -/
structure Double where
  negative : Bool
  significand : Nat
  exponent : Int
  deriving DecidableEq

/-- The whole number nearest to `numerator / denominator`; of two equally near the even one. -/
def roundQuotient (numerator denominator : Nat) : Nat :=
  let whole := numerator / denominator
  let doubled := 2 * (numerator % denominator)
  if doubled < denominator then whole
  else if denominator < doubled then whole + 1
  else if whole % 2 = 0 then whole else whole + 1

/-- The nearest whole number is at most half a unit away. -/
theorem roundQuotient_near (n d : Nat) (hd : 0 < d) :
    2 * n ≤ 2 * (roundQuotient n d * d) + d ∧ 2 * (roundQuotient n d * d) ≤ 2 * n + d := by
  have hn : d * (n / d) + n % d = n := Nat.div_add_mod n d
  have hr : n % d < d := Nat.mod_lt n hd
  have hup : (n / d + 1) * d = d * (n / d) + d := by rw [Nat.add_mul, Nat.one_mul, Nat.mul_comm]
  have hdown : n / d * d = d * (n / d) := Nat.mul_comm _ _
  simp only [roundQuotient]
  repeat' split
  all_goals simp only [hup, hdown]; omega

/-- The fraction `numerator / denominator · base ^ power` as a pair. -/
def scaleFraction (base : Nat) (power : Int) (numerator denominator : Nat) : Nat × Nat :=
  if 0 ≤ power then (numerator * base.pow power.toNat, denominator)
  else (numerator, denominator * base.pow (-power).toNat)

namespace Double

/-- Least exponent of a number of double precision. -/
def minExponent : Int := -1074

/-- Greatest exponent of a number of double precision. -/
def maxExponent : Int := 971

/-- The number nearest to `numerator / denominator`, of two equally near the one with an even
significand; nothing if it lies beyond the greatest. -/
def ofFraction? (negative : Bool) (numerator denominator : Nat) : Option Double :=
  if numerator = 0 then some ⟨negative, 0, minExponent⟩
  else
    -- The fraction lies between `2 ^ (magnitude - 1)` and `2 ^ (magnitude + 1)`, so one of two
    -- exponents gives it a significand of 53 bits.
    let magnitude : Int := (numerator.log2 : Int) - (denominator.log2 : Int)
    let significandAt (exponent : Int) : Nat :=
      let (n, d) := scaleFraction 2 (-exponent) numerator denominator
      roundQuotient n d
    let fine := max (magnitude - 53) minExponent
    let (n, d) := scaleFraction 2 (-fine) numerator denominator
    let exponent := if n / d < Nat.pow 2 53 then fine else fine + 1
    let significand := significandAt exponent
    -- Rounding up may carry into a bit more.
    let (significand, exponent) :=
      if significand = Nat.pow 2 53 then (Nat.pow 2 52, exponent + 1) else (significand, exponent)
    if exponent ≤ maxExponent then some ⟨negative, significand, exponent⟩ else none

/-- The number nearest to `digits · 10 ^ power`; nothing if it lies beyond the greatest. -/
def ofDecimal? (negative : Bool) (digits : Nat) (power : Int) : Option Double :=
  let magnitude : Int := power + (Nat.toDigits 10 digits).length
  -- The bounds keep the powers of ten small; whatever lies beyond them is zero or too great.
  if digits = 0 ∨ magnitude < -400 then some ⟨negative, 0, minExponent⟩
  else if 400 < magnitude then none
  else
    let (n, d) := scaleFraction 10 power digits 1
    ofFraction? negative n d

/-! ## The shortest decimal -/

/-- The bounds between which decimals read back as `x`, in units of `2 ^ (exponent - 2)`. Below a
power of two the numbers lie closer together. -/
def readBackBounds (x : Double) : Nat × Nat :=
  let lower :=
    if x.significand = Nat.pow 2 52 ∧ minExponent < x.exponent then 4 * x.significand - 1
    else 4 * x.significand - 2
  (lower, 4 * x.significand + 2)

/-- Whether `digits · 10 ^ power` reads back as `x`: the bounds themselves do iff the significand is
even. -/
def readsBack (x : Double) (digits : Nat) (power : Int) : Bool :=
  let (n, d) := scaleFraction 10 power digits 1
  let (n, d) := scaleFraction 2 (2 - x.exponent) n d
  let (lower, upper) := x.readBackBounds
  if x.significand % 2 = 0 then lower * d ≤ n && n ≤ upper * d
  else lower * d < n && n < upper * d

/-- The decimals on the grid of multiples of `10 ^ power` next to `x` that read back as it, the
nearest one. -/
def onGrid? (x : Double) (power : Int) : Option Nat :=
  let (n, d) := scaleFraction 10 (-power) x.significand 1
  let (n, d) := scaleFraction 2 x.exponent n d
  let below := n / d
  let nearest := roundQuotient n d
  let other := if nearest = below then below + 1 else below
  if nearest ≠ 0 ∧ x.readsBack nearest power then some nearest
  else if other ≠ 0 ∧ x.readsBack other power then some other
  else none

/-- The first grid that holds a decimal for `x`, from the coarsest of `steps` grids on. -/
def firstOnGrid (x : Double) : (steps : Nat) → Nat × Int
  | 0 => (x.significand, 0)
  | steps + 1 =>
    -- From `10 ^ 314` down to `10 ^ (-345)`, finer than the least number needs.
    let power : Int := (steps : Int) - 345
    match x.onGrid? power with
    | some digits => (digits, power)
    | none => firstOnGrid x steps

/-- The decimal `digits · 10 ^ power` with the fewest digits that reads back as `x`, the nearest of
them. The coarsest grid of decimals that has one gives the fewest digits. -/
def shortest (x : Double) : Nat × Int :=
  if x.significand = 0 then (0, 0) else x.firstOnGrid 660

end Double

end RouterConfig
