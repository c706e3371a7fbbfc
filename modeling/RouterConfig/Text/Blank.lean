/-!
# RouterConfig — blank characters

Words of paths and command lines are separated by the characters with the Unicode property
White_Space. Main results:

* `isBlank_space` — the space that joins words is blank;
* `not_isBlank_of_isQuote` — no quote character is blank.
-/

namespace RouterConfig

/-- The code points with the property White_Space, as closed ranges. -/
def blankRanges : List (Nat × Nat) :=
  [(0x09, 0x0D), (0x20, 0x20), (0x85, 0x85), (0xA0, 0xA0), (0x1680, 0x1680), (0x2000, 0x200A),
   (0x2028, 0x2029), (0x202F, 0x202F), (0x205F, 0x205F), (0x3000, 0x3000)]

/-- A character that separates words. -/
def isBlank (c : Char) : Bool :=
  blankRanges.any fun (lo, hi) => lo ≤ c.toNat && c.toNat ≤ hi

/-- A character that can open a quoted run. -/
def isQuote (c : Char) : Bool := c = '\'' || c = '"'

theorem isBlank_space : isBlank ' ' = true := by decide

theorem not_isBlank_of_isQuote {c : Char} (h : isQuote c = true) : isBlank c = false := by
  simp only [isQuote, Bool.or_eq_true, decide_eq_true_eq] at h
  rcases h with rfl | rfl <;> decide

end RouterConfig
