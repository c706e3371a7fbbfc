import RouterConfig.Unicode.CodeSet

/-!
# RouterConfig — ASCII classes of patterns

The classes of ASCII characters that patterns name, and the sets behind class letters where a
pattern does without Unicode.
-/

namespace RouterConfig.Pattern

open RouterConfig.Unicode

/-- ASCII characters of words. -/
def asciiWord : CodeSet := .ofRanges [(0x30, 0x39), (0x41, 0x5A), (0x5F, 0x5F), (0x61, 0x7A)]

/-- ASCII blanks. -/
def asciiBlank : CodeSet := .ofRanges [(0x09, 0x0D), (0x20, 0x20)]

/-- ASCII digits. -/
def asciiDigit : CodeSet := .range 0x30 0x39

/-- The ASCII class that a bracket expression names. -/
def asciiClass? : (name : String) → Option CodeSet
  | "alnum" => some (.ofRanges [(0x30, 0x39), (0x41, 0x5A), (0x61, 0x7A)])
  | "alpha" => some (.ofRanges [(0x41, 0x5A), (0x61, 0x7A)])
  | "ascii" => some (.range 0 0x7F)
  | "blank" => some (.ofRanges [(0x09, 0x09), (0x20, 0x20)])
  | "cntrl" => some (.ofRanges [(0, 0x1F), (0x7F, 0x7F)])
  | "digit" => some asciiDigit
  | "graph" => some (.range 0x21 0x7E)
  | "lower" => some (.range 0x61 0x7A)
  | "print" => some (.range 0x20 0x7E)
  | "punct" => some (.ofRanges [(0x21, 0x2F), (0x3A, 0x40), (0x5B, 0x60), (0x7B, 0x7E)])
  | "space" => some asciiBlank
  | "upper" => some (.range 0x41 0x5A)
  | "word" => some asciiWord
  | "xdigit" => some (.ofRanges [(0x30, 0x39), (0x41, 0x46), (0x61, 0x66)])
  | _ => none

end RouterConfig.Pattern
