import RouterConfig.Unicode.Letter
import RouterConfig.Unicode.Mark
import RouterConfig.Unicode.Number
import RouterConfig.Unicode.Punctuation
import RouterConfig.Unicode.Separator
import RouterConfig.Unicode.Symbol

/-!
# RouterConfig — general categories

Every character is of one general category. Categories of a kind form a larger one, and what is in
none of them is unassigned.
-/

namespace RouterConfig.Unicode

/-- Letters that have or show case. -/
def casedLetter : CodeSet := .unionOf [uppercaseLetter, lowercaseLetter, titlecaseLetter]

/-- Letters of every category. -/
def letter : CodeSet := .unionOf [casedLetter, modifierLetter, otherLetter]

/-- Marks of every category. -/
def mark : CodeSet := .unionOf [nonspacingMark, spacingMark, enclosingMark]

/-- Numbers of every category. -/
def number : CodeSet := .unionOf [decimalNumber, letterNumber, otherNumber]

/-- Punctuation of every category. -/
def punctuation : CodeSet :=
  .unionOf
    [connectorPunctuation, dashPunctuation, openPunctuation, closePunctuation, initialPunctuation,
      finalPunctuation, otherPunctuation]

/-- Symbols of every category. -/
def symbol : CodeSet := .unionOf [mathSymbol, currencySymbol, modifierSymbol, otherSymbol]

/-- Separators of every category. -/
def separator : CodeSet := .unionOf [spaceSeparator, lineSeparator, paragraphSeparator]

/-- What is neither a control, a format character, a private one nor unassigned. -/
def visible : CodeSet := .unionOf [letter, mark, number, punctuation, symbol, separator]

/-- Every assigned character. -/
def assigned : CodeSet := .unionOf [visible, control, format, privateUse]

/-- Every character that is not assigned. -/
def unassigned : CodeSet := assigned.complement

/-- The general category with the given name in its loosest spelling. -/
def category? : (name : String) → Option CodeSet
  | "any" => some .everything
  | "assigned" => some assigned
  | "ascii" => some (.range 0 0x7F)
  | "l" | "letter" => some letter
  | "lc" | "casedletter" => some casedLetter
  | "lu" | "uppercaseletter" => some uppercaseLetter
  | "ll" | "lowercaseletter" => some lowercaseLetter
  | "lt" | "titlecaseletter" => some titlecaseLetter
  | "lm" | "modifierletter" => some modifierLetter
  | "lo" | "otherletter" => some otherLetter
  | "m" | "mark" | "combiningmark" => some mark
  | "mn" | "nonspacingmark" => some nonspacingMark
  | "mc" | "spacingmark" => some spacingMark
  | "me" | "enclosingmark" => some enclosingMark
  | "n" | "number" => some number
  | "nd" | "decimalnumber" | "digit" => some decimalNumber
  | "nl" | "letternumber" => some letterNumber
  | "no" | "othernumber" => some otherNumber
  | "p" | "punctuation" | "punct" => some punctuation
  | "pc" | "connectorpunctuation" => some connectorPunctuation
  | "pd" | "dashpunctuation" => some dashPunctuation
  | "ps" | "openpunctuation" => some openPunctuation
  | "pe" | "closepunctuation" => some closePunctuation
  | "pi" | "initialpunctuation" => some initialPunctuation
  | "pf" | "finalpunctuation" => some finalPunctuation
  | "po" | "otherpunctuation" => some otherPunctuation
  | "s" | "symbol" => some symbol
  | "sm" | "mathsymbol" => some mathSymbol
  | "sc" | "currencysymbol" => some currencySymbol
  | "sk" | "modifiersymbol" => some modifierSymbol
  | "so" | "othersymbol" => some otherSymbol
  | "z" | "separator" => some separator
  | "zs" | "spaceseparator" => some spaceSeparator
  | "zl" | "lineseparator" => some lineSeparator
  | "zp" | "paragraphseparator" => some paragraphSeparator
  | "c" | "other" => some visible.complement
  | "cc" | "control" | "cntrl" => some control
  | "cf" | "format" => some format
  | "co" | "privateuse" => some privateUse
  | "cn" | "unassigned" => some unassigned
  | _ => none

end RouterConfig.Unicode
