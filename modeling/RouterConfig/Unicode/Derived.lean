import RouterConfig.Text.Blank
import RouterConfig.Unicode.CaseChange
import RouterConfig.Unicode.Category
import RouterConfig.Unicode.Contributory
import RouterConfig.Unicode.Trait

/-!
# RouterConfig — derived properties

Properties that follow from general categories and from what is listed beside them.
-/

namespace RouterConfig.Unicode

/-! ## Letters and case -/

/-- Property Alphabetic. -/
def alphabetic : CodeSet := .unionOf [letter, letterNumber, otherAlphabetic]

/-- Property Lowercase. -/
def lowercase : CodeSet := lowercaseLetter ∪ otherLowercase

/-- Property Uppercase. -/
def uppercase : CodeSet := uppercaseLetter ∪ otherUppercase

/-- Property Cased. -/
def cased : CodeSet := .unionOf [lowercase, uppercase, titlecaseLetter]

/-- Punctuation that may stand inside a word or a number. -/
def innerPunctuation : CodeSet :=
  .ofTable "27 2E 3A B7 387 55F 5F4 2018-2019 2024 2027 FE13 FE52 FE55 FF07 FF0E FF1A"

/-- Property Case_Ignorable. -/
def caseIgnorable : CodeSet :=
  .unionOf
    [nonspacingMark, enclosingMark, format, modifierLetter, modifierSymbol, innerPunctuation]

/-- Property Changes_When_Titlecased. -/
def changesWhenTitlecased : CodeSet :=
  changesWhenUppercased.diff changesInUppercaseOnly ∪ changesInTitlesOnly

/-- Property Changes_When_Casefolded. -/
def changesWhenCasefolded : CodeSet :=
  changesWhenLowercased.diff changesWhenLowercasedOnly ∪ changesWhenFoldedOnly

/-- Property Changes_When_Casemapped. -/
def changesWhenCasemapped : CodeSet :=
  .unionOf [changesWhenLowercased, changesWhenUppercased, changesWhenTitlecased]

/-! ## Identifiers -/

/-- What is set aside for patterns, and so in no identifier. -/
def patternCharacters : CodeSet := patternSyntax ∪ patternWhiteSpace

/-- Property ID_Start. -/
def idStart : CodeSet :=
  (CodeSet.unionOf [letter, letterNumber, otherIdStart]).diff patternCharacters

/-- Property ID_Continue. -/
def idContinue : CodeSet :=
  (CodeSet.unionOf
    [idStart, nonspacingMark, spacingMark, decimalNumber, connectorPunctuation,
      otherIdContinue]).diff patternCharacters

/-- Characters that become others in a compatible form, and then are in no identifier. -/
def unstableInIdentifiers : CodeSet :=
  .ofTable "37A 309B-309C FC5E-FC63 FDFA-FDFB FE70-FE7E/2"

/-- Characters that become others in a compatible form, and then start no identifier. -/
def unstableAtStart : CodeSet := .ofTable "E33 EB3 FF9E-FF9F"

/-- Property XID_Start. -/
def xidStart : CodeSet := idStart.diff (unstableInIdentifiers ∪ unstableAtStart)

/-- Property XID_Continue. -/
def xidContinue : CodeSet := idContinue.diff unstableInIdentifiers

/-! ## Others -/

/-- Property White_Space. -/
def whiteSpace : CodeSet := .ofRanges blankRanges

/-- Property Math. -/
def math : CodeSet := mathSymbol ∪ otherMath

/-- Property Grapheme_Extend. -/
def graphemeExtend : CodeSet := .unionOf [nonspacingMark, enclosingMark, otherGraphemeExtend]

/-- Property Grapheme_Base. -/
def graphemeBase : CodeSet :=
  visible.diff (.unionOf [lineSeparator, paragraphSeparator, graphemeExtend])

/-- Format characters that show themselves. -/
def visibleFormat : CodeSet :=
  .ofTable "FFF9-FFFB 13430-1345F" ∪ prependedConcatenationMark

/-- Property Default_Ignorable_Code_Point. -/
def defaultIgnorable : CodeSet :=
  (CodeSet.unionOf [otherDefaultIgnorable, format, variationSelector]).diff
    (whiteSpace ∪ visibleFormat)

/-- Characters of words: letters, marks, decimal digits, connectors, and joiners between them. -/
def wordCharacter : CodeSet :=
  .unionOf [alphabetic, mark, decimalNumber, connectorPunctuation, joinControl]

end RouterConfig.Unicode
