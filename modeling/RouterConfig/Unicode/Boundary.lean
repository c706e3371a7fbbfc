import RouterConfig.Unicode.Derived
import RouterConfig.Unicode.Emoji
import RouterConfig.Unicode.Script

/-!
# RouterConfig — boundaries in texts

The part that a character plays where a text is cut into what readers see as characters, into words
and into sentences.
-/

namespace RouterConfig.Unicode

/-- The characters of a script, by its full name. -/
def scriptNamed (name : String) : CodeSet :=
  match scripts.find? fun s => s.names.head? = some name with
  | some s => .ofTable s.table
  | none => .empty

/-- Joiners that show nothing themselves. -/
def zeroWidthJoiner : CodeSet := .single 0x200D

/-- The characters of tags behind emoji. -/
def emojiTag : CodeSet := .range 0xE0020 0xE007F

/-! ## Characters as readers see them -/

/-- Every syllable of Hangul, and those without a final consonant. -/
def hangulSyllable : CodeSet := .ofTable "AC00-D7A3"

@[inherit_doc hangulSyllable]
def hangulOpenSyllable : CodeSet :=
  ⟨(List.range 399).flatMap fun k => [0xAC00 + 28 * k, 0xAC00 + 28 * k + 1]⟩

/-- What is written in front of another character though it is stored before it. -/
def prepended : CodeSet :=
  .ofTable
    "D4E 111C2-111C3 113D1 1193F 11941 11A3A 11A84-11A89 11D46 11F02" ∪ prependedConcatenationMark

/-- Signs that are written around the digits behind them. -/
def numberSign : CodeSet := prependedConcatenationMark.diff (.single 0x70F)

/-- Extends the character before it. -/
def extendsCharacter : CodeSet := (graphemeExtend ∪ emojiModifier).diff zeroWidthJoiner

/-- Spacing marks that stand alone. -/
def detachedMark : CodeSet :=
  .ofTable
    "102B-102C 1038 1062-1064 1067-106D 1083 1087-108C 108F 109A-109C 1A61 1A63-1A64 AA7B AA7D
    11720-11721"

/-- Controls, of which none joins another character. -/
def controlBoundary : CodeSet :=
  (CodeSet.unionOf
    [lineSeparator, paragraphSeparator, control, format, unassigned ∩ defaultIgnorable]).diff
    (.unionOf [.ofTable "A D 200C-200D", prependedConcatenationMark, emojiTag])

/-- The characters with the given value of Grapheme_Cluster_Break. -/
def graphemeBreak? : (name : String) → Option CodeSet
  | "cr" => some (.single 0x0D)
  | "lf" => some (.single 0x0A)
  | "control" | "cn" => some controlBoundary
  | "extend" | "ex" => some extendsCharacter
  | "l" => some (.ofTable "1100-115F A960-A97C")
  | "lv" => some hangulOpenSyllable
  | "lvt" => some (hangulSyllable.diff hangulOpenSyllable)
  | "prepend" | "pp" => some prepended
  | "regionalindicator" | "ri" => some regionalIndicator
  | "spacingmark" | "sm" =>
    some ((spacingMark ∪ .ofTable "E33 EB3").diff (extendsCharacter ∪ detachedMark))
  | "t" => some (.ofTable "11A8-11FF D7CB-D7FB")
  | "v" => some (.ofTable "1160-11A7 D7B0-D7C6 16D63 16D67-16D6A")
  | "zwj" => some zeroWidthJoiner
  | _ => none

/-! ## Words -/

/-- Letters of scripts that put no space between words. -/
def unspacedLetter : CodeSet :=
  .ofTable
    "E01-E30 E32-E33 E40-E46 E81-E82 E84 E86-E8A E8C-EA3 EA5 EA7-EB0 EB2-EB3 EBD EC0-EC4 EC6
    EDC-EDF 1000-102A 103F 1050-1055 105A-105D 1061 1065-1066 106E-1070 1075-1081 108E 1780-17B3
    17D7 17DC 1950-196D 1970-1974 1980-19AB 19B0-19C9 1A20-1A54 1AA7 A9E0-A9E4 A9E6-A9EF A9FA-A9FE
    AA60-AA76 AA7A AA7E-AAAF AAB1 AAB5-AAB6 AAB9-AABD AAC0 AAC2 AADB-AADD 11700-1171A 11740-11746"

/-- Signs that count as letters of words. -/
def wordSign : CodeSet :=
  .ofTable
    "2C2-2C5 2D2-2D7 2DE-2DF 2E5-2EB 2ED 2EF-2FF 55A-55C 55E 58A 5F3 70F A708-A716 A720-A721
    A789-A78A AB5B"

/-- Extends the word before it. -/
def extendsWord : CodeSet :=
  (CodeSet.unionOf [graphemeExtend, spacingMark, emojiModifier]).diff zeroWidthJoiner

/-- Katakana as parts of words. -/
def katakanaInWords : CodeSet :=
  scriptNamed "katakana" ∪ .ofTable "3031-3035 309B-309C 30A0 30FC FF70"

/-- Hebrew letters as parts of words. -/
def hebrewInWords : CodeSet := scriptNamed "hebrew" ∩ otherLetter

/-- Letters that form words with those beside them. -/
def letterInWords : CodeSet :=
  (alphabetic ∪ wordSign).diff
    (.unionOf
      [ideographic, katakanaInWords, unspacedLetter, scriptNamed "hiragana", extendsWord,
        hebrewInWords])

/-- The characters with the given value of Word_Break. -/
def wordBreak? : (name : String) → Option CodeSet
  | "cr" => some (.single 0x0D)
  | "lf" => some (.single 0x0A)
  | "newline" | "nl" => some (.ofTable "B-C 85 2028-2029")
  | "extend" => some extendsWord
  | "zwj" => some zeroWidthJoiner
  | "format" | "fo" =>
    some (format.diff (.unionOf [.ofTable "200B-200D", emojiTag, prependedConcatenationMark]))
  | "regionalindicator" | "ri" => some regionalIndicator
  | "katakana" | "ka" => some katakanaInWords
  | "hebrewletter" | "hl" => some hebrewInWords
  | "aletter" | "le" => some letterInWords
  | "singlequote" | "sq" => some (.single 0x27)
  | "doublequote" | "dq" => some (.single 0x22)
  | "midnumlet" | "mb" => some (.ofTable "2E 2018-2019 2024 FE52 FF07 FF0E")
  | "midletter" | "ml" => some (.ofTable "3A B7 387 55F 5F4 2027 FE13 FE55 FF1A")
  | "midnum" | "mn" =>
    some (.ofTable "2C 3B 37E 589 60C-60D 66C 7F8 2044 FE10 FE14 FE50 FE54 FF0C FF1B")
  | "numeric" | "nu" => some (.unionOf [decimalNumber, .single 0x66B, numberSign])
  | "extendnumlet" | "ex" => some (connectorPunctuation ∪ .single 0x202F)
  | "wsegspace" => some (spaceSeparator.diff (.ofTable "A0 180E 2007 202F"))
  | _ => none

/-! ## Sentences -/

/-- Extends the character before it inside a sentence. -/
def extendsInSentence : CodeSet := .unionOf [graphemeExtend, spacingMark, zeroWidthJoiner]

/-- Characters after which a paragraph ends. -/
def sentenceSeparator : CodeSet := .ofTable "85 2028-2029"

/-- Small letters at the start of a word. -/
def lowerInSentence : CodeSet :=
  lowercase.diff (extendsInSentence ∪ .ofTable "10D0-10FA 10FD-10FF")

/-- Capital letters at the start of a word. -/
def upperInSentence : CodeSet :=
  (titlecaseLetter ∪ uppercase).diff (.ofTable "1C90-1CBA 1CBD-1CBF")

/-- Points that may end a sentence. -/
def pointInSentence : CodeSet := .ofTable "2E 2024 FE52 FF0E"

/-- Other marks that end a sentence. -/
def endOfSentence : CodeSet := sentenceTerminal.diff pointInSentence

/-- Brackets and quotation marks behind the end of a sentence. -/
def closeOfSentence : CodeSet :=
  (CodeSet.unionOf
    [openPunctuation, closePunctuation, initialPunctuation, finalPunctuation,
      .ofTable "22 27 275B-2760 2E00-2E0D 2E1C-2E1D 2E20-2E21 1F676-1F678"]).diff
    (.unionOf [.single 0x5F3, pointInSentence, endOfSentence])

/-- The characters with the given value of Sentence_Break. -/
def sentenceBreak? : (name : String) → Option CodeSet
  | "cr" => some (.single 0x0D)
  | "lf" => some (.single 0x0A)
  | "sep" | "se" => some sentenceSeparator
  | "extend" | "ex" => some extendsInSentence
  | "format" | "fo" =>
    some (format.diff (.unionOf [.ofTable "200C-200D", emojiTag, prependedConcatenationMark]))
  | "sp" => some (whiteSpace.diff (sentenceSeparator ∪ .ofTable "A D"))
  | "lower" | "lo" => some lowerInSentence
  | "upper" | "up" => some upperInSentence
  | "oletter" | "le" =>
    some ((alphabetic ∪ .ofTable "5F3 70F").diff
      (.unionOf [lowerInSentence, upperInSentence, extendsInSentence]))
  | "numeric" | "nu" => some (.unionOf [decimalNumber, .ofTable "66B-66C", numberSign])
  | "aterm" | "at" => some pointInSentence
  | "sterm" | "st" => some endOfSentence
  | "close" | "cl" => some closeOfSentence
  | "scontinue" | "sc" =>
    some (.ofTable
      "2C-2D 3A-3B 37E 55D 60C-60D 7F8 1802 1808 2013-2014 3001 FE10-FE11 FE13-FE14 FE31-FE32
      FE50-FE51 FE54-FE55 FE58 FE63 FF0C-FF0D FF1A-FF1B FF64")
  | _ => none

end RouterConfig.Unicode
