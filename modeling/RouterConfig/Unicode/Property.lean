import RouterConfig.Unicode.Age
import RouterConfig.Unicode.Boundary
import RouterConfig.Unicode.ScriptExtension

/-!
# RouterConfig — named properties of characters

Properties by their names: whether a character is of a general category, of a script or of an age,
or has a property of its own. Names are matched loosely.
-/

namespace RouterConfig.Unicode

/-- A name without what does not count in it: a leading "is", blanks, hyphens, underscores, case and
characters beyond ASCII. -/
def looseName (name : String) : String :=
  let cs := name.toList
  let marked := (cs.take 2).map Char.toLower = ['i', 's']
  let kept := ((if marked then cs.drop 2 else cs).filter fun c =>
    c.toNat < 0x80 && c ≠ ' ' && c ≠ '_' && c ≠ '-').map Char.toLower
  -- What is left of this one name would be the name of a category.
  if marked && kept = ['c'] then "isc" else String.ofList kept

/-- The characters of the script with the given name, and those it shares with others. -/
def script? (name : String) : Option CodeSet :=
  (scripts.find? fun s => s.names.contains name).map fun s => .ofTable s.table

/-- The characters that some script shares with others. -/
def sharedCharacter : CodeSet := .unionOf (sharedCharacters.map fun s => .ofTable s.table)

/-- The characters that are written in a script, shared with others or not. What is common to all
scripts, or inherited from the character before, is left out where fewer scripts share it. -/
def scriptExtension? (name : String) : Option CodeSet :=
  (scripts.find? fun s => s.names.contains name).map fun s =>
    let own := CodeSet.ofTable s.table
    if s.names.head? = some "common" || s.names.head? = some "inherited" then
      own.diff sharedCharacter
    else
      match sharedCharacters.find? fun shared => shared.names.head? = s.names.head? with
      | some shared => own ∪ .ofTable shared.table
      | none => own

/-- The characters that came with the given version or before it, after those in `before`. -/
def charactersUpTo? (name : String) : List Version → (before : CodeSet) → Option CodeSet
  | [], _ => none
  | v :: rest, before =>
    let sofar := before ∪ .ofTable v.table
    if v.names.contains name then some sofar else charactersUpTo? name rest sofar

/-- The characters with the binary property of the given name. -/
def trait? : (name : String) → Option CodeSet
  | "ahex" | "asciihexdigit" => some asciiHexDigit
  | "alpha" | "alphabetic" => some alphabetic
  | "bidic" | "bidicontrol" => some bidiControl
  | "ci" | "caseignorable" => some caseIgnorable
  | "cased" => some cased
  | "cwcf" | "changeswhencasefolded" => some changesWhenCasefolded
  | "cwcm" | "changeswhencasemapped" => some changesWhenCasemapped
  | "cwl" | "changeswhenlowercased" => some changesWhenLowercased
  | "cwt" | "changeswhentitlecased" => some changesWhenTitlecased
  | "cwu" | "changeswhenuppercased" => some changesWhenUppercased
  | "dash" => some dash
  | "di" | "defaultignorablecodepoint" => some defaultIgnorable
  | "dep" | "deprecated" => some deprecatedCharacter
  | "dia" | "diacritic" => some diacritic
  | "emoji" => some emoji
  | "ecomp" | "emojicomponent" => some emojiComponent
  | "emod" | "emojimodifier" => some emojiModifier
  | "ebase" | "emojimodifierbase" => some emojiModifierBase
  | "epres" | "emojipresentation" => some emojiPresentation
  | "extpict" | "extendedpictographic" => some extendedPictographic
  | "ext" | "extender" => some extender
  | "grbase" | "graphemebase" => some graphemeBase
  | "grext" | "graphemeextend" => some graphemeExtend
  | "grlink" | "graphemelink" => some graphemeLink
  | "hex" | "hexdigit" => some hexDigit
  | "hyphen" => some hyphen
  | "idsb" | "idsbinaryoperator" => some idsBinaryOperator
  | "idst" | "idstrinaryoperator" => some idsTrinaryOperator
  | "idsu" | "idsunaryoperator" => some idsUnaryOperator
  | "idcompatmathcontinue" => some idCompatMathContinue
  | "idcompatmathstart" => some idCompatMathStart
  | "idc" | "idcontinue" => some idContinue
  | "ids" | "idstart" => some idStart
  | "ideo" | "ideographic" => some ideographic
  | "joinc" | "joincontrol" => some joinControl
  | "loe" | "logicalorderexception" => some logicalOrderException
  | "lower" | "lowercase" => some lowercase
  | "math" => some math
  | "mcm" | "modifiercombiningmark" => some modifierCombiningMark
  | "nchar" | "noncharactercodepoint" => some noncharacter
  | "oalpha" | "otheralphabetic" => some otherAlphabetic
  | "odi" | "otherdefaultignorablecodepoint" => some otherDefaultIgnorable
  | "ogrext" | "othergraphemeextend" => some otherGraphemeExtend
  | "oidc" | "otheridcontinue" => some otherIdContinue
  | "oids" | "otheridstart" => some otherIdStart
  | "olower" | "otherlowercase" => some otherLowercase
  | "omath" | "othermath" => some otherMath
  | "oupper" | "otheruppercase" => some otherUppercase
  | "patsyn" | "patternsyntax" => some patternSyntax
  | "patws" | "patternwhitespace" => some patternWhiteSpace
  | "pcm" | "prependedconcatenationmark" => some prependedConcatenationMark
  | "qmark" | "quotationmark" => some quotationMark
  | "radical" => some radical
  | "ri" | "regionalindicator" => some regionalIndicator
  | "sterm" | "sentenceterminal" => some sentenceTerminal
  | "sd" | "softdotted" => some softDotted
  | "term" | "terminalpunctuation" => some terminalPunctuation
  | "uideo" | "unifiedideograph" => some unifiedIdeograph
  | "upper" | "uppercase" => some uppercase
  | "vs" | "variationselector" => some variationSelector
  | "wspace" | "whitespace" | "space" => some whiteSpace
  | "xidc" | "xidcontinue" => some xidContinue
  | "xids" | "xidstart" => some xidStart
  | _ => none

/-- The characters with the property of the given name, whatever kind it is of. -/
def property? (name : String) : Option CodeSet :=
  let key := looseName name
  (trait? key).orElse fun _ => (category? key).orElse fun _ => script? key

/-- The characters for which the property `kind` has the value `name`. -/
def propertyOfKind? (kind name : String) : Option CodeSet :=
  let key := looseName name
  match looseName kind with
  | "gc" | "generalcategory" => category? key
  | "sc" | "script" => script? key
  | "scx" | "scriptextensions" => scriptExtension? key
  | "age" => charactersUpTo? key versions .empty
  | "gcb" | "graphemeclusterbreak" => graphemeBreak? key
  | "wb" | "wordbreak" => wordBreak? key
  | "sb" | "sentencebreak" => sentenceBreak? key
  | _ => none

end RouterConfig.Unicode
