import RouterConfig.Text.Blank

/-!
# RouterConfig — words of a text

Two ways to cut a text at its blanks: `blankWords` ignores quotes, `quotedWords` keeps a quoted run
together with its quotes. In both a run of blanks never yields an empty word. Main results:

* `cutQuoted_ne_nil` — cutting yields at least one piece;
* `quotedWords_ne_empty` — no word of a line is empty.
-/

namespace RouterConfig

/-- Puts `c` in front of the first piece. -/
def extendFirst (c : Char) : List (List Char) → List (List Char)
  | [] => [[c]]
  | piece :: pieces => (c :: piece) :: pieces

/-- Cuts at every character that `isSeparator` accepts: one piece more than separators. -/
def cutAt (isSeparator : Char → Bool) : List Char → List (List Char)
  | [] => [[]]
  | c :: rest =>
    if isSeparator c then [] :: cutAt isSeparator rest
    else extendFirst c (cutAt isSeparator rest)

/-- Cuts at every blank outside a quoted run; `inside` is the quote that opened the current run. A
run opened by one quote character is closed only by the same character. -/
def cutQuoted (inside : Option Char) : List Char → List (List Char)
  | [] => [[]]
  | c :: rest =>
    match inside with
    | some q => extendFirst c (cutQuoted (if c = q then none else some q) rest)
    | none =>
      if isBlank c then [] :: cutQuoted none rest
      else extendFirst c (cutQuoted (if isQuote c then some c else none) rest)

/-- The pieces that hold a character, as texts. -/
def nonemptyTexts (pieces : List (List Char)) : List String :=
  (pieces.filter fun piece => !piece.isEmpty).map String.ofList

/-- The words between blanks (`split`). -/
def blankWords (text : String) : List String := nonemptyTexts (cutAt isBlank text.toList)

/-- The words of a command line (`tokenize`): quoted runs stay together and keep their quotes. -/
def quotedWords (line : String) : List String := nonemptyTexts (cutQuoted none line.toList)

/-- Words with one space between neighbours (`join`). -/
def joinWords (words : List String) : String := " ".intercalate words

theorem extendFirst_ne_nil (c : Char) (pieces : List (List Char)) : extendFirst c pieces ≠ [] := by
  cases pieces <;> simp [extendFirst]

theorem cutQuoted_ne_nil (inside : Option Char) (cs : List Char) : cutQuoted inside cs ≠ [] := by
  cases cs with
  | nil => simp [cutQuoted]
  | cons c rest =>
    cases inside with
    | some q => simp only [cutQuoted]; exact extendFirst_ne_nil _ _
    | none =>
      simp only [cutQuoted]
      split
      · simp
      · exact extendFirst_ne_nil _ _

private theorem nonemptyTexts_ne_empty {pieces : List (List Char)} {w : String}
    (h : w ∈ nonemptyTexts pieces) : w ≠ "" := by
  simp only [nonemptyTexts, List.mem_map, List.mem_filter] at h
  obtain ⟨piece, ⟨_, hne⟩, rfl⟩ := h
  intro heq
  have : piece = [] := by simpa using congrArg String.toList heq
  simp [this] at hne

/-- No word of a line is empty. -/
theorem quotedWords_ne_empty {line w : String} (h : w ∈ quotedWords line) : w ≠ "" :=
  nonemptyTexts_ne_empty h

end RouterConfig
