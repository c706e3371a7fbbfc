import RouterConfig.Text.Lines
import RouterConfig.Text.Quoted

/-!
# RouterConfig — words that are written and read back

A word that does not hold both quote characters is written so that it is read as one word, with its
quotes, and taking the quotes away gives it back. So a line of such words is cut into just these
words, and a text of lines into just these lines. Main results:

* `unquote_quote` — a quoted value reads back as the value;
* `quotedWords_joinWords` — a line of readable words is cut into these words;
* `quoted_line_reads_back` — a line of quoted values is cut into them, and they read back;
* `infix_unquote`, `infix_of_mem_quotedWords` — a value stands in what is typed for it, and a word
  in its line;
* `textLines_join` — a text of lines is cut into these lines;
* `oneLine_joinWords` — quoted words make a line that is cut off from the others and not trimmed.
-/

namespace RouterConfig

/-! ## Plain words -/

/-- A word that stands for itself: nothing in it separates words or opens a quoted run. -/
def Plain (word : String) : Prop :=
  word ≠ "" ∧ ∀ c ∈ word.toList, isBlank c = false ∧ isQuote c = false

theorem plain_iff {word : String} : Plain word ↔ needsQuotes word = false := by
  rw [Plain, needsQuotes, Bool.or_eq_false_iff, List.any_eq_false]
  refine and_congr ?_ ?_
  · rw [Ne, ← String.toList_eq_nil_iff]
    cases word.toList <;> simp
  · simp only [Bool.or_eq_true, not_or, Bool.not_eq_true]

instance (word : String) : Decidable (Plain word) := decidable_of_iff _ plain_iff.symm

theorem quote_of_plain {word : String} (h : Plain word) : quote word = word := by
  rw [quote, plain_iff.mp h]
  rfl

theorem holdsBothQuotes_of_plain {word : String} (h : Plain word) :
    holdsBothQuotes word = false := by
  have hsingle : '\'' ∉ word.toList := fun hmem => absurd (h.2 _ hmem).2 (by decide)
  rw [holdsBothQuotes, List.contains_eq_mem, decide_eq_false hsingle, Bool.false_and]

/-- A plain word is all on one line. -/
theorem no_lineFeed_of_plain {word : String} (h : Plain word) : '\n' ∉ word.toList :=
  fun hmem => absurd (h.2 _ hmem).1 (by decide)

/-! ## Quotes -/

/-- How a value is written: as it is, or between two quote characters that it does not hold. -/
theorem quote_toList {value : String} (h : holdsBothQuotes value = false) :
    (Plain value ∧ (quote value).toList = value.toList) ∨
      ∃ q, isQuote q = true ∧ q ∉ value.toList ∧
        (quote value).toList = q :: value.toList ++ [q] := by
  by_cases hneeds : needsQuotes value = true
  · right
    rw [quote, if_pos hneeds]
    by_cases hsingle : '\'' ∈ value.toList
    -- a single quote asks for double ones, which the value does not hold as well
    · have hdouble : '"' ∉ value.toList := by
        intro hdouble
        rw [holdsBothQuotes, List.contains_eq_mem, List.contains_eq_mem, decide_eq_true hsingle,
          decide_eq_true hdouble] at h
        exact absurd h (by simp)
      refine ⟨'"', by decide, hdouble, ?_⟩
      rw [if_pos (by simpa using hsingle)]
      simp
    · refine ⟨'\'', by decide, hsingle, ?_⟩
      rw [if_neg (by simpa using hsingle)]
      simp
  · left
    have hplain : Plain value := plain_iff.mpr (by simpa using hneeds)
    exact ⟨hplain, by rw [quote_of_plain hplain]⟩

private theorem dropTrailing_of_not_mem {q : Char} {cs : List Char} (h : q ∉ cs) :
    dropTrailing q cs = cs := by
  rw [dropTrailing, if_neg]
  intro hlast
  exact h (List.mem_of_getLast? hlast)

/-- A text without that quote has none at its start. -/
private theorem dropLeading_of_not_mem {q : Char} {cs : List Char} (h : q ∉ cs) :
    dropLeading q cs = cs := by
  cases cs with
  | nil => rfl
  | cons c rest =>
    have hne : c ≠ q := fun heq => h (heq ▸ List.mem_cons_self ..)
    rw [dropLeading, if_neg hne]

private theorem betweenDoubleQuotes?_of_not_mem {cs : List Char} (h : '"' ∉ cs) :
    betweenDoubleQuotes? cs = none := by
  unfold betweenDoubleQuotes?
  split
  next => exact absurd (List.mem_cons_self ..) h
  next => rfl

/-- Characters without a quote among them have none to lose. -/
theorem unquoteChars_of_bare {cs : List Char} (h : ∀ c ∈ cs, isQuote c = false) :
    unquoteChars cs = cs := by
  have hsingle : '\'' ∉ cs := fun hmem => absurd (h _ hmem) (by decide)
  have hdouble : '"' ∉ cs := fun hmem => absurd (h _ hmem) (by decide)
  rw [unquoteChars, betweenDoubleQuotes?_of_not_mem hdouble]
  dsimp only
  rw [dropLeading_of_not_mem hsingle, dropTrailing_of_not_mem hsingle]

/-- A pair of quotes around characters goes, and nothing else, whatever quotes stand inside. -/
theorem unquoteChars_of_quoted {q : Char} (hq : isQuote q = true) (cs : List Char) :
    unquoteChars (q :: cs ++ [q]) = cs := by
  simp only [isQuote, Bool.or_eq_true, decide_eq_true_eq] at hq
  rw [List.cons_append, unquoteChars]
  rcases hq with rfl | rfl
  · -- with a single quote in front there is no pair of double ones, and one goes from each end
    have hbetween : betweenDoubleQuotes? ('\'' :: (cs ++ ['\''])) = none := rfl
    rw [hbetween]
    dsimp only
    rw [dropLeading, if_pos rfl, dropTrailing, List.getLast?_concat, if_pos rfl]
    exact List.dropLast_concat
  · rw [betweenDoubleQuotes?, List.getLast?_concat, if_pos rfl]
    exact List.dropLast_concat

/-- A quoted value reads back as the value. -/
theorem unquote_quote {value : String} (h : holdsBothQuotes value = false) :
    unquote (quote value) = value := by
  have hchars : unquoteChars (quote value).toList = value.toList := by
    rcases quote_toList h with ⟨hplain, hwritten⟩ | ⟨q, hq, -, hwritten⟩
    · rw [hwritten]
      exact unquoteChars_of_bare fun c hc => (hplain.2 c hc).2
    · rw [hwritten]
      exact unquoteChars_of_quoted hq _
  rw [unquote, hchars, String.ofList_toList]

/-- What stands between double quotes is a piece of the text. -/
private theorem infix_of_betweenDoubleQuotes? {cs inner : List Char}
    (h : betweenDoubleQuotes? cs = some inner) : inner <:+: cs := by
  unfold betweenDoubleQuotes? at h
  split at h
  next rest =>
    split at h
    next =>
      rw [← Option.some.inj h]
      exact (List.dropLast_prefix rest).isInfix.trans (List.suffix_cons ..).isInfix
    next => exact absurd h (by simp)
  next => exact absurd h (by simp)

/-- A text without its first quote is a suffix of it. -/
private theorem suffix_dropLeading (q : Char) (cs : List Char) : dropLeading q cs <:+ cs := by
  cases cs with
  | nil => exact List.suffix_rfl
  | cons c rest =>
    rw [dropLeading]
    split
    · exact List.suffix_cons ..
    · exact List.suffix_rfl

private theorem prefix_dropTrailing (q : Char) (cs : List Char) : dropTrailing q cs <+: cs := by
  rw [dropTrailing]
  split
  · exact List.dropLast_prefix cs
  · exact List.prefix_rfl

/-- A value stands in one piece in what is typed for it. -/
theorem infix_unquote (typed : String) : (unquote typed).toList <:+: typed.toList := by
  rw [unquote, String.toList_ofList, unquoteChars]
  cases hbetween : betweenDoubleQuotes? typed.toList with
  | some inner => exact infix_of_betweenDoubleQuotes? hbetween
  | none => exact (prefix_dropTrailing ..).isInfix.trans (suffix_dropLeading ..).isInfix

/-! ## Cutting lines into words -/

/-- The first piece of a line stands at its start, and all stand in it. -/
private theorem infix_cutQuoted (inside : Option Char) (cs : List Char) :
    ∃ first others, cutQuoted inside cs = first :: others ∧ first <+: cs ∧
      ∀ piece ∈ others, piece <:+: cs := by
  induction cs generalizing inside with
  | nil => exact ⟨[], [], rfl, List.prefix_rfl, by simp⟩
  | cons c rest ih =>
    -- what is cut from the rest is inside the rest, and what is cut from all of it is inside that
    have hbelow : ∀ pieces : List (List Char), (∀ piece ∈ pieces, piece <:+: rest) →
        ∀ piece ∈ pieces, piece <:+: c :: rest :=
      fun pieces h piece hpiece => (h piece hpiece).trans (List.suffix_cons c rest).isInfix
    have hextend : ∀ inside', ∃ first others,
        extendFirst c (cutQuoted inside' rest) = first :: others ∧ first <+: c :: rest ∧
          ∀ piece ∈ others, piece <:+: c :: rest := by
      intro inside'
      obtain ⟨first, others, hcut, hfirst, hothers⟩ := ih inside'
      exact ⟨c :: first, others, by rw [hcut, extendFirst], List.cons_prefix_cons.mpr ⟨rfl, hfirst⟩,
        hbelow _ hothers⟩
    -- inside quotes the signs go to the piece being read, whatever they are
    cases inside with
    | some q => exact hextend _
    | none =>
      -- outside a blank ends the piece, and anything else is added to it
      by_cases hblank : isBlank c = true
      · -- a blank ends a piece that holds nothing so far
        obtain ⟨first, others, hcut, hfirst, hothers⟩ := ih none
        refine ⟨[], cutQuoted none rest, by rw [cutQuoted, if_pos hblank], List.nil_prefix,
          hbelow _ fun piece hpiece => ?_⟩
        rw [hcut] at hpiece
        rcases List.mem_cons.mp hpiece with rfl | hpiece
        · exact hfirst.isInfix
        · exact hothers piece hpiece
      · obtain ⟨first, others, hcut, hrest⟩ := hextend (if isQuote c then some c else none)
        exact ⟨first, others, by rw [cutQuoted, if_neg hblank, hcut], hrest⟩

/-- A word stands in one piece in its line. -/
theorem infix_of_mem_quotedWords {line word : String} (h : word ∈ quotedWords line) :
    word.toList <:+: line.toList := by
  rw [quotedWords, nonemptyTexts, List.mem_map] at h
  obtain ⟨piece, hpiece, rfl⟩ := h
  obtain ⟨first, others, hcut, hfirst, hothers⟩ := infix_cutQuoted none line.toList
  have hmem := (List.mem_filter.mp hpiece).1
  rw [hcut] at hmem
  rw [String.toList_ofList]
  rcases List.mem_cons.mp hmem with rfl | hmem
  · exact hfirst.isInfix
  · exact hothers piece hmem

/-- A run of characters that cutting leaves in one piece, whatever follows. -/
def OnePiece (cs : List Char) : Prop :=
  ∀ rest, cutQuoted none (cs ++ rest) = cs.foldr extendFirst (cutQuoted none rest)

/-- Extending the first piece by several signs puts them in front of it. -/
theorem foldr_extendFirst (cs piece : List Char) (pieces : List (List Char)) :
    cs.foldr extendFirst (piece :: pieces) = (cs ++ piece) :: pieces := by
  induction cs with
  | nil => rfl
  | cons c rest ih =>
    rw [List.foldr_cons, ih]
    rfl

/-- A word without blanks and without quotes is cut into one piece. -/
theorem onePiece_of_bare {cs : List Char}
    (h : ∀ c ∈ cs, isBlank c = false ∧ isQuote c = false) : OnePiece cs := by
  intro rest
  induction cs with
  | nil => rfl
  | cons c cs ih =>
    obtain ⟨hblank, hquote⟩ := h c (List.mem_cons_self ..)
    rw [List.cons_append, cutQuoted, hblank, hquote, List.foldr_cons]
    simp only [Bool.false_eq_true, if_false]
    rw [ih fun d hd => h d (List.mem_cons_of_mem _ hd)]

/-- Inside a quoted run only its own quote character counts. -/
private theorem cutQuoted_inside {q : Char} {cs : List Char} (h : q ∉ cs) (rest : List Char) :
    cutQuoted (some q) (cs ++ q :: rest) = (cs ++ [q]).foldr extendFirst (cutQuoted none rest) := by
  induction cs with
  | nil => simp [cutQuoted]
  | cons c cs ih =>
    have hne : c ≠ q := fun heq => h (heq ▸ List.mem_cons_self ..)
    rw [List.cons_append, List.cons_append, cutQuoted, List.foldr_cons]
    simp only [if_neg hne]
    rw [ih fun hmem => h (List.mem_cons_of_mem _ hmem)]

/-- A quoted text without that quote inside is cut into one piece, blanks and all. -/
theorem onePiece_of_quoted {q : Char} {cs : List Char} (hq : isQuote q = true) (h : q ∉ cs) :
    OnePiece (q :: cs ++ [q]) := by
  intro rest
  have hrun : q :: cs ++ [q] ++ rest = q :: (cs ++ q :: rest) := by simp
  rw [hrun, cutQuoted, not_isBlank_of_isQuote hq, hq]
  simp only [Bool.false_eq_true, if_false, if_true]
  rw [cutQuoted_inside h]
  rfl

/-- What is quoted is cut into one piece. -/
theorem onePiece_quote {value : String} (h : holdsBothQuotes value = false) :
    OnePiece (quote value).toList := by
  rcases quote_toList h with ⟨hplain, hwritten⟩ | ⟨q, hq, hmem, hwritten⟩
  · rw [hwritten]
    exact onePiece_of_bare hplain.2
  · rw [hwritten]
    exact onePiece_of_quoted hq hmem

/-- Pieces with a space between neighbours are cut where the spaces are. -/
theorem cutQuoted_intercalate {pieces : List (List Char)} (hne : pieces ≠ [])
    (h : ∀ piece ∈ pieces, OnePiece piece) :
    cutQuoted none ([' '].intercalate pieces) = pieces := by
  induction pieces with
  | nil => exact absurd rfl hne
  | cons piece rest ih =>
    have hpiece := h piece (List.mem_cons_self ..)
    -- a space ends a piece, and the last piece ends with the line
    cases rest with
    | nil =>
      have hlast := hpiece []
      rw [List.append_nil] at hlast
      rw [List.intercalate_singleton, hlast, cutQuoted, foldr_extendFirst, List.append_nil]
    | cons next rest =>
      have hrest := ih (by simp) fun piece hmem => h piece (List.mem_cons_of_mem _ hmem)
      rw [List.intercalate_cons_cons, List.append_assoc, hpiece, List.singleton_append, cutQuoted]
      simp only [isBlank_space, if_true]
      rw [hrest, foldr_extendFirst, List.append_nil]

/-- Words that are written so that each is read as one word. -/
structure Readable (word : String) : Prop where
  nonempty : word ≠ ""
  onePiece : OnePiece word.toList

/-- What is quoted is read as one word. -/
theorem readable_quote {value : String} (h : holdsBothQuotes value = false) :
    Readable (quote value) := by
  refine ⟨fun hempty => ?_, onePiece_quote h⟩
  rcases quote_toList h with ⟨hplain, hwritten⟩ | ⟨q, -, -, hwritten⟩
  · rw [hempty] at hwritten
    exact hplain.1 (String.toList_eq_nil_iff.mp hwritten.symm)
  · rw [hempty] at hwritten
    exact absurd hwritten (by simp)

theorem readable_of_mem_quoted {values : List String}
    (h : ∀ value ∈ values, holdsBothQuotes value = false) :
    ∀ word ∈ values.map quote, Readable word := by
  intro word hword
  obtain ⟨value, hvalue, rfl⟩ := List.mem_map.mp hword
  exact readable_quote (h value hvalue)

theorem readable_of_plain {word : String} (h : Plain word) : Readable word :=
  quote_of_plain h ▸ readable_quote (holdsBothQuotes_of_plain h)

/-- A line of readable words is cut into these words. -/
theorem quotedWords_joinWords {words : List String} (h : ∀ word ∈ words, Readable word) :
    quotedWords (joinWords words) = words := by
  -- each word was quoted, so cutting the joined words at the blanks gives them back
  cases words with
  | nil => rfl
  | cons word rest =>
    have hcut : cutQuoted none (joinWords (word :: rest)).toList =
        (word :: rest).map String.toList := by
      rw [joinWords, String.toList_intercalate]
      refine cutQuoted_intercalate (by simp) fun piece hpiece => ?_
      obtain ⟨w, hw, rfl⟩ := List.mem_map.mp hpiece
      exact (h w hw).onePiece
    -- none of the words is empty, so none is dropped
    rw [quotedWords, hcut, nonemptyTexts, List.filter_eq_self.mpr]
    · rw [List.map_map]
      exact (List.map_congr_left fun w _ => String.ofList_toList).trans (List.map_id _)
    · intro piece hpiece
      obtain ⟨w, hw, rfl⟩ := List.mem_map.mp hpiece
      have hne := (h w hw).nonempty
      rw [Ne, ← String.toList_eq_nil_iff] at hne
      cases hchars : w.toList with
      | nil => exact absurd hchars hne
      | cons c cs => rfl

/-- A line of quoted values, with a space between neighbours, is cut into the quoted values, and
each of them reads back as its value. -/
theorem quoted_line_reads_back {values : List String}
    (h : ∀ value ∈ values, holdsBothQuotes value = false) :
    quotedWords (joinWords (values.map quote)) = values.map quote ∧
      (values.map quote).map unquote = values := by
  refine ⟨quotedWords_joinWords (readable_of_mem_quoted h), ?_⟩
  calc (values.map quote).map unquote
      = values.map (unquote ∘ quote) := List.map_map
    _ = values.map id := List.map_congr_left fun value hvalue => unquote_quote (h value hvalue)
    _ = values := List.map_id values

/-- Nothing at all, blanks of several kinds, and quotes inside, at the ends and side by side. -/
theorem quoted_line_reads_back_of_odd_values :
    let values := ["", " up\u3000link\t", "don't", "''", "\"", "say \"\"hi\"", "\n", "eth0"]
    let line := "'' ' up\u3000link\t' \"don't\" \"''\" '\"' 'say \"\"hi\"' '\n' eth0"
    (∀ value ∈ values, holdsBothQuotes value = false) ∧ joinWords (values.map quote) = line ∧
      quotedWords line = values.map quote ∧ (values.map quote).map unquote = values := by
  intro values line
  have hquotable : ∀ value ∈ values, holdsBothQuotes value = false := by decide
  have hline : joinWords (values.map quote) = line := by decide
  have hreads := quoted_line_reads_back hquotable
  exact ⟨hquotable, hline, hline ▸ hreads⟩

/-- With both quote characters in it, a value runs into the next one. -/
example : quotedWords (joinWords (["a'\"b", "c"].map quote)) = ["\"a'\"b\" c"] := by decide

/-! ## Cutting texts into lines -/

/-- Characters that do not separate stay with the piece that follows. -/
theorem cutAt_of_clear {isSeparator : Char → Bool} {piece : List Char}
    (h : ∀ c ∈ piece, isSeparator c = false) (rest : List Char) :
    cutAt isSeparator (piece ++ rest) = piece.foldr extendFirst (cutAt isSeparator rest) := by
  induction piece with
  | nil => rfl
  | cons c cs ih =>
    have hc := h c (List.mem_cons_self ..)
    rw [List.cons_append, cutAt, List.foldr_cons, hc, if_neg (by simp),
      ih fun d hd => h d (List.mem_cons_of_mem _ hd)]

/-- Where nothing separates, there is one piece. -/
theorem cutAt_eq_single {isSeparator : Char → Bool} {piece : List Char}
    (h : ∀ c ∈ piece, isSeparator c = false) : cutAt isSeparator piece = [piece] := by
  have hcut := cutAt_of_clear h []
  rwa [List.append_nil, cutAt, foldr_extendFirst, List.append_nil] at hcut

/-- A separator ends the piece in front of it. -/
theorem cutAt_separator {isSeparator : Char → Bool} {separator : Char}
    (hseparator : isSeparator separator = true) {piece : List Char}
    (h : ∀ c ∈ piece, isSeparator c = false) (rest : List Char) :
    cutAt isSeparator (piece ++ separator :: rest) = piece :: cutAt isSeparator rest := by
  rw [cutAt_of_clear h, cutAt, if_pos hseparator, foldr_extendFirst, List.append_nil]

/-- Pieces that end with the separator are cut after each of them, and nothing is left. -/
theorem cutAt_flatMap {isSeparator : Char → Bool} {separator : Char}
    (hseparator : isSeparator separator = true) {pieces : List (List Char)}
    (h : ∀ piece ∈ pieces, ∀ c ∈ piece, isSeparator c = false) :
    cutAt isSeparator (pieces.flatMap fun piece => piece ++ [separator]) = pieces ++ [[]] := by
  induction pieces with
  | nil => rfl
  | cons piece rest ih =>
    rw [List.flatMap_cons, List.append_assoc, List.singleton_append,
      cutAt_separator hseparator (h piece (List.mem_cons_self ..)),
      ih fun other hother => h other (List.mem_cons_of_mem _ hother)]
    rfl

/-- A line that reads back: no line feed in it, and no blank at either end. -/
structure OneLine (line : String) : Prop where
  nonempty : line ≠ ""
  noLineFeed : '\n' ∉ line.toList
  head : ∀ c, line.toList.head? = some c → isBlank c = false
  last : ∀ c, line.toList.getLast? = some c → isBlank c = false

/-- A text that does not start with a blank has no blanks to drop. -/
private theorem dropWhile_isBlank {cs : List Char}
    (h : ∀ c, cs.head? = some c → isBlank c = false) : cs.dropWhile isBlank = cs := by
  cases cs with
  | nil => rfl
  | cons c rest =>
    rw [List.dropWhile_cons, h c rfl]
    rfl

/-- Such a line has nothing to trim. -/
theorem OneLine.trim {line : String} (h : OneLine line) : trim line = line := by
  rw [RouterConfig.trim, trimEnd, dropWhile_isBlank h.head, String.ofList_toList,
    dropWhile_isBlank, List.reverse_reverse, String.ofList_toList]
  intro c hc
  rw [List.head?_reverse] at hc
  exact h.last c hc

/-- A text of lines is cut into these lines. -/
theorem textLines_join {lines : List String} (h : ∀ line ∈ lines, OneLine line) :
    textLines (String.join (lines.map fun line => line ++ "\n")) = lines := by
  have hchars : (String.join (lines.map fun line => line ++ "\n")).toList =
      (lines.map String.toList).flatMap fun piece => piece ++ ['\n'] := by
    rw [String.toList_join, List.flatMap_map, List.flatMap_map]
    simp
  have hpieces : cutAt (· = '\n')
      (String.join (lines.map fun line => line ++ "\n")).toList =
        lines.map String.toList ++ [[]] := by
    rw [hchars]
    refine cutAt_flatMap (by decide) fun piece hpiece c hc => ?_
    obtain ⟨line, hline, rfl⟩ := List.mem_map.mp hpiece
    exact decide_eq_false fun heq => (h line hline).noLineFeed (heq ▸ hc)
  rw [textLines, hpieces, List.dropLast_concat, List.getLast?_concat]
  dsimp only
  rw [List.map_map, List.map_map]
  refine (List.map_congr_left fun line hline => ?_).trans (List.map_id _)
  -- no line ends with a carriage return, which is blank
  have hreturn : ¬ line.toList.getLast? = some '\r' := fun hlast =>
    absurd ((h line hline).last _ hlast) (by decide)
  show String.ofList (if line.toList.getLast? = some '\r' then _ else line.toList) = line
  rw [if_neg hreturn, String.ofList_toList]

/-! ## Lines of quoted words -/

/-- A word that one line can tell: quoting gets it through, and it is all on one line. -/
structure Tellable (word : String) : Prop where
  quotable : holdsBothQuotes word = false
  noLineFeed : '\n' ∉ word.toList

theorem tellable_of_plain {word : String} (h : Plain word) : Tellable word :=
  ⟨holdsBothQuotes_of_plain h, no_lineFeed_of_plain h⟩

namespace Tellable

variable {word : String}

/-- A word that can be told in a line has no line feed when it is quoted. -/
theorem no_lineFeed_quote (h : Tellable word) : '\n' ∉ (quote word).toList := by
  rcases quote_toList h.quotable with ⟨-, hwritten⟩ | ⟨q, hq, -, hwritten⟩
  · rw [hwritten]
    exact h.noLineFeed
  · have hne : '\n' ≠ q := fun heq => absurd hq (by rw [← heq]; decide)
    rw [hwritten, List.cons_append, List.mem_cons, List.mem_append, List.mem_singleton]
    rintro (heq | hmem | heq)
    · exact hne heq
    · exact h.noLineFeed hmem
    · exact hne heq

/-- A quoted word ends with its quote character, or with the last character of a plain word. -/
theorem last_quote (h : Tellable word) {c : Char}
    (hc : (quote word).toList.getLast? = some c) : isBlank c = false := by
  rcases quote_toList h.quotable with ⟨hplain, hwritten⟩ | ⟨q, hq, -, hwritten⟩
  · rw [hwritten] at hc
    exact (hplain.2 c (List.mem_of_getLast? hc)).1
  · rw [hwritten, List.getLast?_concat, Option.some.injEq] at hc
    exact hc ▸ not_isBlank_of_isQuote hq

end Tellable

/-- Joined words hold no line feed if none of them does. -/
theorem no_lineFeed_joinWords {words : List String} (h : ∀ word ∈ words, '\n' ∉ word.toList) :
    '\n' ∉ (joinWords words).toList := by
  -- on the words, with a blank between each two of them
  induction words with
  | nil => exact List.not_mem_nil
  | cons word rest ih =>
    have hword := h word (List.mem_cons_self ..)
    have hrest := ih fun other hother => h other (List.mem_cons_of_mem _ hother)
    cases rest with
    | nil => simpa [joinWords] using hword
    | cons next rest =>
      rw [joinWords, String.intercalate_cons_cons, String.toList_append, String.toList_append,
        List.mem_append, List.mem_append]
      rintro ((hmem | hmem) | hmem)
      · exact hword hmem
      · exact absurd hmem (by decide)
      · exact hrest hmem

/-- A line starts with its first word. -/
theorem prefix_joinWords (first : String) (rest : List String) :
    first.toList <+: (joinWords (first :: rest)).toList := by
  cases rest with
  | nil =>
    have hline : joinWords [first] = first := String.intercalate_singleton
    exact hline.symm ▸ List.prefix_rfl
  | cons next rest =>
    rw [joinWords, String.intercalate_cons_cons, String.toList_append, String.toList_append,
      List.append_assoc]
    exact List.prefix_append ..

/-- A line ends with its last word. -/
theorem suffix_joinWords (words : List String) (last : String) :
    last.toList <:+ (joinWords (words ++ [last])).toList := by
  cases words with
  | nil =>
    have hline : joinWords [last] = last := String.intercalate_singleton
    exact hline.symm ▸ List.suffix_rfl
  | cons first rest =>
    rw [joinWords, String.intercalate_append_of_ne_nil (by simp) (by simp),
      String.intercalate_singleton, String.toList_append]
    exact List.suffix_append ..

/-- The last sign of joined words is the last one of one of them. -/
theorem getLast?_joinWords {words : List String} (h : ∀ word ∈ words, word ≠ "") {c : Char}
    (hc : (joinWords words).toList.getLast? = some c) :
    ∃ word ∈ words, word.toList.getLast? = some c := by
  rcases List.eq_nil_or_concat words with rfl | ⟨front, last, rfl⟩
  · exact absurd hc (by simp [joinWords])
  · rw [List.concat_eq_append] at h hc ⊢
    have hmem : last ∈ front ++ [last] := List.mem_append_right _ (List.mem_singleton_self _)
    have hne : last.toList ≠ [] := mt String.toList_eq_nil_iff.mp (h last hmem)
    obtain ⟨before, hbefore⟩ := suffix_joinWords front last
    refine ⟨last, hmem, ?_⟩
    rw [← hbefore, List.getLast?_append, List.getLast?_eq_some_getLast hne, Option.some_or] at hc
    rw [List.getLast?_eq_some_getLast hne, hc]

/-- A line that starts with a plain word and goes on with quoted words reads back. -/
theorem oneLine_joinWords {first : String} {words : List String} (hfirst : Plain first)
    (h : ∀ word ∈ words, Tellable word) : OneLine (joinWords (first :: words.map quote)) := by
  obtain ⟨rest, hrest⟩ := prefix_joinWords first (words.map quote)
  obtain ⟨d, ds, hd⟩ := List.exists_cons_of_ne_nil (mt String.toList_eq_nil_iff.mp hfirst.1)
  rw [hd, List.cons_append] at hrest
  have hquoted : ∀ word ∈ words.map quote, Readable word :=
    readable_of_mem_quoted fun word hword => (h word hword).quotable
  refine ⟨fun hempty => ?_, no_lineFeed_joinWords ?_, fun c hc => ?_, fun c hc => ?_⟩
  · rw [hempty] at hrest
    exact absurd hrest (by simp)
  · rw [List.forall_mem_cons, List.forall_mem_map]
    exact ⟨no_lineFeed_of_plain hfirst, fun word hword => (h word hword).no_lineFeed_quote⟩
  · rw [← hrest, List.head?_cons, Option.some.injEq] at hc
    exact (hfirst.2 c (by rw [hd, hc]; exact List.mem_cons_self ..)).1
  · -- the line ends with its last word, which may be the first one
    have hne : ∀ word ∈ first :: words.map quote, word ≠ "" :=
      List.forall_mem_cons.mpr ⟨hfirst.1, fun word hword => (hquoted word hword).nonempty⟩
    obtain ⟨word, hword, hlast⟩ := getLast?_joinWords hne hc
    rcases List.mem_cons.mp hword with rfl | hword
    · exact (hfirst.2 c (List.mem_of_getLast? hlast)).1
    · obtain ⟨w, hw, rfl⟩ := List.mem_map.mp hword
      exact (h w hw).last_quote hlast

end RouterConfig
