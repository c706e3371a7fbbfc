import Mathlib.Data.List.Forall2
import Mathlib.Data.List.Infix
import Mathlib.Data.List.TakeWhile
import RouterConfig.CommandFile.Line
import RouterConfig.Proofs.Text.Quoting

/-!
# RouterConfig — lines put together again

Lines that are cut out of a text and joined by line feeds are cut into the same lines, but for
blanks at their ends, and a command does not depend on these. Main results:

* `textLines_intercalate` — the lines of joined lines;
* `isCommit_iff` — a line is left out for committing if and only if it commits.
-/

namespace RouterConfig

/-! ## Trimming -/

/-- Two lines that are the same without the blanks at both ends, and without those at the end. -/
structure SameTrimmed (line line' : String) : Prop where
  both : trim line = trim line'
  atEnd : trimEnd line = trimEnd line'

theorem SameTrimmed.refl (line : String) : SameTrimmed line line := ⟨rfl, rfl⟩

private theorem trimEnd_return (cs : List Char) :
    trimEnd (String.ofList (cs ++ ['\r'])) = trimEnd (String.ofList cs) := by
  have hblank : isBlank '\r' = true := by decide
  rw [trimEnd, trimEnd, String.toList_ofList, String.toList_ofList, List.reverse_append,
    List.reverse_singleton, List.singleton_append, List.dropWhile_cons, if_pos hblank]

/-- A carriage return at the end of a line is blank. -/
theorem sameTrimmed_return (cs : List Char) :
    SameTrimmed (String.ofList cs) (String.ofList (cs ++ ['\r'])) := by
  refine ⟨?_, (trimEnd_return cs).symm⟩
  have hblank : isBlank '\r' = true := by decide
  rw [trim, trim, String.toList_ofList, String.toList_ofList, List.dropWhile_append]
  split
  next hempty =>
    -- with nothing else in the line, the return goes with what is in front
    rw [List.isEmpty_iff.mp hempty, List.dropWhile_cons, if_pos hblank, List.dropWhile_nil]
  next => exact (trimEnd_return _).symm

/-- A return at the end of a line changes nothing once the line is trimmed. -/
private theorem sameTrimmed_withoutReturn (line : String) :
    SameTrimmed (String.ofList
      (if line.toList.getLast? = some '\r' then line.toList.dropLast else line.toList)) line := by
  split
  next hlast =>
    have hreturn := sameTrimmed_return line.toList.dropLast
    rwa [List.dropLast_append_getLast? _ hlast, String.ofList_toList] at hreturn
  next =>
    rw [String.ofList_toList]
    exact .refl line

/-- A line is what trimming leaves of it between blanks. -/
theorem exists_blanks_around (line : String) :
    ∃ front back : List Char, line.toList = front ++ ((trim line).toList ++ back) ∧
      (∀ c ∈ front, isBlank c = true) ∧ (∀ c ∈ back, isBlank c = true) ∧
      ∀ c, (trim line).toList.head? = some c → isBlank c = false := by
  -- the blanks in front and those behind are taken off one after the other
  have hall : ∀ {cs : List Char}, ∀ c ∈ cs.takeWhile isBlank, isBlank c = true :=
    fun c hc => List.mem_takeWhile_imp hc
  obtain ⟨middle, hmiddle⟩ : ∃ middle, middle = line.toList.dropWhile isBlank := ⟨_, rfl⟩
  have htrim : (trim line).toList = (middle.reverse.dropWhile isBlank).reverse := by
    rw [trim, trimEnd, String.toList_ofList, String.toList_ofList, hmiddle]
  have hsplit : middle = (trim line).toList ++ (middle.reverse.takeWhile isBlank).reverse := by
    rw [htrim, ← List.reverse_append, List.takeWhile_append_dropWhile, List.reverse_reverse]
  refine ⟨line.toList.takeWhile isBlank, (middle.reverse.takeWhile isBlank).reverse, ?_,
    hall, fun c hc => hall c (List.mem_reverse.mp hc), fun c hc => ?_⟩
  · rw [← hsplit, hmiddle, List.takeWhile_append_dropWhile]
  · -- what is left starts where the blanks in front stop
    have hhead : middle.head? = some c := by
      rw [hsplit, List.head?_append, hc, Option.some_or]
    have hstop := List.head?_dropWhile_not isBlank line.toList
    rw [← hmiddle, hhead] at hstop
    simpa using hstop

theorem infix_trim (line : String) : (trim line).toList <:+: line.toList := by
  obtain ⟨front, back, hline, -⟩ := exists_blanks_around line
  exact ⟨front, back, by rw [hline, List.append_assoc]⟩

/-! ## Cutting texts into lines -/

/-- Pieces with a separator between neighbours are cut where the separators are. -/
theorem cutAt_intercalate {isSeparator : Char → Bool} {separator : Char}
    (hseparator : isSeparator separator = true) {pieces : List (List Char)} (hne : pieces ≠ [])
    (h : ∀ piece ∈ pieces, ∀ c ∈ piece, isSeparator c = false) :
    cutAt isSeparator ([separator].intercalate pieces) = pieces := by
  induction pieces with
  | nil => exact absurd rfl hne
  | cons piece rest ih =>
    have hpiece := h piece (List.mem_cons_self ..)
    cases rest with
    | nil => rw [List.intercalate_singleton, cutAt_eq_single hpiece]
    | cons next rest =>
      have hrest := ih (by simp) fun piece hmem => h piece (List.mem_cons_of_mem _ hmem)
      rw [List.intercalate_cons_cons, List.append_assoc, List.singleton_append,
        cutAt_separator hseparator hpiece, hrest]

/-- No piece that a text is cut into holds the separator. -/
theorem mem_cutAt {isSeparator : Char → Bool} {cs piece : List Char}
    (h : piece ∈ cutAt isSeparator cs) : ∀ c ∈ piece, isSeparator c = false := by
  -- on the signs: a separator ends a piece, any other sign goes to the piece it begins
  induction cs generalizing piece with
  | nil =>
    obtain rfl := List.mem_singleton.mp h
    simp
  | cons first rest ih =>
    rw [cutAt] at h
    by_cases hfirst : isSeparator first = true
    · rw [if_pos hfirst] at h
      rcases List.mem_cons.mp h with rfl | h
      · simp
      · exact ih h
    · rw [if_neg hfirst] at h
      cases hpieces : cutAt isSeparator rest with
      | nil =>
        rw [hpieces, extendFirst, List.mem_singleton] at h
        simpa [h] using hfirst
      | cons next pieces =>
        rw [hpieces] at h ih
        rcases List.mem_cons.mp h with rfl | h
        · rw [List.forall_mem_cons]
          exact ⟨by simpa using hfirst, ih (List.mem_cons_self ..)⟩
        · exact ih (List.mem_cons_of_mem _ h)

/-- A line of a text is a piece between line feeds, or a piece without its last character. -/
theorem exists_piece_of_mem_textLines {text line : String} (h : line ∈ textLines text) :
    ∃ piece ∈ cutAt (· = '\n') text.toList, ∀ c ∈ line.toList, c ∈ piece := by
  -- the lines are the pieces between line feeds, with a carriage return taken off each
  have hclosed : line ∈ ((cutAt (· = '\n') text.toList).dropLast.map fun piece =>
      if piece.getLast? = some '\r' then piece.dropLast else piece).map String.ofList →
      ∃ piece ∈ cutAt (· = '\n') text.toList, ∀ c ∈ line.toList, c ∈ piece := by
    intro hmem
    obtain ⟨kept, hkept, rfl⟩ := List.mem_map.mp hmem
    obtain ⟨piece, hpiece, rfl⟩ := List.mem_map.mp hkept
    refine ⟨piece, List.mem_of_mem_dropLast hpiece, fun c hc => ?_⟩
    rw [String.toList_ofList] at hc
    split at hc
    · exact List.mem_of_mem_dropLast hc
    · exact hc
  rw [textLines] at h
  split at h
  next c last hlast =>
    rcases List.mem_append.mp h with h | h
    · exact hclosed h
    · rw [List.mem_singleton.mp h, String.toList_ofList]
      exact ⟨_, List.mem_of_getLast? hlast, fun d hd => hd⟩
  next => exact hclosed h

/-- No line of a text holds a line feed. -/
theorem no_lineFeed_of_mem_textLines {text line : String} (h : line ∈ textLines text) :
    '\n' ∉ line.toList := by
  obtain ⟨piece, hpiece, hinside⟩ := exists_piece_of_mem_textLines h
  exact fun hfeed => absurd (mem_cutAt hpiece _ (hinside _ hfeed)) (by decide)

/-- Joined lines are cut into the same lines, but for blanks at their ends; and at the end an empty
line may be missing. -/
theorem textLines_intercalate {lines : List String} (h : ∀ line ∈ lines, '\n' ∉ line.toList) :
    ∃ last : List String,
      List.Forall₂ SameTrimmed (textLines ("\n".intercalate lines) ++ last) lines ∧
      ∀ line ∈ last, line = "" := by
  rcases List.eq_nil_or_concat lines with rfl | ⟨closed, line, rfl⟩
  · exact ⟨[], .nil, by simp⟩
  · have hpieces : cutAt (· = '\n') ("\n".intercalate (closed.concat line)).toList =
        closed.map String.toList ++ [line.toList] := by
      rw [String.toList_intercalate, show "\n".toList = ['\n'] from rfl, cutAt_intercalate
        (by decide) (by simp)]
      · simp
      · intro piece hpiece c hc
        obtain ⟨other, hother, rfl⟩ := List.mem_map.mp hpiece
        exact decide_eq_false fun heq => h other hother (heq ▸ hc)
    -- a return in front of a line feed goes with it
    have hclosed : List.Forall₂ SameTrimmed
        (((closed.map String.toList).map fun piece => if piece.getLast? = some '\r' then
          piece.dropLast else piece).map String.ofList) closed := by
      rw [List.map_map, List.map_map, List.forall₂_map_left_iff, List.forall₂_same]
      exact fun other _ => sameTrimmed_withoutReturn other
    rw [textLines, hpieces, List.dropLast_concat, List.getLast?_concat]
    -- behind the last line feed an empty piece is no line
    cases hline : line.toList with
    | nil =>
      obtain rfl : line = "" := String.toList_eq_nil_iff.mp hline
      rw [List.concat_eq_append]
      exact ⟨[""], List.rel_append hclosed (.cons (.refl "") .nil), by simp⟩
    | cons c cs =>
      have hwhole : String.ofList (c :: cs) = line := by rw [← hline, String.ofList_toList]
      refine ⟨[], ?_, by simp⟩
      dsimp only
      rw [hwhole, List.concat_eq_append, List.append_nil]
      exact List.rel_append hclosed (.cons (.refl line) .nil)

/-! ## The first word of a line -/

private theorem head?_extendFirst {c : Char} {pieces : List (List Char)} {word : List Char}
    (hne : pieces ≠ []) : (extendFirst c pieces).head? = some word ↔
      ∃ rest, pieces.head? = some rest ∧ word = c :: rest := by
  cases pieces with
  | nil => exact absurd rfl hne
  | cons piece pieces => simp [extendFirst, eq_comm]

/-- A text is cut into at least one piece. -/
theorem cutAt_ne_nil (isSeparator : Char → Bool) (cs : List Char) : cutAt isSeparator cs ≠ [] := by
  cases cs with
  | nil => simp [cutAt]
  | cons c rest =>
    rw [cutAt]
    split
    · simp
    · exact extendFirst_ne_nil _ _

/-- A word without quotes comes first for both ways to cut, or for neither. -/
theorem head?_cutAt_iff {word cs : List Char} (h : ∀ c ∈ word, isQuote c = false) :
    (cutAt isBlank cs).head? = some word ↔ (cutQuoted none cs).head? = some word := by
  -- a word without quotes ends at the first blank, and the piece cut with quotes does so too
  induction cs generalizing word with
  | nil => rfl
  | cons c rest ih =>
    rw [cutAt, cutQuoted]
    by_cases hblank : isBlank c = true
    · simp [hblank]
    · simp only [if_neg hblank]
      rw [head?_extendFirst (cutAt_ne_nil _ _), head?_extendFirst (cutQuoted_ne_nil _ _)]
      by_cases hquote : isQuote c = true
      · -- the piece starts with a quote, and the word does not
        have hfirst : ∀ tail, word ≠ c :: tail := by
          rintro tail rfl
          exact absurd hquote (by simp [h c (List.mem_cons_self ..)])
        simp [hfirst]
      · rw [if_neg hquote]
        refine exists_congr fun tail => and_congr_left ?_
        rintro rfl
        exact ih fun d hd => h d (List.mem_cons_of_mem _ hd)

/-- Cut either way, a line that does not start with a blank has its first word there. -/
private theorem exists_head?_cutAt {c : Char} (hc : isBlank c = false) (rest : List Char) :
    ∃ piece, (cutAt isBlank (c :: rest)).head? = some (c :: piece) := by
  obtain ⟨piece, hpiece⟩ := Option.ne_none_iff_exists'.mp
    (mt List.head?_eq_none_iff.mp (cutAt_ne_nil isBlank rest))
  refine ⟨piece, ?_⟩
  rw [cutAt, if_neg (by simp [hc]), head?_extendFirst (cutAt_ne_nil _ _)]
  exact ⟨piece, hpiece, rfl⟩

/-- A sign that is no blank starts the piece that it is in, quoted or not. -/
private theorem exists_head?_cutQuoted {c : Char} (hc : isBlank c = false) (rest : List Char) :
    ∃ piece, (cutQuoted none (c :: rest)).head? = some (c :: piece) := by
  obtain ⟨piece, hpiece⟩ := Option.ne_none_iff_exists'.mp (mt List.head?_eq_none_iff.mp
    (cutQuoted_ne_nil (if isQuote c then some c else none) rest))
  refine ⟨piece, ?_⟩
  rw [cutQuoted]
  simp only [hc, Bool.false_eq_true, if_false]
  rw [head?_extendFirst (cutQuoted_ne_nil _ _)]
  exact ⟨piece, hpiece, rfl⟩

/-- Blanks in front of a text cut into no words. -/
private theorem nonemptyTexts_blanks {front : List Char} (h : ∀ c ∈ front, isBlank c = true)
    (cs : List Char) :
    nonemptyTexts (cutAt isBlank (front ++ cs)) = nonemptyTexts (cutAt isBlank cs) := by
  induction front with
  | nil => rfl
  | cons c front ih =>
    rw [List.cons_append, cutAt, if_pos (h c (List.mem_cons_self ..))]
    exact ih fun d hd => h d (List.mem_cons_of_mem _ hd)

/-- Blanks behind a text leave its first word as it is. -/
private theorem head?_cutAt_append {back : List Char} (h : ∀ c ∈ back, isBlank c = true)
    (cs : List Char) : (cutAt isBlank (cs ++ back)).head? = (cutAt isBlank cs).head? := by
  induction cs with
  | nil =>
    cases back with
    | nil => rfl
    | cons c back =>
      simp [cutAt, h c (List.mem_cons_self ..)]
  | cons c cs ih =>
    rw [List.cons_append, cutAt, cutAt]
    split
    · rfl
    · refine Option.ext fun word => ?_
      rw [head?_extendFirst (cutAt_ne_nil _ _), head?_extendFirst (cutAt_ne_nil _ _), ih]

/-- The first word that is not empty is the first piece, if that is not empty. -/
private theorem head?_nonemptyTexts {c : Char} {piece : List Char} {pieces : List (List Char)}
    (h : pieces.head? = some (c :: piece)) :
    (nonemptyTexts pieces).head? = some (String.ofList (c :: piece)) := by
  cases pieces with
  | nil => exact absurd h (by simp)
  | cons first rest =>
    obtain rfl := Option.some.inj h
    rfl

/-- Whether a word without quotes comes first does not depend on the way to cut, nor on blanks
behind the line. -/
theorem head?_words_iff {c : Char} (hc : isBlank c = false) (rest : List Char) {back : List Char}
    (hback : ∀ d ∈ back, isBlank d = true) {word : String}
    (h : ∀ d ∈ word.toList, isQuote d = false) :
    (nonemptyTexts (cutAt isBlank (c :: rest ++ back))).head? = some word ↔
      (nonemptyTexts (cutQuoted none (c :: rest))).head? = some word := by
  obtain ⟨piece, hpiece⟩ := exists_head?_cutAt hc rest
  obtain ⟨quoted, hquoted⟩ := exists_head?_cutQuoted hc rest
  -- the two words may differ, but only where quotes are in them
  have hsame := @head?_cutAt_iff word.toList (c :: rest) h
  rw [hpiece, hquoted, Option.some.injEq, Option.some.injEq] at hsame
  rw [head?_nonemptyTexts ((head?_cutAt_append hback _).trans hpiece), head?_nonemptyTexts hquoted,
    Option.some.injEq, Option.some.injEq, ← String.toList_inj, ← String.toList_inj,
    String.toList_ofList, String.toList_ofList]
  exact hsame

namespace FileCommand

/-- A line is a commit if and only if its first word says so. -/
theorem ofWords_eq_commit_iff {words : List String} :
    ofWords words = .commit ↔ words.head? = some "commit" := by
  constructor
  · intro h
    unfold ofWords at h
    split at h <;> simp_all
  · intro h
    obtain ⟨rest, rfl⟩ := List.head?_eq_some_iff.mp h
    rfl

/-- A line is left out for committing if and only if it commits: what else is in it makes no
difference, nor do quotes. -/
theorem isCommit_iff {line : String} : isCommit line = true ↔ ofText line = .commit := by
  obtain ⟨front, back, hline, hfront, hback, hfirst⟩ := exists_blanks_around line
  have hwords : blankWords line =
      nonemptyTexts (cutAt isBlank ((trim line).toList ++ back)) := by
    rw [blankWords, hline, nonemptyTexts_blanks hfront]
  rw [isCommit, decide_eq_true_iff, hwords, ofText]
  cases hchars : (trim line).toList with
  | nil =>
    -- a blank line has no words
    have hblank := nonemptyTexts_blanks hback []
    rw [List.append_nil] at hblank
    have hnone : quotedWords (trim line) = [] := by
      rw [quotedWords, hchars]
      rfl
    rw [List.nil_append, hblank, if_neg (by simp), hnone]
    exact ⟨fun h => absurd h (by decide), fun h => absurd h (by simp [ofWords])⟩
  | cons c rest =>
    have hc : isBlank c = false := hfirst c (by rw [hchars]; rfl)
    rw [head?_words_iff hc rest hback (by simp [isQuote]), ← hchars]
    split
    next hcomment =>
      -- a comment does not start like the word
      obtain rfl : c = '#' := by
        rw [hchars] at hcomment
        exact Option.some.inj hcomment
      obtain ⟨quoted, hquoted⟩ := exists_head?_cutQuoted hc rest
      rw [hchars, head?_nonemptyTexts hquoted, Option.some.injEq, ← String.toList_inj,
        String.toList_ofList]
      exact ⟨fun h => absurd (List.cons.inj h).1 (by decide), fun h => absurd h (by simp)⟩
    next => exact ofWords_eq_commit_iff.symm

end FileCommand

end RouterConfig
