import Mathlib.Data.List.Infix
import RouterConfig.Pattern.Syntax

/-!
# RouterConfig — what readers of pattern texts leave unread

A reader takes characters from the front of a text, and what it leaves unread is an end of it. How
that end goes on makes no difference to the reader, as long as it starts with a closing parenthesis:
it might as well start with another one, or be empty.
-/

namespace RouterConfig.Pattern

/-! ## Ends of texts -/

/-- A text with another end: `fresh` in the place of `old`. -/
def newEnd (old fresh cs : List Char) : List Char := cs.take (cs.length - old.length) ++ fresh

/-- An end of a text that starts behind its first character. -/
def Behind (old : List Char) : List Char → Prop
  | [] => False
  | _ :: rest => old <:+ rest

/-- Two ends that no reader tells apart: the first starts with a closing parenthesis, and the second
does so too if there is anything in it. -/
structure Alike (old fresh : List Char) : Prop where
  closing : ∃ more, old = ')' :: more
  fresh : fresh = [] ∨ ∃ more, fresh = ')' :: more

section Ends

variable {old fresh cs : List Char} {c : Char}

theorem newEnd_append (old fresh front : List Char) :
    newEnd old fresh (front ++ old) = front ++ fresh := by
  rw [newEnd, List.length_append, Nat.add_sub_cancel_right, List.take_left]

theorem newEnd_self (old fresh : List Char) : newEnd old fresh old = fresh :=
  newEnd_append old fresh []

theorem newEnd_append_of_suffix (h : old <:+ cs) (front : List Char) :
    newEnd old fresh (front ++ cs) = front ++ newEnd old fresh cs := by
  obtain ⟨middle, rfl⟩ := h
  rw [newEnd_append, ← List.append_assoc, newEnd_append, List.append_assoc]

theorem newEnd_cons (h : old <:+ cs) : newEnd old fresh (c :: cs) = c :: newEnd old fresh cs :=
  newEnd_append_of_suffix h [c]

theorem length_newEnd (fresh : List Char) (h : old <:+ cs) :
    (newEnd old fresh cs).length + old.length = cs.length + fresh.length := by
  obtain ⟨front, rfl⟩ := h
  rw [newEnd_append, List.length_append, List.length_append]
  omega

/-- Of two suffixes of a text the shorter one stays the shorter one with another end. -/
theorem length_newEnd_le (fresh : List Char) {more : List Char} (h : old <:+ cs)
    (hmore : cs <:+ more) :
    (newEnd old fresh cs).length ≤ (newEnd old fresh more).length := by
  have hshort := length_newEnd fresh h
  have hlong := length_newEnd fresh (h.trans hmore)
  have hlength := hmore.length_le
  omega

theorem Behind.suffix (h : Behind old cs) : old <:+ cs := by
  cases cs with
  | nil => exact h.elim
  | cons c rest => exact h.trans (List.suffix_cons c rest)

theorem Behind.exists_cons (h : Behind old cs) : ∃ c rest, cs = c :: rest ∧ old <:+ rest := by
  cases cs with
  | nil => exact h.elim
  | cons c rest => exact ⟨c, rest, rfl, h⟩

theorem Behind.length_lt {more : List Char} (h : Behind cs more) : cs.length < more.length := by
  obtain ⟨c, rest, rfl, hcs⟩ := h.exists_cons
  exact Nat.lt_succ_of_le hcs.length_le

theorem length_newEnd_lt (fresh : List Char) {more : List Char} (h : Behind cs more)
    (hold : old <:+ cs) :
    (newEnd old fresh cs).length < (newEnd old fresh more).length := by
  obtain ⟨c, rest, rfl, hcs⟩ := h.exists_cons
  rw [newEnd_cons (hold.trans hcs), List.length_cons]
  exact Nat.lt_succ_of_le (length_newEnd_le fresh hold hcs)

/-- What is behind some of a text is behind more of it. -/
theorem Behind.of_suffix {more : List Char} (h : Behind old cs) (hmore : cs <:+ more) :
    Behind old more := by
  cases more with
  | nil =>
    rw [List.suffix_nil] at hmore
    rw [hmore] at h
    exact h.elim
  | cons c rest =>
    rcases List.suffix_cons_iff.mp hmore with rfl | hmore
    · exact h
    · exact h.suffix.trans hmore

theorem Behind.newEnd_not_isEmpty (h : Behind old cs) : ¬ (newEnd old fresh cs).isEmpty = true := by
  obtain ⟨c, rest, rfl, hrest⟩ := h.exists_cons
  rw [newEnd_cons hrest]
  simp

/-- The first character of a text is the same with another end behind it. -/
theorem head?_newEnd (h : Behind old cs) :
    (newEnd old fresh cs).head? = cs.head? := by
  obtain ⟨c, rest, rfl, hrest⟩ := h.exists_cons
  rw [newEnd_cons hrest]
  rfl

theorem tail_newEnd (h : Behind old cs) :
    (newEnd old fresh cs).tail = newEnd old fresh cs.tail := by
  obtain ⟨c, rest, rfl, hrest⟩ := h.exists_cons
  rw [newEnd_cons hrest]
  rfl

theorem Behind.of_behind {more : List Char} (h : Behind cs more) (hold : old <:+ cs) :
    Behind old more := by
  cases more with
  | nil => exact h.elim
  | cons c rest => exact hold.trans h

theorem suffix_iff_behind : old <:+ cs ↔ cs = old ∨ Behind old cs := by
  cases cs with
  | nil => simp [Behind, eq_comm]
  | cons c rest => rw [List.suffix_cons_iff, Behind, eq_comm]

theorem Alike.ne_nil (h : Alike old fresh) : old ≠ [] := by
  obtain ⟨more, rfl⟩ := h.closing
  simp

/-- Other signs than the closing parenthesis are found where they were before. -/
theorem Alike.exists_of_newEnd_eq_cons (hends : Alike old fresh) (h : old <:+ cs) {sign : Char}
    {rest' : List Char} (hsign : sign ≠ ')') (heq : newEnd old fresh cs = sign :: rest') :
    ∃ rest, cs = sign :: rest ∧ old <:+ rest ∧ rest' = newEnd old fresh rest := by
  rcases suffix_iff_behind.mp h with rfl | hbehind
  · rw [newEnd_self] at heq
    rcases hends.fresh with rfl | ⟨more, rfl⟩
    · exact absurd heq (by simp)
    · exact absurd (List.cons.inj heq).1.symm hsign
  · cases cs with
    | nil => exact hbehind.elim
    | cons c others =>
      rw [newEnd_cons hbehind] at heq
      obtain ⟨rfl, rfl⟩ := List.cons.inj heq
      exact ⟨others, rfl, hbehind, rfl⟩

theorem Alike.newEnd_ne_cons (hends : Alike old fresh) (h : old <:+ cs) {sign : Char}
    (hsign : sign ≠ ')') (hne : ∀ rest, cs ≠ sign :: rest) (rest' : List Char) :
    newEnd old fresh cs ≠ sign :: rest' := by
  intro heq
  obtain ⟨rest, hcs, -, -⟩ := hends.exists_of_newEnd_eq_cons h hsign heq
  exact hne rest hcs

/-- Other signs than the closing parenthesis come first with either end, or with none. -/
theorem Alike.head?_newEnd_iff (hends : Alike old fresh) (h : old <:+ cs) {sign : Char}
    (hsign : sign ≠ ')') : (newEnd old fresh cs).head? = some sign ↔ cs.head? = some sign := by
  constructor
  · intro hhead
    obtain ⟨rest', heq⟩ := List.head?_eq_some_iff.mp hhead
    obtain ⟨rest, rfl, -, -⟩ := hends.exists_of_newEnd_eq_cons h hsign heq
    rfl
  · intro hhead
    obtain ⟨rest, rfl⟩ := List.head?_eq_some_iff.mp hhead
    rcases suffix_iff_behind.mp h with heq | hbehind
    · obtain ⟨more, rfl⟩ := hends.closing
      exact absurd (List.cons.inj heq).1 hsign
    · rw [newEnd_cons hbehind]
      rfl

/-- What is read up to a mark, and what is left behind it. -/
theorem takeWhile_eq_iff {mark : Char} {name rest : List Char} :
    cs.takeWhile (· ≠ mark) = name ∧ (∃ d, cs.drop name.length = d :: rest) ↔
      cs = name ++ mark :: rest ∧ ∀ c ∈ name, c ≠ mark := by
  constructor
  · rintro ⟨hname, d, hdrop⟩
    -- on the signs before the mark
    induction cs generalizing name with
    | nil => exact absurd hdrop (by simp)
    | cons c others ih =>
      by_cases hc : c = mark
      · rw [List.takeWhile_cons_of_neg (by simpa using hc)] at hname
        subst hname
        obtain ⟨-, rfl⟩ := List.cons.inj hdrop
        exact ⟨by rw [hc]; rfl, by simp⟩
      · rw [List.takeWhile_cons_of_pos (by simpa using hc)] at hname
        subst hname
        obtain ⟨hcs, hall⟩ := ih rfl hdrop
        refine ⟨congrArg (c :: ·) hcs, fun e he => ?_⟩
        rcases List.mem_cons.mp he with rfl | he
        · exact hc
        · exact hall e he
  · rintro ⟨rfl, hall⟩
    have hname : (name ++ mark :: rest).takeWhile (· ≠ mark) = name := by
      rw [List.takeWhile_append_of_pos (by simpa using hall)]
      simp
    exact ⟨hname, mark, List.drop_left⟩

/-- What is passed over at the front of a text is so whatever the end is. -/
theorem dropWhile_newEnd {p : Char → Bool} (hstop : p ')' = false) (hends : Alike old fresh)
    (h : old <:+ cs.dropWhile p) :
    (newEnd old fresh cs).dropWhile p = newEnd old fresh (cs.dropWhile p) := by
  -- on the signs: those that are dropped are in front of the end, or the end stops the reader
  induction cs with
  | nil => exact absurd (List.suffix_nil.mp h) hends.ne_nil
  | cons c rest ih =>
    by_cases hc : p c = true
    · rw [List.dropWhile_cons_of_pos hc] at h ⊢
      rw [newEnd_cons (h.trans (List.dropWhile_suffix p)), List.dropWhile_cons_of_pos hc, ih h]
    · rw [List.dropWhile_cons_of_neg hc] at h ⊢
      rcases List.suffix_cons_iff.mp h with rfl | hrest
      · -- the end is where the reader stops, and either end stops it
        rw [newEnd_self]
        rcases hends.fresh with rfl | ⟨more, rfl⟩
        · rfl
        · rw [List.dropWhile_cons_of_neg (by simp [hstop])]
      · rw [newEnd_cons hrest, List.dropWhile_cons_of_neg hc]

end Ends

/-- A reading of a text with another end. -/
def Reading.withEnd (old fresh : List Char) (r : Reading) : Reading :=
  r.moveTo (newEnd old fresh r.rest)

section Readers

variable {old fresh : List Char} {r : Reading}

@[simp] theorem Reading.withEnd_rest : (r.withEnd old fresh).rest = newEnd old fresh r.rest := rfl

@[simp] theorem Reading.withEnd_flags : (r.withEnd old fresh).flags = r.flags := rfl

@[simp] theorem Reading.moveTo_rest (cs : List Char) : (r.moveTo cs).rest = cs := rfl

theorem Reading.withEnd_moveTo (cs : List Char) :
    (r.withEnd old fresh).moveTo (newEnd old fresh cs) = (r.moveTo cs).withEnd old fresh := rfl

theorem Reading.withEnd_rest_cons {c : Char} {rest : List Char} (hrest : r.rest = c :: rest)
    (h : old <:+ rest) : (r.withEnd old fresh).rest = c :: newEnd old fresh rest := by
  rw [withEnd_rest, hrest, newEnd_cons h]

/-! ## Blanks and comments -/

namespace Reading

/-- Skipping blanks and comments leaves an end of the text. -/
theorem skipSpaced_suffix (fuel : Nat) (cs : List Char) : skipSpaced fuel cs <:+ cs := by
  -- on the fuel: a blank is one sign, and a comment all signs up to the end of its line
  induction fuel generalizing cs with
  | zero => exact List.suffix_refl cs
  | succ fuel ih =>
    cases cs with
    | nil => exact List.suffix_refl []
    | cons c rest =>
      rw [skipSpaced]
      by_cases hblank : isBlank c = true
      · rw [if_pos hblank]
        exact (ih rest).trans (List.suffix_cons c rest)
      · rw [if_neg hblank]
        by_cases hcomment : c = '#'
        · rw [if_pos hcomment]
          have hline : (rest.dropWhile (· ≠ '\n')).drop 1 <:+ rest :=
            (List.drop_suffix 1 _).trans (List.dropWhile_suffix _)
          exact (ih _).trans (hline.trans (List.suffix_cons c rest))
        · rw [if_neg hcomment]

/-- A comment ends where it does whatever the end of the text is. -/
theorem drop_comment_newEnd {cs : List Char} (h : old <:+ (cs.dropWhile (· ≠ '\n')).drop 1)
    (hne : old ≠ []) :
    ((newEnd old fresh cs).dropWhile (· ≠ '\n')).drop 1 =
      newEnd old fresh ((cs.dropWhile (· ≠ '\n')).drop 1) := by
  -- the comment ends at a line feed, which is in front of the end if the end is behind the comment
  induction cs with
  | nil => exact absurd (List.suffix_nil.mp h) hne
  | cons c rest ih =>
    have hrest : old <:+ rest := by
      by_cases hc : c = '\n'
      · subst hc
        simpa using h
      · rw [List.dropWhile_cons_of_pos (by simpa using hc)] at h
        exact h.trans ((List.drop_suffix 1 _).trans (List.dropWhile_suffix _))
    rw [newEnd_cons hrest]
    by_cases hc : c = '\n'
    · subst hc
      simp
    · rw [List.dropWhile_cons_of_pos (by simpa using hc)] at h ⊢
      rw [List.dropWhile_cons_of_pos (by simpa using hc)]
      exact ih h

/-- Blanks and comments read the same with another end, if what is left has that end in front of
it. -/
theorem skipSpaced_newEnd (hends : Alike old fresh) {fuel fuel' : Nat} {cs : List Char}
    (hfuel : cs.length < fuel) (hfuel' : (newEnd old fresh cs).length < fuel')
    (h : old <:+ skipSpaced fuel cs) :
    skipSpaced fuel' (newEnd old fresh cs) = newEnd old fresh (skipSpaced fuel cs) := by
  -- both fuels outlast their texts; the induction is on the first, and the second goes with it
  induction fuel generalizing fuel' cs with
  | zero => exact absurd hfuel (Nat.not_lt_zero _)
  | succ fuel ih =>
    obtain ⟨fuel', rfl⟩ : ∃ less, fuel' = less + 1 := Nat.exists_eq_add_one.mpr (by omega)
    cases cs with
    | nil => exact absurd (List.suffix_nil.mp h) hends.ne_nil
    | cons c rest =>
      have hlength : rest.length < fuel := Nat.lt_of_succ_lt_succ hfuel
      rw [skipSpaced] at h ⊢
      by_cases hblank : isBlank c = true
      · -- a blank is skipped in both texts
        rw [if_pos hblank] at h ⊢
        have hrest : old <:+ rest := h.trans (skipSpaced_suffix fuel rest)
        rw [newEnd_cons hrest] at hfuel' ⊢
        rw [skipSpaced, if_pos hblank]
        exact ih hlength (Nat.lt_of_succ_lt_succ hfuel') h
      · rw [if_neg hblank] at h ⊢
        by_cases hcomment : c = '#'
        · -- a comment is skipped up to the same line feed in both
          rw [if_pos hcomment] at h ⊢
          have hline : old <:+ (rest.dropWhile (· ≠ '\n')).drop 1 :=
            h.trans (skipSpaced_suffix fuel _)
          have hbehind : (rest.dropWhile (· ≠ '\n')).drop 1 <:+ rest :=
            (List.drop_suffix 1 _).trans (List.dropWhile_suffix _)
          have hrest : old <:+ rest := hline.trans hbehind
          rw [newEnd_cons hrest] at hfuel' ⊢
          rw [skipSpaced, if_neg hblank, if_pos hcomment, drop_comment_newEnd hline hends.ne_nil]
          have hshorter := length_newEnd_le fresh hline hbehind
          exact ih (Nat.lt_of_le_of_lt hbehind.length_le hlength)
            (Nat.lt_of_le_of_lt hshorter (Nat.lt_of_succ_lt_succ hfuel')) h
        · rw [if_neg hcomment] at h ⊢
          rcases List.suffix_cons_iff.mp h with rfl | hrest
          · -- the blanks stop at the end, and a closing parenthesis is neither blank nor comment
            rw [newEnd_self]
            rcases hends.fresh with rfl | ⟨more, rfl⟩
            · rfl
            · rw [skipSpaced, if_neg (by decide), if_neg (by decide)]
          · rw [newEnd_cons hrest, skipSpaced, if_neg hblank, if_neg hcomment]

theorem skipBlanks_suffix (r : Reading) : r.skipBlanks.rest <:+ r.rest := by
  rw [skipBlanks]
  split
  · exact skipSpaced_suffix _ _
  · exact List.suffix_refl _

/-- The blanks in front of what is read are the same with either end. -/
theorem skipBlanks_withEnd (hends : Alike old fresh) (h : old <:+ r.skipBlanks.rest) :
    (r.withEnd old fresh).skipBlanks = r.skipBlanks.withEnd old fresh := by
  rw [skipBlanks, skipBlanks, withEnd_flags]
  by_cases hspaced : r.flags.spaced = true
  · rw [if_pos hspaced, if_pos hspaced]
    rw [skipBlanks, if_pos hspaced] at h
    have hskip := skipSpaced_newEnd hends (Nat.lt_succ_self r.rest.length)
      (Nat.lt_succ_self (newEnd old fresh r.rest).length) h
    rw [withEnd_rest, hskip]
    rfl
  · rw [if_neg hspaced, if_neg hspaced]

/-- Nothing is passed over in front of a sign that starts neither blanks nor comments. -/
theorem skipBlanks_of_cons {c : Char} {rest : List Char} (hrest : r.rest = c :: rest)
    (hblank : isBlank c = false) (hcomment : c ≠ '#') : r.skipBlanks = r := by
  rw [skipBlanks]
  split
  · rw [hrest, skipSpaced, if_neg (by simp [hblank]), if_neg hcomment, ← hrest]
  · rfl

theorem past_suffix (r : Reading) (cs : List Char) : (r.past cs).rest <:+ cs :=
  skipBlanks_suffix (r.moveTo cs)

theorem past_withEnd (hends : Alike old fresh) {cs : List Char} (h : old <:+ (r.past cs).rest) :
    (r.withEnd old fresh).past (newEnd old fresh cs) = (r.past cs).withEnd old fresh :=
  skipBlanks_withEnd (r := r.moveTo cs) hends h

end Reading

/-! ## Repetitions -/

open Reading

/-- Reading the digits of a count leaves an end of the text. -/
theorem digits_suffix (fuel : Nat) (r : Reading) (ds : List Char) :
    (takeCount.digits fuel r ds).2.rest <:+ r.rest := by
  induction fuel generalizing r ds with
  | zero => exact List.suffix_refl _
  | succ fuel ih =>
    rw [takeCount.digits]
    split
    · next c rest hrest =>
      rw [hrest]
      split
      · exact ((ih _ _).trans (past_suffix r rest)).trans (List.suffix_cons c rest)
      · rw [← hrest]
    · exact List.suffix_refl _

/-- The digits of a count are the same with either end. -/
theorem digits_withEnd (hends : Alike old fresh) {fuel fuel' : Nat} {r : Reading}
    {ds : List Char} (hfuel : r.rest.length ≤ fuel)
    (hfuel' : (newEnd old fresh r.rest).length ≤ fuel')
    (h : old <:+ (takeCount.digits fuel r ds).2.rest) :
    takeCount.digits fuel' (r.withEnd old fresh) ds =
      ((takeCount.digits fuel r ds).1, (takeCount.digits fuel r ds).2.withEnd old fresh) := by
  induction fuel generalizing fuel' r ds with
  | zero =>
    -- no text is left, not even the end
    have hnil : r.rest = [] := List.length_eq_zero_iff.mp (Nat.le_zero.mp hfuel)
    rw [takeCount.digits, hnil] at h
    exact absurd (List.suffix_nil.mp h) hends.ne_nil
  | succ fuel ih =>
    rw [takeCount.digits] at h ⊢
    cases hrest : r.rest with
    | nil =>
      rw [hrest] at h
      exact absurd (List.suffix_nil.mp (hrest ▸ h)) hends.ne_nil
    | cons c rest =>
      rw [hrest] at h hfuel hfuel'
      dsimp only at h ⊢
      by_cases hdigit : c.isDigit = true
      · rw [if_pos hdigit] at h ⊢
        have hpast : old <:+ (r.past rest).rest := h.trans (digits_suffix _ _ _)
        have hbehind : old <:+ rest := hpast.trans (past_suffix r rest)
        rw [newEnd_cons hbehind] at hfuel'
        obtain ⟨fuel', rfl⟩ : ∃ less, fuel' = less + 1 :=
          Nat.exists_eq_add_one.mpr (Nat.lt_of_lt_of_le (Nat.succ_pos _) hfuel')
        have hshorter := (past_suffix r rest).length_le
        have hnew := length_newEnd_le fresh hpast (past_suffix r rest)
        rw [takeCount.digits, withEnd_rest, hrest, newEnd_cons hbehind]
        dsimp only
        rw [if_pos hdigit, past_withEnd hends hpast]
        simp only [List.length_cons] at hfuel hfuel'
        exact ih (by omega) (by omega) h
      · rw [if_neg hdigit] at h ⊢
        -- whatever comes next, it is no digit
        have hstop : ∀ d rest', newEnd old fresh r.rest = d :: rest' → ¬ d.isDigit = true := by
          intro d rest' hd hdigit'
          have hsign : d ≠ ')' := by
            rintro rfl
            exact absurd hdigit' (by decide)
          obtain ⟨rest, hsame, -, -⟩ := hends.exists_of_newEnd_eq_cons h hsign hd
          rw [hrest] at hsame
          exact hdigit ((List.cons.inj hsame).1 ▸ hdigit')
        cases fuel' with
        | zero => rfl
        | succ fuel' =>
          rw [takeCount.digits, withEnd_rest]
          cases hnew : newEnd old fresh r.rest with
          | nil => rfl
          | cons d rest' =>
            dsimp only
            rw [if_neg (hstop d rest' hnew)]

/-- Behind blanks, which mean nothing around counts. -/
def Reading.behindBlanks (r : Reading) : Reading := r.moveTo (r.rest.dropWhile isBlank)

theorem Reading.behindBlanks_suffix (r : Reading) : r.behindBlanks.rest <:+ r.rest :=
  List.dropWhile_suffix isBlank

theorem Reading.behindBlanks_withEnd (hends : Alike old fresh) (h : old <:+ r.behindBlanks.rest) :
    (r.withEnd old fresh).behindBlanks = r.behindBlanks.withEnd old fresh := by
  rw [behindBlanks, withEnd_rest, dropWhile_newEnd (by decide) hends h]
  rfl

/-- The number that the digits of a count write, if there are any and it is not too great. -/
def countOf? (ds : List Char) : Option (Option Nat) :=
  if ds.isEmpty then some none
  else
    let n := ds.foldl (fun n c => 10 * n + (c.toNat - '0'.toNat)) 0
    if n ≤ greatestCount then some (some n) else none

/-- A count is the digits between the blanks around it. -/
theorem takeCount_eq (r : Reading) :
    takeCount r =
      (countOf? (takeCount.digits r.behindBlanks.rest.length r.behindBlanks []).1).map fun n? =>
        (n?, (takeCount.digits r.behindBlanks.rest.length r.behindBlanks []).2.behindBlanks) := by
  unfold takeCount countOf? behindBlanks
  dsimp only
  generalize takeCount.digits _ _ _ = read
  split
  · rfl
  · split <;> rfl

theorem takeCount_suffix {n? : Option Nat} {r₁ : Reading} (h : takeCount r = some (n?, r₁)) :
    r₁.rest <:+ r.rest := by
  rw [takeCount_eq, Option.map_eq_some_iff] at h
  obtain ⟨_, -, heq⟩ := h
  rw [← (Prod.mk.inj heq).2]
  exact ((behindBlanks_suffix _).trans (digits_suffix _ _ _)).trans (behindBlanks_suffix r)

/-- A count reads the same with another end, whose digits are behind it. -/
theorem takeCount_withEnd (hends : Alike old fresh) {n? : Option Nat} {r₁ : Reading}
    (h : takeCount r = some (n?, r₁)) (hold : old <:+ r₁.rest) :
    takeCount (r.withEnd old fresh) = some (n?, r₁.withEnd old fresh) := by
  rw [takeCount_eq, Option.map_eq_some_iff] at h
  obtain ⟨_, hcount, heq⟩ := h
  obtain ⟨rfl, rfl⟩ := Prod.mk.inj heq
  have hdigits := hold.trans (behindBlanks_suffix _)
  have hblanks := behindBlanks_withEnd hends (hdigits.trans (digits_suffix _ _ _))
  rw [takeCount_eq, hblanks, withEnd_rest,
    digits_withEnd hends (Nat.le_refl _) (Nat.le_refl _) hdigits, hcount,
    behindBlanks_withEnd hends hold]
  rfl

/-- Reads the greatest count of a repetition behind its comma: there may be none. -/
def greatest? (r : Reading) : Option (Option Nat × Reading) :=
  if r.rest.head? = some '\x7d' then some (none, r)
  else (takeCount r).bind fun (most?, r₁) => most?.map fun most => (some most, r₁)

/-- Reads the greatest count of a repetition behind the least one: the least one again, or one of
its own behind a comma. -/
def takeMost (r : Reading) (least : Nat) : Option (Option Nat × Reading) :=
  match r.rest with
  | [] => some (some least, r)
  | c :: rest => if c = ',' then greatest? (r.past rest) else some (some least, r)

/-- Reads the closing brace of a counted repetition. -/
def closeCounts (least : Nat) (most? : Option Nat) (r : Reading) :
    Option ((Nat × Option Nat) × Reading) :=
  match r.rest with
  | '\x7d' :: rest =>
    if most?.any (· < least) then none else some ((least, most?), r.past rest)
  | _ => none

/-- Whether there is a greatest count is seen by the brace: only a closing one may follow the
comma. -/
theorem greatest?_bind {α : Type} (r : Reading) (f : Option Nat → Reading → Option α) :
    ((greatest? r).bind fun (most?, r₁) => f most? r₁) =
      match r.rest with
      | '\x7d' :: _ => f none r
      | _ => (takeCount r).bind fun (most?, r₁) => most?.bind fun most => f (some most) r₁ := by
  rw [greatest?]
  -- the closing brace means no greatest count, anything else has to be a number
  cases hrest : r.rest with
  | nil =>
    rw [if_neg (by simp), Option.bind_assoc]
    congr 1
    funext ⟨most?, r₁⟩
    cases most? <;> rfl
  | cons c rest =>
    by_cases hc : c = '\x7d'
    · subst hc
      rfl
    · rw [if_neg (by simpa using hc), Option.bind_assoc]
      split
      · simp_all
      · congr 1
        funext ⟨most?, r₁⟩
        cases most? <;> rfl

/-- The counts of a repetition: the least, a comma or the brace, and the greatest or the brace. -/
theorem takeCounts_eq (r : Reading) :
    takeCounts r =
      (takeCount (r.past r.rest)).bind fun (least?, behind) =>
        least?.bind fun least =>
          (takeMost behind least).bind fun (most?, last) => closeCounts least most? last := by
  rw [takeCounts]
  congr 1
  funext ⟨least?, behind⟩
  cases least? with
  | none => rfl
  | some least =>
    show _ = (takeMost behind least).bind fun (most?, last) => closeCounts least most? last
    rw [takeMost.eq_def]
    dsimp only [bind, Option.bind_some]
    obtain ⟨cs, flags, names, groups⟩ := behind
    cases cs with
    | nil => rfl
    | cons c rest =>
      by_cases hc : c = ','
      · subst hc
        exact (greatest?_bind (Reading.past _ rest) (closeCounts least)).symm
      · dsimp only
        rw [if_neg hc]
        split
        · simp_all
        · rfl

/-- What a counted repetition is made of. -/
theorem takeCounts_eq_some_iff {least : Nat} {most? : Option Nat} {r₁ : Reading} :
    takeCounts r = some ((least, most?), r₁) ↔
      ∃ behind last rest, takeCount (r.past r.rest) = some (some least, behind) ∧
        takeMost behind least = some (most?, last) ∧ last.rest = '\x7d' :: rest ∧
        most?.any (· < least) = false ∧ r₁ = last.past rest := by
  rw [takeCounts_eq]
  -- the number, the comma and its number, and the brace, each as it is read
  constructor
  · intro h
    obtain ⟨⟨least?, behind⟩, hleast, h⟩ := Option.bind_eq_some_iff.mp h
    obtain ⟨least', hleast', h⟩ := Option.bind_eq_some_iff.mp h
    obtain ⟨⟨most?', last⟩, hmost, h⟩ := Option.bind_eq_some_iff.mp h
    dsimp only at h hleast' hmost
    rw [closeCounts] at h
    split at h
    · next rest hrest =>
      by_cases hany : most?'.any (· < least') = true
      · rw [if_pos hany] at h
        exact absurd h (by simp)
      · rw [if_neg hany] at h
        obtain ⟨hcounts, rfl⟩ := Prod.mk.inj (Option.some.inj h)
        obtain ⟨rfl, rfl⟩ := Prod.mk.inj hcounts
        rw [hleast'] at hleast
        exact ⟨behind, last, rest, hleast, hmost, hrest, by simpa using hany, rfl⟩
    · exact absurd h (by simp)
  · rintro ⟨behind, last, rest, hleast, hmost, hrest, hany, rfl⟩
    rw [hleast]
    show (takeMost behind least).bind _ = _
    rw [hmost]
    simp [closeCounts, hrest, hany]

/-- Reading a greatest count leaves an end of the text. -/
theorem greatest?_suffix {most? : Option Nat} {r₁ : Reading}
    (h : greatest? r = some (most?, r₁)) : r₁.rest <:+ r.rest := by
  rw [greatest?] at h
  split at h
  · rw [(Prod.mk.inj (Option.some.inj h)).2]
  · obtain ⟨⟨n?, last⟩, hcount, h⟩ := Option.bind_eq_some_iff.mp h
    obtain ⟨_, -, heq⟩ := Option.map_eq_some_iff.mp h
    rw [← (Prod.mk.inj heq).2]
    exact takeCount_suffix hcount

/-- Reading the comma and the greatest count, if there is one, leaves an end of the text. -/
theorem takeMost_suffix {least : Nat} {most? : Option Nat} {r₁ : Reading}
    (h : takeMost r least = some (most?, r₁)) : r₁.rest <:+ r.rest := by
  rw [takeMost.eq_def] at h
  split at h
  · rw [(Prod.mk.inj (Option.some.inj h)).2]
  · next c rest hrest =>
    split at h
    · rw [hrest]
      exact ((greatest?_suffix h).trans (past_suffix r rest)).trans (List.suffix_cons c rest)
    · rw [(Prod.mk.inj (Option.some.inj h)).2]

/-- A greatest count reads the same with another end. -/
theorem greatest?_withEnd (hends : Alike old fresh) {most? : Option Nat} {r₁ : Reading}
    (h : greatest? r = some (most?, r₁)) (hold : old <:+ r₁.rest) :
    greatest? (r.withEnd old fresh) = some (most?, r₁.withEnd old fresh) := by
  have hkeeps := hold.trans (greatest?_suffix h)
  have hbrace := hends.head?_newEnd_iff hkeeps (show '\x7d' ≠ ')' by decide)
  rw [greatest?] at h ⊢
  rw [withEnd_rest]
  -- the brace stands in one text if and only if it stands in the other
  by_cases hhead : r.rest.head? = some '\x7d'
  · rw [if_pos hhead] at h
    obtain ⟨rfl, rfl⟩ := Prod.mk.inj (Option.some.inj h)
    rw [if_pos (hbrace.mpr hhead)]
  · rw [if_neg hhead] at h
    obtain ⟨⟨n?, last⟩, hcount, h⟩ := Option.bind_eq_some_iff.mp h
    obtain ⟨most, rfl, heq⟩ := Option.map_eq_some_iff.mp h
    obtain ⟨rfl, rfl⟩ := Prod.mk.inj heq
    rw [if_neg (mt hbrace.mp hhead), takeCount_withEnd hends hcount hold]
    rfl

/-- The comma and the greatest count read the same with another end. -/
theorem takeMost_withEnd (hends : Alike old fresh) {least : Nat} {most? : Option Nat}
    {r₁ : Reading} (h : takeMost r least = some (most?, r₁)) (hold : Behind old r₁.rest) :
    takeMost (r.withEnd old fresh) least = some (most?, r₁.withEnd old fresh) := by
  obtain ⟨c, rest, hrest, hsuffix⟩ := (hold.of_suffix (takeMost_suffix h)).exists_cons
  rw [takeMost.eq_def, hrest] at h
  rw [takeMost.eq_def, withEnd_rest_cons hrest hsuffix]
  dsimp only at h ⊢
  by_cases hc : c = ','
  · rw [if_pos hc] at h ⊢
    rw [past_withEnd hends (hold.suffix.trans (greatest?_suffix h))]
    exact greatest?_withEnd hends h hold.suffix
  · rw [if_neg hc] at h ⊢
    obtain ⟨rfl, rfl⟩ := Prod.mk.inj (Option.some.inj h)
    rfl

/-- The counts end with a brace, so the end is behind at least one of their signs. -/
theorem takeCounts_behind {counts : Nat × Option Nat} {r₁ : Reading}
    (h : takeCounts r = some (counts, r₁)) (hold : old <:+ r₁.rest) :
    Behind old (r.past r.rest).rest := by
  obtain ⟨least, most?⟩ := counts
  obtain ⟨behind, last, rest, hleast, hmost, hrest, -, rfl⟩ := takeCounts_eq_some_iff.mp h
  have hlast : Behind old last.rest := by
    rw [hrest]
    exact hold.trans (past_suffix last rest)
  exact hlast.of_suffix ((takeMost_suffix hmost).trans (takeCount_suffix hleast))

/-- The counts read the same with another end, which is behind the brace. -/
theorem takeCounts_withEnd (hends : Alike old fresh) {counts : Nat × Option Nat} {r₁ : Reading}
    (h : takeCounts r = some (counts, r₁)) (hold : old <:+ r₁.rest) :
    takeCounts (r.withEnd old fresh) = some (counts, r₁.withEnd old fresh) := by
  have hpast : old <:+ (r.past r.rest).rest := (takeCounts_behind h hold).suffix
  obtain ⟨least, most?⟩ := counts
  obtain ⟨behind, last, rest, hleast, hmost, hrest, hany, rfl⟩ := takeCounts_eq_some_iff.mp h
  have hafter : old <:+ rest := hold.trans (past_suffix last rest)
  have hlast : Behind old last.rest := by
    rw [hrest]
    exact hafter
  -- the closing brace is in front of the end, so that each of the stages leaves the end unread
  have hbehind := hlast.suffix.trans (takeMost_suffix hmost)
  refine takeCounts_eq_some_iff.mpr ⟨behind.withEnd old fresh, last.withEnd old fresh,
    newEnd old fresh rest, ?_, takeMost_withEnd hends hmost hlast, ?_, hany,
    (past_withEnd hends hold).symm⟩
  · rw [withEnd_rest, past_withEnd hends hpast]
    exact takeCount_withEnd hends hleast hbehind
  · rw [withEnd_rest, hrest, newEnd_cons hafter]

/-- Looking for the sign of greed leaves an end of the text. -/
theorem takeGreed_suffix (r : Reading) : (takeGreed r).2.rest <:+ r.rest := by
  rw [takeGreed]
  split
  · next rest hrest =>
    rw [hrest]
    exact List.suffix_cons _ rest
  · exact List.suffix_refl _

/-- Whether a repetition is greedy does not depend on the end behind it. -/
theorem takeGreed_withEnd (hends : Alike old fresh) (h : old <:+ (takeGreed r).2.rest) :
    takeGreed (r.withEnd old fresh) =
      ((takeGreed r).1, (takeGreed r).2.withEnd old fresh) := by
  have hkeeps := h.trans (takeGreed_suffix r)
  rw [takeGreed] at h
  split at h
  · next rest hrest =>
    have hbehind : old <:+ rest := h
    simp only [takeGreed, withEnd_rest, hrest, newEnd_cons hbehind]
    rfl
  · next hother =>
    have hnew := hends.newEnd_ne_cons hkeeps (by decide) hother
    rw [takeGreed, takeGreed]
    split
    · next more hmore => exact absurd hmore (hnew more)
    · rfl

end Readers

end RouterConfig.Pattern
