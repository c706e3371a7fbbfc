import RouterConfig.Proofs.Pattern.Readers

/-!
# RouterConfig — single elements, as they are read

What the reader of an element leaves unread makes no difference to it, with one reservation: behind
`\b` it looks into braces, which takes that there is something in them.
-/

namespace RouterConfig.Pattern

open Reading RouterConfig.Unicode

variable {old fresh : List Char} {r r₁ : Reading}

/-! ## Numbers, properties and names in braces -/

/-- Reading digits leaves an end of the text. -/
theorem takeHexDigits_suffix {count : Nat} {ds ds' : List Char}
    (h : takeHexDigits r count ds = some (ds', r₁)) : r₁.rest <:+ r.rest := by
  induction count generalizing r ds with
  | zero =>
    rw [takeHexDigits] at h
    obtain ⟨-, rfl⟩ := Prod.mk.inj (Option.some.inj h)
    exact List.suffix_refl _
  | succ count ih =>
    rw [takeHexDigits] at h
    split at h
    · next c rest hrest =>
      rw [hrest]
      split at h
      · exact ((ih h).trans (past_suffix r rest)).trans (List.suffix_cons c rest)
      · exact absurd h (by simp)
    · exact absurd h (by simp)

/-- The digits read the same with another end, which stands behind all of them. -/
theorem takeHexDigits_withEnd (hends : Alike old fresh) {count : Nat} {ds ds' : List Char}
    (h : takeHexDigits r count ds = some (ds', r₁)) (hold : old <:+ r₁.rest) :
    takeHexDigits (r.withEnd old fresh) count ds = some (ds', r₁.withEnd old fresh) := by
  -- on the digits that are still to be read, each of which is one sign in front of the end
  induction count generalizing r ds with
  | zero =>
    rw [takeHexDigits] at h
    obtain ⟨rfl, rfl⟩ := Prod.mk.inj (Option.some.inj h)
    rfl
  | succ count ih =>
    rw [takeHexDigits] at h
    split at h
    · next c rest hrest =>
      split at h
      · next hdigit =>
        have hpast : old <:+ (r.past rest).rest := hold.trans (takeHexDigits_suffix h)
        rw [takeHexDigits, withEnd_rest, hrest, newEnd_cons (hpast.trans (past_suffix r rest))]
        dsimp only
        rw [if_pos hdigit, past_withEnd hends hpast]
        exact ih h
      · exact absurd h (by simp)
    · exact absurd h (by simp)

/-- Reads characters up to a closing brace and perhaps blanks behind it. -/
def takeInBraces (accepts : Char → Bool) (skips : Bool) :
    (fuel : Nat) → Reading → List Char → Option (List Char × Reading)
  | 0, _, _ => none
  | fuel + 1, r, text =>
    match r.rest with
    | [] => none
    | c :: rest =>
      if c = '\x7d' then some (text, if skips then r.past rest else r.moveTo rest)
      else if accepts c then takeInBraces accepts skips fuel (r.past rest) (text ++ [c])
      else none

/-- A name in braces is anything up to the closing brace. -/
theorem takeBraced_eq (fuel : Nat) (r : Reading) (text : List Char) :
    takeBraced fuel r text = takeInBraces (fun _ => true) false fuel r text := by
  induction fuel generalizing r text with
  | zero => rfl
  | succ fuel ih =>
    rw [takeBraced, takeInBraces]
    cases r.rest with
    | nil => rfl
    | cons c rest =>
      by_cases hc : c = '\x7d'
      · subst hc
        rfl
      · split <;> simp_all

/-- The name of an assertion is made of letters up to the closing brace. -/
theorem takeAssertionName_eq (fuel : Nat) (r : Reading) (name : List Char) :
    takeAssertionName fuel r name = takeInBraces isAssertionChar false fuel r name := by
  induction fuel generalizing r name with
  | zero => rfl
  | succ fuel ih =>
    rw [takeAssertionName, takeInBraces]
    cases r.rest with
    | nil => rfl
    | cons c rest =>
      by_cases hc : c = '\x7d'
      · subst hc
        rfl
      · split <;> simp_all

/-- A number in braces is made of digits up to the closing brace, of which there has to be one. -/
theorem takeHexBraced_eq (fuel : Nat) (r : Reading) (ds : List Char) :
    takeHexBraced fuel r ds =
      (takeInBraces (fun c => (hexDigit? c).isSome) true fuel r ds).filter fun read =>
        !read.1.isEmpty := by
  -- both readers take the digits up to the brace; only what they do with them differs
  induction fuel generalizing r ds with
  | zero => rfl
  | succ fuel ih =>
    rw [takeHexBraced, takeInBraces]
    cases r.rest with
    | nil => rfl
    | cons c rest =>
      by_cases hc : c = '\x7d'
      · subst hc
        cases ds <;> rfl
      · split
        · simp_all
        · next d more _ heq =>
          obtain ⟨rfl, rfl⟩ := List.cons.inj heq
          dsimp only
          rw [if_neg hc, ih]
          split <;> rfl
        · simp_all

section InBraces

variable {accepts : Char → Bool} {skips : Bool}

/-- What is read in braces ends with the brace, so at least that is left behind. -/
theorem takeInBraces_behind {fuel : Nat} {text text' : List Char}
    (h : takeInBraces accepts skips fuel r text = some (text', r₁)) : Behind r₁.rest r.rest := by
  -- on the fuel: the brace ends the reading, and every other sign is left behind
  induction fuel generalizing r text with
  | zero => exact absurd h (by simp [takeInBraces])
  | succ fuel ih =>
    rw [takeInBraces] at h
    split at h
    · exact absurd h (by simp)
    · next c rest hrest =>
      rw [hrest]
      show r₁.rest <:+ rest
      split at h
      · obtain ⟨-, rfl⟩ := Prod.mk.inj (Option.some.inj h)
        split
        · exact past_suffix r rest
        · exact List.suffix_refl rest
      · split at h
        · exact (ih h).suffix.trans (past_suffix r rest)
        · exact absurd h (by simp)

/-- What stands in braces reads the same with another end, which stands behind the closing brace. -/
theorem takeInBraces_withEnd (hends : Alike old fresh) {fuel fuel' : Nat}
    {text text' : List Char} (hfuel' : (newEnd old fresh r.rest).length < fuel')
    (h : takeInBraces accepts skips fuel r text = some (text', r₁)) (hold : old <:+ r₁.rest) :
    takeInBraces accepts skips fuel' (r.withEnd old fresh) text =
      some (text', r₁.withEnd old fresh) := by
  -- on the fuel of the reading that is known; the other fuel outlasts its own text
  induction fuel generalizing fuel' r text with
  | zero => exact absurd h (by simp [takeInBraces])
  | succ fuel ih =>
    obtain ⟨fuel', rfl⟩ : ∃ less, fuel' = less + 1 := Nat.exists_eq_add_one.mpr (by omega)
    have hbehind : Behind old r.rest := (takeInBraces_behind h).of_behind hold
    rw [takeInBraces] at h
    split at h
    · exact absurd h (by simp)
    · next c rest hrest =>
      rw [hrest] at hbehind hfuel'
      have hold' : old <:+ rest := hbehind
      rw [newEnd_cons hold', List.length_cons] at hfuel'
      rw [takeInBraces, withEnd_rest, hrest, newEnd_cons hold']
      dsimp only
      by_cases hbrace : c = '\x7d'
      · rw [if_pos hbrace] at h ⊢
        obtain ⟨rfl, rfl⟩ := Prod.mk.inj (Option.some.inj h)
        cases skips with
        | true =>
          have hpast : old <:+ (r.past rest).rest := hold
          rw [if_pos rfl, if_pos rfl, past_withEnd hends hpast]
        | false => rfl
      · rw [if_neg hbrace] at h ⊢
        by_cases haccepts : accepts c = true
        · rw [if_pos haccepts] at h ⊢
          have hpast : old <:+ (r.past rest).rest :=
            ((takeInBraces_behind h).of_behind hold).suffix
          rw [past_withEnd hends hpast]
          have hshorter := length_newEnd_le fresh hpast (past_suffix r rest)
          exact ih (Nat.lt_of_le_of_lt hshorter (Nat.lt_of_succ_lt_succ hfuel')) h
        · rw [if_neg haccepts] at h
          exact absurd h (by simp)

end InBraces

/-! ## Escapes -/

/-- Behind blanks, a certain sign has something in front of the end, so that it may be looked at. -/
def Roomy (old : List Char) (sign : Char) (r : Reading) : Prop :=
  ∀ rest, r.rest = sign :: rest → Behind old (r.past rest).rest

/-- Reading a character by its number leaves an end of the text, in braces or not. -/
theorem takeHex_suffix {width : Nat} {e : Element} (h : takeHex r width = some (e, r₁)) :
    r₁.rest <:+ r.rest := by
  rw [takeHex] at h
  split at h
  · next rest hrest =>
    obtain ⟨⟨ds, last⟩, hbraced, h⟩ := Option.bind_eq_some_iff.mp h
    obtain ⟨_, -, h⟩ := Option.bind_eq_some_iff.mp h
    obtain ⟨-, rfl⟩ := Prod.mk.inj (Option.some.inj h)
    rw [takeHexBraced_eq, Option.filter_eq_some_iff] at hbraced
    rw [hrest]
    exact ((takeInBraces_behind hbraced.1).suffix.trans (past_suffix r rest)).trans
      (List.suffix_cons _ rest)
  · obtain ⟨⟨ds, last⟩, hdigits, h⟩ := Option.bind_eq_some_iff.mp h
    obtain ⟨_, -, h⟩ := Option.bind_eq_some_iff.mp h
    obtain ⟨-, rfl⟩ := Prod.mk.inj (Option.some.inj h)
    exact takeHexDigits_suffix hdigits

/-- A character by its number reads the same with another end. -/
theorem takeHex_withEnd (hends : Alike old fresh) {width : Nat} {e : Element}
    (h : takeHex r width = some (e, r₁)) (hold : old <:+ r₁.rest) :
    takeHex (r.withEnd old fresh) width = some (e, r₁.withEnd old fresh) := by
  have hkeeps := hold.trans (takeHex_suffix h)
  rw [takeHex] at h
  split at h
  · next rest hrest =>
    obtain ⟨⟨ds, last⟩, hbraced, h⟩ := Option.bind_eq_some_iff.mp h
    obtain ⟨c, hc, h⟩ := Option.bind_eq_some_iff.mp h
    obtain ⟨rfl, rfl⟩ := Prod.mk.inj (Option.some.inj h)
    rw [takeHexBraced_eq, Option.filter_eq_some_iff] at hbraced
    have hpast : old <:+ (r.past rest).rest :=
      ((takeInBraces_behind hbraced.1).of_behind hold).suffix
    have hbehind : old <:+ rest := hpast.trans (past_suffix r rest)
    have hlength : (newEnd old fresh (r.past rest).rest).length <
        (newEnd old fresh rest).length + 1 :=
      Nat.lt_succ_of_le (length_newEnd_le fresh hpast (past_suffix r rest))
    have hread : takeHexBraced ((newEnd old fresh rest).length + 1)
        ((r.past rest).withEnd old fresh) [] = some (ds, last.withEnd old fresh) := by
      rw [takeHexBraced_eq, takeInBraces_withEnd hends hlength hbraced.1 hold]
      exact Option.filter_eq_some_iff.mpr ⟨rfl, hbraced.2⟩
    -- the digits stand for the same character at either end
    simp only [takeHex, withEnd_rest, hrest, newEnd_cons hbehind, past_withEnd hends hpast, hread]
    show ((hexNumber? ds).bind charOfNumber?).bind _ = _
    rw [hc]
    rfl
  · next hother =>
    obtain ⟨⟨ds, last⟩, hdigits, h⟩ := Option.bind_eq_some_iff.mp h
    obtain ⟨c, hc, h⟩ := Option.bind_eq_some_iff.mp h
    obtain ⟨rfl, rfl⟩ := Prod.mk.inj (Option.some.inj h)
    -- the other end brings no brace that was not there before
    have hnew := hends.newEnd_ne_cons hkeeps (by decide) hother
    rw [takeHex]
    split
    · next more hmore => exact absurd hmore (hnew more)
    · rw [takeHexDigits_withEnd hends hdigits hold]
      show ((hexNumber? ds).bind charOfNumber?).bind _ = _
      rw [hc]
      rfl

/-- The text of a property, which stands in braces or is a single letter. -/
def takePropertyText (r : Reading) : Option (List Char × Reading) :=
  match r.rest with
  | '\x7b' :: rest => takeInBraces (fun _ => true) false (rest.length + 1) (r.past rest) []
  | c :: rest => if c = '\\' then none else some ([c], r.past rest)
  | [] => none

/-- The element that a property is. -/
def propertyElement (flags : Flags) (negated : Bool) (property : CodeSet × Bool) : Element :=
  let set := foldSet flags property.1
  .set (if negated != property.2 then set.complement else set)

/-- A property is a name that stands for a set, where the flags allow one at all. -/
theorem takeProperty_eq (r : Reading) (negated : Bool) :
    takeProperty r negated =
      if r.flags.unicode then
        (takePropertyText r).bind fun (text, r₁) =>
          (propertySet? text).map fun property => (propertyElement r₁.flags negated property, r₁)
      else none := by
  rw [takeProperty, takePropertyText]
  cases hunicode : r.flags.unicode with
  | false => rfl
  | true =>
    rw [if_neg (by decide), if_pos rfl]
    cases hrest : r.rest with
    | nil => rfl
    -- the name of a property is in braces or is one character, which is no backslash
    | cons c rest =>
      by_cases hc : c = '\x7b'
      · subst hc
        simp only [takeBraced_eq]
        cases takeInBraces _ _ _ _ _ with
        | none => rfl
        | some read =>
          show ((propertySet? read.1).bind _) = (propertySet? read.1).map _
          cases propertySet? read.1 <;> rfl
      · simp only
        by_cases hslash : c = '\\'
        · rw [if_pos hslash, if_pos hslash]
          rfl
        · rw [if_neg hslash, if_neg hslash]
          show ((propertySet? [c]).bind _) = (propertySet? [c]).map _
          cases propertySet? [c] <;> rfl

/-- The name of a property has at least one sign. -/
theorem takePropertyText_behind {text : List Char} (h : takePropertyText r = some (text, r₁)) :
    Behind r₁.rest r.rest := by
  rw [takePropertyText] at h
  split at h
  · next rest hrest =>
    rw [hrest]
    exact (takeInBraces_behind h).suffix.trans (past_suffix r rest)
  · next c rest _ hrest =>
    split at h
    · exact absurd h (by simp)
    · obtain ⟨-, rfl⟩ := Prod.mk.inj (Option.some.inj h)
      rw [hrest]
      exact past_suffix r rest
  · exact absurd h (by simp)

/-- The name of a property reads the same with another end. -/
theorem takePropertyText_withEnd (hends : Alike old fresh) {text : List Char}
    (h : takePropertyText r = some (text, r₁)) (hold : old <:+ r₁.rest) :
    takePropertyText (r.withEnd old fresh) = some (text, r₁.withEnd old fresh) := by
  have hbehind : Behind old r.rest := (takePropertyText_behind h).of_behind hold
  rw [takePropertyText] at h
  split at h
  · -- in braces the name is read up to the brace, which is in front of the end
    next rest hrest =>
    have hpast : old <:+ (r.past rest).rest := ((takeInBraces_behind h).of_behind hold).suffix
    have hrest' : old <:+ rest := hpast.trans (past_suffix r rest)
    have hlength : (newEnd old fresh (r.past rest).rest).length <
        (newEnd old fresh rest).length + 1 :=
      Nat.lt_succ_of_le (length_newEnd_le fresh hpast (past_suffix r rest))
    simp only [takePropertyText, withEnd_rest, hrest, newEnd_cons hrest', past_withEnd hends hpast,
      takeInBraces_withEnd hends hlength h hold]
  · next c rest hbrace hrest =>
    split at h
    · exact absurd h (by simp)
    · next hslash =>
      obtain ⟨rfl, rfl⟩ := Prod.mk.inj (Option.some.inj h)
      have hrest' : old <:+ rest := hold.trans (past_suffix r rest)
      rw [takePropertyText, withEnd_rest, hrest, newEnd_cons hrest']
      split
      · next more heq => exact absurd (List.cons.inj heq).1 hbrace
      · next d more _ heq =>
        obtain ⟨rfl, rfl⟩ := List.cons.inj heq
        rw [if_neg hslash, past_withEnd hends hold]
      · next heq => exact absurd heq (by simp)
  · exact absurd h (by simp)

/-- Reading a property leaves an end of the text. -/
theorem takeProperty_suffix {negated : Bool} {e : Element}
    (h : takeProperty r negated = some (e, r₁)) : r₁.rest <:+ r.rest := by
  rw [takeProperty_eq] at h
  split at h
  · obtain ⟨⟨text, last⟩, htext, h⟩ := Option.bind_eq_some_iff.mp h
    obtain ⟨_, -, heq⟩ := Option.map_eq_some_iff.mp h
    rw [← (Prod.mk.inj heq).2]
    exact (takePropertyText_behind htext).suffix
  · exact absurd h (by simp)

/-- A property reads the same with another end. -/
theorem takeProperty_withEnd (hends : Alike old fresh) {negated : Bool} {e : Element}
    (h : takeProperty r negated = some (e, r₁)) (hold : old <:+ r₁.rest) :
    takeProperty (r.withEnd old fresh) negated = some (e, r₁.withEnd old fresh) := by
  rw [takeProperty_eq] at h ⊢
  split at h
  · next hunicode =>
    obtain ⟨⟨text, last⟩, htext, h⟩ := Option.bind_eq_some_iff.mp h
    obtain ⟨property, hproperty, heq⟩ := Option.map_eq_some_iff.mp h
    obtain ⟨rfl, rfl⟩ := Prod.mk.inj heq
    rw [withEnd_flags, if_pos hunicode, takePropertyText_withEnd hends htext hold]
    show (propertySet? text).map _ = _
    rw [hproperty]
    rfl
  · exact absurd h (by simp)

/-- The assertion that a name in braces behind `\b` stands for. -/
def namedAssertion? (ascii : Bool) : String → Option Anchor
  | "start" => some (.wordStart ascii)
  | "end" => some (.wordEnd ascii)
  | "start-half" => some (.afterNoWord ascii)
  | "end-half" => some (.beforeNoWord ascii)
  | _ => none

/-- Reads what is in the braces behind `\b`: a name, or something else that is left to be read. -/
def bracedAssertion? (r inside : Reading) (fuel : Nat) : Option (Element × Reading) :=
  match inside.rest with
  | [] => none
  | c :: _ =>
    if isAssertionChar c then
      (takeInBraces isAssertionChar false fuel inside []).bind fun (name, r₁) =>
        (namedAssertion? (!r.flags.unicode) (String.ofList name)).map fun a => (.anchor a, r₁)
    else some (.anchor (.wordBoundary (!r.flags.unicode)), r)

/-- A word assertion may go on in braces; without them it is the boundary of a word. -/
theorem takeWordAssertion_eq (r : Reading) :
    takeWordAssertion r =
      match r.rest with
      | '\x7b' :: rest => bracedAssertion? r (r.past rest) (rest.length + 1)
      | _ => some (.anchor (.wordBoundary (!r.flags.unicode)), r) := by
  rw [takeWordAssertion]
  cases hrest : r.rest with
  | nil => rfl
  | cons c rest =>
    by_cases hc : c = '\x7b'
    · subst hc
      simp only [takeAssertionName_eq, bracedAssertion?.eq_def]
      cases (r.past rest).rest with
      -- a name is looked at only if its first character can begin one
      | nil => rfl
      | cons d more =>
        cases hd : isAssertionChar d with
        | false => simp [hd]
        | true =>
          simp only [hd, Bool.not_true, Bool.false_eq_true, if_false, if_true]
          cases takeInBraces _ _ _ _ _ with
          | none => rfl
          | some read =>
            show _ = (namedAssertion? (!r.flags.unicode) (String.ofList read.1)).map _
            rw [namedAssertion?.eq_def]
            dsimp only [bind, Option.bind]
            split <;> simp_all
    · split
      · simp_all
      · simp_all

/-- A name in the braces is read, with the brace behind it; anything else there is left. -/
theorem bracedAssertion?_eq_some_iff {inside : Reading} {fuel : Nat} {e : Element} :
    bracedAssertion? r inside fuel = some (e, r₁) ↔ ∃ c more, inside.rest = c :: more ∧
      ((isAssertionChar c = true ∧ ∃ name a,
          takeInBraces isAssertionChar false fuel inside [] = some (name, r₁) ∧
            namedAssertion? (!r.flags.unicode) (String.ofList name) = some a ∧ e = .anchor a) ∨
        (isAssertionChar c = false ∧ e = .anchor (.wordBoundary (!r.flags.unicode)) ∧ r₁ = r)) := by
  rw [bracedAssertion?.eq_def]
  -- either the name is read to its brace, or what stands there begins no name
  constructor
  · intro h
    split at h
    · exact absurd h (by simp)
    · next c more hmore =>
      refine ⟨c, more, hmore, ?_⟩
      split at h
      · next hc =>
        obtain ⟨⟨name, last⟩, hname, h⟩ := Option.bind_eq_some_iff.mp h
        obtain ⟨a, ha, heq⟩ := Option.map_eq_some_iff.mp h
        obtain ⟨rfl, rfl⟩ := Prod.mk.inj heq
        exact .inl ⟨hc, name, a, hname, ha, rfl⟩
      · next hc =>
        obtain ⟨rfl, rfl⟩ := Prod.mk.inj (Option.some.inj h)
        exact .inr ⟨Bool.eq_false_iff.mpr hc, rfl, rfl⟩
  · rintro ⟨c, more, hmore, ⟨hc, name, a, hname, ha, rfl⟩ | ⟨hc, rfl, rfl⟩⟩
    · rw [hmore]
      dsimp only
      rw [if_pos hc, hname, Option.bind_some]
      dsimp only
      rw [ha]
      rfl
    · rw [hmore]
      dsimp only
      rw [if_neg (Bool.eq_false_iff.mp hc)]

/-- Whatever follows, `\b` stands for a condition on the place. -/
theorem takeWordAssertion_isAnchor {e : Element} (h : takeWordAssertion r = some (e, r₁)) :
    ∃ a, e = .anchor a := by
  rw [takeWordAssertion_eq] at h
  split at h
  · obtain ⟨_, _, -, ⟨-, _, a, -, -, rfl⟩ | ⟨-, rfl, -⟩⟩ := bracedAssertion?_eq_some_iff.mp h
    · exact ⟨a, rfl⟩
    · exact ⟨_, rfl⟩
  · exact ⟨_, (Prod.mk.inj (Option.some.inj h)).1.symm⟩

/-- Reading a word assertion leaves an end of the text, and all of it where no name is in braces. -/
theorem takeWordAssertion_suffix {e : Element} (h : takeWordAssertion r = some (e, r₁)) :
    r₁.rest <:+ r.rest := by
  rw [takeWordAssertion_eq] at h
  split at h
  · next rest hrest =>
    obtain ⟨_, _, -, ⟨-, _, _, hname, -, -⟩ | ⟨-, -, rfl⟩⟩ := bracedAssertion?_eq_some_iff.mp h
    · rw [hrest]
      exact ((takeInBraces_behind hname).suffix.trans (past_suffix r rest)).trans
        (List.suffix_cons _ rest)
    · exact List.suffix_refl _
  · rw [← (Prod.mk.inj (Option.some.inj h)).2]

/-- A brace behind `\b` is looked into, which takes that there is something in it. -/
theorem takeWordAssertion_withEnd (hends : Alike old fresh) {e : Element}
    (h : takeWordAssertion r = some (e, r₁)) (hold : old <:+ r₁.rest)
    (hroom : Roomy old '\x7b' r₁) :
    takeWordAssertion (r.withEnd old fresh) = some (e, r₁.withEnd old fresh) := by
  have hkeeps := hold.trans (takeWordAssertion_suffix h)
  rw [takeWordAssertion_eq] at h ⊢
  split at h
  · next rest hrest =>
    obtain ⟨c, more, hmore, hread⟩ := bracedAssertion?_eq_some_iff.mp h
    -- a name in the braces has been read; other braces are left to be read, with room in them
    have hinside : Behind old (r.past rest).rest := by
      rcases hread with ⟨-, _, _, hname, -, -⟩ | ⟨-, -, rfl⟩
      · exact (takeInBraces_behind hname).of_behind hold
      · exact hroom rest hrest
    have hrest' : old <:+ rest := hinside.suffix.trans (past_suffix r rest)
    simp only [withEnd_rest, hrest, newEnd_cons hrest', past_withEnd hends hinside.suffix]
    have hlength : (newEnd old fresh (r.past rest).rest).length <
        (newEnd old fresh rest).length + 1 :=
      Nat.lt_succ_of_le (length_newEnd_le fresh hinside.suffix (past_suffix r rest))
    rw [hmore] at hinside
    refine bracedAssertion?_eq_some_iff.mpr ⟨c, newEnd old fresh more, ?_, ?_⟩
    · rw [withEnd_rest, hmore, newEnd_cons (show old <:+ more from hinside)]
    · rw [withEnd_flags]
      rcases hread with ⟨hc, name, a, hname, ha, rfl⟩ | ⟨hc, rfl, rfl⟩
      · exact .inl ⟨hc, name, a, takeInBraces_withEnd hends hlength hname hold, ha, rfl⟩
      · exact .inr ⟨hc, rfl, rfl⟩
  · -- without a brace the assertion is one about words, at either end
    next hother =>
    obtain ⟨rfl, rfl⟩ := Prod.mk.inj (Option.some.inj h)
    have hnew := hends.newEnd_ne_cons hkeeps (by decide) hother
    split
    · next more hmore => exact absurd hmore (hnew more)
    · rfl

/-- What the character behind a backslash announces. -/
inductive Escape where
  | element (e : Element)
  | number (width : Nat)
  | property (negated : Bool)
  | word

/-- The escape that a letter of its own meaning starts. -/
def letterEscape? (unicode : Bool) (c : Char) : Option Escape :=
  let char (n : Nat) : Option Escape := some (.element (.literal n false))
  match c with
  | 'a' => char 7
  | 'f' => char 12
  | 't' => char 9
  | 'n' => char 10
  | 'r' => char 13
  | 'v' => char 11
  | 'A' => some (.element (.anchor .textStart))
  | 'z' => some (.element (.anchor .textEnd))
  | 'b' => some .word
  | 'B' => some (.element (.anchor (.insideOrOutsideWord (!unicode))))
  | '<' => some (.element (.anchor (.wordStart (!unicode))))
  | '>' => some (.element (.anchor (.wordEnd (!unicode))))
  | _ => none

/-- The escape that a character starts. -/
def escape? (unicode : Bool) (c : Char) : Option Escape :=
  if c.isDigit then none
  else if c = 'x' then some (.number 2)
  else if c = 'u' then some (.number 4)
  else if c = 'U' then some (.number 8)
  else if c = 'p' then some (.property false)
  else if c = 'P' then some (.property true)
  else if isEscapable c then some (.element (.literal c.toNat false))
  else
    match classOfLetter? unicode c with
    | some set => some (.element (.set (if c.isUpper then set.complement else set)))
    | none => letterEscape? unicode c

/-- Reads what is left of an escape behind its character. -/
def Escape.read (r : Reading) (rest : List Char) : Escape → Option (Element × Reading)
  | .element e => some (e, r.moveTo rest)
  | .number width => takeHex (r.past rest) width
  | .property negated => takeProperty (r.past rest) negated
  | .word => takeWordAssertion (r.moveTo rest)

/-- The letters that have a meaning of their own, and what each of them stands for. -/
theorem letterEscape?_bind (r : Reading) (c : Char) (rest : List Char) :
    ((letterEscape? r.flags.unicode c).bind fun escape => escape.read r rest) =
      match c with
      | 'a' => some (.literal 7 false, r.moveTo rest)
      | 'f' => some (.literal 12 false, r.moveTo rest)
      | 't' => some (.literal 9 false, r.moveTo rest)
      | 'n' => some (.literal 10 false, r.moveTo rest)
      | 'r' => some (.literal 13 false, r.moveTo rest)
      | 'v' => some (.literal 11 false, r.moveTo rest)
      | 'A' => some (.anchor .textStart, r.moveTo rest)
      | 'z' => some (.anchor .textEnd, r.moveTo rest)
      | 'b' => takeWordAssertion (r.moveTo rest)
      | 'B' => some (.anchor (.insideOrOutsideWord (!r.flags.unicode)), r.moveTo rest)
      | '<' => some (.anchor (.wordStart (!r.flags.unicode)), r.moveTo rest)
      | '>' => some (.anchor (.wordEnd (!r.flags.unicode)), r.moveTo rest)
      | _ => none := by
  rw [letterEscape?.eq_def]
  dsimp only
  split <;> rfl

/-- An escape is one of the signs there are for it, and the rest is read by the kind it is. -/
theorem takeEscape_eq {c : Char} {rest : List Char} (hrest : r.rest = c :: rest) :
    takeEscape r = (escape? r.flags.unicode c).bind fun escape => escape.read r rest := by
  rw [takeEscape, hrest, escape?]
  dsimp only
  -- both take the same seven questions in the same order, before the letters
  iterate 7 (split; · rfl)
  cases classOfLetter? r.flags.unicode c with
  | some set => rfl
  | none => exact (letterEscape?_bind r c rest).symm

/-- Reading on behind the sign of an escape leaves an end of the text. -/
theorem Escape.read_suffix {escape : Escape} {rest : List Char} {e : Element}
    (h : escape.read r rest = some (e, r₁)) : r₁.rest <:+ rest := by
  cases escape with
  | element _ =>
    obtain ⟨-, rfl⟩ := Prod.mk.inj (Option.some.inj h)
    exact List.suffix_refl rest
  | number width => exact (takeHex_suffix h).trans (past_suffix r rest)
  | property negated => exact (takeProperty_suffix h).trans (past_suffix r rest)
  | word => exact takeWordAssertion_suffix h

/-- An escape reads the same with another end; one that may take braces needs a sign in front of
that end. -/
theorem Escape.read_withEnd (hends : Alike old fresh) {escape : Escape} {rest : List Char}
    {e : Element} (h : escape.read r rest = some (e, r₁)) (hold : old <:+ r₁.rest)
    (hroom : (∃ a, e = .anchor a) → Roomy old '\x7b' r₁) :
    escape.read (r.withEnd old fresh) (newEnd old fresh rest) =
      some (e, r₁.withEnd old fresh) := by
  -- an escape that is a letter has nothing more to read; the others read on
  cases escape with
  | element _ =>
    obtain ⟨rfl, rfl⟩ := Prod.mk.inj (Option.some.inj h)
    rfl
  | number width =>
    have hpast : old <:+ (r.past rest).rest := hold.trans (takeHex_suffix h)
    rw [read, past_withEnd hends hpast]
    exact takeHex_withEnd hends h hold
  | property negated =>
    have hpast : old <:+ (r.past rest).rest := hold.trans (takeProperty_suffix h)
    rw [read, past_withEnd hends hpast]
    exact takeProperty_withEnd hends h hold
  | word =>
    exact takeWordAssertion_withEnd (r := r.moveTo rest) hends h hold
      (hroom (takeWordAssertion_isAnchor h))

/-- Every escape has at least one sign. -/
theorem takeEscape_behind {e : Element} (h : takeEscape r = some (e, r₁)) :
    Behind r₁.rest r.rest := by
  cases hrest : r.rest with
  | nil => simp [takeEscape, hrest] at h
  | cons c rest =>
    rw [takeEscape_eq hrest] at h
    obtain ⟨escape, -, h⟩ := Option.bind_eq_some_iff.mp h
    exact Escape.read_suffix h

/-- An escape reads the same with another end, with the same room behind an assertion. -/
theorem takeEscape_withEnd (hends : Alike old fresh) {e : Element}
    (h : takeEscape r = some (e, r₁)) (hold : old <:+ r₁.rest)
    (hroom : (∃ a, e = .anchor a) → Roomy old '\x7b' r₁) :
    takeEscape (r.withEnd old fresh) = some (e, r₁.withEnd old fresh) := by
  obtain ⟨c, rest, hrest, hsuffix⟩ := ((takeEscape_behind h).of_behind hold).exists_cons
  rw [takeEscape_eq hrest] at h
  obtain ⟨escape, hescape, h⟩ := Option.bind_eq_some_iff.mp h
  rw [takeEscape_eq (withEnd_rest_cons hrest hsuffix), withEnd_flags, hescape]
  exact Escape.read_withEnd hends h hold hroom

/-! ## Elements outside brackets -/

/-- The expression of a sign that stands for something by itself. -/
def signExpression? (flags : Flags) (c : Char) : Option Expression :=
  if c = '.' then
    let set : CodeSet :=
      if flags.dotMatchesAll then .everything
      else if flags.returns then (CodeSet.ofRanges [(0x0A, 0x0A), (0x0D, 0x0D)]).complement
      else (CodeSet.single 0x0A).complement
    if flags.unicode then some (.chars set) else none
  else if c = '^' then
    some (.anchor (if flags.multiLine then .lineStart flags.returns else .textStart))
  else if c = '$' then
    some (.anchor (if flags.multiLine then .lineEnd flags.returns else .textEnd))
  else elementExpression? flags (.literal c.toNat false)

/-- A part of an expression by its first sign: an escape, or a sign that stands for itself or for a
set. -/
theorem takeElement_eq {c : Char} {rest : List Char} (hrest : r.rest = c :: rest) :
    takeElement r =
      if c = '\\' then
        (takeEscape (r.moveTo rest)).bind fun (element, r₁) =>
          (elementExpression? r.flags element).map fun e => (e, r₁)
      else (signExpression? r.flags c).map fun e => (e, r.moveTo rest) := by
  rw [takeElement, hrest, signExpression?.eq_def]
  -- by the sign, in the order in which the function asks for it
  by_cases hslash : c = '\\'
  · subst hslash
    rw [if_pos rfl]
    show (takeEscape (r.moveTo rest)).bind _ = _
    congr 1
    funext read
    obtain ⟨element, r₁⟩ := read
    show (elementExpression? r.flags element).bind _ = (elementExpression? r.flags element).map _
    cases elementExpression? r.flags element <;> rfl
  · rw [if_neg hslash]
    by_cases hpoint : c = '.'
    · subst hpoint
      rw [if_pos rfl]
      cases hunicode : r.flags.unicode with
      | false => simp
      | true => simp
    · rw [if_neg hpoint]
      by_cases hstart : c = '^'
      · subst hstart
        rfl
      · rw [if_neg hstart]
        by_cases hend : c = '$'
        · subst hend
          rfl
        · rw [if_neg hend]
          dsimp only [bind]
          split
          · simp_all
          · simp_all
          · simp_all
          · simp_all
          · simp_all
          · next d more _ _ _ _ heq =>
            obtain ⟨rfl, rfl⟩ := List.cons.inj heq
            cases elementExpression? r.flags (.literal c.toNat false) <;> rfl

/-- Every part of an expression has at least one sign. -/
theorem takeElement_behind {e : Expression} (h : takeElement r = some (e, r₁)) :
    Behind r₁.rest r.rest := by
  cases hrest : r.rest with
  | nil => simp [takeElement, hrest] at h
  | cons c rest =>
    rw [takeElement_eq hrest] at h
    show r₁.rest <:+ rest
    split at h
    · obtain ⟨⟨element, last⟩, hescape, h⟩ := Option.bind_eq_some_iff.mp h
      obtain ⟨_, -, heq⟩ := Option.map_eq_some_iff.mp h
      rw [← (Prod.mk.inj heq).2]
      exact (takeEscape_behind hescape).suffix
    · obtain ⟨_, -, heq⟩ := Option.map_eq_some_iff.mp h
      rw [← (Prod.mk.inj heq).2]
      exact List.suffix_refl rest

/-- A part reads the same with another end, with room behind an assertion that might take braces. -/
theorem takeElement_withEnd (hends : Alike old fresh) {e : Expression}
    (h : takeElement r = some (e, r₁)) (hold : old <:+ r₁.rest) (hroom : Roomy old '\x7b' r₁) :
    takeElement (r.withEnd old fresh) = some (e, r₁.withEnd old fresh) := by
  obtain ⟨c, rest, hrest, hsuffix⟩ := ((takeElement_behind h).of_behind hold).exists_cons
  rw [takeElement_eq hrest] at h
  rw [takeElement_eq (withEnd_rest_cons hrest hsuffix), withEnd_flags]
  -- an escape reads behind its backslash, and any other sign is read on its own
  by_cases hslash : c = '\\'
  · rw [if_pos hslash] at h ⊢
    obtain ⟨⟨element, last⟩, hescape, h⟩ := Option.bind_eq_some_iff.mp h
    obtain ⟨expression, hexpression, heq⟩ := Option.map_eq_some_iff.mp h
    obtain ⟨rfl, rfl⟩ := Prod.mk.inj heq
    rw [withEnd_moveTo, takeEscape_withEnd hends hescape hold fun _ => hroom]
    show (elementExpression? r.flags element).map _ = _
    rw [hexpression]
    rfl
  · rw [if_neg hslash] at h ⊢
    obtain ⟨expression, hexpression, heq⟩ := Option.map_eq_some_iff.mp h
    obtain ⟨rfl, rfl⟩ := Prod.mk.inj heq
    rw [hexpression]
    rfl

end RouterConfig.Pattern
