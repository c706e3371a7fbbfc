import RouterConfig.Proofs.Pattern.Readers

/-!
# RouterConfig — the starts of groups, as they are read

What the reader of the start of a group leaves unread makes no difference to it: neither to flags,
nor to names, nor to a parenthesis without either.
-/

namespace RouterConfig.Pattern

open Reading

variable {old fresh : List Char} {r r₁ : Reading}

/-! ## Flags -/

/-- Flags end with a sign that is left to be read. -/
theorem takeFlags_suffix {t t₁ : FlagText} {cs left : List Char}
    (h : takeFlags t cs = some (t₁, left)) : left <:+ cs := by
  -- on the signs: each flag that is read leaves one sign fewer
  induction cs generalizing t with
  | nil => exact absurd h (by simp [takeFlags])
  | cons c rest ih =>
    have hrest : rest <:+ c :: rest := List.suffix_cons c rest
    rw [takeFlags] at h
    split at h
    · split at h
      · exact absurd h (by simp)
      · rw [← (Prod.mk.inj (Option.some.inj h)).2]
    · split at h
      · split at h
        · exact absurd h (by simp)
        · exact (ih h).trans hrest
      · split at h
        · split at h
          · exact absurd h (by simp)
          · exact (ih h).trans hrest
        · exact absurd h (by simp)

/-- Flags read the same with another end, as all of them stand in front of it. -/
theorem takeFlags_newEnd {t t₁ : FlagText} {cs left : List Char}
    (h : takeFlags t cs = some (t₁, left)) (hold : Behind old left) :
    takeFlags t (newEnd old fresh cs) = some (t₁, newEnd old fresh left) := by
  -- the sign at which the flags stop is in front of the end, and so are all the flags
  induction cs generalizing t with
  | nil => exact absurd h (by simp [takeFlags])
  | cons c rest ih =>
    have hrest : old <:+ rest := hold.of_suffix (takeFlags_suffix h)
    rw [newEnd_cons hrest]
    rw [takeFlags] at h ⊢
    by_cases hend : (c = ':' || c = ')') = true
    · rw [if_pos hend] at h ⊢
      by_cases hdangling : t.dangling = true
      · rw [if_pos hdangling] at h
        exact absurd h (by simp)
      · rw [if_neg hdangling] at h ⊢
        obtain ⟨rfl, rfl⟩ := Prod.mk.inj (Option.some.inj h)
        rw [newEnd_cons hrest]
    · rw [if_neg hend] at h ⊢
      by_cases hminus : c = '-'
      · rw [if_pos hminus] at h ⊢
        by_cases hoff : t.off = true
        · rw [if_pos hoff] at h
          exact absurd h (by simp)
        · rw [if_neg hoff] at h ⊢
          exact ih h
      · rw [if_neg hminus] at h ⊢
        cases hname : FlagName.ofChar? c with
        | none =>
          rw [hname] at h
          exact absurd h (by simp)
        | some name =>
          rw [hname] at h
          dsimp only at h ⊢
          by_cases htwice : t.named.contains name = true
          · rw [if_pos htwice] at h
            exact absurd h (by simp)
          · rw [if_neg htwice] at h ⊢
            exact ih h

/-- What has a meaning of its own behind the question mark is no flag. -/
theorem takeFlags_cons_eq_none (t : FlagText) {c : Char} (hc : c ∈ ['=', '!', '<', 'P'])
    (rest : List Char) : takeFlags t (c :: rest) = none := by
  simp only [List.mem_cons, List.not_mem_nil, or_false] at hc
  rcases hc with rfl | rfl | rfl | rfl <;> rfl

/-- A name that a group may have besides those there are. -/
def NewName (names : List (List Char)) : List Char → Prop
  | [] => False
  | first :: others =>
    isNameChar true first = true ∧ others.all (isNameChar false) = true ∧
      names.contains (first :: others) = false

/-- A name of a group stands before its closing sign, is made of its own signs, and is not taken
yet. -/
theorem takeGroupName_eq_some_iff :
    takeGroupName r = some r₁ ↔
      ∃ name rest, (r.rest = name ++ '>' :: rest ∧ ∀ c ∈ name, c ≠ '>') ∧ NewName r.names name ∧
        r₁ = { r with rest := rest, names := name :: r.names } := by
  simp only [← takeWhile_eq_iff]
  rw [takeGroupName]
  -- the name is what stands before the closing sign, and the tests on it are those of the reader
  constructor
  · intro h
    split at h
    · next d rest first others hdrop hname =>
      split at h
      · next hnew =>
        simp only [Bool.and_eq_true, Bool.not_eq_true'] at hnew
        rw [hname] at h hdrop
        exact ⟨first :: others, rest, ⟨hname, d, hdrop⟩, ⟨hnew.1.1, hnew.1.2, hname ▸ hnew.2⟩,
          (Option.some.inj h).symm⟩
      · exact absurd h (by simp)
    · exact absurd h (by simp)
  · rintro ⟨name, rest, ⟨hname, d, hdrop⟩, hnew, rfl⟩
    rw [hname, hdrop]
    cases name with
    | nil => exact hnew.elim
    | cons first others =>
      obtain ⟨hfirst, hothers, hother⟩ := hnew
      dsimp only
      rw [hfirst, hothers, hother]
      rfl

theorem takeGroupName_suffix (h : takeGroupName r = some r₁) : Behind r₁.rest r.rest := by
  obtain ⟨name, rest, ⟨hrest, -⟩, -, rfl⟩ := takeGroupName_eq_some_iff.mp h
  rw [hrest]
  exact (show Behind rest ('>' :: rest) from List.suffix_refl rest).of_suffix
    (List.suffix_append name _)

/-- A name of a group reads the same with another end. -/
theorem takeGroupName_withEnd (h : takeGroupName r = some r₁) (hold : old <:+ r₁.rest) :
    takeGroupName (r.withEnd old fresh) = some (r₁.withEnd old fresh) := by
  obtain ⟨name, rest, ⟨hrest, hname⟩, hnew, rfl⟩ := takeGroupName_eq_some_iff.mp h
  have hmark : old <:+ '>' :: rest := hold.trans (List.suffix_cons _ rest)
  refine takeGroupName_eq_some_iff.mpr
    ⟨name, newEnd old fresh rest, ⟨?_, hname⟩, hnew, rfl⟩
  rw [withEnd_rest, hrest, newEnd_append_of_suffix hmark, newEnd_cons hold]

/-- The reading with which a group, or what comes behind flags, goes on. -/
def GroupStart.reading : GroupStart → Reading
  | .flags r => r
  | .group _ r => r

/-- The same start with another end of the text. -/
def GroupStart.withEnd (old fresh : List Char) : GroupStart → GroupStart
  | .flags r => .flags (r.withEnd old fresh)
  | .group number? r => .group number? (r.withEnd old fresh)

/-- Reads flags behind a question mark: they hold for a group, or for what is left of the group
around them. -/
def flagsStart? (r : Reading) (cs : List Char) : Option GroupStart :=
  (takeFlags { flags := r.flags } cs).bind fun (t, left) =>
    match left with
    | [] => none
    | sign :: rest =>
      if sign = ')' then
        if t.named.isEmpty && !t.off then none
        else some (.flags { r with rest := rest, flags := t.flags })
      else some (.group none { r with rest := rest, flags := t.flags })

/-- Reads the name of a group behind `<`, which must not go on like a look behind. -/
def namedStart? (r : Reading) (cs : List Char) : Option GroupStart :=
  if cs.head? = some '=' ∨ cs.head? = some '!' then none
  else (takeGroupName (r.moveTo cs)).map .capturing

/-- Reads the start of a group behind a question mark. -/
def questionStart? (r : Reading) : List Char → Option GroupStart
  | [] => none
  | c :: rest =>
    if c = '=' ∨ c = '!' then none
    else if c = '<' then namedStart? r rest
    else if c = 'P' then
      if rest.head? = some '<' then (takeGroupName (r.moveTo rest.tail)).map .capturing else none
    else flagsStart? r (c :: rest)

/-- Reads the start of a group, when there are no blanks. -/
def groupStart? (r : Reading) : Option GroupStart :=
  if r.rest.head? = some '?' then questionStart? r r.rest.tail else some (.capturing r)

/-- Flags that end with a bracket are set for the expression itself, and those that end with a colon
for a group. -/
theorem flagsStart?_eq (r : Reading) (cs : List Char) :
    flagsStart? r cs =
      match takeFlags { flags := r.flags } cs with
      | some (t, ')' :: rest) =>
        if t.named.isEmpty && !t.off then none
        else some (.flags { r with rest := rest, flags := t.flags })
      | some (t, _ :: rest) => some (.group none { r with rest := rest, flags := t.flags })
      | _ => none := by
  rw [flagsStart?]
  cases takeFlags { flags := r.flags } cs with
  | none => rfl
  | some read =>
    obtain ⟨t, left⟩ := read
    cases left with
    | nil => rfl
    | cons sign rest =>
      by_cases hsign : sign = ')'
      · subst hsign
        rfl
      · split <;> simp_all

/-- A group is opened by a question mark and what follows it, or by nothing, and then it is
numbered. -/
theorem takeGroupStart_eq (r : Reading) : takeGroupStart r = groupStart? r.skipBlanks := by
  rw [takeGroupStart]
  generalize r.skipBlanks = r
  rw [groupStart?]
  cases hrest : r.rest with
  | nil => simp
  | cons c rest =>
    -- what stands behind the bracket decides: a question mark opens flags, a name or neither
    by_cases hc : c = '?'
    · subst hc
      simp only [List.head?_cons, if_true, List.tail_cons]
      cases rest with
      | nil => simp [questionStart?, takeFlags]
      | cons d more =>
        rw [questionStart?]
        -- by what may stand behind the question mark: looks ahead and behind, names, flags
        split
        · simp_all
        · simp_all
        · simp_all [namedStart?]
        · simp_all [namedStart?]
        · simp_all
        · next name hequal hnot heq =>
          obtain ⟨rfl, rfl⟩ : d = '<' ∧ more = name := by simpa using heq
          rw [if_neg (by decide), if_pos rfl, namedStart?, if_neg]
          rintro (hhead | hhead)
          · obtain ⟨tail, rfl⟩ := List.head?_eq_some_iff.mp hhead
            exact hequal tail rfl
          · obtain ⟨tail, rfl⟩ := List.head?_eq_some_iff.mp hhead
            exact hnot tail rfl
        · next flags hequal hnot _ _ hcapture hname heq =>
          obtain rfl : d :: more = flags := by simpa using heq
          have hd : ¬ (d = '=' ∨ d = '!') := by
            rintro (rfl | rfl)
            · exact hequal more rfl
            · exact hnot more rfl
          have hless : d ≠ '<' := by
            rintro rfl
            exact hname more rfl
          rw [if_neg hd, if_neg hless, flagsStart?_eq]
          by_cases hP : d = 'P'
          · subst hP
            have hhead : more.head? ≠ some '<' := by
              intro hhead
              obtain ⟨tail, rfl⟩ := List.head?_eq_some_iff.mp hhead
              exact hcapture tail rfl
            rw [if_pos rfl, if_neg hhead, takeFlags_cons_eq_none _ (by decide)]
          · exact (if_neg hP).symm
        · next hother =>
          exact absurd rfl (hother (d :: more))
    · split <;> simp_all

/-- The flags that open a group have at least one sign. -/
theorem flagsStart?_behind {cs : List Char} {start : GroupStart}
    (h : flagsStart? r cs = some start) : Behind start.reading.rest cs := by
  obtain ⟨⟨t, left⟩, hflags, h⟩ := Option.bind_eq_some_iff.mp h
  -- the flags are read up to their sign, and what is left begins with it
  cases left with
  | nil => exact absurd h (by simp)
  | cons sign rest =>
    have hrest : start.reading.rest = rest := by
      -- whether flags or a group are started, the reading goes on behind the sign
      dsimp only at h
      split at h
      · split at h
        · exact absurd h (by simp)
        · rw [← Option.some.inj h]
          rfl
      · rw [← Option.some.inj h]
        rfl
    rw [hrest]
    exact (show Behind rest (sign :: rest) from List.suffix_refl rest).of_suffix
      (takeFlags_suffix hflags)

/-- The flags that open a group read the same with another end. -/
theorem flagsStart?_withEnd {cs : List Char} {start : GroupStart}
    (h : flagsStart? r cs = some start) (hold : old <:+ start.reading.rest) :
    flagsStart? (r.withEnd old fresh) (newEnd old fresh cs) = some (start.withEnd old fresh) := by
  obtain ⟨⟨t, left⟩, hflags, h⟩ := Option.bind_eq_some_iff.mp h
  cases left with
  | nil => exact absurd h (by simp)
  | cons sign rest =>
    dsimp only at h
    -- a colon opens a group, a closing bracket ends the flags on their own
    split at h
    · next hsign =>
      split at h
      · exact absurd h (by simp)
      · next hsome =>
        rw [← Option.some.inj h] at hold ⊢
        have hrest : old <:+ rest := hold
        rw [flagsStart?, withEnd_flags, takeFlags_newEnd hflags hrest, newEnd_cons hrest]
        dsimp only [Option.bind_some]
        rw [if_pos hsign, if_neg hsome]
        rfl
    · next hsign =>
      rw [← Option.some.inj h] at hold ⊢
      have hrest : old <:+ rest := hold
      rw [flagsStart?, withEnd_flags, takeFlags_newEnd hflags hrest, newEnd_cons hrest]
      dsimp only [Option.bind_some]
      rw [if_neg hsign]
      rfl

/-- What a name is read from goes on behind it. -/
theorem namedCapture_behind {cs : List Char} {start : GroupStart}
    (h : (takeGroupName (r.moveTo cs)).map .capturing = some start) :
    Behind start.reading.rest cs := by
  obtain ⟨r₁, hname, rfl⟩ := Option.map_eq_some_iff.mp h
  exact takeGroupName_suffix hname

/-- The name of a group reads the same with another end, in whichever of its spellings. -/
theorem namedCapture_withEnd {cs : List Char} {start : GroupStart}
    (h : (takeGroupName (r.moveTo cs)).map .capturing = some start)
    (hold : old <:+ start.reading.rest) :
    (takeGroupName ((r.withEnd old fresh).moveTo (newEnd old fresh cs))).map .capturing =
      some (start.withEnd old fresh) := by
  obtain ⟨r₁, hname, rfl⟩ := Option.map_eq_some_iff.mp h
  rw [withEnd_moveTo, takeGroupName_withEnd hname hold]
  rfl

/-- Whatever follows the question mark, at least one sign of it is read. -/
theorem questionStart?_behind {cs : List Char} {start : GroupStart}
    (h : questionStart? r cs = some start) : Behind start.reading.rest cs := by
  cases cs with
  | nil => exact absurd h (by simp [questionStart?])
  | cons c rest =>
    -- by what stands behind the question mark, each kind of group in turn
    rw [questionStart?] at h
    split at h
    · exact absurd h (by simp)
    · split at h
      · rw [namedStart?] at h
        split at h
        · exact absurd h (by simp)
        · exact (namedCapture_behind h).suffix
      · split at h
        · split at h
          · exact (namedCapture_behind h).suffix.trans (List.tail_suffix rest)
          · exact absurd h (by simp)
        · exact flagsStart?_behind h

/-- What follows the question mark reads the same with another end, which is behind all of it. -/
theorem questionStart?_withEnd {cs : List Char} {start : GroupStart}
    (h : questionStart? r cs = some start) (hold : old <:+ start.reading.rest) :
    questionStart? (r.withEnd old fresh) (newEnd old fresh cs) =
      some (start.withEnd old fresh) := by
  have hbehind : Behind old cs := (questionStart?_behind h).of_behind hold
  cases cs with
  | nil => exact hbehind.elim
  | cons c rest =>
    have hrest : old <:+ rest := hbehind
    rw [newEnd_cons hrest]
    rw [questionStart?] at h ⊢
    by_cases hlook : c = '=' ∨ c = '!'
    · rw [if_pos hlook] at h
      exact absurd h (by simp)
    · rw [if_neg hlook] at h ⊢
      by_cases hless : c = '<'
      · rw [if_pos hless] at h ⊢
        rw [namedStart?] at h ⊢
        by_cases hback : rest.head? = some '=' ∨ rest.head? = some '!'
        · rw [if_pos hback] at h
          exact absurd h (by simp)
        · rw [if_neg hback] at h
          -- the sign behind `<` is the first of a name, which is in front of the end
          rw [head?_newEnd ((namedCapture_behind h).of_behind hold), if_neg hback]
          exact namedCapture_withEnd h hold
      · rw [if_neg hless] at h ⊢
        by_cases hP : c = 'P'
        · rw [if_pos hP] at h ⊢
          by_cases hname : rest.head? = some '<'
          · rw [if_pos hname] at h
            have hinside : Behind old rest :=
              ((namedCapture_behind h).of_behind hold).of_suffix (List.tail_suffix rest)
            rw [head?_newEnd hinside, if_pos hname, tail_newEnd hinside]
            exact namedCapture_withEnd h hold
          · rw [if_neg hname] at h
            exact absurd h (by simp)
        · rw [if_neg hP] at h ⊢
          have hflags : flagsStart? (r.withEnd old fresh) (newEnd old fresh (c :: rest)) =
              some (start.withEnd old fresh) := flagsStart?_withEnd h hold
          rwa [newEnd_cons hrest] at hflags

/-- Reading the opening of a group leaves an end of the text. -/
theorem takeGroupStart_suffix {start : GroupStart} (h : takeGroupStart r = some start) :
    start.reading.rest <:+ r.rest := by
  rw [takeGroupStart_eq, groupStart?] at h
  refine List.IsSuffix.trans ?_ (skipBlanks_suffix r)
  split at h
  · exact (questionStart?_behind h).suffix.trans (List.tail_suffix _)
  · rw [← Option.some.inj h]
    exact List.suffix_refl _

/-- The opening of a group reads the same with another end. -/
theorem takeGroupStart_withEnd (hends : Alike old fresh) {start : GroupStart}
    (h : takeGroupStart r = some start) (hold : old <:+ start.reading.rest) :
    takeGroupStart (r.withEnd old fresh) = some (start.withEnd old fresh) := by
  rw [takeGroupStart_eq] at h ⊢
  have hskip : old <:+ r.skipBlanks.rest := by
    -- what the group reads past the blanks is a suffix, so the end it has in front is a suffix too
    rw [groupStart?] at h
    split at h
    · exact hold.trans ((questionStart?_behind h).suffix.trans (List.tail_suffix _))
    · rw [← Option.some.inj h] at hold
      exact hold
  rw [skipBlanks_withEnd hends hskip]
  generalize r.skipBlanks = r at h hskip
  rw [groupStart?] at h ⊢
  by_cases hquestion : r.rest.head? = some '?'
  · rw [if_pos hquestion] at h
    have hbehind : Behind old r.rest :=
      ((questionStart?_behind h).of_behind hold).of_suffix (List.tail_suffix _)
    rw [withEnd_rest, head?_newEnd hbehind, if_pos hquestion, tail_newEnd hbehind]
    exact questionStart?_withEnd h hold
  · rw [if_neg hquestion] at h
    have hnew : (newEnd old fresh r.rest).head? ≠ some '?' :=
      mt (hends.head?_newEnd_iff hskip (by decide)).mp hquestion
    rw [withEnd_rest, if_neg hnew, ← Option.some.inj h]
    rfl

end RouterConfig.Pattern
