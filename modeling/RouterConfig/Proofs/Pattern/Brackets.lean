import RouterConfig.Proofs.Pattern.Escapes

/-!
# RouterConfig — bracket expressions, as they are read

A bracket expression ends with a bracket of its own, so that what comes behind it makes no
difference. Inside, the readers look further ahead than one sign: for doubled signs, for names of
classes, and for what is behind a hyphen. Main results:

* `takeSet_succ` — reading goes on item by item;
* `takeSet_withEnd` — what is left unread behind the closing bracket makes no difference.
-/

namespace RouterConfig.Pattern

open Reading RouterConfig.Unicode

variable {old fresh : List Char} {r r₁ : Reading}

/-! ## Doubled signs and names of classes -/

/-- A text that starts with a closing parenthesis if there is anything in it. -/
def Closing (tail : List Char) : Prop := tail = [] ∨ ∃ more, tail = ')' :: more

theorem Alike.closing_old (hends : Alike old fresh) : Closing old := .inr hends.closing

theorem Alike.closing_fresh (hends : Alike old fresh) : Closing fresh := hends.fresh

/-- What starts a text and has no closing parenthesis ends before one that comes later. -/
theorem exists_of_append_eq_append {front after cs tail : List Char} (htail : Closing tail)
    (hfront : ')' ∉ front) (h : cs ++ tail = front ++ after) :
    ∃ middle, cs = front ++ middle ∧ after = middle ++ tail := by
  induction front generalizing cs with
  | nil => exact ⟨cs, rfl, h.symm⟩
  | cons c front ih =>
    cases cs with
    | nil =>
      rw [List.nil_append] at h
      rcases htail with rfl | ⟨more, rfl⟩
      · exact absurd h (by simp)
      · obtain ⟨rfl, -⟩ := List.cons.inj h
        exact absurd (List.mem_cons_self ..) hfront
    | cons d others =>
      rw [List.cons_append, List.cons_append] at h
      obtain ⟨rfl, hrest⟩ := List.cons.inj h
      obtain ⟨middle, rfl, hafter⟩ := ih (fun hmem => hfront (List.mem_cons_of_mem _ hmem)) hrest
      exact ⟨middle, rfl, hafter⟩

/-- No operator spans the end of a text and the signs that close a group behind it. -/
theorem setOperator?_append (cs : List Char) {tail : List Char} (htail : Closing tail) :
    setOperator? (cs ++ tail) =
      (setOperator? cs).map fun read => (read.1, read.2 ++ tail) := by
  cases cs with
  -- an operator takes two signs, and one sign of the tail makes none with the sign before it
  | nil =>
    rcases htail with rfl | ⟨more, rfl⟩
    · rfl
    · rfl
  | cons c rest =>
    cases rest with
    | nil =>
      have hnone : setOperator? [c] = none := by
        rw [setOperator?.eq_def]
        split <;> simp_all
      rw [hnone]
      rcases htail with rfl | ⟨more, rfl⟩
      · exact hnone
      · rw [setOperator?.eq_def]
        split <;> simp_all
    | cons d more =>
      rw [setOperator?.eq_def, setOperator?.eq_def]
      split <;> simp_all

/-- The names of classes are made of letters. -/
theorem asciiClass?_letters {name : String} {set : CodeSet} (h : asciiClass? name = some set) :
    ∀ c ∈ name.toList, c.isAlpha = true := by
  rw [asciiClass?.eq_def] at h
  split at h
  all_goals first
    | exact List.all_eq_true.mp rfl
    | exact absurd h (by simp)

/-- Whether the sign that turns a class over comes first, and what is left behind it. -/
def turned (cs : List Char) : Bool × List Char :=
  match cs with
  | '^' :: rest => (true, rest)
  | rest => (false, rest)

/-- The sign that turns a class over, if it is to be turned over. -/
def turnSign (negated : Bool) : List Char := if negated then ['^'] else []

theorem turnSign_append_turned (cs : List Char) : turnSign (turned cs).1 ++ (turned cs).2 = cs := by
  rw [turned.eq_def]
  split <;> rfl

/-- The sign that turns a class over is taken off, and a class that begins otherwise is left as it
is. -/
theorem turned_append {negated : Bool} {cs : List Char}
    (h : negated = false → ∀ rest, cs ≠ '^' :: rest) :
    turned (turnSign negated ++ cs) = (negated, cs) := by
  cases negated with
  | true => rfl
  | false =>
    show turned cs = (false, cs)
    rw [turned.eq_def]
    split
    · next rest => exact absurd rfl (h rfl rest)
    · rfl

/-- A named class is read up to the next colon and the bracket behind it. -/
theorem namedClass?_cons (cs : List Char) :
    namedClass? (':' :: cs) =
      match (turned cs).2.drop ((turned cs).2.takeWhile (· ≠ ':')).length with
      | ':' :: ']' :: after =>
        (asciiClass? (String.ofList ((turned cs).2.takeWhile (· ≠ ':')))).map fun set =>
          (((turned cs).1, set), after)
      | _ => none := rfl

/-- A named class is its name between `[:` and `:]`, turned over or not, and the name is one of
those there are. -/
theorem namedClass?_eq_some_iff {cs after : List Char} {negated : Bool} {set : CodeSet} :
    namedClass? cs = some ((negated, set), after) ↔
      ∃ name, cs = ':' :: (turnSign negated ++ (name ++ ':' :: ']' :: after)) ∧
        (∀ c ∈ name, c ≠ ':') ∧ asciiClass? (String.ofList name) = some set := by
  -- the sign that turns the class over may stand behind the colon or not
  constructor
  · intro h
    cases cs with
    | nil => exact absurd h (by simp [namedClass?])
    | cons c rest =>
      by_cases hc : c = ':'
      · subst hc
        rw [namedClass?_cons] at h
        split at h
        · next after' hdrop =>
          obtain ⟨set', hset, heq⟩ := Option.map_eq_some_iff.mp h
          obtain ⟨hpair, rfl⟩ := Prod.mk.inj heq
          obtain ⟨rfl, rfl⟩ := Prod.mk.inj hpair
          obtain ⟨hname, hall⟩ := takeWhile_eq_iff.mp ⟨rfl, ':', hdrop⟩
          refine ⟨_, ?_, hall, hset⟩
          rw [← hname, turnSign_append_turned]
        · exact absurd h (by simp)
      · rw [namedClass?.eq_def] at h
        split at h
        · next heq => exact absurd (List.cons.inj heq).1 hc
        · exact absurd h (by simp)
  · rintro ⟨name, rfl, hname, hset⟩
    -- a name is made of letters, so that it is not taken for the sign that turns a class over
    have hplain : negated = false → ∀ rest, name ++ ':' :: ']' :: after ≠ '^' :: rest := by
      rintro - rest heq
      cases name with
      | nil => exact absurd (List.cons.inj heq).1 (by decide)
      | cons c others =>
        have hletter := asciiClass?_letters hset c (by simp)
        rw [(List.cons.inj heq).1] at hletter
        exact absurd hletter (by decide)
    obtain ⟨htake, -⟩ := takeWhile_eq_iff.mpr
      ⟨(rfl : name ++ ':' :: ']' :: after = name ++ ':' :: ']' :: after), hname⟩
    rw [namedClass?_cons, turned_append hplain, htake, List.drop_left]
    simp only [hset, Option.map_some]

/-- A name of a class has no closing parenthesis. -/
theorem not_mem_of_asciiClass? {name : List Char} {set : CodeSet}
    (h : asciiClass? (String.ofList name) = some set) (negated : Bool) :
    ')' ∉ ':' :: (turnSign negated ++ (name ++ [':', ']'])) := by
  intro hmem
  have hletters := asciiClass?_letters h
  rw [String.toList_ofList] at hletters
  have hsign : ')' ∉ turnSign negated := by cases negated <;> decide
  simp only [List.mem_cons, List.mem_append, List.not_mem_nil, or_false] at hmem
  rcases hmem with hmem | hmem | hmem | hmem | hmem
  · exact absurd hmem (by decide)
  · exact hsign hmem
  · exact absurd (hletters _ hmem) (by decide)
  · exact absurd hmem (by decide)
  · exact absurd hmem (by decide)

/-- A named class reads the same with the closing signs behind it, since none of its signs is one of
them. -/
theorem namedClass?_append (cs : List Char) {tail : List Char} (htail : Closing tail) :
    namedClass? (cs ++ tail) =
      (namedClass? cs).map fun read => (read.1, read.2 ++ tail) := by
  refine Option.ext fun read => ?_
  obtain ⟨⟨negated, set⟩, after⟩ := read
  rw [Option.map_eq_some_iff, namedClass?_eq_some_iff]
  -- the name ends at the first `:]`, and the tail has none of its signs in front of that
  constructor
  · rintro ⟨name, hcs, hname, hset⟩
    have hfront : cs ++ tail = (':' :: (turnSign negated ++ (name ++ [':', ']']))) ++ after := by
      rw [hcs]
      simp
    obtain ⟨middle, rfl, rfl⟩ :=
      exists_of_append_eq_append htail (not_mem_of_asciiClass? hset negated) hfront
    refine ⟨((negated, set), middle), namedClass?_eq_some_iff.mpr ⟨name, ?_, hname, hset⟩, rfl⟩
    simp
  · rintro ⟨⟨⟨negated', set'⟩, middle⟩, hread, heq⟩
    obtain ⟨hpair, rfl⟩ := Prod.mk.inj heq
    obtain ⟨rfl, rfl⟩ := Prod.mk.inj hpair
    obtain ⟨name, rfl, hname, hset⟩ := namedClass?_eq_some_iff.mp hread
    exact ⟨name, by simp, hname, hset⟩

/-- What finds something in front of either end finds the same with the other. -/
theorem newEnd_of_append {α : Type} {read : List Char → Option (α × List Char)}
    (hread : ∀ cs tail, Closing tail →
      read (cs ++ tail) = (read cs).map fun found => (found.1, found.2 ++ tail))
    (hends : Alike old fresh) {cs : List Char} (h : old <:+ cs) :
    read (newEnd old fresh cs) =
        (read cs).map (fun found => (found.1, newEnd old fresh found.2)) ∧
      ∀ found after, read cs = some (found, after) → old <:+ after := by
  obtain ⟨front, rfl⟩ := h
  rw [newEnd_append, hread front fresh hends.closing_fresh, hread front old hends.closing_old]
  constructor
  · cases read front with
    | none => rfl
    | some found => simp [newEnd_append]
  · intro found after hfound
    obtain ⟨_, -, heq⟩ := Option.map_eq_some_iff.mp hfound
    rw [← (Prod.mk.inj heq).2]
    exact List.suffix_append _ old

/-! ## Elements and ranges -/

/-- An element of a set is an escape or the character itself. -/
theorem takeSetElement_eq {c : Char} {rest : List Char} (hrest : r.rest = c :: rest) :
    takeSetElement r =
      if c = '\\' then takeEscape (r.moveTo rest)
      else some (.literal c.toNat false, r.moveTo rest) := by
  rw [takeSetElement, hrest]
  by_cases hslash : c = '\\'
  · subst hslash
    rfl
  · rw [if_neg hslash]
    split <;> simp_all

/-- Every element of a set has at least one sign. -/
theorem takeSetElement_behind {e : Element} (h : takeSetElement r = some (e, r₁)) :
    Behind r₁.rest r.rest := by
  cases hrest : r.rest with
  | nil => simp [takeSetElement, hrest] at h
  | cons c rest =>
    rw [takeSetElement_eq hrest] at h
    show r₁.rest <:+ rest
    split at h
    · exact (takeEscape_behind h).suffix
    · obtain ⟨-, rfl⟩ := Prod.mk.inj (Option.some.inj h)
      exact List.suffix_refl rest

/-- An element reads the same with another end behind it, unless it is an anchor, which reads on for
braces. -/
theorem takeSetElement_withEnd (hends : Alike old fresh) {e : Element}
    (h : takeSetElement r = some (e, r₁)) (hold : old <:+ r₁.rest) (hset : ∀ a, e ≠ .anchor a) :
    takeSetElement (r.withEnd old fresh) = some (e, r₁.withEnd old fresh) := by
  obtain ⟨c, rest, hrest, hsuffix⟩ := ((takeSetElement_behind h).of_behind hold).exists_cons
  rw [takeSetElement_eq hrest] at h
  rw [takeSetElement_eq (withEnd_rest_cons hrest hsuffix)]
  by_cases hslash : c = '\\'
  · rw [if_pos hslash] at h ⊢
    exact takeEscape_withEnd (r := r.moveTo rest) hends h hold
      fun ⟨a, ha⟩ => absurd ha (hset a)
  · rw [if_neg hslash] at h ⊢
    obtain ⟨rfl, rfl⟩ := Prod.mk.inj (Option.some.inj h)
    rfl

/-- The set of a range, whose ends must be characters that may stand alone. -/
def rangeSet? (flags : Flags) : Element → Element → Option CodeSet
  | .literal low lowByte, .literal high highByte => do
    let _ ← elementSet? flags (.literal low lowByte)
    let _ ← elementSet? flags (.literal high highByte)
    if low ≤ high then some (.range low high ∩ .everything) else none
  | _, _ => none

/-- Reads what is behind a hyphen: the end of a range, unless the hyphen stands for itself or
belongs to a doubled sign. -/
def rangeBehind? (first : Element) (r behind : Reading) : Option (CodeSet × Reading) :=
  match behind.rest with
  | [] => none
  | next :: _ =>
    if next = ']' || next = '-' then (elementSet? r.flags first).map fun set => (set, r)
    else
      (takeSetElement behind).bind fun (last, r₁) =>
        (rangeSet? r₁.flags first last).map fun set => (set, r₁)

/-- Reads what is behind the first element of a range, if it is one. -/
def rangeFrom? (first : Element) (r : Reading) : Option (CodeSet × Reading) :=
  match r.rest with
  | [] => none
  | c :: rest =>
    if c = '-' then rangeBehind? first r (r.past rest)
    else (elementSet? r.flags first).map fun set => (set, r)

/-- The end of a range: nothing follows the hyphen, a bracket or a hyphen follows and ends it, or
another element does. -/
theorem rangeBehind?_eq (first : Element) (r behind : Reading) :
    rangeBehind? first r behind =
      (match behind.rest with
      | [] => none
      | next :: _ =>
        if next = ']' || next = '-' then do
          let set ← elementSet? r.flags first
          some (set, r)
        else do
          let (last, r₁) ← takeSetElement behind
          match first, last with
          | .literal low _, .literal high _ => do
            let _ ← elementSet? r₁.flags first
            let _ ← elementSet? r₁.flags last
            if low ≤ high then some (.range low high ∩ .everything, r₁) else none
          | _, _ => none) := by
  rw [rangeBehind?.eq_def]
  cases behind.rest with
  | nil => rfl
  | cons next more =>
    -- an end of the range is read only if something other than a bracket or a hyphen follows
    dsimp only
    by_cases hnext : (next = ']' || next = '-') = true
    · rw [if_pos hnext, if_pos hnext]
      cases elementSet? r.flags first <;> rfl
    · rw [if_neg hnext, if_neg hnext]
      show _ = (takeSetElement behind).bind _
      congr 1
      funext read
      obtain ⟨last, r₁⟩ := read
      -- only two characters make a range
      cases first with
      | literal low lowByte =>
        cases last with
        | literal high highByte =>
          dsimp only [rangeSet?, bind]
          cases elementSet? r₁.flags (.literal low lowByte) with
          | none => rfl
          | some _ =>
            cases elementSet? r₁.flags (.literal high highByte) with
            | none => rfl
            | some _ =>
              dsimp only [Option.bind]
              split <;> rfl
        | set _ => rfl
        | anchor _ => rfl
      | set _ => rfl
      | anchor _ => rfl

/-- A range is its first element and whatever stands behind that. -/
theorem takeSetRange_eq (r : Reading) :
    takeSetRange r =
      (takeSetElement r).bind fun (first, r₁) => rangeFrom? first r₁.skipBlanks := by
  rw [takeSetRange]
  congr 1
  funext read
  obtain ⟨first, r₁⟩ := read
  dsimp only
  generalize r₁.skipBlanks = r₂
  rw [rangeFrom?.eq_def]
  cases hrest : r₂.rest with
  | nil => rfl
  | cons c rest =>
    -- a hyphen asks for the end of a range, anything else ends the element
    by_cases hc : c = '-'
    · subst hc
      exact (rangeBehind?_eq first r₂ (r₂.past rest)).symm
    · show _ = if c = '-' then _ else _
      rw [if_neg hc]
      split
      · simp_all
      · simp_all
      · cases elementSet? r₂.flags first <;> rfl

/-- A condition on the place is no part of a set. -/
theorem rangeFrom?_anchor (a : Anchor) (r : Reading) : rangeFrom? (.anchor a) r = none := by
  rw [rangeFrom?.eq_def]
  split
  · rfl
  · split
    · rw [rangeBehind?.eq_def]
      split
      · rfl
      · split
        · rfl
        · refine Option.bind_eq_none_iff.mpr fun read _ => ?_
          rfl
    · rfl

/-- Behind the hyphen an element has been read, or the hyphen is where the range already ends. -/
theorem rangeBehind?_cases {first : Element} {behind : Reading} {set : CodeSet}
    (h : rangeBehind? first r behind = some (set, r₁)) :
    r₁ = r ∨ Behind r₁.rest behind.rest := by
  rw [rangeBehind?.eq_def] at h
  split at h
  · exact absurd h (by simp)
  · split at h
    · obtain ⟨_, -, heq⟩ := Option.map_eq_some_iff.mp h
      exact .inl (Prod.mk.inj heq).2.symm
    · obtain ⟨⟨last, r₂⟩, hlast, h⟩ := Option.bind_eq_some_iff.mp h
      obtain ⟨_, -, heq⟩ := Option.map_eq_some_iff.mp h
      rw [← (Prod.mk.inj heq).2]
      exact .inr (takeSetElement_behind hlast)

/-- Reading on from the first element of a range leaves an end of the text. -/
theorem rangeFrom?_suffix {first : Element} {set : CodeSet}
    (h : rangeFrom? first r = some (set, r₁)) : r₁.rest <:+ r.rest := by
  rw [rangeFrom?.eq_def] at h
  split at h
  · exact absurd h (by simp)
  · next c rest hrest =>
    split at h
    · rcases rangeBehind?_cases h with rfl | hbehind
      · exact List.suffix_refl _
      · rw [hrest]
        exact (hbehind.suffix.trans (past_suffix r rest)).trans (List.suffix_cons c rest)
    · obtain ⟨_, -, heq⟩ := Option.map_eq_some_iff.mp h
      rw [← (Prod.mk.inj heq).2]

/-- A range reads the same with another end behind it, as long as there is something in front of
it. -/
theorem rangeBehind?_withEnd (hends : Alike old fresh) {first : Element} {behind : Reading}
    {set : CodeSet} (h : rangeBehind? first r behind = some (set, r₁))
    (hinside : Behind old behind.rest) (hold : old <:+ r₁.rest) :
    rangeBehind? first (r.withEnd old fresh) (behind.withEnd old fresh) =
      some (set, r₁.withEnd old fresh) := by
  rw [rangeBehind?.eq_def] at h ⊢
  rw [withEnd_rest]
  split at h
  · exact absurd h (by simp)
  · next next more hmore =>
    rw [hmore] at hinside
    rw [hmore, newEnd_cons (show old <:+ more from hinside)]
    -- the sign behind the hyphen is the same in both texts, so both readings go the same way
    dsimp only
    split at h
    · next hnext =>
      obtain ⟨set', hset, heq⟩ := Option.map_eq_some_iff.mp h
      obtain ⟨rfl, rfl⟩ := Prod.mk.inj heq
      rw [if_pos hnext, withEnd_flags, hset]
      rfl
    · next hnext =>
      obtain ⟨⟨last, r₂⟩, hlast, h⟩ := Option.bind_eq_some_iff.mp h
      obtain ⟨set', hset, heq⟩ := Option.map_eq_some_iff.mp h
      obtain ⟨rfl, rfl⟩ := Prod.mk.inj heq
      have hliteral : ∀ a, last ≠ .anchor a := by
        rintro a rfl
        cases first <;> exact absurd hset (by simp [rangeSet?])
      rw [if_neg hnext, takeSetElement_withEnd hends hlast hold hliteral]
      show (rangeSet? r₂.flags first last).map _ = _
      rw [hset]
      rfl

/-- A hyphen behind an element is looked behind. -/
theorem rangeFrom?_withEnd (hends : Alike old fresh) {first : Element} {set : CodeSet}
    (h : rangeFrom? first r = some (set, r₁)) (hold : Behind old r₁.rest)
    (hroom : Roomy old '-' r₁) :
    rangeFrom? first (r.withEnd old fresh) = some (set, r₁.withEnd old fresh) := by
  have hbehind : Behind old r.rest := hold.of_suffix (rangeFrom?_suffix h)
  rw [rangeFrom?.eq_def] at h ⊢
  rw [withEnd_rest]
  split at h
  · exact absurd h (by simp)
  · next c rest hrest =>
    rw [hrest] at hbehind
    rw [hrest, newEnd_cons (show old <:+ rest from hbehind)]
    dsimp only
    split at h
    · next hc =>
      -- behind the hyphen there is a sign in front of the end, read or left as the first of the
      -- next
      subst hc
      have hinside : Behind old (r.past rest).rest := by
        rcases rangeBehind?_cases h with rfl | hlast
        · exact hroom rest hrest
        · exact hlast.of_behind hold.suffix
      rw [if_pos rfl, past_withEnd hends hinside.suffix]
      exact rangeBehind?_withEnd hends h hinside hold.suffix
    · next hc =>
      obtain ⟨set', hset, heq⟩ := Option.map_eq_some_iff.mp h
      obtain ⟨rfl, rfl⟩ := Prod.mk.inj heq
      rw [if_neg hc, withEnd_flags, hset]
      rfl

theorem takeSetRange_behind {set : CodeSet} (h : takeSetRange r = some (set, r₁)) :
    Behind r₁.rest r.rest := by
  rw [takeSetRange_eq] at h
  obtain ⟨⟨first, r₂⟩, hfirst, h⟩ := Option.bind_eq_some_iff.mp h
  have hrange : r₁.rest <:+ r₂.rest := (rangeFrom?_suffix h).trans (skipBlanks_suffix r₂)
  exact (takeSetElement_behind hfirst).of_behind hrange

/-- The blanks behind a single sign are passed over with it. -/
theorem takeSetRange_past {set : CodeSet} (h : takeSetRange r = some (set, r₁)) {c : Char}
    {rest : List Char} (hrest : r.rest = c :: rest) (hslash : c ≠ '\\') :
    r₁.rest <:+ (r.past rest).rest := by
  rw [takeSetRange_eq, takeSetElement_eq hrest, if_neg hslash] at h
  exact rangeFrom?_suffix h

/-- A range reads the same with another end, if a hyphen behind it would leave a sign in front of
the end. -/
theorem takeSetRange_withEnd (hends : Alike old fresh) {set : CodeSet}
    (h : takeSetRange r = some (set, r₁)) (hold : Behind old r₁.rest) (hroom : Roomy old '-' r₁) :
    takeSetRange (r.withEnd old fresh) = some (set, r₁.withEnd old fresh) := by
  rw [takeSetRange_eq] at h ⊢
  obtain ⟨⟨first, r₂⟩, hfirst, h⟩ := Option.bind_eq_some_iff.mp h
  have hblanks : old <:+ r₂.skipBlanks.rest := (hold.of_suffix (rangeFrom?_suffix h)).suffix
  -- no braces behind `\b` have been looked into, as it would have been refused
  have hset : ∀ a, first ≠ .anchor a := by
    rintro a rfl
    change rangeFrom? _ _ = _ at h
    rw [rangeFrom?_anchor] at h
    exact absurd h (by simp)
  rw [takeSetElement_withEnd hends hfirst (hblanks.trans (skipBlanks_suffix r₂)) hset]
  show rangeFrom? first (r₂.withEnd old fresh).skipBlanks = _
  rw [skipBlanks_withEnd hends hblanks]
  exact rangeFrom?_withEnd hends h hold hroom

/-! ## Signs that stand for themselves -/

/-- At the start of a set a hyphen is a literal, and so is a bracket in front of all of them;
anything else ends the literals. -/
theorem takeLeadingLiterals_cons {c : Char} {rest : List Char} (hrest : r.rest = c :: rest)
    (fuel : Nat) (any : Bool) (members : Members) :
    takeLeadingLiterals (fuel + 1) r any members =
      if c = '-' then
        if (r.past rest).rest.isEmpty then none
        else takeLeadingLiterals fuel (r.past rest) true (members.add ⟨.single '-'.toNat, 0⟩)
      else if c = ']' then
        if any then some (members, r)
        else if (r.past rest).rest.isEmpty then none
        else some (members.add ⟨.single ']'.toNat, 0⟩, r.past rest)
      else some (members, r) := by
  rw [takeLeadingLiterals, hrest]
  by_cases hhyphen : c = '-'
  · subst hhyphen
    rfl
  · by_cases hbracket : c = ']'
    · subst hbracket
      rfl
    · rw [if_neg hhyphen, if_neg hbracket]
      split <;> simp_all

/-- Reading the literals at the start of a set leaves an end of the text. -/
theorem takeLeadingLiterals_suffix {fuel : Nat} {any : Bool} {members members' : Members}
    (h : takeLeadingLiterals fuel r any members = some (members', r₁)) : r₁.rest <:+ r.rest := by
  -- on the fuel, by the first sign: a hyphen, a bracket, or anything else
  induction fuel generalizing r any members with
  | zero =>
    obtain ⟨-, rfl⟩ := Prod.mk.inj (Option.some.inj h)
    exact List.suffix_refl _
  | succ fuel ih =>
    cases hrest : r.rest with
    | nil => simp [takeLeadingLiterals, hrest] at h
    | cons c rest =>
      have hpast : (r.past rest).rest <:+ c :: rest :=
        (past_suffix r rest).trans (List.suffix_cons c rest)
      rw [takeLeadingLiterals_cons hrest] at h
      split at h
      · split at h
        · exact absurd h (by simp)
        · exact (ih h).trans hpast
      · split at h
        · split at h
          · obtain ⟨-, rfl⟩ := Prod.mk.inj (Option.some.inj h)
            rw [← hrest]
          · split at h
            · exact absurd h (by simp)
            · obtain ⟨-, rfl⟩ := Prod.mk.inj (Option.some.inj h)
              exact hpast
        · obtain ⟨-, rfl⟩ := Prod.mk.inj (Option.some.inj h)
          rw [← hrest]

/-- The literals at the start read the same with another end, as all of them are in front of it. -/
theorem takeLeadingLiterals_withEnd (hends : Alike old fresh) {fuel fuel' : Nat} {any : Bool}
    {members members' : Members} (hfuel : r.rest.length ≤ fuel)
    (hfuel' : (newEnd old fresh r.rest).length ≤ fuel')
    (h : takeLeadingLiterals fuel r any members = some (members', r₁))
    (hold : Behind old r₁.rest) :
    takeLeadingLiterals fuel' (r.withEnd old fresh) any members =
      some (members', r₁.withEnd old fresh) := by
  have hbehind : Behind old r.rest := hold.of_suffix (takeLeadingLiterals_suffix h)
  obtain ⟨c, rest, hrest, hsuffix⟩ := hbehind.exists_cons
  -- every hyphen takes one step, and every step one sign of either text
  induction fuel generalizing fuel' r any members c rest with
  | zero =>
    rw [List.length_eq_zero_iff.mp (Nat.le_zero.mp hfuel)] at hbehind
    exact hbehind.elim
  | succ fuel ih =>
    rw [hrest, List.length_cons] at hfuel
    rw [hrest, newEnd_cons hsuffix, List.length_cons] at hfuel'
    obtain ⟨fuel', rfl⟩ : ∃ less, fuel' = less + 1 :=
      Nat.exists_eq_add_one.mpr (Nat.lt_of_lt_of_le (Nat.succ_pos _) hfuel')
    rw [takeLeadingLiterals_cons hrest] at h
    rw [takeLeadingLiterals_cons (withEnd_rest_cons hrest hsuffix)]
    by_cases hhyphen : c = '-'
    · rw [if_pos hhyphen] at h ⊢
      split at h
      · exact absurd h (by simp)
      · have hpast : Behind old (r.past rest).rest :=
          hold.of_suffix (takeLeadingLiterals_suffix h)
        have hshorter := (past_suffix r rest).length_le
        have hnewer := length_newEnd_le fresh hpast.suffix (past_suffix r rest)
        rw [past_withEnd hends hpast.suffix, withEnd_rest, if_neg hpast.newEnd_not_isEmpty]
        obtain ⟨d, others, hothers, hbelow⟩ := hpast.exists_cons
        exact ih (by omega) (by omega) h hpast d others hothers hbelow
    · rw [if_neg hhyphen] at h ⊢
      by_cases hbracket : c = ']'
      · rw [if_pos hbracket] at h ⊢
        split at h
        · next hany =>
          obtain ⟨rfl, rfl⟩ := Prod.mk.inj (Option.some.inj h)
          rw [if_pos hany]
        · next hany =>
          split at h
          · exact absurd h (by simp)
          · obtain ⟨rfl, rfl⟩ := Prod.mk.inj (Option.some.inj h)
            rw [if_neg hany, past_withEnd hends hold.suffix, withEnd_rest,
              if_neg hold.newEnd_not_isEmpty]
      · rw [if_neg hbracket] at h ⊢
        obtain ⟨rfl, rfl⟩ := Prod.mk.inj (Option.some.inj h)
        rfl

/-! ## Bracket expressions -/

/-- What the next sign of a bracket expression makes of it. -/
inductive SetItem where
  /-- It ends. -/
  | close (n : Nested) (r : Reading)
  /-- It goes on with other members, perhaps behind an operator. -/
  | more (r : Reading) (waiting : Waiting) (members : Members)
  /-- Another one opens inside. -/
  | inner (r : Reading)

/-- The reading that an item of a bracket expression leaves. -/
def SetItem.reading : SetItem → Reading
  | .close _ r | .more r _ _ | .inner r => r

/-- The same item with another end of the text. -/
def SetItem.withEnd (old fresh : List Char) : SetItem → SetItem
  | .close n r => .close n (r.withEnd old fresh)
  | .more r waiting members => .more (r.withEnd old fresh) waiting members
  | .inner r => .inner (r.withEnd old fresh)

/-- Reads an item that starts with an opening bracket: a named class, or a bracket expression. -/
def bracketItem? (r : Reading) (waiting : Waiting) (members : Members) (rest : List Char) :
    Option SetItem :=
  match namedClass? rest with
  | some ((turned, named), after) =>
    (turnedSet? r.flags turned named).map fun set =>
      .more (r.moveTo after) waiting (members.add ⟨set, 0⟩)
  | none => some (.inner (r.moveTo rest))

/-- Reads an item that starts with no bracket: an operator, or a range. -/
def plainItem? (r : Reading) (waiting : Waiting) (members : Members) : Option SetItem :=
  match setOperator? r.rest with
  | some (op, after) =>
    some (.more (r.moveTo after) (some (combineWaiting r.flags waiting members.union, op)) {})
  | none => (takeSetRange r).map fun (set, r₁) => .more r₁ waiting (members.add ⟨set, 0⟩)

/-- The end of a bracket expression. -/
def closeItem? (r : Reading) (negated : Bool) (waiting : Waiting) (members : Members)
    (rest : List Char) : Option SetItem :=
  let whole := combineWaiting r.flags waiting members.union
  (turnedSet? r.flags negated whole.set).map fun set => .close ⟨set, whole.depth⟩ (r.moveTo rest)

/-- Reads the next item of a bracket expression. -/
def setItem? (r : Reading) (negated : Bool) (waiting : Waiting) (members : Members) :
    Option SetItem :=
  match r.rest with
  | [] => none
  | c :: rest =>
    if c = ']' then closeItem? r negated waiting members rest
    else if c = '[' then bracketItem? r waiting members rest
    else plainItem? r waiting members

/-- Reads on behind an item of a bracket expression. -/
def takeSetFrom (fuel : Nat) (negated : Bool) (waiting : Waiting) (members : Members) :
    SetItem → Option (Nested × Reading)
  | .close n r => some (n, r)
  | .more r waiting members => takeSet fuel r true negated waiting members
  | .inner r =>
    (takeSet fuel r false false none {}).bind fun (nested, r₁) =>
      takeSet fuel r₁ true negated waiting
        (members.add { nested with depth := nested.depth + 1 })

/-- A bracket inside a set opens a named class or a set of its own, which is closed before the set
goes on. -/
theorem bracketItem?_bind (fuel : Nat) (r : Reading) (negated : Bool) (waiting : Waiting)
    (members : Members) (rest : List Char) :
    (bracketItem? r waiting members rest).bind (takeSetFrom fuel negated waiting members) =
      match namedClass? rest with
      | some ((turned, named), after) =>
        match turnedSet? r.flags turned named with
        | some set => takeSet fuel (r.moveTo after) true negated waiting (members.add ⟨set, 0⟩)
        | none => none
      | none =>
        match takeSet fuel (r.moveTo rest) false false none {} with
        | some (nested, r₁) =>
          takeSet fuel r₁ true negated waiting
            (members.add { nested with depth := nested.depth + 1 })
        | none => none := by
  rw [bracketItem?.eq_def]
  cases namedClass? rest with
  | none =>
    show (takeSet fuel (r.moveTo rest) false false none {}).bind _ = _
    cases takeSet fuel (r.moveTo rest) false false none {} <;> rfl
  | some read =>
    obtain ⟨⟨turned, named⟩, after⟩ := read
    dsimp only
    cases turnedSet? r.flags turned named <;> rfl

/-- A bracket expression is read item by item. -/
theorem takeSet_succ (fuel : Nat) (r : Reading) (negated : Bool) (waiting : Waiting)
    (members : Members) :
    takeSet (fuel + 1) r true negated waiting members =
      (setItem? r.skipBlanks negated waiting members).bind
        (takeSetFrom fuel negated waiting members) := by
  rw [takeSet]
  generalize r.skipBlanks = r
  rw [setItem?.eq_def]
  cases hrest : r.rest with
  | nil => rfl
  -- by the sign: the set is closed, opened inside itself, or goes on with an element
  | cons c rest =>
    by_cases hclose : c = ']'
    · subst hclose
      show Option.map _ _ = (closeItem? r negated waiting members rest).bind _
      rw [closeItem?]
      cases turnedSet? r.flags negated _ <;> rfl
    · by_cases hopen : c = '['
      · subst hopen
        exact (bracketItem?_bind fuel r negated waiting members rest).symm
      · dsimp only
        rw [if_neg hclose, if_neg hopen, plainItem?.eq_def]
        split
        · simp_all
        · simp_all
        · simp_all
        · rw [hrest]
          cases setOperator? (c :: rest) with
          | none =>
            dsimp only
            cases takeSetRange r <;> rfl
          | some read => rfl

/-- Whether a bracket expression is turned over, behind the mark that says so. -/
def turnedOver (r : Reading) : Bool × Reading :=
  match r.rest with
  | '^' :: rest => (true, r.past rest)
  | _ => (false, r)

/-- A set is turned over by the sign behind its bracket. -/
theorem turnedOver_cons {c : Char} {rest : List Char} (hrest : r.rest = c :: rest) :
    turnedOver r = if c = '^' then (true, r.past rest) else (false, r) := by
  rw [turnedOver, hrest]
  by_cases hc : c = '^'
  · subst hc
    rfl
  · rw [if_neg hc]
    split <;> simp_all

/-- The literals at the start of a set are read, and then the set is. -/
theorem takeLeadingLiterals_bind (fuel : Nat) (waiting : Waiting) (members : Members)
    (negated : Bool) (r : Reading) :
    ((takeLeadingLiterals r.rest.length r false members).bind fun (members, r₁) =>
        takeSet fuel r₁ true negated waiting members) =
      match takeLeadingLiterals r.rest.length r false members with
      | some (members, r₁) => takeSet fuel r₁ true negated waiting members
      | none => none := by
  cases takeLeadingLiterals r.rest.length r false members <;> rfl

/-- A set that has just been opened is turned over or not, and reads its leading literals. -/
theorem takeSet_start (fuel : Nat) (r : Reading) (negated : Bool) (waiting : Waiting)
    (members : Members) :
    takeSet (fuel + 1) r false negated waiting members =
      (takeLeadingLiterals (turnedOver r.skipBlanks).2.rest.length (turnedOver r.skipBlanks).2
          false members).bind fun (members, r₁) =>
        takeSet fuel r₁ true (turnedOver r.skipBlanks).1 waiting members := by
  rw [takeSet]
  exact (takeLeadingLiterals_bind fuel waiting members (turnedOver r.skipBlanks).1
    (turnedOver r.skipBlanks).2).symm

/-- Looking for the sign that turns a set over leaves an end of the text. -/
theorem turnedOver_suffix (r : Reading) : (turnedOver r).2.rest <:+ r.rest := by
  cases hrest : r.rest with
  | nil =>
    rw [turnedOver, hrest]
    dsimp only
    rw [hrest]
  | cons c rest =>
    rw [turnedOver_cons hrest]
    split
    · exact (past_suffix r rest).trans (List.suffix_cons c rest)
    · rw [← hrest]

/-- Whether a set is turned over does not depend on its end, which stands behind the set. -/
theorem turnedOver_withEnd (hends : Alike old fresh) (h : Behind old (turnedOver r).2.rest) :
    turnedOver (r.withEnd old fresh) =
      ((turnedOver r).1, (turnedOver r).2.withEnd old fresh) := by
  obtain ⟨c, rest, hrest, hsuffix⟩ := (h.of_suffix (turnedOver_suffix r)).exists_cons
  rw [turnedOver_cons hrest] at h ⊢
  rw [turnedOver_cons (withEnd_rest_cons hrest hsuffix)]
  split
  · next hc =>
    rw [if_pos hc] at h
    rw [past_withEnd hends h.suffix]
  · rfl

/-- A doubled sign is two signs in front of what is left. -/
theorem setOperator?_behind {cs after : List Char} {op : SetOperator}
    (h : setOperator? cs = some (op, after)) :
    ∃ sign, cs = sign :: sign :: after := by
  rw [setOperator?.eq_def] at h
  split at h
  · exact ⟨'&', by rw [(Prod.mk.inj (Option.some.inj h)).2]⟩
  · exact ⟨'-', by rw [(Prod.mk.inj (Option.some.inj h)).2]⟩
  · exact ⟨'~', by rw [(Prod.mk.inj (Option.some.inj h)).2]⟩
  · exact absurd h (by simp)

theorem namedClass?_behind {cs after : List Char} {negated : Bool} {set : CodeSet}
    (h : namedClass? cs = some ((negated, set), after)) : after <:+ cs := by
  obtain ⟨name, rfl, -, -⟩ := namedClass?_eq_some_iff.mp h
  exact ⟨':' :: (turnSign negated ++ (name ++ [':', ']'])), by simp⟩

/-- An item without a bracket is an operator of two signs or a range. -/
theorem plainItem?_cases {waiting : Waiting} {members : Members} {item : SetItem}
    (h : plainItem? r waiting members = some item) :
    ∃ r₁ waiting' members', item = .more r₁ waiting' members' ∧
      ((∃ sign, r.rest = sign :: sign :: r₁.rest) ∨
        setOperator? r.rest = none ∧ ∃ set, takeSetRange r = some (set, r₁)) := by
  rw [plainItem?.eq_def] at h
  split at h
  · next op after hop =>
    exact ⟨_, _, _, (Option.some.inj h).symm, .inl (setOperator?_behind hop)⟩
  · next hop =>
    obtain ⟨⟨set, r₁⟩, hrange, rfl⟩ := Option.map_eq_some_iff.mp h
    exact ⟨r₁, _, _, rfl, .inr ⟨hop, set, hrange⟩⟩

/-- Every item of a set has at least one sign. -/
theorem setItem?_behind {negated : Bool} {waiting : Waiting} {members : Members} {item : SetItem}
    (h : setItem? r negated waiting members = some item) : Behind item.reading.rest r.rest := by
  rw [setItem?.eq_def] at h
  split at h
  · exact absurd h (by simp)
  · next c rest hrest =>
    -- each kind of item has read at least the sign it begins with
    rw [hrest]
    show item.reading.rest <:+ rest
    split at h
    · obtain ⟨_, -, rfl⟩ := Option.map_eq_some_iff.mp h
      exact List.suffix_refl rest
    · split at h
      · rw [bracketItem?.eq_def] at h
        split at h
        · next hclass =>
          obtain ⟨_, -, rfl⟩ := Option.map_eq_some_iff.mp h
          exact namedClass?_behind hclass
        · rw [← Option.some.inj h]
          exact List.suffix_refl rest
      · obtain ⟨r₁, _, _, rfl, hread | ⟨-, set, hrange⟩⟩ := plainItem?_cases h
        · obtain ⟨sign, hsigns⟩ := hread
          rw [hrest] at hsigns
          rw [(List.cons.inj hsigns).2]
          exact List.suffix_cons sign _
        · have hbehind := takeSetRange_behind hrange
          rwa [hrest] at hbehind

/-- A bracket expression ends behind a bracket of its own. -/
theorem takeSet_behind {fuel : Nat} {opened negated : Bool} {waiting : Waiting}
    {members : Members} {n : Nested}
    (h : takeSet fuel r opened negated waiting members = some (n, r₁)) :
    Behind r₁.rest r.rest := by
  -- on the fuel: a set that has just been opened, or one item of it
  induction fuel generalizing r r₁ opened negated waiting members n with
  | zero => exact absurd h (by simp [takeSet])
  | succ fuel ih =>
    cases opened with
    | false =>
      rw [takeSet_start] at h
      obtain ⟨⟨members', r₂⟩, hliterals, h⟩ := Option.bind_eq_some_iff.mp h
      exact (ih h).of_suffix (((takeLeadingLiterals_suffix hliterals).trans
        (turnedOver_suffix _)).trans (skipBlanks_suffix r))
    | true =>
      rw [takeSet_succ] at h
      obtain ⟨item, hitem, h⟩ := Option.bind_eq_some_iff.mp h
      have hbehind : Behind item.reading.rest r.rest :=
        (setItem?_behind hitem).of_suffix (skipBlanks_suffix r)
      cases item with
      | close n' r₂ =>
        obtain ⟨-, rfl⟩ := Prod.mk.inj (Option.some.inj h)
        exact hbehind
      | more r₂ waiting' members' => exact hbehind.of_behind (ih h).suffix
      | inner r₂ =>
        obtain ⟨⟨nested, r₃⟩, hinner, h⟩ := Option.bind_eq_some_iff.mp h
        exact hbehind.of_behind ((ih h).suffix.trans (ih hinner).suffix)

/-- Behind a hyphen, a bracket expression has something to go on with. -/
theorem takeSet_roomy {fuel : Nat} {negated : Bool} {waiting : Waiting} {members : Members}
    {n : Nested} (h : takeSet fuel r true negated waiting members = some (n, r₁))
    (hold : old <:+ r₁.rest) : Roomy old '-' r := by
  intro rest hrest
  cases fuel with
  | zero => exact absurd h (by simp [takeSet])
  | succ fuel =>
    rw [takeSet_succ, skipBlanks_of_cons hrest (by decide) (by decide)] at h
    obtain ⟨item, hitem, h⟩ := Option.bind_eq_some_iff.mp h
    rw [setItem?.eq_def, hrest] at hitem
    dsimp only at hitem
    rw [if_neg (by decide), if_neg (by decide)] at hitem
    -- the item begins with the hyphen, which is an operator's sign or the start of a range
    obtain ⟨r₂, _, _, rfl, hread⟩ := plainItem?_cases hitem
    have hgoesOn : Behind old r₂.rest := (takeSet_behind h).of_behind hold
    rcases hread with ⟨sign, hsigns⟩ | ⟨-, set, hrange⟩
    · -- the second hyphen is no blank
      rw [hrest] at hsigns
      obtain ⟨rfl, hrest₂⟩ := List.cons.inj hsigns
      have hpast : r.past rest = r.moveTo rest :=
        skipBlanks_of_cons (r := r.moveTo rest) hrest₂ (by decide) (by decide)
      rw [hpast, moveTo_rest, hrest₂]
      exact hgoesOn.suffix
    · exact hgoesOn.of_suffix (takeSetRange_past hrange hrest (by decide))

/-- An item with a bracket reads the same with another end, which is behind that bracket. -/
theorem bracketItem?_withEnd (hends : Alike old fresh) {waiting : Waiting} {members : Members}
    {item : SetItem} {rest : List Char} (h : bracketItem? r waiting members rest = some item)
    (hold : old <:+ item.reading.rest) :
    bracketItem? (r.withEnd old fresh) waiting members (newEnd old fresh rest) =
      some (item.withEnd old fresh) := by
  rw [bracketItem?.eq_def] at h ⊢
  cases hclass : namedClass? rest with
  -- no named class begins in either text
  | none =>
    rw [hclass] at h
    dsimp only at h
    rw [← Option.some.inj h] at hold ⊢
    have hrest : old <:+ rest := hold
    rw [(newEnd_of_append (fun cs _ => namedClass?_append cs) hends hrest).1, hclass]
    rfl
  | some read =>
    obtain ⟨⟨turned, named⟩, after⟩ := read
    rw [hclass] at h
    obtain ⟨set, hset, rfl⟩ := Option.map_eq_some_iff.mp h
    have hafter : old <:+ after := hold
    rw [(newEnd_of_append (fun cs _ => namedClass?_append cs) hends
      (hafter.trans (namedClass?_behind hclass))).1, hclass]
    dsimp only [Option.map_some]
    rw [withEnd_flags, hset]
    rfl

/-- An item without a bracket reads the same with another end, if a hyphen behind it would leave a
sign in front. -/
theorem plainItem?_withEnd (hends : Alike old fresh) {waiting : Waiting} {members : Members}
    {item : SetItem} (h : plainItem? r waiting members = some item)
    (hold : Behind old item.reading.rest) (hroom : Roomy old '-' item.reading) :
    plainItem? (r.withEnd old fresh) waiting members = some (item.withEnd old fresh) := by
  have hkeeps : old <:+ r.rest := by
    obtain ⟨r₁, _, _, rfl, ⟨sign, hsigns⟩ | ⟨-, set, hrange⟩⟩ := plainItem?_cases h
    · rw [hsigns]
      exact (hold.suffix.trans (List.suffix_cons sign _)).trans (List.suffix_cons sign _)
    · exact hold.suffix.trans (takeSetRange_behind hrange).suffix
  rw [plainItem?.eq_def] at h ⊢
  -- an operator is two signs, and the end of neither text begins with one
  rw [withEnd_rest, (newEnd_of_append (fun cs _ => setOperator?_append cs) hends hkeeps).1]
  cases hop : setOperator? r.rest with
  | none =>
    rw [hop] at h
    obtain ⟨⟨set, r₁⟩, hrange, rfl⟩ := Option.map_eq_some_iff.mp h
    dsimp only [Option.map_none]
    rw [takeSetRange_withEnd hends hrange hold hroom]
    rfl
  | some read =>
    rw [hop] at h
    rw [← Option.some.inj h]
    rfl

/-- Every item reads the same with another end, with the same room behind an item that may become a
range. -/
theorem setItem?_withEnd (hends : Alike old fresh) {negated : Bool} {waiting : Waiting}
    {members : Members} {item : SetItem} (h : setItem? r negated waiting members = some item)
    (hold : old <:+ item.reading.rest)
    (hroom : ∀ r₁ waiting' members', item = .more r₁ waiting' members' →
      Behind old r₁.rest ∧ Roomy old '-' r₁) :
    setItem? (r.withEnd old fresh) negated waiting members = some (item.withEnd old fresh) := by
  have hbehind : Behind old r.rest := (setItem?_behind h).of_behind hold
  rw [setItem?.eq_def] at h ⊢
  rw [withEnd_rest]
  split at h
  · exact absurd h (by simp)
  · next c rest hrest =>
    rw [hrest] at hbehind
    rw [hrest, newEnd_cons (show old <:+ rest from hbehind)]
    dsimp only
    -- the sign is the same in both texts, so both take the same kind of item
    by_cases hclose : c = ']'
    · rw [if_pos hclose] at h ⊢
      obtain ⟨set, hset, rfl⟩ := Option.map_eq_some_iff.mp h
      rw [closeItem?, withEnd_flags, hset]
      rfl
    · rw [if_neg hclose] at h ⊢
      by_cases hopen : c = '['
      · rw [if_pos hopen] at h ⊢
        exact bracketItem?_withEnd hends h hold
      · rw [if_neg hopen] at h ⊢
        obtain ⟨r₁, waiting', members', hitem, -⟩ := plainItem?_cases h
        obtain ⟨hinside, hhyphen⟩ := hroom r₁ waiting' members' hitem
        subst hitem
        exact plainItem?_withEnd hends h hinside hhyphen

/-- The signs at the start of a bracket expression are read so with another end. -/
theorem takeSet_start_withEnd (hends : Alike old fresh) {members members' : Members}
    (h : takeLeadingLiterals (turnedOver r.skipBlanks).2.rest.length (turnedOver r.skipBlanks).2
      false members = some (members', r₁)) (hold : Behind old r₁.rest) :
    turnedOver (r.withEnd old fresh).skipBlanks =
        ((turnedOver r.skipBlanks).1, (turnedOver r.skipBlanks).2.withEnd old fresh) ∧
      takeLeadingLiterals (newEnd old fresh (turnedOver r.skipBlanks).2.rest).length
          ((turnedOver r.skipBlanks).2.withEnd old fresh) false members =
        some (members', r₁.withEnd old fresh) ∧
      (newEnd old fresh r₁.rest).length ≤ (newEnd old fresh r.rest).length := by
  have hturned : Behind old (turnedOver r.skipBlanks).2.rest :=
    hold.of_suffix (takeLeadingLiterals_suffix h)
  have hblanks : old <:+ r.skipBlanks.rest := (hturned.of_suffix (turnedOver_suffix _)).suffix
  have hall : r₁.rest <:+ r.rest :=
    ((takeLeadingLiterals_suffix h).trans (turnedOver_suffix _)).trans (skipBlanks_suffix r)
  refine ⟨?_, ?_, length_newEnd_le fresh hold.suffix hall⟩
  · rw [skipBlanks_withEnd hends hblanks, turnedOver_withEnd hends hturned]
  · exact takeLeadingLiterals_withEnd hends (Nat.le_refl _) (Nat.le_refl _) h hold

/-- Where reading goes on behind an item, and where there has to be something left to look at. -/
theorem takeSetFrom_roomy {fuel : Nat} {negated : Bool} {waiting : Waiting} {members : Members}
    {item : SetItem} {n : Nested}
    (h : takeSetFrom fuel negated waiting members item = some (n, r₁)) (hold : old <:+ r₁.rest) :
    old <:+ item.reading.rest ∧ ∀ r₂ waiting' members', item = .more r₂ waiting' members' →
      Behind old r₂.rest ∧ Roomy old '-' r₂ := by
  cases item with
  | close n' r₂ =>
    obtain ⟨-, rfl⟩ := Prod.mk.inj (Option.some.inj h)
    exact ⟨hold, fun _ _ _ heq => absurd heq (by simp)⟩
  | more r₂ waiting' members' =>
    have hinside : Behind old r₂.rest := (takeSet_behind h).of_behind hold
    refine ⟨hinside.suffix, ?_⟩
    rintro _ _ _ ⟨⟩
    exact ⟨hinside, takeSet_roomy h hold⟩
  | inner r₂ =>
    obtain ⟨⟨nested, r₃⟩, hinner, h⟩ := Option.bind_eq_some_iff.mp h
    have hbelow : r₁.rest <:+ r₂.rest :=
      (takeSet_behind h).suffix.trans (takeSet_behind hinner).suffix
    exact ⟨hold.trans hbelow, fun _ _ _ heq => absurd heq (by simp)⟩

/-- What is left unread behind a bracket expression makes no difference to it. -/
theorem takeSet_withEnd (hends : Alike old fresh) {fuel fuel' : Nat} {opened negated : Bool}
    {waiting : Waiting} {members : Members} {n : Nested}
    (hfuel' : 2 * (newEnd old fresh r.rest).length + (if opened then 0 else 1) < fuel')
    (h : takeSet fuel r opened negated waiting members = some (n, r₁)) (hold : old <:+ r₁.rest) :
    takeSet fuel' (r.withEnd old fresh) opened negated waiting members =
      some (n, r₁.withEnd old fresh) := by
  -- by the fuel of the reading that is known; the other one lasts for two steps a sign, as every
  -- item takes one, and a bracket expression inside another one takes one more for its start
  induction fuel generalizing fuel' r r₁ opened negated waiting members n with
  | zero => exact absurd h (by simp [takeSet])
  | succ fuel ih =>
    obtain ⟨fuel', rfl⟩ : ∃ less, fuel' = less + 1 := Nat.exists_eq_add_one.mpr (by omega)
    cases opened with
    | false =>
      rw [takeSet_start] at h ⊢
      -- the hyphens and the bracket at the start are literals in both texts
      obtain ⟨⟨members', r₂⟩, hliterals, h⟩ := Option.bind_eq_some_iff.mp h
      have hinside : Behind old r₂.rest := (takeSet_behind h).of_behind hold
      obtain ⟨hturned, hnew, hshorter⟩ := takeSet_start_withEnd hends hliterals hinside
      rw [hturned]
      dsimp only
      rw [withEnd_rest, hnew]
      simp only [Bool.false_eq_true, if_false] at hfuel'
      exact ih (by simp only [if_true]; omega) h hold
    | true =>
      rw [takeSet_succ] at h ⊢
      obtain ⟨item, hitem, h⟩ := Option.bind_eq_some_iff.mp h
      obtain ⟨hkeeps, hroom⟩ := takeSetFrom_roomy h hold
      -- the item leaves fewer signs in either text, which is what the fuel of the second allows
      have hbehind : Behind item.reading.rest r.skipBlanks.rest := setItem?_behind hitem
      have hshorter : (newEnd old fresh item.reading.rest).length <
          (newEnd old fresh r.rest).length :=
        length_newEnd_lt fresh (hbehind.of_suffix (skipBlanks_suffix r)) hkeeps
      rw [skipBlanks_withEnd hends (hkeeps.trans hbehind.suffix),
        setItem?_withEnd hends hitem hkeeps hroom]
      show takeSetFrom fuel' negated waiting members (item.withEnd old fresh) = _
      simp only [if_true] at hfuel'
      cases item with
      | close n' r₂ =>
        obtain ⟨rfl, rfl⟩ := Prod.mk.inj (Option.some.inj h)
        rfl
      | more r₂ waiting' members' =>
        have hless : (newEnd old fresh r₂.rest).length < (newEnd old fresh r.rest).length :=
          hshorter
        exact ih (by simp only [if_true]; omega) h hold
      | inner r₂ =>
        have hless : (newEnd old fresh r₂.rest).length < (newEnd old fresh r.rest).length :=
          hshorter
        -- the inner set is closed first, and the outer one goes on behind it
        obtain ⟨⟨nested, r₃⟩, hinner, h⟩ := Option.bind_eq_some_iff.mp h
        have hnested : old <:+ r₃.rest := hold.trans (takeSet_behind h).suffix
        have hlast : (newEnd old fresh r₃.rest).length ≤ (newEnd old fresh r₂.rest).length :=
          length_newEnd_le fresh hnested (takeSet_behind hinner).suffix
        show (takeSet fuel' (r₂.withEnd old fresh) false false none {}).bind _ = _
        rw [ih (by simp only [Bool.false_eq_true, if_false]; omega) hinner hnested]
        exact ih (by simp only [if_true]; omega) h hold

end RouterConfig.Pattern
