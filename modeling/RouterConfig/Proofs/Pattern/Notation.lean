import RouterConfig.Proofs.Pattern.Brackets
import RouterConfig.Proofs.Pattern.Groups

/-!
# RouterConfig — expressions, as they are read

An expression is read item by item up to a closing parenthesis, or to the end of the text. Which of
the two it is, and what comes behind the parenthesis, makes no difference to the expression. Main
results:

* `takeAlternatives_succ` — reading goes on item by item;
* `reads_of_takeAlternatives` — what is read, as a relation with a case for each item;
* `Reads.withEnd` — what is left unread makes no difference.
-/

namespace RouterConfig.Pattern

open Reading RouterConfig.Unicode

variable {old fresh : List Char} {r r₁ : Reading} {alternatives : List Expression} {parts : Parts}

/-! ## Items -/

/-- What the next signs of an expression make of it. -/
inductive Item where
  /-- It ends. -/
  | done (r : Reading)
  /-- It goes on with other alternatives and parts. -/
  | more (r : Reading) (alternatives : List Expression) (parts : Parts)
  /-- A group opens; behind it, the flags are what they were before. -/
  | group (number? : Option Nat) (r : Reading) (flags : Flags)

/-- The reading that an item leaves. -/
def Item.reading : Item → Reading
  | .done r | .more r _ _ | .group _ r _ => r

/-- The same item with another end of the text. -/
def Item.withEnd (old fresh : List Char) : Item → Item
  | .done r => .done (r.withEnd old fresh)
  | .more r alternatives parts => .more (r.withEnd old fresh) alternatives parts
  | .group number? r flags => .group number? (r.withEnd old fresh) flags

/-- The counts that a sign for a repetition stands for. -/
def signCounts? (c : Char) : Option (Nat × Option Nat) :=
  if c = '*' then some (0, none)
  else if c = '+' then some (1, none)
  else if c = '?' then some (0, some 1)
  else none

/-- Repeats the last part, once it is known how often. -/
def repeatItem? (r : Reading) (alternatives : List Expression) (parts : Parts)
    (counts : Nat × Option Nat) : Option Item :=
  (repeatLast? parts counts.1 counts.2 (takeGreed r).1).map fun parts =>
    .more (takeGreed r).2 alternatives parts

/-- The item that the start of a group is. -/
def GroupStart.item (flags : Flags) (alternatives : List Expression) (parts : Parts) :
    GroupStart → Item
  | .flags r => .more r alternatives (parts ++ [none])
  | .group number? r => .group number? r flags

/-- Reads an item that starts with a certain sign. -/
def signItem? (r : Reading) (alternatives : List Expression) (parts : Parts) (c : Char)
    (rest : List Char) : Option Item :=
  if c = ')' then some (.done r)
  else if c = '|' then
    some (.more (r.moveTo rest) (alternatives ++ [sequenceOf parts]) [])
  else if c = '\x7b' then
    (takeCounts (r.moveTo rest)).bind fun (counts, after) =>
      repeatItem? after alternatives parts counts
  else if c = '(' then
    (takeGroupStart (r.moveTo rest)).map (GroupStart.item r.flags alternatives parts)
  else if c = '[' then
    (takeSet (2 * rest.length + 2) (r.moveTo rest) false false none {}).map fun (set, after) =>
      .more after alternatives (parts ++ [some (.bracket set.set set.depth)])
  else
    match signCounts? c with
    | some counts => repeatItem? (r.moveTo rest) alternatives parts counts
    | none => (takeElement r).map fun (e, r₁) => .more r₁ alternatives (parts ++ [some e])

/-- Reads the next item of an expression. -/
def item? (r : Reading) (alternatives : List Expression) (parts : Parts) : Option Item :=
  match r.rest with
  | [] => some (.done r)
  | c :: rest => signItem? r alternatives parts c rest

/-- Behind the closing parenthesis of a group, with the flags from in front of it. -/
def closed? (r : Reading) (flags : Flags) : Option Reading :=
  match r.rest with
  | ')' :: rest => some { r with rest := rest, flags := flags }
  | _ => none

/-- Reads on behind an item. -/
def takeFrom (fuel : Nat) (alternatives : List Expression) (parts : Parts) :
    Item → Option (Expression × Reading)
  | .done r => some (.between (alternatives ++ [sequenceOf parts]), r)
  | .more r alternatives parts => takeAlternatives fuel r alternatives parts
  | .group number? r flags =>
    (takeAlternatives fuel r [] []).bind fun (e, after) =>
      (closed? after flags).bind fun r₁ =>
        takeAlternatives fuel r₁ alternatives (parts ++ [some (.group number? e)])

/-- Counts behind nothing are refused; behind a part they go to it, and reading goes on. -/
theorem repeatItem?_bind (fuel : Nat) (r : Reading) (alternatives : List Expression)
    (parts : Parts) (least : Nat) (most? : Option Nat) :
    (repeatItem? r alternatives parts (least, most?)).bind (takeFrom fuel alternatives parts) =
      match repeatLast? parts least most? (takeGreed r).1 with
      | some parts => takeAlternatives fuel (takeGreed r).2 alternatives parts
      | none => none := by
  rw [repeatItem?]
  cases repeatLast? parts least most? (takeGreed r).1 <;> rfl

/-- A group is read up to its closing bracket and becomes a part, and reading goes on behind it. -/
theorem groupItem_bind (fuel : Nat) (r : Reading) (alternatives : List Expression)
    (parts : Parts) (rest : List Char) :
    ((takeGroupStart (r.moveTo rest)).map (GroupStart.item r.flags alternatives parts)).bind
        (takeFrom fuel alternatives parts) =
      match takeGroupStart (r.moveTo rest) with
      | none => none
      | some (.flags r) => takeAlternatives fuel r alternatives (parts ++ [none])
      | some (.group number? inner) =>
        match takeAlternatives fuel inner [] [] with
        | some (e, after) =>
          match after.rest with
          | ')' :: rest =>
            takeAlternatives fuel { after with rest := rest, flags := r.flags } alternatives
              (parts ++ [some (.group number? e)])
          | _ => none
        | none => none := by
  -- a group is read only after its inside, so the rest is read from behind its bracket
  cases takeGroupStart (r.moveTo rest) with
  | none => rfl
  | some start =>
    cases start with
    | flags _ => rfl
    | group number? inner =>
      show (takeAlternatives fuel inner [] []).bind _ = _
      dsimp only
      cases takeAlternatives fuel inner [] [] with
      | none => rfl
      | some read =>
        show (closed? read.2 r.flags).bind _ = _
        rw [closed?]
        dsimp only
        split <;> rfl

/-- An expression is read item by item. -/
theorem takeAlternatives_succ (fuel : Nat) (r : Reading) (alternatives : List Expression)
    (parts : Parts) :
    takeAlternatives (fuel + 1) r alternatives parts =
      (item? r.skipBlanks alternatives parts).bind (takeFrom fuel alternatives parts) := by
  rw [takeAlternatives]
  generalize r.skipBlanks = r
  -- by the first sign of the text, each of which is read by a function of its own
  rw [item?.eq_def]
  cases hrest : r.rest with
  | nil => rfl
  | cons c rest =>
    show _ = (signItem? r alternatives parts c rest).bind _
    by_cases hclose : c = ')'
    · subst hclose
      rfl
    by_cases hbar : c = '|'
    · subst hbar
      rfl
    by_cases hbrace : c = '\x7b'
    · subst hbrace
      show _ = ((takeCounts (r.moveTo rest)).bind _).bind _
      cases hcounts : takeCounts (r.moveTo rest) with
      | none => simp only [hcounts]; rfl
      | some read =>
        obtain ⟨⟨least, most?⟩, after⟩ := read
        simp only [hcounts]
        exact (repeatItem?_bind fuel after alternatives parts least most?).symm
    by_cases hgroup : c = '('
    · subst hgroup
      exact (groupItem_bind fuel r alternatives parts rest).symm
    by_cases hbracket : c = '['
    · subst hbracket
      show _ = ((takeSet _ (r.moveTo rest) false false none {}).map _).bind _
      cases hset : takeSet (2 * rest.length + 2) (r.moveTo rest) false false none {} with
      | none => simp only [hset]; rfl
      | some read => simp only [hset]; rfl
    by_cases hstar : c = '*'
    · subst hstar
      exact (repeatItem?_bind fuel (r.moveTo rest) alternatives parts 0 none).symm
    by_cases hplus : c = '+'
    · subst hplus
      exact (repeatItem?_bind fuel (r.moveTo rest) alternatives parts 1 none).symm
    by_cases hmark : c = '?'
    · subst hmark
      exact (repeatItem?_bind fuel (r.moveTo rest) alternatives parts 0 (some 1)).symm
    -- no sign of its own is left
    have hsign : signItem? r alternatives parts c rest =
        (takeElement r).map fun (e, r₁) => .more r₁ alternatives (parts ++ [some e]) := by
      have hcounts : signCounts? c = none := by
        rw [signCounts?, if_neg hstar, if_neg hplus, if_neg hmark]
      rw [signItem?, if_neg hclose, if_neg hbar, if_neg hbrace, if_neg hgroup, if_neg hbracket,
        hcounts]
    rw [hsign]
    split <;> first
      | (cases takeElement r <;> rfl)
      | simp_all

/-- What a reading is read as, from the alternatives and parts that there are so far: an expression,
and the reading that is left. -/
inductive Reads : Reading → List Expression → Parts → Expression → Reading → Prop where
  | done {r r₁ : Reading} {alternatives : List Expression} {parts : Parts} :
    item? r.skipBlanks alternatives parts = some (.done r₁) →
    Reads r alternatives parts (.between (alternatives ++ [sequenceOf parts])) r₁
  | more {r r₁ r₂ : Reading} {alternatives alternatives' : List Expression} {parts parts' : Parts}
      {e : Expression} :
    item? r.skipBlanks alternatives parts = some (.more r₂ alternatives' parts') →
    Reads r₂ alternatives' parts' e r₁ → Reads r alternatives parts e r₁
  | group {r r₁ r₂ inner after : Reading} {alternatives : List Expression} {parts : Parts}
      {number? : Option Nat} {flags : Flags} {e e' : Expression} :
    item? r.skipBlanks alternatives parts = some (.group number? inner flags) →
    Reads inner [] [] e' after → closed? after flags = some r₂ →
    Reads r₂ alternatives (parts ++ [some (.group number? e')]) e r₁ →
    Reads r alternatives parts e r₁

/-- What the reader makes of a text is what its items build, so nothing of it was left out or made
up. -/
theorem reads_of_takeAlternatives {fuel : Nat} {e : Expression}
    (h : takeAlternatives fuel r alternatives parts = some (e, r₁)) :
    Reads r alternatives parts e r₁ := by
  -- on the fuel: an item that ends the alternatives, one that goes on, or a group
  induction fuel generalizing r r₁ alternatives parts e with
  | zero => exact absurd h (by simp [takeAlternatives])
  | succ fuel ih =>
    rw [takeAlternatives_succ] at h
    obtain ⟨item, hitem, h⟩ := Option.bind_eq_some_iff.mp h
    cases item with
    | done r₂ =>
      obtain ⟨rfl, rfl⟩ := Prod.mk.inj (Option.some.inj h)
      exact .done hitem
    | more r₂ alternatives' parts' => exact .more hitem (ih h)
    | group number? inner flags =>
      obtain ⟨⟨e', after⟩, hinner, h⟩ := Option.bind_eq_some_iff.mp h
      obtain ⟨r₂, hclosed, h⟩ := Option.bind_eq_some_iff.mp h
      exact .group hitem (ih hinner) hclosed (ih h)

/-! ## What is left unread -/

theorem takeCounts_suffix {counts : Nat × Option Nat} (h : takeCounts r = some (counts, r₁)) :
    r₁.rest <:+ r.rest :=
  (takeCounts_behind h (List.suffix_refl _)).suffix.trans (past_suffix r r.rest)

/-- An item that an expression does not end with. -/
def Item.GoesOn : Item → Prop
  | .done _ => False
  | .more _ _ _ | .group _ _ _ => True

/-- An expression ends in front of a closing parenthesis; every other sign is taken. -/
theorem signItem?_cases {c : Char} {rest : List Char} (hrest : r.rest = c :: rest) {item : Item}
    (h : signItem? r alternatives parts c rest = some item) :
    c = ')' ∧ item = .done r ∨ item.GoesOn ∧ item.reading.rest <:+ rest := by
  -- each kind of sign leaves a suffix of the text it started from
  rw [signItem?.eq_def] at h
  by_cases hclose : c = ')'
  · rw [if_pos hclose] at h
    exact .inl ⟨hclose, (Option.some.inj h).symm⟩
  rw [if_neg hclose] at h
  right
  split at h
  · rw [← Option.some.inj h]
    exact ⟨trivial, List.suffix_refl rest⟩
  split at h
  · obtain ⟨⟨counts, after⟩, hcounts, h⟩ := Option.bind_eq_some_iff.mp h
    obtain ⟨parts', -, rfl⟩ := Option.map_eq_some_iff.mp h
    exact ⟨trivial, (takeGreed_suffix after).trans (takeCounts_suffix hcounts)⟩
  split at h
  · obtain ⟨start, hstart, rfl⟩ := Option.map_eq_some_iff.mp h
    have hsuffix := takeGroupStart_suffix hstart
    cases start with
    | flags _ => exact ⟨trivial, hsuffix⟩
    | group _ _ => exact ⟨trivial, hsuffix⟩
  split at h
  · obtain ⟨⟨set, after⟩, hset, rfl⟩ := Option.map_eq_some_iff.mp h
    exact ⟨trivial, (takeSet_behind hset).suffix⟩
  split at h
  · obtain ⟨parts', -, rfl⟩ := Option.map_eq_some_iff.mp h
    exact ⟨trivial, takeGreed_suffix (r.moveTo rest)⟩
  · obtain ⟨⟨e, r₂⟩, helement, rfl⟩ := Option.map_eq_some_iff.mp h
    have hbehind := takeElement_behind helement
    rw [hrest] at hbehind
    exact ⟨trivial, hbehind⟩

/-- How far an item goes: an expression ends where it has to, and goes on otherwise. -/
theorem item?_cases {item : Item} (h : item? r alternatives parts = some item) :
    item = .done r ∧ Closing r.rest ∨ item.GoesOn ∧ Behind item.reading.rest r.rest := by
  rw [item?.eq_def] at h
  split at h
  · next hrest => exact .inl ⟨(Option.some.inj h).symm, .inl hrest⟩
  · next c rest hrest =>
    rw [hrest]
    rcases signItem?_cases hrest h with ⟨rfl, rfl⟩ | ⟨hgoesOn, hsuffix⟩
    · exact .inl ⟨rfl, .inr ⟨rest, rfl⟩⟩
    · exact .inr ⟨hgoesOn, hsuffix⟩

theorem item?_behind {item : Item} (h : item? r alternatives parts = some item)
    (hgoesOn : item.GoesOn) : Behind item.reading.rest r.rest := by
  rcases item?_cases h with ⟨rfl, -⟩ | ⟨-, hbehind⟩
  · exact hgoesOn.elim
  · exact hbehind

theorem item?_done (h : item? r alternatives parts = some (.done r₁)) :
    r₁ = r ∧ Closing r.rest := by
  rcases item?_cases h with ⟨hdone, hclosing⟩ | ⟨hgoesOn, -⟩
  · exact ⟨by simpa using hdone, hclosing⟩
  · exact hgoesOn.elim

/-- A group is closed by a bracket, and the flags are those from in front of it. -/
theorem closed?_eq_some_iff {flags : Flags} :
    closed? r flags = some r₁ ↔
      ∃ rest, r.rest = ')' :: rest ∧ r₁ = { r with rest := rest, flags := flags } := by
  rw [closed?]
  constructor
  · intro h
    split at h
    · next rest hrest => exact ⟨rest, hrest, (Option.some.inj h).symm⟩
    · exact absurd h (by simp)
  · rintro ⟨rest, hrest, rfl⟩
    rw [hrest]
    rfl

theorem closed?_behind {flags : Flags} (h : closed? r flags = some r₁) : Behind r₁.rest r.rest := by
  obtain ⟨rest, hrest, rfl⟩ := closed?_eq_some_iff.mp h
  rw [hrest]
  exact List.suffix_refl rest

/-- What is left of an expression is an end of it, in front of a closing parenthesis if there is
anything left. -/
theorem Reads.suffix {e : Expression} (h : Reads r alternatives parts e r₁) :
    r₁.rest <:+ r.rest ∧ Closing r₁.rest := by
  induction h with
  | done hitem =>
    obtain ⟨rfl, hclosing⟩ := item?_done hitem
    exact ⟨skipBlanks_suffix _, hclosing⟩
  | more hitem _ ih =>
    have hbehind := item?_behind hitem trivial
    exact ⟨ih.1.trans (hbehind.suffix.trans (skipBlanks_suffix _)), ih.2⟩
  | group hitem _ hclosed _ ihinner ih =>
    have hbehind := item?_behind hitem trivial
    have hinner := ihinner.1.trans (hbehind.suffix.trans (skipBlanks_suffix _))
    exact ⟨ih.1.trans ((closed?_behind hclosed).suffix.trans hinner), ih.2⟩

/-- Behind a brace, an expression has counts to go on with. -/
theorem Reads.roomy {e : Expression} (h : Reads r alternatives parts e r₁)
    (hold : old <:+ r₁.rest) : Roomy old '\x7b' r := by
  intro rest hrest
  -- the counts repeat the last part, and reading goes on behind them
  have hsign : ∀ item, item? r.skipBlanks alternatives parts = some item →
      ∃ counts after parts', takeCounts (r.moveTo rest) = some (counts, after) ∧
        item = .more (takeGreed after).2 alternatives parts' := by
    intro item hitem
    rw [skipBlanks_of_cons hrest (by decide) (by decide), item?.eq_def, hrest] at hitem
    obtain ⟨⟨counts, after⟩, hcounts, hitem⟩ := Option.bind_eq_some_iff.mp
      (show (takeCounts (r.moveTo rest)).bind _ = some item from hitem)
    obtain ⟨parts', -, rfl⟩ := Option.map_eq_some_iff.mp hitem
    exact ⟨counts, after, parts', hcounts, rfl⟩
  cases h with
  | done hitem =>
    obtain ⟨_, _, _, _, heq⟩ := hsign _ hitem
    exact absurd heq (by simp)
  | more hitem hmore =>
    obtain ⟨counts, after, parts', hcounts, heq⟩ := hsign _ hitem
    obtain ⟨rfl, rfl, rfl⟩ := Item.more.inj heq
    have hgoesOn : old <:+ (takeGreed after).2.rest := hold.trans hmore.suffix.1
    exact takeCounts_behind hcounts (hgoesOn.trans (takeGreed_suffix after))
  | group hitem =>
    obtain ⟨_, _, _, _, heq⟩ := hsign _ hitem
    exact absurd heq (by simp)

/-! ## Another end -/

/-- Counts read the same with another end, which is behind them. -/
theorem repeatItem?_withEnd (hends : Alike old fresh) {counts : Nat × Option Nat} {item : Item}
    (h : repeatItem? r alternatives parts counts = some item) (hold : old <:+ item.reading.rest) :
    repeatItem? (r.withEnd old fresh) alternatives parts counts =
      some (item.withEnd old fresh) := by
  obtain ⟨parts', hlast, rfl⟩ := Option.map_eq_some_iff.mp h
  rw [repeatItem?, takeGreed_withEnd hends hold]
  dsimp only
  rw [hlast]
  rfl

/-- Every sign reads the same with another end, with room behind a part that may still take
braces. -/
theorem signItem?_withEnd (hends : Alike old fresh) {c : Char} {rest : List Char} {item : Item}
    (h : signItem? r alternatives parts c rest = some item) (hold : old <:+ item.reading.rest)
    (hroom : ∀ r₁ alternatives' parts', item = .more r₁ alternatives' parts' →
      Roomy old '\x7b' r₁) :
    signItem? (r.withEnd old fresh) alternatives parts c (newEnd old fresh rest) =
      some (item.withEnd old fresh) := by
  rw [signItem?.eq_def] at h ⊢
  rw [withEnd_moveTo]
  -- the sign is the same with either end, so each case is met by the same case
  split at h
  · next hclose =>
    rw [if_pos hclose, ← Option.some.inj h]
    rfl
  next hclose =>
  rw [if_neg hclose]
  split at h
  · next hbar =>
    rw [if_pos hbar, ← Option.some.inj h]
    rfl
  next hbar =>
  rw [if_neg hbar]
  split at h
  · next hbrace =>
    obtain ⟨⟨counts, after⟩, hcounts, h⟩ := Option.bind_eq_some_iff.mp h
    have hafter : old <:+ after.rest := by
      obtain ⟨parts', -, rfl⟩ := Option.map_eq_some_iff.mp h
      exact hold.trans (takeGreed_suffix after)
    rw [if_pos hbrace, takeCounts_withEnd hends hcounts hafter]
    exact repeatItem?_withEnd hends h hold
  next hbrace =>
  rw [if_neg hbrace]
  split at h
  · next hgroup =>
    obtain ⟨start, hstart, rfl⟩ := Option.map_eq_some_iff.mp h
    have hstartOld : old <:+ start.reading.rest := by
      cases start <;> exact hold
    rw [if_pos hgroup, takeGroupStart_withEnd hends hstart hstartOld, withEnd_flags]
    cases start <;> rfl
  next hgroup =>
  rw [if_neg hgroup]
  split at h
  · next hbracket =>
    obtain ⟨⟨set, after⟩, hset, rfl⟩ := Option.map_eq_some_iff.mp h
    have hread : takeSet (2 * (newEnd old fresh rest).length + 2)
        ((r.moveTo rest).withEnd old fresh) false false none {} =
          some (set, after.withEnd old fresh) :=
      takeSet_withEnd hends (Nat.lt_succ_self _) hset hold
    rw [if_pos hbracket, hread]
    rfl
  next hbracket =>
  rw [if_neg hbracket]
  split at h
  · exact repeatItem?_withEnd hends h hold
  · obtain ⟨⟨e, r₂⟩, helement, rfl⟩ := Option.map_eq_some_iff.mp h
    rw [takeElement_withEnd hends helement hold (hroom r₂ _ _ rfl)]
    rfl

/-- An item reads the same with another end, with room behind a part that may still take braces. -/
theorem item?_withEnd (hends : Alike old fresh) {item : Item}
    (h : item? r alternatives parts = some item) (hold : old <:+ item.reading.rest)
    (hroom : ∀ r₁ alternatives' parts', item = .more r₁ alternatives' parts' →
      Roomy old '\x7b' r₁) :
    item? (r.withEnd old fresh) alternatives parts = some (item.withEnd old fresh) := by
  have hkeeps : old <:+ r.rest := by
    rcases item?_cases h with ⟨rfl, -⟩ | ⟨-, hbehind⟩
    · exact hold
    · exact hold.trans hbehind.suffix
  rcases suffix_iff_behind.mp hkeeps with heq | hbehind
  · -- the expression ends where the text does, with either end
    obtain ⟨more, hmore⟩ := hends.closing
    have hdone : item = .done r := by
      rcases item?_cases h with ⟨hdone, -⟩ | ⟨-, hbehind⟩
      · exact hdone
      · have hlonger := hbehind.length_lt
        have hlength := hold.length_le
        rw [heq] at hlonger
        omega
    subst hdone
    have hnew : (r.withEnd old fresh).rest = fresh := by rw [withEnd_rest, heq, newEnd_self]
    rw [item?.eq_def, hnew]
    rcases hends.fresh with hfresh | ⟨more', hfresh⟩
    · rw [hfresh]
      rfl
    · rw [hfresh]
      rfl
  · obtain ⟨c, rest, hrest, hsuffix⟩ := hbehind.exists_cons
    rw [item?.eq_def, hrest] at h
    rw [item?.eq_def, withEnd_rest_cons hrest hsuffix]
    exact signItem?_withEnd hends h hold hroom

/-- Behind blanks, an item that goes on is read so with another end, and takes something. -/
theorem nextItem_withEnd (hends : Alike old fresh) {item : Item}
    (h : item? r.skipBlanks alternatives parts = some item) (hgoesOn : item.GoesOn)
    (hold : old <:+ item.reading.rest)
    (hroom : ∀ r₁ alternatives' parts', item = .more r₁ alternatives' parts' →
      Roomy old '\x7b' r₁) :
    item? (r.withEnd old fresh).skipBlanks alternatives parts = some (item.withEnd old fresh) ∧
      (newEnd old fresh item.reading.rest).length < (newEnd old fresh r.rest).length := by
  have hbehind : Behind item.reading.rest r.skipBlanks.rest := item?_behind h hgoesOn
  constructor
  · rw [skipBlanks_withEnd hends (hold.trans hbehind.suffix)]
    exact item?_withEnd hends h hold hroom
  · exact length_newEnd_lt fresh (hbehind.of_suffix (skipBlanks_suffix r)) hold

/-- What is left unread in front of a closing parenthesis makes no difference to an expression. -/
theorem Reads.withEnd (hends : Alike old fresh) {fuel : Nat} {e : Expression}
    (hfuel : (newEnd old fresh r.rest).length < fuel) (h : Reads r alternatives parts e r₁)
    (hold : old <:+ r₁.rest) :
    takeAlternatives fuel (r.withEnd old fresh) alternatives parts =
      some (e, r₁.withEnd old fresh) := by
  -- by what has been read with the old end; the fuel lasts for as many items as there are
  -- characters with the new one
  induction h generalizing fuel with
  | done hitem =>
    obtain ⟨fuel, rfl⟩ : ∃ less, fuel = less + 1 := Nat.exists_eq_add_one.mpr (by omega)
    obtain ⟨rfl, -⟩ := item?_done hitem
    rw [takeAlternatives_succ, skipBlanks_withEnd hends hold,
      item?_withEnd hends hitem hold fun _ _ _ heq => absurd heq (by simp)]
    rfl
  | @more r r₁ r₂ _ _ _ _ _ hitem hmore ih =>
    obtain ⟨fuel, rfl⟩ : ∃ less, fuel = less + 1 := Nat.exists_eq_add_one.mpr (by omega)
    have hgoesOn : old <:+ r₂.rest := hold.trans hmore.suffix.1
    have hroom : Roomy old '\x7b' r₂ := hmore.roomy hold
    obtain ⟨hnew, hshorter⟩ := nextItem_withEnd hends hitem trivial hgoesOn (by
      rintro _ _ _ ⟨⟩
      exact hroom)
    have hless : (newEnd old fresh r₂.rest).length < (newEnd old fresh r.rest).length := hshorter
    rw [takeAlternatives_succ, hnew]
    exact ih (by omega) hold
  | @group r r₁ r₂ inner after _ _ _ flags _ _ hitem hinner hclosed hmore ihinner ih =>
    obtain ⟨fuel, rfl⟩ : ∃ less, fuel = less + 1 := Nat.exists_eq_add_one.mpr (by omega)
    obtain ⟨rest, hrest, rfl⟩ := closed?_eq_some_iff.mp hclosed
    -- the end is behind the parenthesis that closes the group, and so behind all of it
    have hrestOld : old <:+ rest := hold.trans hmore.suffix.1
    have hclosing : Behind rest after.rest := by
      rw [hrest]
      exact List.suffix_refl rest
    have hafter : old <:+ after.rest := hrestOld.trans hclosing.suffix
    have hgoesOn : old <:+ inner.rest := hafter.trans hinner.suffix.1
    obtain ⟨hnew, hshorter⟩ := nextItem_withEnd hends hitem trivial hgoesOn
      fun _ _ _ heq => absurd heq (by simp)
    have hless : (newEnd old fresh inner.rest).length < (newEnd old fresh r.rest).length :=
      hshorter
    have hlast : (newEnd old fresh rest).length < (newEnd old fresh inner.rest).length :=
      length_newEnd_lt fresh (hclosing.of_suffix hinner.suffix.1) hrestOld
    rw [takeAlternatives_succ, hnew]
    show (takeAlternatives fuel (inner.withEnd old fresh) [] []).bind _ = _
    rw [ihinner (by omega) hafter]
    show (closed? (after.withEnd old fresh) flags).bind _ = _
    rw [closed?_eq_some_iff.mpr ⟨newEnd old fresh rest, withEnd_rest_cons hrest hrestOld, rfl⟩]
    exact ih (show (newEnd old fresh rest).length < fuel by omega) hold

end RouterConfig.Pattern
