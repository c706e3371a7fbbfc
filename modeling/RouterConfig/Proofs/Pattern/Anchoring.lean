import RouterConfig.Proofs.Pattern.Matching
import RouterConfig.Proofs.Pattern.Notation

/-!
# RouterConfig — expressions in a group between anchors

A text in a group between anchors is read as it is read alone, unless a closing parenthesis of it
ends the group, in which case it is no expression alone. Main results:

* `ofText?_anchored` — what an anchored expression says of the text between the anchors.
-/

namespace RouterConfig.Pattern

open Reading RouterConfig.Unicode

variable {old fresh : List Char} {r r₁ : Reading} {alternatives : List Expression} {parts : Parts}

/-! ## What parts make up -/

namespace Expression

theorem pattern_inSequence (es : List Expression) : (inSequence es).pattern = inOrder es := by
  rw [inSequence.eq_def]
  split <;> simp [pattern, inOrder]

theorem pattern_between (es : List Expression) : (between es).pattern = anyOf es := by
  rw [between.eq_def]
  split <;> simp [pattern, anyOf]

/-- A sequence has sensible counts if each of its parts has. -/
theorem counted_inOrder {es : List Expression} (h : ∀ e ∈ es, e.pattern.Counted) :
    (inOrder es).Counted := by
  induction es with
  | nil => simp [inOrder, Counted]
  | cons e rest ih =>
    have hrest := ih fun e he => h e (List.mem_cons_of_mem _ he)
    have hfirst := h e (List.mem_cons_self ..)
    cases rest with
    | nil => simpa [inOrder] using hfirst
    | cons e' more => simpa [inOrder, Counted] using ⟨hfirst, hrest⟩

/-- An alternative has sensible counts if each of its choices has. -/
theorem counted_anyOf {es : List Expression} (h : ∀ e ∈ es, e.pattern.Counted) :
    (anyOf es).Counted := by
  induction es with
  | nil => simp [anyOf, Counted]
  | cons e rest ih =>
    have hrest := ih fun e he => h e (List.mem_cons_of_mem _ he)
    have hfirst := h e (List.mem_cons_self ..)
    cases rest with
    | nil => simpa [anyOf] using hfirst
    | cons e' more => simpa [anyOf, Counted] using ⟨hfirst, hrest⟩

/-- Each expression is no deeper than the deepest of the list it is in. -/
theorem depth_le_deepest {e : Expression} {es : List Expression} (he : e ∈ es) :
    e.depth ≤ deepest es := by
  induction es with
  | nil => exact absurd he (by simp)
  | cons first rest ih =>
    rw [deepest]
    rcases List.mem_cons.mp he with rfl | he
    · exact Nat.le_max_left _ _
    · exact Nat.le_trans (ih he) (Nat.le_max_right _ _)

/-- A sequence is at least as deep as each of its parts. -/
theorem depth_le_inSequence {e : Expression} {es : List Expression} (he : e ∈ es) :
    e.depth ≤ (inSequence es).depth := by
  have hdeepest := depth_le_deepest he
  rw [inSequence.eq_def]
  split
  · exact absurd he (by simp)
  · rw [List.mem_singleton.mp he]
  · rw [depth]
    exact Nat.le_succ_of_le hdeepest

/-- A choice is at least as deep as each of its alternatives. -/
theorem depth_le_between {e : Expression} {es : List Expression} (he : e ∈ es) :
    e.depth ≤ (between es).depth := by
  have hdeepest := depth_le_deepest he
  rw [between.eq_def]
  split
  · rw [List.mem_singleton.mp he]
  · rw [depth]
    exact Nat.le_succ_of_le hdeepest

end Expression

/-- Parts that have been read make a sequence with sensible counts, whichever of them are only
flags. -/
theorem counted_sequenceOf (h : ∀ e, some e ∈ parts → e.pattern.Counted) :
    (sequenceOf parts).pattern.Counted := by
  rw [sequenceOf, Expression.pattern_inSequence]
  refine Expression.counted_inOrder fun e he => ?_
  obtain ⟨part, hpart, rfl⟩ := List.mem_map.mp he
  cases part with
  | none => simp [Expression.pattern, Counted]
  | some e => exact h e hpart

theorem depth_le_sequenceOf {e : Expression} (h : some e ∈ parts) :
    e.depth ≤ (sequenceOf parts).depth :=
  Expression.depth_le_inSequence (List.mem_map.mpr ⟨some e, h, rfl⟩)

/-! ## What items add -/

/-- The alternatives so far, and the parts of the one that is being read, all have a property. -/
def AllSoFar (P : Expression → Prop) (alternatives : List Expression) (parts : Parts) : Prop :=
  (∀ e ∈ alternatives, P e) ∧ ∀ e, some e ∈ parts → P e

/-- The ways in which an item adds to alternatives and parts. -/
inductive Grows (alternatives : List Expression) (parts : Parts) :
    List Expression → Parts → Prop where
  | alternative : Grows alternatives parts (alternatives ++ [sequenceOf parts]) []
  | flags : Grows alternatives parts alternatives (parts ++ [none])
  | part (e : Expression) :
      e.pattern.Counted → Grows alternatives parts alternatives (parts ++ [some e])
  | repeated (front : Parts) (e : Expression) (least : Nat) (most? : Option Nat) (greedy : Bool) :
      parts = front ++ [some e] → most?.any (· < least) = false →
      Grows alternatives parts alternatives (front ++ [some (.repeated e least most? greedy)])

/-- To repeat the last part there has to be one, and it is what the counts then stand at. -/
theorem repeatLast?_eq_some {parts' : Parts} {least : Nat} {most? : Option Nat} {greedy : Bool}
    (h : repeatLast? parts least most? greedy = some parts') :
    ∃ front e, parts = front ++ [some e] ∧
      parts' = front ++ [some (.repeated e least most? greedy)] := by
  rw [repeatLast?] at h
  split at h
  · next e hlast =>
    obtain ⟨front, rfl⟩ := List.getLast?_eq_some_iff.mp hlast
    refine ⟨front, e, rfl, ?_⟩
    rw [← Option.some.inj h, List.dropLast_concat]
  · exact absurd h (by simp)

/-- An element stands for characters or an anchor, which repeat nothing. -/
theorem elementExpression?_counted {flags : Flags} {element : Element} {e : Expression}
    (h : elementExpression? flags element = some e) : e.pattern.Counted := by
  cases element with
  | literal code byte =>
    rw [elementExpression?] at h
    split at h
    · exact absurd h (by simp)
    · rw [← Option.some.inj h]
      simp [Expression.pattern, Counted]
  | set s =>
    obtain ⟨set, -, rfl⟩ := Option.map_eq_some_iff.mp h
    simp [Expression.pattern, Counted]
  | anchor a =>
    rw [← Option.some.inj h]
    simp [Expression.pattern, Counted]

/-- A sign of its own repeats nothing. -/
theorem signExpression?_counted {flags : Flags} {c : Char} {e : Expression}
    (h : signExpression? flags c = some e) : e.pattern.Counted := by
  -- each sign is counted on its own, whatever may follow it
  rw [signExpression?] at h
  split at h
  · dsimp only at h
    split at h
    · rw [← Option.some.inj h]
      simp [Expression.pattern, Counted]
    · exact absurd h (by simp)
  split at h
  · rw [← Option.some.inj h]
    simp [Expression.pattern, Counted]
  split at h
  · rw [← Option.some.inj h]
    simp [Expression.pattern, Counted]
  · exact elementExpression?_counted h

/-- A part that is read without counts repeats nothing. -/
theorem takeElement_counted {e : Expression} (h : takeElement r = some (e, r₁)) :
    e.pattern.Counted := by
  obtain ⟨c, rest, hrest, -⟩ := (takeElement_behind h).exists_cons
  rw [takeElement_eq hrest] at h
  split at h
  · obtain ⟨⟨element, r₂⟩, -, h⟩ := Option.bind_eq_some_iff.mp h
    obtain ⟨e', he, heq⟩ := Option.map_eq_some_iff.mp h
    rw [← (Prod.mk.inj heq).1]
    exact elementExpression?_counted he
  · obtain ⟨e', he, heq⟩ := Option.map_eq_some_iff.mp h
    rw [← (Prod.mk.inj heq).1]
    exact signExpression?_counted he

/-- Counts go to the last part; they are in order, or would have been refused. -/
theorem repeatItem?_grows {counts : Nat × Option Nat} {alternatives' : List Expression}
    {parts' : Parts} (hcounts : counts.2.any (· < counts.1) = false)
    (h : repeatItem? r alternatives parts counts = some (.more r₁ alternatives' parts')) :
    Grows alternatives parts alternatives' parts' := by
  obtain ⟨_, hlast, heq⟩ := Option.map_eq_some_iff.mp h
  obtain ⟨-, rfl, rfl⟩ := Item.more.inj heq
  obtain ⟨front, e, hparts, rfl⟩ := repeatLast?_eq_some hlast
  exact .repeated front e _ _ _ hparts hcounts

/-- The counts that a sign stands for are in order. -/
theorem signCounts?_any {c : Char} {counts : Nat × Option Nat} (h : signCounts? c = some counts) :
    counts.2.any (· < counts.1) = false := by
  rw [signCounts?] at h
  split at h
  · rw [← Option.some.inj h]
    rfl
  split at h
  · rw [← Option.some.inj h]
    rfl
  split at h
  · rw [← Option.some.inj h]
    rfl
  · exact absurd h (by simp)

/-- Every item that is no end and no group adds in one of these ways. -/
theorem item?_grows {alternatives' : List Expression} {parts' : Parts}
    (h : item? r alternatives parts = some (.more r₁ alternatives' parts')) :
    Grows alternatives parts alternatives' parts' := by
  -- the item either reads one sign or one part, and adds it behind those already read
  rw [item?.eq_def] at h
  split at h
  · exact absurd h (by simp)
  rw [signItem?.eq_def] at h
  split at h
  · exact absurd h (by simp)
  split at h
  · obtain ⟨-, rfl, rfl⟩ := Item.more.inj (Option.some.inj h)
    exact .alternative
  split at h
  · obtain ⟨⟨⟨least, most?⟩, after⟩, hcounts, h⟩ := Option.bind_eq_some_iff.mp h
    obtain ⟨_, _, _, -, -, -, hany, -⟩ := takeCounts_eq_some_iff.mp hcounts
    exact repeatItem?_grows hany h
  split at h
  · obtain ⟨start, -, hstart⟩ := Option.map_eq_some_iff.mp h
    cases start with
    | flags _ =>
      obtain ⟨-, rfl, rfl⟩ := Item.more.inj hstart
      exact .flags
    | group _ _ => exact absurd hstart (by simp [GroupStart.item])
  split at h
  · obtain ⟨⟨set, after⟩, -, heq⟩ := Option.map_eq_some_iff.mp h
    obtain ⟨-, rfl, rfl⟩ := Item.more.inj heq
    exact .part _ (by simp [Expression.pattern, Counted])
  split at h
  · next counts hcounts => exact repeatItem?_grows (signCounts?_any hcounts) h
  · obtain ⟨⟨e, r₂⟩, helement, heq⟩ := Option.map_eq_some_iff.mp h
    obtain ⟨-, rfl, rfl⟩ := Item.more.inj heq
    exact .part _ (takeElement_counted helement)

/-- What holds of all that has been read and of one expression more holds of all of them. -/
theorem AllSoFar.add {P : Expression → Prop} (h : AllSoFar P alternatives parts) {e : Expression}
    (he : P e) : AllSoFar P alternatives (parts ++ [some e]) := by
  refine ⟨h.1, fun e' he' => ?_⟩
  rcases List.mem_append.mp he' with he' | he'
  · exact h.2 e' he'
  · obtain rfl : e' = e := by simpa using he'
    exact he

theorem AllSoFar.of_add {P : Expression → Prop} {part : Option Expression}
    (h : AllSoFar P alternatives (parts ++ [part])) : AllSoFar P alternatives parts :=
  ⟨h.1, fun e he => h.2 e (List.mem_append_left _ he)⟩

/-- Reading an item keeps the counts of all that has been read sensible. -/
theorem Grows.counted {alternatives' : List Expression} {parts' : Parts}
    (h : Grows alternatives parts alternatives' parts')
    (hall : AllSoFar (·.pattern.Counted) alternatives parts) :
    AllSoFar (·.pattern.Counted) alternatives' parts' := by
  -- the four ways an item can grow what is read, one after the other
  cases h with
  | alternative =>
    refine ⟨fun e he => ?_, fun e he => absurd he (by simp)⟩
    rcases List.mem_append.mp he with he | he
    · exact hall.1 e he
    · rw [List.mem_singleton.mp he]
      exact counted_sequenceOf hall.2
  | flags =>
    refine ⟨hall.1, fun e he => hall.2 e ?_⟩
    simpa using he
  | part e hcounted => exact hall.add hcounted
  | repeated front e least most? greedy hparts hany =>
    subst hparts
    refine hall.of_add.add ?_
    rw [Expression.pattern]
    refine ⟨hall.2 e (by simp), fun most hmost => ?_⟩
    subst hmost
    simpa using hany

/-- Nothing that has been read nests deeper than what is made of it. -/
theorem Grows.shallow {alternatives' : List Expression} {parts' : Parts} {bound : Nat}
    (h : Grows alternatives parts alternatives' parts')
    (hall : AllSoFar (·.depth ≤ bound) alternatives' parts') :
    AllSoFar (·.depth ≤ bound) alternatives parts := by
  cases h with
  | alternative =>
    refine ⟨fun e he => hall.1 e (List.mem_append_left _ he), fun e he => ?_⟩
    exact Nat.le_trans (depth_le_sequenceOf he) (hall.1 _ (by simp))
  | flags => exact hall.of_add
  | part e _ => exact hall.of_add
  | repeated front e least most? greedy hparts _ =>
    subst hparts
    have hlast : (Expression.repeated e least most? greedy).depth ≤ bound :=
      hall.2 _ (by simp)
    rw [Expression.depth] at hlast
    exact hall.of_add.add (Nat.le_of_succ_le hlast)

/-- An expression that has been read has sensible counts throughout. -/
theorem Reads.counted {e : Expression} (h : Reads r alternatives parts e r₁)
    (hall : AllSoFar (·.pattern.Counted) alternatives parts) : e.pattern.Counted := by
  induction h with
  | done =>
    rw [Expression.pattern_between]
    exact Expression.counted_anyOf (Grows.alternative.counted hall).1
  | more hitem _ ih => exact ih ((item?_grows hitem).counted hall)
  | group _ _ _ _ ihinner ih =>
    -- what is in the group starts from nothing, and the group goes on from what was there
    have hgroup := ihinner ⟨List.forall_mem_nil _, fun _ he => absurd he (by simp)⟩
    refine ih (hall.add ?_)
    rwa [Expression.pattern_group]

/-- What has been made of the parts is at least as deep as each of them. -/
theorem Reads.shallow {e : Expression} (h : Reads r alternatives parts e r₁) :
    AllSoFar (·.depth ≤ e.depth) alternatives parts := by
  -- from the end backwards: what has been made bounds what it was made of
  induction h with
  | done =>
    exact Grows.alternative.shallow ⟨fun _ he => Expression.depth_le_between he,
      fun _ he => absurd he (by simp)⟩
  | more hitem _ ih => exact (item?_grows hitem).shallow ih
  | group _ _ _ _ _ ih => exact ih.of_add

/-! ## Whole texts -/

/-- A text is an expression if all of it can be read and it is not too deep. -/
theorem Expression.ofText?_eq_some_iff {text : List Char} {e : Expression} :
    Expression.ofText? text = some e ↔
      ∃ r, takeAlternatives (text.length + 1) { rest := text } [] [] = some (e, r) ∧
        r.rest = [] ∧ e.depth ≤ greatestDepth := by
  rw [ofText?]
  -- reading to the end of the text with the depth in bounds is what the reader checks
  constructor
  · intro h
    split at h
    · next e' r hread =>
      split at h
      · next hfits =>
        obtain rfl := Option.some.inj h
        simp only [Bool.and_eq_true, List.isEmpty_iff, decide_eq_true_eq] at hfits
        exact ⟨r, hread, hfits⟩
      · exact absurd h (by simp)
    · exact absurd h (by simp)
  · rintro ⟨r, hread, hrest, hdepth⟩
    rw [hread]
    dsimp only
    rw [hrest, if_pos (by simpa using hdepth)]

theorem Expression.ofText?_counted {text : List Char} {e : Expression}
    (h : Expression.ofText? text = some e) : e.pattern.Counted := by
  obtain ⟨r, hread, -⟩ := Expression.ofText?_eq_some_iff.mp h
  exact (reads_of_takeAlternatives hread).counted
    ⟨fun _ he => absurd he (by simp), fun _ he => absurd he (by simp)⟩

/-- What is read up to a closing parenthesis is read so with another end behind it. -/
theorem takeAlternatives_front (hends : Alike old fresh) {front : List Char} {fuel : Nat}
    {e : Expression} {after : Reading}
    (h : takeAlternatives fuel { rest := front ++ old } [] [] = some (e, after))
    (hafter : after.rest = old) :
    ∃ r, takeAlternatives ((front ++ fresh).length + 1) { rest := front ++ fresh } [] [] =
      some (e, r) ∧ r.rest = fresh := by
  have hread := (reads_of_takeAlternatives h).withEnd hends (Nat.lt_succ_self _)
    (hafter ▸ List.suffix_refl old)
  have hstart : Reading.withEnd old fresh { rest := front ++ old } = { rest := front ++ fresh } :=
    congrArg (fun cs => ({ rest := cs } : Reading)) (newEnd_append old fresh front)
  rw [newEnd_append, hstart] at hread
  refine ⟨after.withEnd old fresh, hread, ?_⟩
  rw [withEnd_rest, hafter, newEnd_self]

/-! ## Between anchors -/

/-- Behind the opening anchor and the start of the group, the text is read like one alone. -/
theorem takeAlternatives_opening (fuel : Nat) (cs : List Char) :
    takeAlternatives (fuel + 2) { rest := '^' :: '(' :: '?' :: ':' :: cs } [] [] =
      (takeAlternatives fuel { rest := cs } [] []).bind fun (e, after) =>
        (closed? after {}).bind fun r₁ =>
          takeAlternatives fuel r₁ [] [some (.anchor .textStart), some (.group none e)] := by
  have hanchor : item? (Reading.skipBlanks { rest := '^' :: '(' :: '?' :: ':' :: cs }) [] [] =
      some (.more { rest := '(' :: '?' :: ':' :: cs } [] [some (.anchor .textStart)]) := rfl
  have hgroup : item? (Reading.skipBlanks { rest := '(' :: '?' :: ':' :: cs }) []
      [some (.anchor .textStart)] = some (.group none { rest := cs } {}) := rfl
  rw [takeAlternatives_succ, hanchor, Option.bind_some, takeFrom, takeAlternatives_succ, hgroup]
  rfl

/-- With nothing left but the last anchor the reader adds it to the parts and is done. -/
theorem takeAlternatives_closing (fuel : Nat) (names : List (List Char)) (groups : Nat)
    (parts : Parts) :
    takeAlternatives (fuel + 2) { rest := ['$'], names := names, groups := groups } [] parts =
      some (sequenceOf (parts ++ [some (.anchor .textEnd)]),
        { rest := [], names := names, groups := groups }) := by
  rw [takeAlternatives_succ]
  show takeAlternatives (fuel + 1) { rest := [], names := names, groups := groups } []
    (parts ++ [some (.anchor .textEnd)]) = _
  rw [takeAlternatives_succ]
  rfl

/-- Where a closing parenthesis of a text in a group stands. -/
theorem append_closing_cases {front rest text : List Char}
    (h : front ++ ')' :: rest = text ++ [')', '$']) :
    (front = text ∧ rest = ['$']) ∨
      ∃ right, text = front ++ ')' :: right ∧ rest = right ++ [')', '$'] := by
  rcases List.append_eq_append_iff.mp h with ⟨middle, rfl, hmiddle⟩ | ⟨middle, rfl, hmiddle⟩
  · cases middle with
    | nil => exact .inl ⟨by simp, (List.cons.inj hmiddle).2⟩
    | cons c right =>
      obtain ⟨rfl, hrest⟩ := List.cons.inj hmiddle
      exact .inr ⟨right, rfl, hrest⟩
  · cases middle with
    | nil => exact .inl ⟨by simp, (List.cons.inj hmiddle).2.symm⟩
    | cons c others =>
      -- nothing but the anchor is behind the last parenthesis
      have hanchor : ['$'] = others ++ ')' :: rest := (List.cons.inj hmiddle).2
      cases others with
      | nil => exact absurd (List.cons.inj hanchor).1 (by decide)
      | cons d more =>
        have hnil : [] = more ++ ')' :: rest := (List.cons.inj hanchor).2
        exact absurd hnil (by simp)

/-- A text in a group between anchors is an expression in that group. Or else a closing parenthesis
of the text ends the group, so that only what is in front of it is one. -/
theorem Expression.ofText?_anchored {text : List Char} {whole : Expression}
    (h : Expression.ofText? ('^' :: '(' :: '?' :: ':' :: (text ++ [')', '$'])) = some whole) :
    (∃ e, Expression.ofText? text = some e ∧
        whole = .sequence [.anchor .textStart, .group none e, .anchor .textEnd]) ∨
      (Expression.ofText? text = none ∧
        ∃ left right, text = left ++ ')' :: right ∧ (Expression.ofText? left).isSome) := by
  -- the text between the brackets is what an expression of its own would read
  obtain ⟨last, hread, hlast, hdepth⟩ := ofText?_eq_some_iff.mp h
  have hfuel : ('^' :: '(' :: '?' :: ':' :: (text ++ [')', '$'])).length + 1 =
      text.length + 3 + 2 + 2 := by
    simp
  rw [hfuel, takeAlternatives_opening] at hread
  obtain ⟨⟨e, after⟩, hinner, hread⟩ := Option.bind_eq_some_iff.mp hread
  obtain ⟨r₁, hclosed, hread⟩ := Option.bind_eq_some_iff.mp hread
  obtain ⟨rest, hrest, rfl⟩ := closed?_eq_some_iff.mp hclosed
  -- the group adds a level, so that what is in it may be an expression of its own
  have hgroup : e.depth + 1 ≤ greatestDepth := by
    have hshallow : (group none e).depth ≤ whole.depth :=
      (reads_of_takeAlternatives hread).shallow.2 _ (by simp)
    rw [depth_group] at hshallow
    exact Nat.le_trans hshallow hdepth
  have hfits : e.depth ≤ greatestDepth := Nat.le_of_succ_le hgroup
  obtain ⟨front, hfront⟩ := (reads_of_takeAlternatives hinner).suffix.1
  dsimp only at hfront hrest hread
  rw [hrest] at hfront
  rw [← hfront] at hinner
  rcases append_closing_cases hfront with ⟨rfl, rfl⟩ | ⟨right, rfl, rfl⟩
  · -- the group is ended behind the text, which might as well end there
    left
    have hends : Alike [')', '$'] [] := ⟨⟨_, rfl⟩, .inl rfl⟩
    obtain ⟨r, halone, hr⟩ := takeAlternatives_front hends hinner hrest
    rw [List.append_nil] at halone
    refine ⟨e, ofText?_eq_some_iff.mpr ⟨r, halone, hr, hfits⟩, ?_⟩
    rw [takeAlternatives_closing] at hread
    exact (Prod.mk.inj (Option.some.inj hread)).1.symm
  · right
    have hempty : Alike (')' :: (right ++ [')', '$'])) [] := ⟨⟨_, rfl⟩, .inl rfl⟩
    have hmore : Alike (')' :: (right ++ [')', '$'])) (')' :: right) := ⟨⟨_, rfl⟩, .inr ⟨_, rfl⟩⟩
    constructor
    · -- read alone, the text is left at the same parenthesis
      obtain ⟨r, halone, hr⟩ := takeAlternatives_front hmore hinner hrest
      refine Option.eq_none_iff_forall_ne_some.mpr fun e' he' => ?_
      obtain ⟨r', halone', hr', -⟩ := ofText?_eq_some_iff.mp he'
      rw [halone] at halone'
      obtain ⟨-, rfl⟩ := Prod.mk.inj (Option.some.inj halone')
      rw [hr] at hr'
      exact absurd hr' (by simp)
    · obtain ⟨r, halone, hr⟩ := takeAlternatives_front hempty hinner hrest
      rw [List.append_nil] at halone
      refine ⟨front, right, rfl, ?_⟩
      rw [ofText?_eq_some_iff.mpr ⟨r, halone, hr, hfits⟩]
      rfl

end RouterConfig.Pattern
