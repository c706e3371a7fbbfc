import RouterConfig.Pattern.Basic

/-!
# RouterConfig — finding matches

`ends` looks for all matches at once: a repetition is a number of steps from places to places, and
the search for more of them stops when no new place is found. It finds what `Matches` says, as long
as no repetition asks for more than it allows. Main results:

* `matches_repeated_iff` — a repetition matches what some number of matches in a row do;
* `mem_spread_iff` — searching on from new places only misses nothing;
* `mem_ends_iff` — what is found is where matches end;
* `matchesSomewhere_anchored_iff` — between anchors, a match is one of the whole text.
-/

namespace RouterConfig.Pattern

/-! ## Matches in a row -/

/-- No repetition asks for more than it allows. -/
def Counted : Pattern → Prop
  | .empty => True
  | .chars _ => True
  | .anchor _ => True
  | .append p q => p.Counted ∧ q.Counted
  | .either p q => p.Counted ∧ q.Counted
  | .repeated p least most? => p.Counted ∧ ∀ most, most? = some most → least ≤ most

/-- A number of matches in a row, from the first place to the second. -/
inductive Times (text : List Char) (p : Pattern) : Nat → Nat → Nat → Prop where
  | none {i : Nat} : i ≤ text.length → Times text p 0 i i
  | next {count i j k : Nat} :
    Matches text p i j → Times text p count j k → Times text p (count + 1) i k

variable {text : List Char} {p q : Pattern}

/-- Matches go forward and stay in the text. -/
theorem Matches.forward {i j : Nat} (h : Matches text p i j) : i ≤ j ∧ j ≤ text.length := by
  induction h with
  | empty i hi => exact ⟨Nat.le_refl i, hi⟩
  | @chars set i c hc _ =>
    have hi : i < text.length := (List.getElem?_eq_some_iff.mp hc).1
    exact ⟨Nat.le_succ i, hi⟩
  | anchor hi _ => exact ⟨Nat.le_refl _, hi⟩
  | append _ _ ihp ihq => exact ⟨Nat.le_trans ihp.1 ihq.1, ihq.2⟩
  | left _ ih => exact ih
  | right _ ih => exact ih
  | done hi => exact ⟨Nat.le_refl _, hi⟩
  | more _ _ _ ihp ihrest => exact ⟨Nat.le_trans ihp.1 ihrest.1, ihrest.2⟩

theorem times_zero_iff {i j : Nat} : Times text p 0 i j ↔ i = j ∧ i ≤ text.length := by
  constructor
  · rintro ⟨hi⟩
    exact ⟨rfl, hi⟩
  · rintro ⟨rfl, hi⟩
    exact .none hi

/-- A match more is a match and then the rest of them. -/
theorem times_succ_iff {count i k : Nat} :
    Times text p (count + 1) i k ↔ ∃ j, Matches text p i j ∧ Times text p count j k := by
  constructor
  · rintro (_ | ⟨hfirst, hrest⟩)
    exact ⟨_, hfirst, hrest⟩
  · rintro ⟨j, hfirst, hrest⟩
    exact .next hfirst hrest

theorem Times.forward {count i j : Nat} (h : Times text p count i j) :
    i ≤ j ∧ j ≤ text.length := by
  induction h with
  | none hi => exact ⟨Nat.le_refl _, hi⟩
  | next hfirst _ ih => exact ⟨Nat.le_trans hfirst.forward.1 ih.1, ih.2⟩

/-- Matches in a row may be counted in two parts. -/
theorem times_add_iff {first second i k : Nat} :
    Times text p (first + second) i k ↔
      ∃ j, Times text p first i j ∧ Times text p second j k := by
  -- on the matches of the first part, which are taken before those of the second
  induction first generalizing i with
  | zero =>
    rw [Nat.zero_add]
    constructor
    · intro h
      exact ⟨i, .none (Nat.le_trans h.forward.1 h.forward.2), h⟩
    · rintro ⟨j, hnone, h⟩
      rw [(times_zero_iff.mp hnone).1]
      exact h
  | succ first ih =>
    rw [Nat.succ_add, times_succ_iff]
    simp only [times_succ_iff, ih]
    constructor
    · rintro ⟨j, hfirst, l, hmiddle, hlast⟩
      exact ⟨l, ⟨j, hfirst, hmiddle⟩, hlast⟩
    · rintro ⟨l, ⟨j, hfirst, hmiddle⟩, hlast⟩
      exact ⟨j, hfirst, l, hmiddle, hlast⟩

/-- Matches in a row do not lead out of places that no match leads out of. -/
theorem Times.mem_of_closed {count i k : Nat} (h : Times text p count i k) {places : List Nat}
    (hclosed : ∀ i ∈ places, ∀ j, Matches text p i j → j ∈ places) (hi : i ∈ places) :
    k ∈ places := by
  induction h with
  | none _ => exact hi
  | next hfirst _ ih => exact ih (hclosed _ hi _ hfirst)

/-- Matches of nothing may be left out, so that there need not be more matches in a row than there
are characters between the places. -/
theorem Times.shorten {count i k : Nat} (h : Times text p count i k) :
    ∃ fewer, fewer ≤ k - i ∧ Times text p fewer i k := by
  induction h with
  | none hi => exact ⟨0, Nat.zero_le _, .none hi⟩
  | @next count i j k hfirst hrest ih =>
    obtain ⟨fewer, hfewer, hshort⟩ := ih
    have hij : i ≤ j := hfirst.forward.1
    have hjk : j ≤ k := hrest.forward.1
    by_cases hsame : i = j
    · -- the first match is one of nothing
      subst hsame
      exact ⟨fewer, hfewer, hshort⟩
    · exact ⟨fewer + 1, by omega, .next hfirst hshort⟩

/-- A repetition matches what a number of matches in a row do that is within its bounds. -/
theorem matches_repeated_iff {least : Nat} {most? : Option Nat} {i k : Nat} :
    Matches text (.repeated p least most?) i k ↔
      ∃ count, least ≤ count ∧ (∀ most, most? = some most → count ≤ most) ∧
        Times text p count i k := by
  constructor
  · intro h
    -- by the derivation, in which the bounds go down with every match
    generalize hr : Pattern.repeated p least most? = r at h
    induction h generalizing least most? with
    | done hi =>
      cases hr
      exact ⟨0, Nat.le_refl 0, fun most _ => Nat.zero_le most, .none hi⟩
    | more hroom hfirst _ _ ih =>
      cases hr
      obtain ⟨count, hleast, hmost, htimes⟩ := ih rfl
      refine ⟨count + 1, by omega, fun most hm => ?_, .next hfirst htimes⟩
      subst hm
      have hcount := hmost (most - 1) rfl
      have hpositive : most ≠ 0 := fun hzero => hroom (by rw [hzero])
      omega
    | _ => exact absurd hr (by simp)
  · rintro ⟨count, hleast, hmost, htimes⟩
    -- on the count: a match more is a match of the pattern and then one of the same with lower
    -- bounds
    induction count generalizing i least most? with
    | zero =>
      obtain ⟨rfl, hi⟩ := times_zero_iff.mp htimes
      obtain rfl : least = 0 := by omega
      exact .done hi
    | succ count ih =>
      obtain ⟨j, hfirst, hrest⟩ := times_succ_iff.mp htimes
      have hroom : most? ≠ some 0 := fun hzero => absurd (hmost 0 hzero) (by omega)
      refine .more hroom hfirst (ih (by omega) (fun most hm => ?_) hrest)
      obtain ⟨whole, hwhole, rfl⟩ := Option.map_eq_some_iff.mp hm
      have hcount := hmost whole hwhole
      omega

/-! ## Searching -/

theorem mem_joinPlaces_iff {a b : List Nat} {i : Nat} : i ∈ joinPlaces a b ↔ i ∈ a ∨ i ∈ b := by
  by_cases hi : i ∈ a
  · simp [joinPlaces, hi]
  · simp [joinPlaces, hi]

/-- All of some places are in a text. -/
def Within (text : List Char) (places : List Nat) : Prop := ∀ i ∈ places, i ≤ text.length

/-- A step finds the places at which matches end that start at given places. -/
def Steps (text : List Char) (p : Pattern) (step : List Nat → List Nat) : Prop :=
  ∀ places, Within text places → ∀ j, j ∈ step places ↔ ∃ i ∈ places, Matches text p i j

section Searching

variable {step : List Nat → List Nat}

theorem Steps.within (hstep : Steps text p step) {places : List Nat} (h : Within text places) :
    Within text (step places) := by
  intro j hj
  obtain ⟨i, -, hmatch⟩ := (hstep places h j).mp hj
  exact hmatch.forward.2

/-- Where a step changes nothing, matches in a row do not lead away, and any number of them leads
everywhere. -/
theorem Steps.mem_iff_of_fixed (hstep : Steps text p step) {places : List Nat}
    (h : Within text places) (hfixed : step places = places) (count : Nat) {j : Nat} :
    j ∈ places ↔ ∃ i ∈ places, Times text p count i j := by
  -- the places are fixed, so a match leads from them to them, however many there have been
  induction count generalizing j with
  | zero =>
    simp only [times_zero_iff]
    constructor
    · intro hj
      exact ⟨j, hj, rfl, h j hj⟩
    · rintro ⟨i, hi, rfl, -⟩
      exact hi
  | succ count ih =>
    rw [ih]
    simp only [times_succ_iff]
    have hsame : ∀ k, k ∈ places ↔ ∃ i ∈ places, Matches text p i k := by
      intro k
      rw [← hstep places h k, hfixed]
    constructor
    · rintro ⟨k, hk, htimes⟩
      obtain ⟨i, hi, hmatch⟩ := (hsame k).mp hk
      exact ⟨i, hi, k, hmatch, htimes⟩
    · rintro ⟨i, hi, k, hmatch, htimes⟩
      exact ⟨k, (hsame k).mpr ⟨i, hi, hmatch⟩, htimes⟩

/-- Stepping `count` times finds the places that `count` matches lead to. -/
theorem mem_iterate_iff (hstep : Steps text p step) {count : Nat} {places : List Nat}
    (h : Within text places) {j : Nat} :
    j ∈ iterate step count places ↔ ∃ i ∈ places, Times text p count i j := by
  -- once the places no longer change, further steps are no use, and `iterate` stops there
  induction count generalizing places with
  | zero =>
    rw [iterate]
    simp only [times_zero_iff]
    constructor
    · intro hj
      exact ⟨j, hj, rfl, h j hj⟩
    · rintro ⟨i, hi, rfl, -⟩
      exact hi
  | succ count ih =>
    rw [iterate]
    by_cases hfixed : step places = places
    · rw [if_pos hfixed]
      exact hstep.mem_iff_of_fixed h hfixed (count + 1)
    · rw [if_neg hfixed, ih (hstep.within h)]
      simp only [times_succ_iff]
      constructor
      · rintro ⟨k, hk, htimes⟩
        obtain ⟨i, hi, hmatch⟩ := (hstep places h k).mp hk
        exact ⟨i, hi, k, hmatch, htimes⟩
      · rintro ⟨i, hi, k, hmatch, htimes⟩
        exact ⟨k, (hstep places h k).mpr ⟨i, hi, hmatch⟩, htimes⟩

/-- What is known of a search: the fresh places have been seen, and from any other that has been
seen all matches lead to what has been seen. -/
structure Searched (text : List Char) (p : Pattern) (seen fresh : List Nat) : Prop where
  within : Within text seen
  freshSeen : ∀ i ∈ fresh, i ∈ seen
  closed : ∀ i ∈ seen, i ∈ fresh ∨ ∀ j, Matches text p i j → j ∈ seen

/-- A step of a search finds what matches reach from the fresh places and has not been seen. -/
theorem Searched.next (hstep : Steps text p step) {seen fresh : List Nat}
    (h : Searched text p seen fresh) :
    Searched text p (seen ++ (step fresh).filter fun i => !seen.contains i)
      ((step fresh).filter fun i => !seen.contains i) := by
  have hfresh : Within text fresh := fun i hi => h.within i (h.freshSeen i hi)
  refine ⟨fun i hi => ?_, fun i hi => List.mem_append_right _ hi, fun i hi => ?_⟩
  · rcases List.mem_append.mp hi with hi | hi
    · exact h.within i hi
    · exact hstep.within hfresh i (List.mem_filter.mp hi).1
  · rcases List.mem_append.mp hi with hi | hi
    · -- a place just searched from leads into the step; an older one leads into what was seen
      refine .inr fun j hmatch => ?_
      rcases h.closed i hi with hfrom | hclosed
      · have hj : j ∈ step fresh := (hstep fresh hfresh j).mpr ⟨i, hfrom, hmatch⟩
        by_cases hseen : j ∈ seen
        · exact List.mem_append_left _ hseen
        · exact List.mem_append_right _ (List.mem_filter.mpr ⟨hj, by simpa using hseen⟩)
      · exact List.mem_append_left _ (hclosed j hmatch)
    · exact .inl hi

/-- A search finds what at most so many matches in a row reach from what has been seen. -/
theorem mem_spread_iff (hstep : Steps text p step) {count : Nat} {seen fresh : List Nat}
    (h : Searched text p seen fresh) {j : Nat} :
    j ∈ spread step count seen fresh ↔
      ∃ i ∈ seen, ∃ fewer, fewer ≤ count ∧ Times text p fewer i j := by
  have hhere : ∀ {seen' : List Nat}, Within text seen' → ∀ i ∈ seen', Times text p 0 i i :=
    fun hwithin i hi => .none (hwithin i hi)
  have hfresh : ∀ {seen' fresh' : List Nat}, Searched text p seen' fresh' → Within text fresh' :=
    fun hs i hi => hs.within i (hs.freshSeen i hi)
  -- on the steps left: either nothing new is found, or the new places are searched from as well
  induction count generalizing seen fresh with
  | zero =>
    rw [spread]
    constructor
    · intro hj
      exact ⟨j, hj, 0, Nat.le_refl 0, hhere h.within j hj⟩
    · rintro ⟨i, hi, fewer, hfewer, htimes⟩
      obtain rfl : fewer = 0 := by omega
      exact (times_zero_iff.mp htimes).1 ▸ hi
  | succ count ih =>
    rw [spread]
    by_cases hdone : ((step fresh).filter fun i => !seen.contains i).isEmpty = true
    · rw [if_pos hdone]
      -- nothing new has been found, so that matches do not lead out of what has been seen
      have hclosed : ∀ i ∈ seen, ∀ k, Matches text p i k → k ∈ seen := by
        intro i hi k hmatch
        rcases h.closed i hi with hfrom | hclosed
        · have hk : k ∈ step fresh := (hstep fresh (hfresh h) k).mpr ⟨i, hfrom, hmatch⟩
          have hnone := List.filter_eq_nil_iff.mp (List.isEmpty_iff.mp hdone) k hk
          simpa using hnone
        · exact hclosed k hmatch
      constructor
      · intro hj
        exact ⟨j, hj, 0, Nat.zero_le _, hhere h.within j hj⟩
      · rintro ⟨i, hi, fewer, -, htimes⟩
        exact htimes.mem_of_closed hclosed hi
    · rw [if_neg hdone]
      refine (ih (h.next hstep)).trans ?_
      constructor
      · rintro ⟨i, hi, fewer, hfewer, htimes⟩
        rcases List.mem_append.mp hi with hi | hi
        · exact ⟨i, hi, fewer, Nat.le_succ_of_le hfewer, htimes⟩
        · obtain ⟨k, hk, hmatch⟩ := (hstep fresh (hfresh h) i).mp (List.mem_filter.mp hi).1
          exact ⟨k, h.freshSeen k hk, fewer + 1, Nat.succ_le_succ hfewer, .next hmatch htimes⟩
      · rintro ⟨i, hi, fewer, hfewer, htimes⟩
        cases htimes with
        | none hin => exact ⟨_, List.mem_append_left _ hi, 0, Nat.zero_le _, .none hin⟩
        | @next rest _ k _ hmatch hrest =>
          have hk : k ∈ seen ++ (step fresh).filter fun i => !seen.contains i := by
            rcases (h.next hstep).closed i (List.mem_append_left _ hi) with hnew | hclosed
            · exact absurd hi (by simpa using (List.mem_filter.mp hnew).2)
            · exact hclosed k hmatch
          exact ⟨k, hk, rest, Nat.le_of_succ_le_succ hfewer, hrest⟩

end Searching

/-- How many matches are tried for a repetition, when the least number of them has been found. -/
def further (text : List Char) (least : Nat) : Option Nat → Nat
  | some most => most - least
  | none => text.length

/-- A repetition is found as its least number of matches and then some more. -/
theorem mem_repeated_iff {step : List Nat → List Nat} (hstep : Steps text p step) {least : Nat}
    {most? : Option Nat} (hmost : ∀ most, most? = some most → least ≤ most) {places : List Nat}
    (h : Within text places) {j : Nat} :
    j ∈ spread step (further text least most?) (iterate step least places)
        (iterate step least places) ↔
      ∃ i ∈ places, Matches text (.repeated p least most?) i j := by
  have hreached : ∀ k, k ∈ iterate step least places ↔ ∃ i ∈ places, Times text p least i k :=
    fun k => mem_iterate_iff hstep h
  have hsearched : Searched text p (iterate step least places) (iterate step least places) := by
    refine ⟨fun k hk => ?_, fun _ hk => hk, fun _ hk => .inl hk⟩
    obtain ⟨i, -, htimes⟩ := (hreached k).mp hk
    exact htimes.forward.2
  -- first as many matches as must be, then as many more as may be
  rw [mem_spread_iff hstep hsearched]
  simp only [matches_repeated_iff]
  constructor
  · rintro ⟨k, hk, rest, hrest, hlast⟩
    obtain ⟨i, hi, hfirst⟩ := (hreached k).mp hk
    refine ⟨i, hi, least + rest, Nat.le_add_right _ _, fun most hm => ?_,
      times_add_iff.mpr ⟨k, hfirst, hlast⟩⟩
    subst hm
    have hbounds := hmost most rfl
    rw [further] at hrest
    omega
  · rintro ⟨i, hi, count, hleast, hcount, htimes⟩
    -- the matches beyond the least count are those that spreading finds
    obtain ⟨rest, rfl⟩ := Nat.exists_eq_add_of_le hleast
    obtain ⟨k, hfirst, hlast⟩ := times_add_iff.mp htimes
    refine ⟨k, (hreached k).mpr ⟨i, hi, hfirst⟩, ?_⟩
    cases most? with
    | some most =>
      have hroom := hcount most rfl
      exact ⟨rest, by rw [further]; omega, hlast⟩
    -- without a bound as many matches are enough as there are places to stop at
    | none =>
      obtain ⟨fewer, hfewer, hshort⟩ := hlast.shorten
      have hend : j ≤ text.length := hlast.forward.2
      exact ⟨fewer, by rw [further]; omega, hshort⟩

/-- What is found for a pattern is where its matches end. -/
theorem mem_ends_iff (hp : p.Counted) {places : List Nat} (h : Within text places) {j : Nat} :
    j ∈ p.ends text places ↔ ∃ i ∈ places, Matches text p i j := by
  -- for all places at once, since what follows starts at every end of what comes first
  induction p generalizing places j with
  | empty =>
    rw [ends]
    constructor
    · intro hj
      exact ⟨j, hj, .empty j (h j hj)⟩
    · rintro ⟨i, hi, hmatch⟩
      cases hmatch
      exact hi
  | chars set =>
    rw [ends, List.mem_filterMap]
    refine exists_congr fun i => and_congr_right fun hi => ?_
    constructor
    · intro hj
      cases hc : text[i]? with
      | none => simp [hc] at hj
      | some c =>
        obtain ⟨hset, rfl⟩ : set.has c.toNat = true ∧ i + 1 = j := by simpa [hc] using hj
        exact .chars hc hset
    · intro hmatch
      cases hmatch with
      | chars hc hset => simp [hc, hset]
  | anchor a =>
    rw [ends, List.mem_filter]
    constructor
    · rintro ⟨hj, hholds⟩
      exact ⟨j, hj, .anchor (h j hj) hholds⟩
    · rintro ⟨i, hi, hmatch⟩
      cases hmatch with
      | anchor _ hholds => exact ⟨hi, hholds⟩
  | append p q ihp ihq =>
    have hmiddle : Within text (p.ends text places) := by
      intro k hk
      obtain ⟨i, -, hmatch⟩ := (ihp hp.1 h).mp hk
      exact hmatch.forward.2
    rw [ends, ihq hp.2 hmiddle]
    constructor
    · rintro ⟨k, hk, hsecond⟩
      obtain ⟨i, hi, hfirst⟩ := (ihp hp.1 h).mp hk
      exact ⟨i, hi, .append hfirst hsecond⟩
    · rintro ⟨i, hi, hmatch⟩
      cases hmatch with
      | append hfirst hsecond => exact ⟨_, (ihp hp.1 h).mpr ⟨i, hi, hfirst⟩, hsecond⟩
  | either p q ihp ihq =>
    rw [ends, mem_joinPlaces_iff, ihp hp.1 h, ihq hp.2 h]
    constructor
    · rintro (⟨i, hi, hmatch⟩ | ⟨i, hi, hmatch⟩)
      · exact ⟨i, hi, .left hmatch⟩
      · exact ⟨i, hi, .right hmatch⟩
    · rintro ⟨i, hi, hmatch⟩
      cases hmatch with
      | left hmatch => exact .inl ⟨i, hi, hmatch⟩
      | right hmatch => exact .inr ⟨i, hi, hmatch⟩
  | repeated p least most? ih =>
    show j ∈ spread (p.ends text) (further text least most?) _ _ ↔ _
    exact mem_repeated_iff (fun places hplaces j => ih hp.1 hplaces) hp.2 h

/-! ## Whole texts -/

/-- A pattern is found in a text if and only if it matches there somewhere. -/
theorem occursIn_iff (hp : p.Counted) : p.occursIn text = true ↔ p.MatchesSomewhere text := by
  have hplaces : Within text (List.range (text.length + 1)) := by
    intro i hi
    exact Nat.le_of_lt_succ (List.mem_range.mp hi)
  rw [occursIn, Bool.not_eq_true', List.isEmpty_eq_false_iff_exists_mem]
  constructor
  · rintro ⟨j, hj⟩
    obtain ⟨i, -, hmatch⟩ := (mem_ends_iff hp hplaces).mp hj
    exact ⟨i, j, hmatch⟩
  · rintro ⟨i, j, hmatch⟩
    have hi : i ∈ List.range (text.length + 1) :=
      List.mem_range.mpr (Nat.lt_succ_of_le (Nat.le_trans hmatch.forward.1 hmatch.forward.2))
    exact ⟨j, (mem_ends_iff hp hplaces).mpr ⟨i, hi, hmatch⟩⟩

/-- Between anchors for the start and the end of a text, a pattern matches the whole text or
nothing. -/
theorem matchesSomewhere_anchored_iff :
    (Pattern.append (.anchor .textStart) (.append p (.anchor .textEnd))).MatchesSomewhere text ↔
      p.MatchesWhole text := by
  constructor
  · rintro ⟨i, j, hmatch⟩
    -- the outer anchors pin both ends of the match
    cases hmatch with
    | append hstart hrest =>
      cases hstart with
      | anchor _ hstarts =>
        cases hrest with
        | append hmatch hend =>
          cases hend with
          | anchor _ hends =>
            obtain rfl : i = 0 := by simpa [Anchor.holds] using hstarts
            obtain rfl : text.length = j := by simpa [Anchor.holds] using hends
            exact hmatch
  · intro hmatch
    have hstarts : Matches text (.anchor .textStart) 0 0 :=
      .anchor (Nat.zero_le _) (by simp [Anchor.holds])
    have hends : Matches text (.anchor .textEnd) text.length text.length :=
      .anchor (Nat.le_refl _) (by simp [Anchor.holds])
    exact ⟨0, text.length, .append hstarts (.append hmatch hends)⟩

end RouterConfig.Pattern
