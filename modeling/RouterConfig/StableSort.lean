/-!
# RouterConfig — stable sorting

Sorting by a key keeps the order of entries with equal keys. Main results:

* `sortBy_perm` — sorting loses and adds nothing;
* `sortBy_pairwise` — what is sorted is in order, and stands as before where either order will do.
-/

namespace RouterConfig

variable {α : Type}

/-- Puts `x` in front of the first entry that it may stand in front of. -/
def insertBy (le : α → α → Bool) (x : α) : List α → List α
  | [] => [x]
  | y :: rest => if le x y then x :: y :: rest else y :: insertBy le x rest

/-- The entries in the order of `le`; entries that may stand either way keep their order. -/
def sortBy (le : α → α → Bool) (entries : List α) : List α := entries.foldr (insertBy le) []

theorem insertBy_perm (le : α → α → Bool) (x : α) (entries : List α) :
    (insertBy le x entries).Perm (x :: entries) := by
  induction entries with
  | nil => exact List.Perm.refl _
  | cons y rest ih =>
    simp only [insertBy]
    split
    · exact List.Perm.refl _
    · exact (List.Perm.cons y ih).trans (List.Perm.swap x y rest)

theorem sortBy_perm (le : α → α → Bool) (entries : List α) : (sortBy le entries).Perm entries := by
  induction entries with
  | nil => exact List.Perm.refl _
  | cons x rest ih => exact (insertBy_perm le x _).trans (List.Perm.cons x ih)

section Order

variable {le : α → α → Bool} {R : α → α → Prop}

theorem insertBy_pairwise (htotal : ∀ a b, le a b = true ∨ le b a = true)
    (htrans : ∀ a b c, le a b = true → le b c = true → le a c = true) {x : α} {sorted : List α}
    (hsorted : sorted.Pairwise fun a b => le a b = true ∧ (le b a = true → R a b))
    (hx : ∀ y ∈ sorted, R x y) :
    (insertBy le x sorted).Pairwise fun a b => le a b = true ∧ (le b a = true → R a b) := by
  induction sorted with
  | nil => exact List.pairwise_singleton _ _
  | cons y rest ih =>
    obtain ⟨hfirst, hrest⟩ := List.pairwise_cons.mp hsorted
    rw [insertBy]
    by_cases hle : le x y = true
    · rw [if_pos hle]
      refine List.pairwise_cons.mpr ⟨fun z hz => ⟨?_, fun _ => hx z hz⟩, hsorted⟩
      rcases List.mem_cons.mp hz with rfl | hz
      · exact hle
      · exact htrans x y z hle (hfirst z hz).1
    · rw [if_neg hle]
      have hbefore : le y x = true := (htotal y x).resolve_right hle
      refine List.pairwise_cons.mpr ⟨fun z hz => ?_, ih hrest fun z hz =>
        hx z (List.mem_cons_of_mem _ hz)⟩
      rcases List.mem_cons.mp ((insertBy_perm le x rest).mem_iff.mp hz) with rfl | hz
      · exact ⟨hbefore, fun hback => absurd hback hle⟩
      · exact hfirst z hz

/-- What is sorted is in order, and entries that may stand either way stand as they did before. -/
theorem sortBy_pairwise (htotal : ∀ a b, le a b = true ∨ le b a = true)
    (htrans : ∀ a b c, le a b = true → le b c = true → le a c = true) {entries : List α}
    (h : entries.Pairwise R) :
    (sortBy le entries).Pairwise fun a b => le a b = true ∧ (le b a = true → R a b) := by
  induction entries with
  | nil => exact List.Pairwise.nil
  | cons x rest ih =>
    obtain ⟨hx, hrest⟩ := List.pairwise_cons.mp h
    -- sorting has only moved what comes after the first entry
    exact insertBy_pairwise htotal htrans (ih hrest) fun y hy =>
      hx y ((sortBy_perm le rest).mem_iff.mp hy)

end Order

end RouterConfig
