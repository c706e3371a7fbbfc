import Mathlib.Data.List.Sort
import RouterConfig.Proofs.Annotated.Layout
import RouterConfig.Proofs.Annotated.Marks

/-!
# RouterConfig — one side of an annotated configuration

Leaving out the lines of one side gives the lines of the other side alone, but for blocks of which
nothing is left inside: these stand there with their braces. Main results:

* `Alike.label`, `alike_block` — a block with nothing inside is as good as its label;
* `Kept.contents`, `Kept.lines` — what is left without the lines of one side is what the other side
  gives alone.
-/

namespace RouterConfig

namespace Annotated

/-! ## Lines without marks -/

/-- The lines with certain marks, as depths and texts. -/
def plain (keeps : Mark → Bool) (lines : List AnnotatedLine) : List (Nat × String) :=
  (lines.filter fun line => keeps line.mark).map fun line => (line.depth, line.text)

/-- Puts a line in front of others; together with a line that closes what it opens, it becomes its
label. -/
def push (line : Nat × String) : List (Nat × String) → List (Nat × String)
  | [] => [line]
  | next :: rest =>
    match opened? line.2 with
    | some label =>
      if next = (line.1, "\x7d") then push (line.1, label) rest else line :: next :: rest
    | none => line :: next :: rest

/-- Lines in which each block with nothing inside is written as its label. -/
def collapse (lines : List (Nat × String)) : List (Nat × String) := lines.foldr push []

/-- Lines that are the same but for blocks with nothing inside, whatever follows. -/
def Alike (a b : List (Nat × String)) : Prop := ∀ rest, a.foldr push rest = b.foldr push rest

namespace Alike

variable {a a' b b' : List (Nat × String)}

theorem refl (a : List (Nat × String)) : Alike a a := fun _ => rfl

theorem symm (h : Alike a b) : Alike b a := fun rest => (h rest).symm

theorem trans {c : List (Nat × String)} (h : Alike a b) (h' : Alike b c) : Alike a c :=
  fun rest => (h rest).trans (h' rest)

theorem append (h : Alike a b) (h' : Alike a' b') : Alike (a ++ a') (b ++ b') := by
  intro rest
  rw [List.foldr_append, List.foldr_append, h', h]

/-- Pieces that are alike two by two are alike when they are joined. -/
theorem flatMap {α : Type} {pieces : List α} {f g : α → List (Nat × String)}
    (h : ∀ piece ∈ pieces, Alike (f piece) (g piece)) :
    Alike (pieces.flatMap f) (pieces.flatMap g) := by
  induction pieces with
  | nil => exact refl _
  | cons piece rest ih =>
    rw [List.flatMap_cons, List.flatMap_cons]
    exact (h piece (List.mem_cons_self ..)).append
      (ih fun other hother => h other (List.mem_cons_of_mem _ hother))

theorem collapse_eq (h : Alike a b) : collapse a = collapse b := h []

/-- A block with nothing inside is as good as its label. -/
theorem label (depth : Nat) (text : String) :
    Alike [(depth, text ++ " \x7b"), (depth, "\x7d")] [(depth, text)] := by
  intro rest
  have hnone : opened? "\x7d" = none := by decide
  have hclose : push (depth, "\x7d") rest = (depth, "\x7d") :: rest := by
    cases rest with
    | nil => rfl
    | cons next rest => rw [push, hnone]
  rw [List.foldr_cons, List.foldr_cons, List.foldr_nil, List.foldr_cons, List.foldr_nil, hclose,
    push, opened?_label]
  exact if_pos rfl

end Alike

section Plain

variable {keeps : Mark → Bool}

theorem plain_append (lines more : List AnnotatedLine) :
    plain keeps (lines ++ more) = plain keeps lines ++ plain keeps more := by
  rw [plain, List.filter_append, List.map_append]
  rfl

theorem plain_flatMap {α : Type} (pieces : List α) (f : α → List AnnotatedLine) :
    plain keeps (pieces.flatMap f) = pieces.flatMap fun piece => plain keeps (f piece) := by
  induction pieces with
  | nil => rfl
  | cons piece rest ih => rw [List.flatMap_cons, List.flatMap_cons, plain_append, ih]

theorem plain_eq_nil {lines : List AnnotatedLine} (h : ∀ line ∈ lines, keeps line.mark = false) :
    plain keeps lines = [] := by
  rw [plain, List.map_eq_nil_iff, List.filter_eq_nil_iff]
  exact fun line hline => by simp [h line hline]

/-- A block that is left is as good as its braces around what is left inside. -/
theorem alike_block {edited? running? : Option Tree} {inside : List AnnotatedLine}
    (hinside : (isFilled edited? || isFilled running?) = false → inside = [])
    (hkeeps : keeps (Mark.ofSides edited?.isSome running?.isSome) = true) (depth : Nat)
    (label : String) :
    Alike (plain keeps (block depth label edited? running? inside))
      ((depth, label ++ " \x7b") :: plain keeps inside ++ [(depth, "\x7d")]) := by
  unfold block
  -- a block that is printed keeps both braces; one that is empty inside comes down to its label
  cases hfilled : (isFilled edited? || isFilled running?) with
  | true =>
    have hsame : plain keeps (⟨depth, Mark.ofSides edited?.isSome running?.isSome,
        label ++ " \x7b"⟩ :: inside ++
          [⟨depth, Mark.ofSides edited?.isSome running?.isSome, "\x7d"⟩]) =
        (depth, label ++ " \x7b") :: plain keeps inside ++ [(depth, "\x7d")] := by
      rw [plain_append]
      simp [plain, hkeeps]
    rw [← hsame]
    exact .refl _
  | false =>
    rw [hinside hfilled]
    have hlabel : plain keeps [⟨depth, Mark.ofSides edited?.isSome running?.isSome, label⟩] =
        [(depth, label)] := by
      simp [plain, hkeeps]
    exact hlabel ▸ (Alike.label depth label).symm

end Plain

/-! ## What is left of two nodes -/

/-- What stands at two nodes once the lines of one side are left out, in terms of the marks that are
kept. -/
structure Kept (keeps : Mark → Bool) (kept : Option Tree → Option Tree → Option Tree) : Prop where
  same : keeps .same = true
  none : kept none none = none
  child : ∀ edited? running? name,
    child? (kept edited? running?) name = kept (child? edited? name) (child? running? name)
  isSome : ∀ edited? running?, edited?.isSome = true ∨ running?.isSome = true →
    (kept edited? running?).isSome = keeps (Mark.ofSides edited?.isSome running?.isSome)
  conforms : ∀ {place : Schema.Place} {edited? running?}, Beside place edited? running? →
    ∀ t, kept edited? running? = some t → place.Conforms t
  leaf : ∀ {place : Schema.Place} {edited? running?}, Beside place edited? running? →
    place.isLeaf = true → ∀ depth name,
      plain keeps (leafLines depth name edited? running?) =
        plain (fun _ => true) (leafLines depth name (kept edited? running?) (kept edited? running?))

/-- Among more names, those below two nodes are the ones that lines come of. -/
theorem contents_eq_over {names : List String} (hnames : names.Pairwise (· < ·))
    {edited? running? : Option Tree} (h : ∀ name ∈ namesBelow edited? running?, name ∈ names)
    (depth : Nat) (place : Schema.Place) (lead : String) :
    contents depth place lead edited? running? = names.flatMap fun name =>
      if name ∈ namesBelow edited? running? then
        nameLines contents depth place lead edited? running? name
      else [] := by
  have hfilter : names.filter (· ∈ namesBelow edited? running?) =
      namesBelow edited? running? := by
    -- both lists are in order and without repetition, so it is enough that they have the same
    -- members
    refine List.Pairwise.eq_of_mem_iff (hnames.filter _) (Keyed.sortedNames_pairwise _) ?_
    intro name
    rw [List.mem_filter, decide_eq_true_iff]
    exact ⟨fun hmem => hmem.2, fun hmem => ⟨h name hmem, hmem⟩⟩
  -- to filter the names first is to write nothing for those that are left out
  have hflatMap : ∀ (p : String → Prop) [DecidablePred p] (f : String → List AnnotatedLine)
      (names : List String), (names.filter (p ·)).flatMap f =
        names.flatMap fun name => if p name then f name else [] := by
    intro p _ f names
    induction names with
    | nil => rfl
    | cons name rest ih =>
      rw [List.flatMap_cons, ← ih, List.filter_cons]
      by_cases hp : p name
      · simp [hp]
      · simp [hp]
  rw [contents_eq, ← hflatMap (· ∈ namesBelow edited? running?), hfilter]

namespace Kept

variable {keeps : Mark → Bool} {kept : Option Tree → Option Tree → Option Tree}
  {place : Schema.Place} {edited? running? : Option Tree}

theorem beside (hk : Kept keeps kept) (h : Beside place edited? running?) :
    Beside place (kept edited? running?) (kept edited? running?) :=
  ⟨hk.conforms h, hk.conforms h⟩

/-- Where nothing is kept, no line is. -/
theorem plain_eq_nil_of_missing (hk : Kept keeps kept) {lines : List AnnotatedLine}
    (hone : OneSided edited? running? lines)
    (hsome : edited?.isSome = true ∨ running?.isSome = true)
    (hmissing : (kept edited? running?).isSome = false) : plain keeps lines = [] := by
  have hdropped := hk.isSome edited? running? hsome
  rw [hmissing] at hdropped
  cases edited? with
  | none =>
    rw [ofSides_of_none_left (by simpa using hsome)] at hdropped
    exact plain_eq_nil fun line hline => by rw [hone.removed rfl line hline, ← hdropped]
  | some e =>
    cases running? with
    | none =>
      rw [ofSides_of_none_right rfl] at hdropped
      exact plain_eq_nil fun line hline => by rw [hone.added rfl line hline, ← hdropped]
    | some l => exact absurd (hdropped.trans hk.same) (by simp)

/-- The lines of a child that the kept side has are alike to those that this side alone gives, if
those below it are. -/
theorem entryLines (hk : Kept keeps kept) (h : Beside place edited? running?)
    (hsome : edited?.isSome = true ∨ running?.isSome = true)
    (hkept : (kept edited? running?).isSome = true)
    (hbelow : place.isLeaf = false → ∀ depth lead,
      Alike (plain keeps (contents depth place lead edited? running?))
        (plain (fun _ => true) (contents depth place lead (kept edited? running?)
          (kept edited? running?)))) (depth : Nat) (label : String) :
    Alike (plain keeps (entryLines contents depth place label edited? running?))
      (plain (fun _ => true) (Annotated.entryLines contents depth place label
        (kept edited? running?) (kept edited? running?))) := by
  rw [Annotated.entryLines, Annotated.entryLines]
  -- a leaf's values are kept one by one, a tag node's instances as its children are
  by_cases hLeaf : place.isLeaf = true
  · rw [if_pos hLeaf, if_pos hLeaf, hk.leaf h hLeaf]
    exact .refl _
  · rw [if_neg hLeaf, if_neg hLeaf]
    have hinside := hbelow (by simpa using hLeaf)
    split
    · exact hinside _ _
    · -- around what is alike inside, both blocks are alike to the braces of one block
      have hmark := hk.isSome edited? running? hsome
      rw [hkept] at hmark
      have hleft := alike_block
        (fun hunfilled => contents_of_unfilled hunfilled (depth + 1) place "")
          hmark.symm depth label
      have hright := @alike_block (fun _ => true) (kept edited? running?) (kept edited? running?) _
        (fun hunfilled => contents_of_unfilled hunfilled (depth + 1) place "") rfl depth label
      have hopened := (Alike.refl [(depth, label ++ " \x7b")]).append (hinside (depth + 1) "")
      have hbraces := hopened.append (Alike.refl [(depth, "\x7d")])
      exact (hleft.trans hbraces).trans hright.symm

/-- What is left without the lines of one side is what the other side gives alone. -/
theorem contents (hk : Kept keeps kept) (h : Beside place edited? running?)
    (hLeaf : place.isLeaf = false) (depth : Nat) (lead : String) :
    Alike (plain keeps (contents depth place lead edited? running?))
      (plain (fun _ => true) (Annotated.contents depth place lead (kept edited? running?)
        (kept edited? running?))) := by
  -- the induction goes down to the children of both nodes, of which one side is kept at a time
  induction edited?, running? using pair_induction generalizing place depth lead with
  | step edited? running? ih =>
  have hBoth := hk.beside h
  have hmem : ∀ name, name ∈ namesBelow (kept edited? running?) (kept edited? running?) ↔
      (kept (child? edited? name) (child? running? name)).isSome = true := by
    intro name
    rw [hBoth.mem_namesBelow_iff hLeaf, or_self, hk.child]
  -- a name of the side that is kept is a name of one of the two sides
  have hsub : ∀ name ∈ namesBelow (kept edited? running?) (kept edited? running?),
      name ∈ namesBelow edited? running? := by
    intro name hname
    rw [hmem] at hname
    rw [h.mem_namesBelow_iff hLeaf]
    by_contra hneither
    rw [not_or, Bool.not_eq_true, Bool.not_eq_true, Option.isSome_eq_false_iff,
      Option.isSome_eq_false_iff, Option.isNone_iff_eq_none, Option.isNone_iff_eq_none] at hneither
    rw [hneither.1, hneither.2, hk.none] at hname
    exact absurd hname (by simp)
  rw [contents_eq, contents_eq_over (Keyed.sortedNames_pairwise _) hsub, plain_flatMap,
    plain_flatMap]
  refine Alike.flatMap fun name hname => ?_
  obtain ⟨next, henter, hchild⟩ := h.child hLeaf hname
  have hsome := (h.mem_namesBelow_iff hLeaf).mp hname
  cases hkept : (kept (child? edited? name) (child? running? name)).isSome with
  | false =>
    -- the name stands on the other side alone, so each of its lines is left out
    have hnot : name ∉ namesBelow (kept edited? running?) (kept edited? running?) := by
      rw [hmem, hkept]
      simp
    have hone := Beside.oneSided_entryLines (fun hnextLeaf => hchild.oneSided hnextLeaf) hsome depth
      (lead ++ name)
    rw [if_neg hnot, nameLines, henter]
    dsimp only
    rw [hk.plain_eq_nil_of_missing hone hsome hkept]
    exact .refl _
  | true =>
    rw [if_pos ((hmem name).mpr hkept), nameLines, nameLines, henter]
    dsimp only
    rw [hk.child]
    exact hk.entryLines hchild hsome hkept (fun hnextLeaf => ih name hname hchild hnextLeaf) _ _

/-- The same for the lines of what stands at a path. -/
theorem lines (hk : Kept keeps kept) {schema : Schema} {path : Path}
    (hplace : schema.resolve path = .ok place) (h : Beside place edited? running?) :
    collapse (plain keeps (lines schema path edited? running?)) =
      collapse (plain (fun _ => true) (Annotated.lines schema path (kept edited? running?)
        (kept edited? running?))) := by
  rw [lines_eq hplace h, lines_eq hplace (hk.beside h)]
  dsimp only
  by_cases hLeaf : place.isLeaf = true
  · rw [if_pos hLeaf, if_pos hLeaf, hk.leaf h hLeaf]
  · rw [if_neg hLeaf, if_neg hLeaf]
    exact (hk.contents h (by simpa using hLeaf) 0 _).collapse_eq

end Kept

end Annotated

end RouterConfig
