import RouterConfig.Proofs.Annotated.Contents

/-!
# RouterConfig — blocks

Annotated lines are laid out in blocks: a line that opens a block, the lines inside, one level
deeper, and a line that closes it, marked like the first. Names and values are written as they are,
so a line that neither opens nor closes a block may end in a brace all the same; it does so only
where a name or a value does. Main results:

* `Beside.oneSided` — where one side is missing, all lines have the mark of the other;
* `layout_contents`, `layout_lines` — the lines are laid out in blocks;
* `Layout.nested` — where nothing else ends in a brace, the braces of the lines delimit the blocks.
-/

namespace RouterConfig.Annotated

/-! ## Braces -/

/-- Whether the last character is a brace. -/
def endsInBrace (text : String) : Bool :=
  text.toList.getLast?.any fun c => c = '\x7b' || c = '\x7d'

/-- A joined text ends in a brace if its second part does, or its first where the second is
empty. -/
theorem endsInBrace_append {a b : String} (h : endsInBrace (a ++ b) = true) :
    endsInBrace b = true ∨ endsInBrace a = true := by
  unfold endsInBrace at h ⊢
  rw [String.toList_append, List.getLast?_append] at h
  cases hb : b.toList.getLast? with
  | none =>
    rw [hb, Option.none_or] at h
    exact .inr h
  | some c =>
    rw [hb, Option.some_or] at h
    exact .inl h

theorem endsInBrace_blank (text : String) : endsInBrace (text ++ " ") = false := by
  unfold endsInBrace
  rw [String.toList_append, show " ".toList = [' '] from rfl, List.getLast?_concat]
  decide

/-- Quoting adds no brace at the end: a quoted value ends in its quote. -/
theorem endsInBrace_of_quote {value : String} (h : endsInBrace (quote value) = true) :
    endsInBrace value = true := by
  -- a quoted value ends in the quote, which is no brace
  have hquoted : ∀ q : String, (q = "\"" ∨ q = "'") → endsInBrace (q ++ value ++ q) = false := by
    rintro q (rfl | rfl)
    · unfold endsInBrace
      rw [String.toList_append, show "\"".toList = ['"'] from rfl, List.getLast?_concat]
      decide
    · unfold endsInBrace
      rw [String.toList_append, show "'".toList = ['\''] from rfl, List.getLast?_concat]
      decide
  rw [quote] at h
  split at h
  · split at h
    · exact absurd h (by simp [hquoted _ (.inl rfl)])
    · exact absurd h (by simp [hquoted _ (.inr rfl)])
  · exact h

/-- The label of a line that opens a block. -/
def opened? (text : String) : Option String :=
  match text.toList.reverse with
  | '\x7b' :: ' ' :: label => some (String.ofList label.reverse)
  | _ => none

@[simp] theorem opened?_label (label : String) : opened? (label ++ " \x7b") = some label := by
  have hchars : (label ++ " \x7b").toList.reverse = '\x7b' :: ' ' :: label.toList.reverse := by
    rw [String.toList_append, List.reverse_append]
    rfl
  rw [opened?, hchars]
  simp

/-- A line that does not end in a brace opens no block. -/
theorem opened?_eq_none {text : String} (h : endsInBrace text = false) : opened? text = none := by
  unfold opened?
  split
  next label hchars =>
    have hlast : text.toList.getLast? = some '\x7b' := by
      rw [← List.head?_reverse, hchars]
      rfl
    rw [endsInBrace, hlast] at h
    exact absurd h (by decide)
  next => rfl

theorem label_ne_close (label : String) : label ++ " \x7b" ≠ "\x7d" := by
  intro heq
  have hopened := opened?_label label
  have hnone : opened? "\x7d" = none := by decide
  rw [heq, hnone] at hopened
  exact absurd hopened (by simp)

/-! ## Layout -/

/-- Lines that are laid out in blocks, where `P` holds of the text of every other line. A block that
is on one side only is marked so throughout. -/
inductive Layout (P : String → Prop) : (depth : Nat) → List AnnotatedLine → Prop where
  | nil {depth : Nat} : Layout P depth []
  | line {depth : Nat} {mark : Mark} {text : String} {rest : List AnnotatedLine} :
    P text → Layout P depth rest → Layout P depth (⟨depth, mark, text⟩ :: rest)
  | block {depth : Nat} {mark : Mark} {label : String} {inside rest : List AnnotatedLine} :
    Layout P (depth + 1) inside → (mark ≠ .same → ∀ line ∈ inside, line.mark = mark) →
      Layout P depth rest →
      Layout P depth
        (⟨depth, mark, label ++ " \x7b"⟩ :: inside ++ ⟨depth, mark, "\x7d"⟩ :: rest)

namespace Layout

variable {P Q : String → Prop} {depth : Nat} {lines more : List AnnotatedLine}

/-- Two laid-out pieces one after the other are laid out. -/
theorem append (h : Layout P depth lines) (hmore : Layout P depth more) :
    Layout P depth (lines ++ more) := by
  induction h with
  | nil => exact hmore
  | line htext _ ih => exact .line htext (ih hmore)
  | block hinside hmarks _ _ ih =>
    rw [List.append_assoc, List.cons_append]
    exact .block hinside hmarks (ih hmore)

/-- Pieces that are laid out at one depth are laid out together. -/
theorem flatMap {α : Type} {pieces : List α} {f : α → List AnnotatedLine}
    (h : ∀ piece ∈ pieces, Layout P depth (f piece)) : Layout P depth (pieces.flatMap f) := by
  induction pieces with
  | nil => exact .nil
  | cons piece rest ih =>
    rw [List.flatMap_cons]
    exact (h piece (List.mem_cons_self ..)).append
      (ih fun other hother => h other (List.mem_cons_of_mem _ hother))

/-- Single lines at one depth are laid out. -/
theorem of_lines (h : ∀ line ∈ lines, line.depth = depth ∧ P line.text) : Layout P depth lines := by
  induction lines with
  | nil => exact .nil
  | cons first rest ih =>
    obtain ⟨hdepth, htext⟩ := h first (List.mem_cons_self ..)
    subst hdepth
    exact .line htext (ih fun line hline => h line (List.mem_cons_of_mem _ hline))

theorem mono (h : Layout P depth lines) (hPQ : ∀ text, P text → Q text) :
    Layout Q depth lines := by
  induction h with
  | nil => exact .nil
  | line htext _ ih => exact .line (hPQ _ htext) ih
  | block _ hmarks _ ih ih' => exact .block ih hmarks ih'

end Layout

/-- Whether the braces of lines are balanced inside of blocks that are still open: each line that
closes one has the depth and the mark of the one that it closes, and no line inside of a block that
is on one side only has another mark. -/
def nested : (blocks : List (Nat × Mark)) → List AnnotatedLine → Bool
  | blocks, [] => blocks.isEmpty
  | blocks, line :: rest =>
    if line.text = "\x7d" then
      match blocks with
      | [] => false
      | last :: outer => decide ((line.depth, line.mark) = last) && nested outer rest
    else
      blocks.all (fun opening => opening.2 = .same || opening.2 = line.mark) &&
        nested (if (opened? line.text).isSome then (line.depth, line.mark) :: blocks else blocks)
          rest

/-- A line that closes no block is nested if its mark goes with the open blocks and the rest is
nested in these and the block it may open. -/
theorem nested_cons_of_ne {line : AnnotatedLine} (h : line.text ≠ "\x7d")
    (blocks : List (Nat × Mark)) (rest : List AnnotatedLine) :
    nested blocks (line :: rest) =
      (blocks.all (fun opening => opening.2 = .same || opening.2 = line.mark) &&
        nested (if (opened? line.text).isSome then (line.depth, line.mark) :: blocks else blocks)
          rest) := by
  rw [nested.eq_def]
  exact if_neg h

theorem nested_close (depth : Nat) (mark : Mark) (outer : List (Nat × Mark))
    (rest : List AnnotatedLine) :
    nested ((depth, mark) :: outer) (⟨depth, mark, "\x7d"⟩ :: rest) = nested outer rest := by
  rw [nested.eq_def]
  simp

/-- Where nothing else ends in a brace, the braces delimit the blocks. -/
theorem Layout.nested_append {depth : Nat} {lines : List AnnotatedLine}
    (h : Layout (fun text => endsInBrace text = false) depth lines) {blocks : List (Nat × Mark)}
    (hmarks : ∀ line ∈ lines, ∀ opening ∈ blocks, opening.2 = .same ∨ opening.2 = line.mark)
    (more : List AnnotatedLine) : nested blocks (lines ++ more) = nested blocks more := by
  have hall : ∀ {line : AnnotatedLine} {blocks : List (Nat × Mark)},
      (∀ opening ∈ blocks, opening.2 = .same ∨ opening.2 = line.mark) →
      blocks.all (fun opening => opening.2 = .same || opening.2 = line.mark) = true := by
    intro line blocks hblocks
    rw [List.all_eq_true]
    intro opening hopening
    simpa using hblocks opening hopening
  -- on the layout, with the lines after it and the blocks around it both open
  induction h generalizing blocks more with
  | nil => rfl
  | @line depth mark text rest htext _ ih =>
    have hne : text ≠ "\x7d" := by
      rintro rfl
      exact absurd htext (by decide)
    rw [List.forall_mem_cons] at hmarks
    -- a line that is neither an opening nor a closing brace leaves the open blocks as they are
    rw [List.cons_append, nested_cons_of_ne hne, hall hmarks.1, opened?_eq_none htext]
    exact ih hmarks.2 more
  | @block depth mark label inside rest _ hone _ ihinside ihrest =>
    rw [List.cons_append, List.forall_mem_cons, List.forall_mem_append, List.forall_mem_cons]
      at hmarks
    obtain ⟨hopening, hinside, -, hrest⟩ := hmarks
    -- inside, the block itself is open as well
    have hwithin : ∀ line ∈ inside, ∀ opening ∈ (depth, mark) :: blocks,
        opening.2 = .same ∨ opening.2 = line.mark := by
      intro line hline
      rw [List.forall_mem_cons]
      refine ⟨?_, hinside line hline⟩
      by_cases hsame : mark = .same
      · exact .inl hsame
      · exact .inr (hone hsame line hline).symm
    rw [List.cons_append, List.cons_append, nested_cons_of_ne (label_ne_close label), hall hopening,
      opened?_label, List.append_assoc, List.cons_append]
    simp only [Option.isSome_some, if_true, Bool.true_and]
    rw [ihinside hwithin, nested_close]
    exact ihrest hrest more

/-- In a layout whose lines end in no brace the braces are balanced, and every line bears the mark
of the block it is in. -/
theorem Layout.nested {depth : Nat} {lines : List AnnotatedLine}
    (h : Layout (fun text => endsInBrace text = false) depth lines) :
    Annotated.nested [] lines = true := by
  have hall : Annotated.nested [] (lines ++ []) = Annotated.nested [] [] :=
    h.nested_append (by simp) []
  rw [List.append_nil] at hall
  exact hall

/-! ## Where one side is missing -/

theorem ofSides_of_none_right {edited? : Option Tree} (h : edited?.isSome = true) :
    Mark.ofSides edited?.isSome (none : Option Tree).isSome = .added := by
  rw [h]
  rfl

theorem ofSides_of_none_left {running? : Option Tree} (h : running?.isSome = true) :
    Mark.ofSides (none : Option Tree).isSome running?.isSome = .removed := by
  rw [h]
  rfl

/-- The mark of lines where one of two nodes is missing. -/
structure OneSided (edited? running? : Option Tree) (lines : List AnnotatedLine) : Prop where
  added : running? = none → ∀ line ∈ lines, line.mark = .added
  removed : edited? = none → ∀ line ∈ lines, line.mark = .removed

/-- The lines of a leaf that is on one side only all bear the mark of that side. -/
theorem oneSided_leafLines (depth : Nat) (name : String) (edited? running? : Option Tree) :
    OneSided edited? running? (leafLines depth name edited? running?) := by
  constructor
  · rintro rfl line hline
    simp only [leafLines, Option.elim_none, List.filter_nil, List.map_nil, List.nil_append,
      List.mem_map] at hline
    obtain ⟨value, -, rfl⟩ := hline
    rfl
  · rintro rfl line hline
    simp only [leafLines, Option.elim_none, List.map_nil, List.append_nil, List.mem_map] at hline
    obtain ⟨value, -, rfl⟩ := hline
    rfl

/-- A block of a node that is on one side only bears the mark of that side throughout. -/
theorem oneSided_block {edited? running? : Option Tree} {inside : List AnnotatedLine}
    (h : OneSided edited? running? inside)
    (hsome : edited?.isSome = true ∨ running?.isSome = true) (depth : Nat) (label : String) :
    OneSided edited? running? (block depth label edited? running? inside) := by
  -- the two sides differ only in the mark, so both are one case of this
  have hblock : ∀ mark, Mark.ofSides edited?.isSome running?.isSome = mark →
      (∀ line ∈ inside, line.mark = mark) →
      ∀ line ∈ block depth label edited? running? inside, line.mark = mark := by
    intro mark hmark hinside
    unfold block
    dsimp only
    split
    · simp only [List.cons_append, List.forall_mem_cons, List.forall_mem_append]
      exact ⟨hmark, hinside, hmark, by simp⟩
    · simpa using hmark
  constructor
  · rintro rfl
    exact hblock .added (ofSides_of_none_right (by simpa using hsome)) (h.added rfl)
  · rintro rfl
    exact hblock .removed (ofSides_of_none_left (by simpa using hsome)) (h.removed rfl)

/-- The lines of a child that is on one side only bear the mark of that side, if those below it
do. -/
theorem Beside.oneSided_entryLines {place : Schema.Place} {edited? running? : Option Tree}
    {below : Writer} (hbelow : place.isLeaf = false → ∀ depth lead,
      OneSided edited? running? (below depth place lead edited? running?))
    (hsome : edited?.isSome = true ∨ running?.isSome = true) (depth : Nat) (label : String) :
    OneSided edited? running? (entryLines below depth place label edited? running?) := by
  rw [entryLines]
  by_cases hLeaf : place.isLeaf = true
  · rw [if_pos hLeaf]
    exact oneSided_leafLines ..
  · rw [if_neg hLeaf]
    have hinside := hbelow (by simpa using hLeaf)
    split
    · exact hinside _ _
    · exact oneSided_block (hinside _ _) hsome _ _

/-- Where one of two nodes is missing, all lines below have the mark of the other. -/
theorem Beside.oneSided {place : Schema.Place} {edited? running? : Option Tree}
    (h : Beside place edited? running?) (hLeaf : place.isLeaf = false) (depth : Nat)
    (lead : String) : OneSided edited? running? (contents depth place lead edited? running?) := by
  -- on both trees at once: all below a side that is missing is missing as well
  induction edited?, running? using pair_induction generalizing place depth lead with
  | step edited? running? ih =>
  have hname : ∀ name ∈ namesBelow edited? running?,
      OneSided (child? edited? name) (child? running? name)
        (nameLines contents depth place lead edited? running? name) := by
    intro name hname
    obtain ⟨next, henter, hchild⟩ := h.child hLeaf hname
    rw [nameLines, henter]
    exact oneSided_entryLines (fun hnextLeaf => ih name hname hchild hnextLeaf)
      ((h.mem_namesBelow_iff hLeaf).mp hname) _ _
  rw [contents_eq]
  constructor
  · rintro rfl line hline
    obtain ⟨name, hmem, hline⟩ := List.mem_flatMap.mp hline
    exact (hname name hmem).added rfl line hline
  · rintro rfl line hline
    obtain ⟨name, hmem, hline⟩ := List.mem_flatMap.mp hline
    exact (hname name hmem).removed rfl line hline

/-! ## The layout of lines -/

/-- A name or a value at or below one of two nodes. -/
def Mentions (edited? running? : Option Tree) (word : String) : Prop :=
  ∃ node? ∈ [edited?, running?], ∃ path node,
    (node?.bind fun t => t.get? path) = some node ∧ word ∈ node.values

/-- A text ends in a brace only if one of certain words does. -/
def BraceOf (words : String → Prop) (text : String) : Prop :=
  endsInBrace text = true → ∃ word, words word ∧ endsInBrace word = true

/-- What a child mentions its parent mentions as well. -/
theorem Mentions.of_child {edited? running? : Option Tree} {name word : String}
    (h : Mentions (child? edited? name) (child? running? name) word) :
    Mentions edited? running? word := by
  -- what is mentioned below a child is mentioned below the node, by a path one name longer
  have hside : ∀ {node? : Option Tree} {path : Path} {node : Tree},
      ((child? node? name).bind fun t => t.get? path) = some node →
      (node?.bind fun t => t.get? (name :: path)) = some node := by
    intro node? path node hget
    cases node? with
    | none => exact absurd hget (by simp [child?])
    | some t =>
      rw [Option.bind_some, ← List.singleton_append, Tree.get?_append]
      exact hget
  obtain ⟨node?, hmem, path, node, hget, hword⟩ := h
  simp only [List.mem_cons, List.not_mem_nil, or_false] at hmem
  rcases hmem with rfl | rfl
  · exact ⟨edited?, by simp, name :: path, node, hside hget, hword⟩
  · exact ⟨running?, by simp, name :: path, node, hside hget, hword⟩

/-- The values of the two nodes are mentioned. -/
theorem mentions_value {edited? running? : Option Tree} {value : String}
    (h : value ∈ edited?.elim [] Tree.values ∨ value ∈ running?.elim [] Tree.values) :
    Mentions edited? running? value := by
  have hside : ∀ {node? : Option Tree}, value ∈ node?.elim [] Tree.values →
      ∃ path node, (node?.bind fun t => t.get? path) = some node ∧ value ∈ node.values := by
    intro node? hvalue
    cases node? with
    | none => exact absurd hvalue (by simp)
    | some t => exact ⟨[], t, rfl, hvalue⟩
  rcases h with hvalue | hvalue
  · exact ⟨edited?, by simp, hside hvalue⟩
  · exact ⟨running?, by simp, hside hvalue⟩

/-- The names of the children of the two nodes are mentioned. -/
theorem mentions_name {edited? running? : Option Tree} {name : String}
    (h : name ∈ namesBelow edited? running?) : Mentions edited? running? name := by
  have hvalues : ∀ {node? : Option Tree}, name ∈ node?.elim [] Tree.keys →
      name ∈ node?.elim [] Tree.values := by
    intro node? hname
    cases node? with
    | none => exact hname
    | some t =>
      cases t with
      | scalar value => exact absurd hname (by simp [Tree.keys])
      | list values => exact hname
      | subtree children => exact hname
  rw [mem_namesBelow_iff] at h
  exact mentions_value (h.imp hvalues hvalues)

section Words

variable {words : String → Prop} {edited? running? : Option Tree}

/-- The lines of a leaf are laid out at their depth; one ends in a brace only if a value does, or
the name. -/
theorem layout_leafLines (hwords : ∀ word, Mentions edited? running? word → words word)
    {name : String} (hname : BraceOf words name) (depth : Nat) :
    Layout (BraceOf words) depth (leafLines depth name edited? running?) := by
  -- a leaf's text ends as its value does, or as its name does where it has none
  have htext : ∀ value, Mentions edited? running? value → BraceOf words (leafText name value) := by
    intro value hvalue hbrace
    rw [leafText] at hbrace
    split at hbrace
    · exact hname hbrace
    · rcases endsInBrace_append hbrace with hquote | hblank
      · -- quotes around a value end it in a quote
        exact ⟨value, hwords value hvalue, endsInBrace_of_quote hquote⟩
      · exact absurd hblank (by simp [endsInBrace_blank])
  refine Layout.of_lines fun line hline => ?_
  simp only [leafLines, List.mem_append, List.mem_map, List.mem_filter] at hline
  rcases hline with ⟨value, ⟨hvalue, -⟩, rfl⟩ | ⟨value, hvalue, rfl⟩
  · exact ⟨rfl, htext value (mentions_value (.inr hvalue))⟩
  · exact ⟨rfl, htext value (mentions_value (.inl hvalue))⟩

/-- A block is laid out if its label and what is inside are, and all of it bears one mark. -/
theorem layout_block {inside : List AnnotatedLine} {depth : Nat}
    (hinside : Layout (BraceOf words) (depth + 1) inside) (hone : OneSided edited? running? inside)
    {label : String} (hlabel : BraceOf words label) :
    Layout (BraceOf words) depth (block depth label edited? running? inside) := by
  unfold block
  dsimp only
  -- the block's mark is that of the side that is there, and the lines inside bear the same
  split
  · refine .block hinside (fun hmark => ?_) .nil
    cases edited? with
    | none =>
      cases running? with
      | none => exact absurd rfl hmark
      | some l => exact hone.removed rfl
    | some e =>
      cases running? with
      | none => exact hone.added rfl
      | some l => exact absurd rfl hmark
  · exact .line hlabel .nil

/-- What stands below two nodes is laid out in blocks. -/
theorem layout_contents {place : Schema.Place} (h : Beside place edited? running?)
    (hLeaf : place.isLeaf = false)
    (hwords : ∀ word, Mentions edited? running? word → words word) (depth : Nat) {lead : String}
    (hlead : endsInBrace lead = false) :
    Layout (BraceOf words) depth (contents depth place lead edited? running?) := by
  -- on both trees at once: what is written for a child is laid out one level further in
  induction edited?, running? using pair_induction generalizing place depth lead with
  | step edited? running? ih =>
  rw [contents_eq]
  refine Layout.flatMap fun name hname => ?_
  obtain ⟨next, henter, hchild⟩ := h.child hLeaf hname
  have hwordsChild : ∀ word, Mentions (child? edited? name) (child? running? name) word →
      words word := fun word hword => hwords word hword.of_child
  -- the label ends as the name does, for what comes before the name ends in a blank
  have hlabel : BraceOf words (lead ++ name) := by
    intro hbrace
    rcases endsInBrace_append hbrace with hend | hend
    · exact ⟨name, hwords name (mentions_name hname), hend⟩
    · exact absurd hend (by simp [hlead])
  rw [nameLines, henter]
  show Layout _ _ (entryLines _ _ _ _ _ _)
  rw [entryLines]
  -- a leaf is lines, a tag node the blocks of its instances, and any other node one block
  by_cases hnextLeaf : next.isLeaf = true
  · rw [if_pos hnextLeaf]
    exact layout_leafLines hwordsChild hlabel depth
  · rw [if_neg hnextLeaf]
    rw [Bool.not_eq_true] at hnextLeaf
    split
    · exact ih name hname hchild hnextLeaf hwordsChild depth (endsInBrace_blank _)
    · exact layout_block
        (ih name hname hchild hnextLeaf hwordsChild (depth + 1) (by decide))
        (hchild.oneSided hnextLeaf _ _) hlabel

/-- The lines of what stands at a path are laid out in blocks. -/
theorem layout_lines {schema : Schema} {path : Path} {place : Schema.Place}
    (hplace : schema.resolve path = .ok place) (h : Beside place edited? running?)
    (hwords : ∀ word, Mentions edited? running? word → words word)
    (hname : BraceOf words (path.getLast?.getD "")) :
    Layout (BraceOf words) 0 (lines schema path edited? running?) := by
  rw [lines_eq hplace h]
  dsimp only
  by_cases hLeaf : place.isLeaf = true
  · rw [if_pos hLeaf]
    exact layout_leafLines hwords hname 0
  · rw [if_neg hLeaf]
    refine layout_contents h (by simpa using hLeaf) hwords 0 ?_
    split
    · exact endsInBrace_blank _
    · decide

end Words

end RouterConfig.Annotated
