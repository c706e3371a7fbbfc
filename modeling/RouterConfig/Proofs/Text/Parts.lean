import RouterConfig.Proofs.Text.Lines

/-!
# RouterConfig — texts made of lines

A text is its lines with their ends, one after the other. Whatever of these is left out, the text
that the others make has just the lines that are left. Main results:

* `textLines_eq_map` — the lines of a text are its pieces without their ends;
* `textLines_append` — behind a line feed a text goes on with lines of its own;
* `textLines_withoutLines`, `textLines_firstLines` — what leaving lines out leaves.
-/

namespace RouterConfig

/-! ## Lines with their ends -/

/-- A line without its end: a line feed, and one carriage return in front of it. -/
def withoutEnd (piece : List Char) : List Char :=
  if piece.getLast? = some '\n' then
    if piece.dropLast.getLast? = some '\r' then piece.dropLast.dropLast else piece.dropLast
  else piece

/-- What holds of texts without line feeds, and of a line in front of every text that it holds of,
holds of every text. -/
theorem lines_induction {P : List Char → Prop} (clear : ∀ line, '\n' ∉ line → P line)
    (ended : ∀ line rest, '\n' ∉ line → P rest → P (line ++ '\n' :: rest)) (cs : List Char) :
    P cs := by
  induction hlength : cs.length using Nat.strong_induction_on generalizing cs with
  | _ length ih =>
    by_cases hfeed : '\n' ∈ cs
    · obtain ⟨line, rest, rfl, hfirst⟩ := List.eq_append_cons_of_mem hfeed
      refine ended line rest hfirst (ih rest.length ?_ rest rfl)
      rw [← hlength, List.length_append, List.length_cons]
      omega
    · exact clear cs hfeed

/-- A text without a line feed is one piece, unless it is empty. -/
theorem piecesWithEnds_of_clear {line : List Char} (h : '\n' ∉ line) :
    piecesWithEnds line = if line = [] then [] else [line] := by
  induction line with
  | nil => rfl
  | cons c rest ih =>
    have hc : c ≠ '\n' := fun heq => h (heq ▸ List.mem_cons_self ..)
    rw [piecesWithEnds, if_neg hc, ih fun hmem => h (List.mem_cons_of_mem _ hmem)]
    cases rest with
    | nil => rfl
    | cons d rest => rfl

/-- The first line of a text is its first piece, with the line feed that ends it. -/
theorem piecesWithEnds_line {line : List Char} (h : '\n' ∉ line) (rest : List Char) :
    piecesWithEnds (line ++ '\n' :: rest) = (line ++ ['\n']) :: piecesWithEnds rest := by
  induction line with
  | nil => rw [List.nil_append, piecesWithEnds, if_pos rfl, List.nil_append]
  | cons c line ih =>
    have hc : c ≠ '\n' := fun heq => h (heq ▸ List.mem_cons_self ..)
    rw [List.cons_append, piecesWithEnds, if_neg hc, ih fun hmem => h (List.mem_cons_of_mem _ hmem),
      List.cons_append]

private theorem clear_of_not_mem {line : List Char} (h : '\n' ∉ line) :
    ∀ c ∈ line, decide (c = '\n') = false :=
  fun _ hc => decide_eq_false fun heq => h (heq ▸ hc)

/-- A text without a line feed is one line, unless it is empty. -/
private theorem textLines_of_clear {line : List Char} (h : '\n' ∉ line) :
    textLines (String.ofList line) = if line = [] then [] else [String.ofList line] := by
  have hpieces : cutAt (· = '\n') line = [line] := cutAt_eq_single (clear_of_not_mem h)
  rw [textLines, String.toList_ofList, hpieces]
  cases line with
  | nil => rfl
  | cons c rest => rfl

/-- A text that begins with a line and its end has that line, and then the lines of the rest. -/
private theorem textLines_line {line : List Char} (h : '\n' ∉ line) (rest : List Char) :
    textLines (String.ofList (line ++ '\n' :: rest)) =
      String.ofList (withoutEnd (line ++ ['\n'])) :: textLines (String.ofList rest) := by
  have hpieces : cutAt (· = '\n') (line ++ '\n' :: rest) = line :: cutAt (· = '\n') rest :=
    cutAt_separator (by decide) (clear_of_not_mem h) rest
  have hend : withoutEnd (line ++ ['\n']) =
      if line.getLast? = some '\r' then line.dropLast else line := by
    rw [withoutEnd, List.getLast?_concat, if_pos rfl, List.dropLast_concat]
  have hne : cutAt (· = '\n') rest ≠ [] := cutAt_ne_nil _ _
  rw [textLines, textLines, String.toList_ofList, String.toList_ofList, hpieces, hend,
    List.dropLast_cons_of_ne_nil hne, List.getLast?_cons_of_ne_nil hne]
  -- the last piece is the same one, and it is taken as it is
  cases (cutAt (· = '\n') rest).getLast? with
  | none => rfl
  | some last =>
    cases last with
    | nil => rfl
    | cons c cs => rfl

/-- The lines of a text are its pieces without their ends. -/
theorem textLines_eq_map (text : String) : textLines text =
    (piecesWithEnds text.toList).map fun piece => String.ofList (withoutEnd piece) := by
  obtain ⟨cs, rfl⟩ : ∃ cs, text = String.ofList cs := ⟨text.toList, String.ofList_toList.symm⟩
  rw [String.toList_ofList]
  induction cs using lines_induction with
  | clear line h =>
    rw [textLines_of_clear h, piecesWithEnds_of_clear h]
    split
    · rfl
    · have hopen : line.getLast? ≠ some '\n' := fun hlast => h (List.mem_of_getLast? hlast)
      rw [List.map_singleton, withoutEnd, if_neg hopen]
  | ended line rest h ih => rw [textLines_line h, piecesWithEnds_line h, List.map_cons, ih]

/-! ## One text behind another -/

/-- A text in which every line has its end, so that a line of its own may follow. -/
def EndsLine (text : String) : Prop := text = "" ∨ text.toList.getLast? = some '\n'

instance (text : String) : Decidable (EndsLine text) := inferInstanceAs (Decidable (_ ∨ _))

/-- Behind a line feed a text goes on with lines of its own. -/
theorem textLines_append {a : String} (h : EndsLine a) (b : String) :
    textLines (a ++ b) = textLines a ++ textLines b := by
  have hpieces : ∀ cs : List Char, cs = [] ∨ cs.getLast? = some '\n' →
      piecesWithEnds (cs ++ b.toList) = piecesWithEnds cs ++ piecesWithEnds b.toList := by
    intro cs hends
    induction cs using lines_induction with
    | clear line hclear =>
      -- without a line feed no line can end
      have hnil : line = [] :=
        hends.resolve_right fun hlast => hclear (List.mem_of_getLast? hlast)
      rw [hnil]
      rfl
    | ended line rest hclear ih =>
      have hrest : rest = [] ∨ rest.getLast? = some '\n' := by
        cases rest with
        | nil => exact .inl rfl
        | cons c rest => exact .inr (by simpa [List.getLast?_append] using hends)
      rw [List.append_assoc, List.cons_append, piecesWithEnds_line hclear,
        piecesWithEnds_line hclear, ih hrest, List.cons_append]
  have hends : a.toList = [] ∨ a.toList.getLast? = some '\n' :=
    h.imp (fun hempty => by rw [hempty]; rfl) id
  rw [textLines_eq_map, textLines_eq_map, textLines_eq_map, String.toList_append,
    hpieces _ hends, List.map_append]

/-! ## Leaving lines out -/

/-- Lines with their ends: a line feed is at the end of a line, and only the last may lack it. -/
inductive MadeOfLines : List (List Char) → Prop where
  | nil : MadeOfLines []
  | last {line : List Char} : line ≠ [] → '\n' ∉ line → MadeOfLines [line]
  | cons {line : List Char} {rest : List (List Char)} :
    '\n' ∉ line → MadeOfLines rest → MadeOfLines ((line ++ ['\n']) :: rest)

/-- The pieces of a text are made of lines. -/
theorem madeOfLines_pieces (cs : List Char) : MadeOfLines (piecesWithEnds cs) := by
  induction cs using lines_induction with
  | clear line h =>
    rw [piecesWithEnds_of_clear h]
    split
    next => exact .nil
    next hne => exact .last hne h
  | ended line rest h ih =>
    rw [piecesWithEnds_line h]
    exact .cons h ih

namespace MadeOfLines

/-- A text that is made of lines is cut into them. -/
theorem pieces_flatten {pieces : List (List Char)} (h : MadeOfLines pieces) :
    piecesWithEnds pieces.flatten = pieces := by
  induction h with
  | nil => rfl
  | last hne hclear =>
    rw [List.flatten_singleton, piecesWithEnds_of_clear hclear, if_neg hne]
  | cons hclear _ ih =>
    rw [List.flatten_cons, List.append_assoc, List.singleton_append, piecesWithEnds_line hclear, ih]

/-- Some of the pieces, in their order, are made of lines as well. -/
theorem sublist {pieces kept : List (List Char)} (h : MadeOfLines pieces)
    (hkept : kept.Sublist pieces) : MadeOfLines kept := by
  induction h generalizing kept with
  | nil => exact List.sublist_nil.mp hkept ▸ .nil
  | last hne hclear =>
    rcases List.sublist_singleton.mp hkept with rfl | rfl
    · exact .nil
    · exact .last hne hclear
  | cons hclear _ ih =>
    cases hkept with
    | cons _ hrest => exact ih hrest
    | cons_cons _ hrest => exact .cons hclear (ih hrest)

end MadeOfLines

/-- The text that some of the pieces of a text make has their lines. -/
private theorem textLines_kept {cs : List Char} {kept : List (List Char)}
    (h : kept.Sublist (piecesWithEnds cs)) : textLines (String.ofList kept.flatten) =
      kept.map fun piece => String.ofList (withoutEnd piece) := by
  rw [textLines_eq_map, String.toList_ofList, ((madeOfLines_pieces cs).sublist h).pieces_flatten]

/-- A list without the entries at the numbers to drop, where the first has the given number. -/
def leaveOut {α : Type} (drop : Nat → Bool) : Nat → List α → List α
  | _, [] => []
  | number, x :: xs =>
    if drop number then leaveOut drop (number + 1) xs else x :: leaveOut drop (number + 1) xs

/-- What is left out leaves the others in their order. -/
theorem leaveOut_sublist {α : Type} (drop : Nat → Bool) (number : Nat) (xs : List α) :
    (leaveOut drop number xs).Sublist xs := by
  induction xs generalizing number with
  | nil => exact .refl _
  | cons x xs ih =>
    rw [leaveOut]
    split
    · exact (ih _).cons x
    · exact (ih _).cons_cons x

/-- Which entries are left out is said by their numbers alone, so the entries may be mapped
before. -/
theorem leaveOut_map {α β : Type} (drop : Nat → Bool) (f : α → β) (number : Nat) (xs : List α) :
    leaveOut drop number (xs.map f) = (leaveOut drop number xs).map f := by
  induction xs generalizing number with
  | nil => rfl
  | cons x xs ih =>
    rw [List.map_cons, leaveOut, leaveOut, ih]
    split
    · rfl
    · rw [List.map_cons]

/-- What is left out of two parts is left out of each, the second one counting on from the first. -/
theorem leaveOut_append {α : Type} (drop : Nat → Bool) (number : Nat) (xs ys : List α) :
    leaveOut drop number (xs ++ ys) =
      leaveOut drop number xs ++ leaveOut drop (number + xs.length) ys := by
  induction xs generalizing number with
  | nil => rfl
  | cons x xs ih =>
    have hlater : number + 1 + xs.length = number + (x :: xs).length := by
      rw [List.length_cons, Nat.add_right_comm, Nat.add_assoc]
    rw [List.cons_append, leaveOut, leaveOut, ih, hlater]
    split
    · rfl
    · rw [List.cons_append]

/-- A text without the lines at the numbers to drop, counted from one. -/
def withoutLines (drop : Nat → Bool) (text : String) : String :=
  String.ofList (leaveOut drop 1 (piecesWithEnds text.toList)).flatten

theorem textLines_withoutLines (drop : Nat → Bool) (text : String) :
    textLines (withoutLines drop text) = leaveOut drop 1 (textLines text) := by
  rw [withoutLines, textLines_kept (leaveOut_sublist ..), textLines_eq_map, leaveOut_map]

/-- The first `count` lines of a text, or all where it has fewer. -/
def firstLines (count : Nat) (text : String) : String :=
  String.ofList ((piecesWithEnds text.toList).take count).flatten

theorem textLines_firstLines (count : Nat) (text : String) :
    textLines (firstLines count text) = (textLines text).take count := by
  rw [firstLines, textLines_kept (List.take_sublist ..), textLines_eq_map, List.map_take]

example : withoutLines (· = 2) "set a\r\n# b\nset c" = "set a\r\nset c" := by decide

end RouterConfig
