import RouterConfig.Proofs.Annotated.Sides

/-!
# RouterConfig — both configurations in one

An annotated configuration contains the edited configuration and the running one. The edited one is
what is left without the lines marked as removed. What is left without those marked as added is the
running one retold: a list has its values that are gone first, and then those that the edited one
has as well, in the order and as often as there. Main results:

* `withSets_retold` — what is retold differs in the order and the number of values alone;
* `kept_edited`, `kept_running` — what is kept of two nodes without the lines of one side;
* `contains_both` — the lines of what stands at a path contain both sides.
-/

namespace RouterConfig

namespace Annotated

/-! ## Retelling -/

mutual

/-- The running node as it is printed beside the edited one. -/
def retold : (running : Tree) → (edited? : Option Tree) → Tree
  | .scalar value, _ => .scalar value
  | .list values, edited? =>
    let edited := edited?.elim [] Tree.values
    .list ((values.filter fun value => !edited.contains value) ++
      edited.filter fun value => values.contains value)
  | .subtree children, edited? => .subtree (retoldBelow children edited?)

/-- The running children as they are printed beside the edited ones. -/
def retoldBelow : (running : List (String × Tree)) → (edited? : Option Tree) →
    List (String × Tree)
  | [], _ => []
  | (name, child) :: rest, edited? =>
    (name, retold child (child? edited? name)) :: retoldBelow rest edited?

end

/-- The values of a leaf that is printed for the running side are its own: those that were edited
away first, then those that stay in the order of the edited side. -/
theorem mem_retold_values {values edited : List String} {value : String} :
    value ∈ ((values.filter fun value => !edited.contains value) ++
      edited.filter fun value => values.contains value) ↔ value ∈ values := by
  simp only [List.mem_append, List.mem_filter]
  by_cases hedited : value ∈ edited
  · simp [hedited]
  · simp [hedited]

mutual

/-- What is retold differs in the order and the number of values alone. -/
theorem withSets_retold : ∀ (running : Tree) (edited? : Option Tree),
    (retold running edited?).withSets = running.withSets
  | .scalar value, _ => rfl
  | .list values, edited? => by
    rw [retold, Tree.withSets, Tree.withSets, Tree.list.injEq, Keyed.sortedNames_eq_iff]
    exact fun value => mem_retold_values
  | .subtree children, edited? => by
    rw [retold, Tree.withSets, Tree.withSets, withSetsBelow_retoldBelow children edited?]

theorem withSetsBelow_retoldBelow : ∀ (running : List (String × Tree)) (edited? : Option Tree),
    Tree.withSetsBelow (retoldBelow running edited?) = Tree.withSetsBelow running
  | [], _ => rfl
  | (name, child) :: rest, edited? => by
    rw [retoldBelow, Tree.withSetsBelow, Tree.withSetsBelow, withSets_retold child,
      withSetsBelow_retoldBelow rest]

end

/-- The children are retold one by one, each beside the edited child of its name. -/
theorem retoldBelow_eq_map (children : Children) (edited? : Option Tree) :
    retoldBelow children edited? =
      children.map fun entry => (entry.1, retold entry.2 (child? edited? entry.1)) := by
  induction children with
  | nil => rfl
  | cons entry rest ih =>
    obtain ⟨k, child⟩ := entry
    rw [retoldBelow, ih]
    rfl

theorem get?_retoldBelow (children : Children) (edited? : Option Tree) (name : String) :
    Keyed.get? (retoldBelow children edited?) name =
      (Keyed.get? children name).map fun child => retold child (child? edited? name) := by
  rw [retoldBelow_eq_map]
  exact Keyed.get?_map (fun name child => retold child (child? edited? name)) children name

theorem retoldBelow_ordered {children : Children} (h : Keyed.Ordered children)
    (edited? : Option Tree) : Keyed.Ordered (retoldBelow children edited?) := by
  rw [retoldBelow_eq_map]
  exact Keyed.ordered_map h fun name child => retold child (child? edited? name)

/-- A child of the retold node is the child of the running node, retold beside the edited child. -/
theorem child?_retold (running? edited? : Option Tree) (name : String) :
    child? (running?.map fun t => retold t edited?) name =
      (child? running? name).map fun child => retold child (child? edited? name) := by
  cases running? with
  | none => rfl
  | some t =>
    cases t with
    | scalar value => rfl
    | list values => rfl
    | subtree children =>
      rw [Option.map_some, retold, child?_subtree, child?_subtree]
      exact get?_retoldBelow children edited? name

/-- What is retold conforms as before. -/
theorem conforms_retold {place : Schema.Place} {edited? running? : Option Tree}
    (h : Beside place edited? running?) :
    ∀ t, running? = some t → place.Conforms (retold t edited?) := by
  -- on both trees at once, since a node is printed from what both of them hold
  induction edited?, running? using pair_induction generalizing place with
  | step edited? running? ih =>
  rintro t rfl
  have ht := h.running t rfl
  cases t with
  | scalar value => exact ht
  | list values =>
    rw [retold, Schema.Place.conforms_value_iff rfl]
    have hfits := ht.fits
    cases hfits with
    | values hLeaf hmulti hvalueless hne htakes =>
      -- the same values are left, so the leaf takes them and there is one
      obtain ⟨value, hvalue⟩ := List.exists_mem_of_ne_nil values hne
      refine .values hLeaf hmulti hvalueless ?_ fun other hother => ?_
      · exact List.ne_nil_of_mem (mem_retold_values.mpr hvalue)
      · exact htakes other (mem_retold_values.mp hother)
  | subtree children =>
    obtain ⟨hLeaf, hOrdered, hchildren⟩ := Schema.Place.conforms_subtree_iff.mp ht
    rw [retold, Schema.Place.conforms_subtree_iff]
    refine ⟨hLeaf, retoldBelow_ordered hOrdered edited?, fun name child hchild => ?_⟩
    rw [get?_retoldBelow, Option.map_eq_some_iff] at hchild
    obtain ⟨old, hold, rfl⟩ := hchild
    -- a child that is kept is declared as it was, and the names are those of both sides
    obtain ⟨next, henter, -⟩ := hchildren name old hold
    have hname : name ∈ namesBelow edited? (some (.subtree children)) := by
      rw [h.mem_namesBelow_iff hLeaf, child?_subtree, hold]
      exact .inr rfl
    exact ⟨next, henter, ih name hname (h.enter henter) old (by rw [child?_subtree, hold])⟩

/-- At a leaf, the values that are gone are printed first. -/
theorem values_retold {place : Schema.Place} {edited? running? : Option Tree}
    (h : Beside place edited? running?) (hLeaf : place.isLeaf = true) :
    let edited := edited?.elim [] Tree.values
    let running := running?.elim [] Tree.values
    (running?.map fun t => retold t edited?).elim [] Tree.values =
      (running.filter fun value => !edited.contains value) ++
        edited.filter fun value => running.contains value := by
  intro edited running
  -- by the kind of the running leaf: missing, several values, or one
  cases running? with
  | none =>
    -- nothing is running, so no edited value is printed as running
    have hnone : edited.filter (fun value => running.contains value) = [] := by
      rw [List.filter_eq_nil_iff]
      intro value _
      simp [running]
    rw [hnone]
    rfl
  | some t =>
    cases t with
    | list values => rfl
    | subtree children =>
      obtain ⟨hnot, -⟩ := Schema.Place.conforms_subtree_iff.mp (h.running _ rfl)
      exact absurd hLeaf (by simp [hnot])
    | scalar value =>
      -- the edited node is missing or has one value as well
      have hedited : edited = [] ∨ ∃ other, edited = [other] := by
        cases edited? with
        | none => exact .inl rfl
        | some e =>
          rcases (h.edited e rfl).fits.leaf_pair (h.running _ rfl).fits hLeaf with
            ⟨other, -, rfl, -⟩ | ⟨-, values, -, hlist⟩
          · exact .inr ⟨other, rfl⟩
          · exact absurd hlist (by simp)
      have hrunning : running = [value] := rfl
      show [value] = _
      rw [hrunning]
      -- the edited side has no value, the same one or another one; the running value is listed once
      rcases hedited with hnone | ⟨other, hother⟩
      · simp [hnone]
      · by_cases heq : value = other
        · simp [hother, heq]
        · have hne : ¬ other = value := fun hsame => heq hsame.symm
          simp [hother, heq, hne]

/-! ## The two sides -/

/-- The lines of a leaf that a side keeps: its values that have gone, where it keeps those, and then
the edited ones that it keeps. -/
theorem plain_leafLines (keeps : Mark → Bool) (depth : Nat) (name : String)
    (edited? running? : Option Tree) :
    let edited := edited?.elim [] Tree.values
    let running := running?.elim [] Tree.values
    plain keeps (leafLines depth name edited? running?) =
      ((running.filter fun value => !edited.contains value && keeps .removed) ++
        edited.filter fun value => keeps (Mark.ofSides true (running.contains value))).map
          fun value => (depth, leafText name value) := by
  intro edited running
  simp only [plain, leafLines, List.filter_append, List.filter_map, List.filter_filter,
    List.map_append, List.map_map, Function.comp_def]
  congr 2
  exact List.filter_congr fun value _ => Bool.and_comm ..

/-- The lines of a leaf on both sides are its values. -/
theorem plain_leafLines_self (depth : Nat) (name : String) (node? : Option Tree) :
    plain (fun _ => true) (leafLines depth name node? node?) =
      (node?.elim [] Tree.values).map fun value => (depth, leafText name value) := by
  have hgone : ∀ values : List String,
      values.filter (fun value => !values.contains value && true) = [] := by
    intro values
    rw [List.filter_eq_nil_iff]
    intro value hvalue
    simp [hvalue]
  rw [plain_leafLines, hgone, List.nil_append, List.filter_true]

/-- Without the lines marked as removed the edited node is left. -/
theorem kept_edited : Kept (fun mark => mark ≠ .removed) fun edited? _ => edited? where
  same := by decide
  none := rfl
  child _ _ _ := rfl
  isSome edited? running? hsome := by
    cases edited? <;> cases running? <;> simp_all [Mark.ofSides]
  conforms h := h.edited
  leaf {place edited? running?} _ _ depth name := by
    have hmark : ∀ there : Bool, decide (Mark.ofSides true there ≠ .removed) = true := by decide
    rw [plain_leafLines, plain_leafLines_self]
    simp [hmark]

/-- Without the lines marked as added the running node is left, as it is retold. -/
theorem kept_running : Kept (fun mark => mark ≠ .added) fun edited? running? =>
    running?.map fun t => retold t edited? where
  same := by decide
  none := rfl
  child edited? running? name := child?_retold running? edited? name
  isSome edited? running? hsome := by
    cases edited? <;> cases running? <;> simp_all [Mark.ofSides]
  conforms h t ht := by
    obtain ⟨running, hrunning, rfl⟩ := Option.map_eq_some_iff.mp ht
    exact conforms_retold h running hrunning
  leaf {place edited? running?} h hLeaf depth name := by
    have hmark : ∀ there : Bool, decide (Mark.ofSides true there ≠ .added) = there := by decide
    have hremoved : decide (Mark.removed ≠ Mark.added) = true := by decide
    rw [plain_leafLines, plain_leafLines_self, values_retold h hLeaf]
    simp only [hmark, hremoved, Bool.and_true]

/-- The annotated lines of a path, for two nodes there that conform to a schema:

* without the lines marked as removed they are those of the edited node alone, if a block with
  nothing inside is written as its label;
* without the lines marked as added they are those of the running node alone in the same way, but
  for the order and the number of the values of lists;
* they are laid out in blocks, of which those on one side only are marked so throughout, and besides
  the lines that open and close blocks a line ends in a brace only where a name or a value does;
* so where none does, the braces are balanced, and each that closes is marked like the one that it
  closes. -/
theorem contains_both {schema : Schema} {path : Path} {place : Schema.Place}
    (hplace : schema.resolve path = .ok place) {edited? running? : Option Tree}
    (h : Beside place edited? running?) :
    let lines := lines schema path
    let words := fun word => word = path.getLast?.getD "" ∨ Mentions edited? running? word
    collapse (plain (fun mark => mark ≠ .removed) (lines edited? running?)) =
        collapse (plain (fun _ => true) (lines edited? edited?)) ∧
      (∃ retold? : Option Tree,
        retold?.map Tree.withSets = running?.map Tree.withSets ∧
        collapse (plain (fun mark => mark ≠ .added) (lines edited? running?)) =
          collapse (plain (fun _ => true) (lines retold? retold?))) ∧
      Layout (BraceOf words) 0 (lines edited? running?) ∧
      ((∀ word, words word → endsInBrace word = false) →
        nested [] (lines edited? running?) = true) := by
  intro lines words
  have hLayout : Layout (BraceOf words) 0 (lines edited? running?) :=
    layout_lines hplace h (fun word hword => .inr hword) fun hbrace => ⟨_, .inl rfl, hbrace⟩
  -- the edited side is kept as it is; the running side is kept with its values in another order
  refine ⟨kept_edited.lines hplace h, ⟨running?.map fun t => retold t edited?, ?_, ?_⟩, hLayout,
    fun hwords => ?_⟩
  · rw [Option.map_map]
    exact Option.map_congr fun t _ => withSets_retold t edited?
  · exact kept_running.lines hplace h
  · -- no word ends in a brace, so no line does but those of the blocks
    refine (hLayout.mono fun text htext => ?_).nested
    rw [← Bool.not_eq_true]
    intro hbrace
    obtain ⟨word, hword, hend⟩ := htext hbrace
    exact absurd hend (by simp [hwords word hword])

end Annotated

namespace Sample

/-- A session makes an instance anew that is running with an address. -/
def emptied : Host Unit Unit := host.run
  [("a", .setWords ["interface", "eth0", "address", "10.0.0.1"]),
    ("a", .commit true),
    ("a", .deleteWords ["interface", "eth0"]),
    ("a", .setWords ["interface", "eth0"])]

/-- A session gives the system a brace for a name. -/
def braced : Host Unit Unit := host.run [("a", .setWords ["system", "name", "\x7b"])]

end Sample

namespace Annotated

/-- Without the address that is removed a block with nothing inside is left, which the edited
configuration alone has as its label. -/
theorem contains_both_of_emptied :
    let edited? := (Sample.emptied.session "a").edit.get? ["interface"]
    let running? := Sample.emptied.store.running.get? ["interface"]
    let ls := lines Sample.schema ["interface"] edited? running?
    (∃ place, Sample.schema.resolve ["interface"] = .ok place ∧ Beside place edited? running?) ∧
      plain (fun mark => mark ≠ .removed) ls = [(0, "interface eth0 \x7b"), (0, "\x7d")] ∧
      collapse (plain (fun mark => mark ≠ .removed) ls) = [(0, "interface eth0")] := by
  intro edited? running? ls
  have hReach : Sample.emptied.Reachable Sample.schema := Sample.reachable _
  have hSound := hReach.sound Sample.compiled
  have hplace : Sample.schema.resolve ["interface"] = .ok _ := rfl
  have h := beside_of_admits (hSound.session "a").edit hSound.store.running hplace
  have halone :
      -- the block of the emptied instance folds into its name
      collapse (plain (fun _ => true) (lines Sample.schema ["interface"] edited? edited?)) =
        [(0, "interface eth0")] := by decide +kernel
  exact ⟨⟨_, hplace, h⟩, by decide +kernel, (contains_both hplace h).1.trans halone⟩

/-- A value is written as it is, so it may look like the brace of a block. -/
theorem unbalanced_of_braced :
    let edited? := (Sample.braced.session "a").edit.get? ["system", "name"]
    let running? := Sample.braced.store.running.get? ["system", "name"]
    (∃ place, Sample.schema.resolve ["system", "name"] = .ok place ∧
        Beside place edited? running?) ∧
      lines Sample.schema ["system", "name"] edited? running? = [⟨0, .added, "name \x7b"⟩] ∧
      nested [] (lines Sample.schema ["system", "name"] edited? running?) = false := by
  intro edited? running?
  have hReach : Sample.braced.Reachable Sample.schema := Sample.reachable _
  have hSound := hReach.sound Sample.compiled
  have hplace : Sample.schema.resolve ["system", "name"] = .ok _ := rfl
  have h := beside_of_admits (hSound.session "a").edit hSound.store.running hplace
  exact ⟨⟨_, hplace, h⟩, by decide +kernel, by decide +kernel⟩

end Annotated

end RouterConfig
