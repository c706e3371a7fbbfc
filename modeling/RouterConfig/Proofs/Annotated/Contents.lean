import Mathlib.Data.List.Basic
import RouterConfig.Annotated.Render
import RouterConfig.Proofs.Schema.Conformance

/-!
# RouterConfig — what stands below a node, place by place

Writing an annotated configuration goes two names down at a tag node, and asks the schema for each
path anew. Here the same lines are written one name at a time, at the place that a name leads to:
the contents of a tag node are its instances, each behind the name of the tag node. What is proved
of these lines is proved along `pair_induction`, from the children of two nodes to the nodes. Main
results:

* `contents_eq` — the contents of two nodes are those of their children, name by name;
* `Beside.child` — children stand beside each other as their parents do;
* `lines_eq` — the lines of what stands at a path are these.
-/

namespace RouterConfig.Annotated

/-! ## Names and levels below two nodes -/

/-- How many levels of names there are below the higher of two nodes. -/
def levelsOf (edited? running? : Option Tree) : Nat :=
  max (edited?.elim 0 Tree.height) (running?.elim 0 Tree.height)

theorem mem_namesBelow_iff {edited? running? : Option Tree} {name : String} :
    name ∈ namesBelow edited? running? ↔
      name ∈ edited?.elim [] Tree.keys ∨ name ∈ running?.elim [] Tree.keys := by
  rw [namesBelow, Keyed.mem_sortedNames, List.mem_append]

/-- A child is no higher than the highest of the children. -/
theorem height_le_heightBelow {children : Children} {name : String} {child : Tree}
    (h : Keyed.get? children name = some child) : child.height ≤ Tree.heightBelow children := by
  induction children with
  | nil => exact absurd h (by simp)
  | cons entry rest ih =>
    obtain ⟨k, first⟩ := entry
    rw [Tree.heightBelow]
    by_cases hk : k = name
    · rw [Keyed.get?, if_pos hk, Option.some.injEq] at h
      rw [h]
      exact Nat.le_max_left ..
    · rw [Keyed.get?, if_neg hk] at h
      exact Nat.le_trans (ih h) (Nat.le_max_right ..)

theorem child?_subtree (children : Children) (name : String) :
    child? (some (.subtree children)) name = Keyed.get? children name := by
  rw [child?, Option.bind_some, Tree.get?]
  cases Keyed.get? children name with
  | none => rfl
  | some child => rfl

/-- A child is not as high as its parent. -/
theorem height_child?_le (node? : Option Tree) (name : String) :
    (child? node? name).elim 0 Tree.height ≤ node?.elim 0 Tree.height - 1 := by
  cases node? with
  | none => simp [child?]
  | some node =>
    cases node with
    | scalar value => simp [child?, Tree.get?]
    | list values => simp [child?, Tree.get?]
    | subtree children =>
      rw [child?_subtree]
      cases hchild : Keyed.get? children name with
      | none => simp
      | some child =>
        have hle := height_le_heightBelow hchild
        simpa [Tree.height] using hle

theorem levelsOf_child?_le (edited? running? : Option Tree) (name : String) :
    levelsOf (child? edited? name) (child? running? name) ≤ levelsOf edited? running? - 1 := by
  have hedited := height_child?_le edited? name
  have hrunning := height_child?_le running? name
  unfold levelsOf
  omega

/-- Where a name is to be written there is a level to write it on. -/
theorem levelsOf_pos {edited? running? : Option Tree} {name : String}
    (h : name ∈ namesBelow edited? running?) : 0 < levelsOf edited? running? := by
  have hpos : ∀ node? : Option Tree, name ∈ node?.elim [] Tree.keys →
      0 < node?.elim 0 Tree.height := by
    intro node? hname
    cases node? with
    | none => exact absurd hname (by simp)
    | some node =>
      cases node with
      | scalar value => exact absurd hname (by simp [Tree.keys])
      | list values => simp [Tree.height]
      | subtree children => simp [Tree.height]
  unfold levelsOf
  -- a name comes from one of the two sides, and that side is a tree of some height
  rcases mem_namesBelow_iff.mp h with hname | hname
  · have hlevels := hpos _ hname
    omega
  · have hlevels := hpos _ hname
    omega

/-- What holds of two nodes whenever it holds of their children, name by name, holds of all. -/
theorem pair_induction {P : Option Tree → Option Tree → Prop}
    (step : ∀ edited? running?, (∀ name ∈ namesBelow edited? running?,
      P (child? edited? name) (child? running? name)) → P edited? running?)
    (edited? running? : Option Tree) : P edited? running? := by
  -- the induction is on the number of levels below the two
  have key : ∀ (levels : Nat) (edited? running? : Option Tree),
      levelsOf edited? running? ≤ levels → P edited? running? := by
    intro levels
    induction levels with
    | zero =>
      intro edited? running? hlevels
      refine step _ _ fun name hname => ?_
      have hpos := levelsOf_pos hname
      omega
    | succ levels ih =>
      intro edited? running? hlevels
      refine step _ _ fun name _ => ih _ _ ?_
      have hle := levelsOf_child?_le edited? running? name
      omega
  exact key _ _ _ (Nat.le_refl _)

/-! ## The lines, one name at a time -/

/-- What writes the lines of all that stands below two nodes at a place, each name behind `lead`. -/
abbrev Writer := (depth : Nat) → Schema.Place → (lead : String) → (edited? running? : Option Tree) →
  List AnnotatedLine

/-- The lines of a node at a place, under a label. -/
def entryLines (below : Writer) (depth : Nat) (place : Schema.Place) (label : String)
    (edited? running? : Option Tree) : List AnnotatedLine :=
  if place.isLeaf then leafLines depth label edited? running?
  else if place.isTag then below depth place (label ++ " ") edited? running?
  else block depth label edited? running? (below (depth + 1) place "" edited? running?)

/-- The lines of what a name leads to. -/
def nameLines (below : Writer) (depth : Nat) (place : Schema.Place) (lead : String)
    (edited? running? : Option Tree) (name : String) : List AnnotatedLine :=
  match place.enter name with
  | .ok next =>
    entryLines below depth next (lead ++ name) (child? edited? name) (child? running? name)
  | .error _ => []

/-- The lines of all that stands below two nodes, down to `levels` levels of names. -/
def writeBelow : (levels : Nat) → Writer
  | 0, _, _, _, _, _ => []
  | levels + 1, depth, place, lead, edited?, running? =>
    (namesBelow edited? running?).flatMap
      (nameLines (writeBelow levels) depth place lead edited? running?)

/-- The lines of all that stands below two nodes. -/
def contents : Writer := fun depth place lead edited? running? =>
  writeBelow (levelsOf edited? running?) depth place lead edited? running?

/-- The lines of a name depend on the writer for what is below it only through its two children. -/
theorem nameLines_congr {below below' : Writer} {edited? running? : Option Tree} {name : String}
    (h : ∀ depth place lead, below depth place lead (child? edited? name) (child? running? name) =
      below' depth place lead (child? edited? name) (child? running? name))
    (depth : Nat) (place : Schema.Place) (lead : String) :
    nameLines below depth place lead edited? running? name =
      nameLines below' depth place lead edited? running? name := by
  unfold nameLines
  cases place.enter name with
  | error fault => rfl
  | ok next =>
    show entryLines _ _ _ _ _ _ = entryLines _ _ _ _ _ _
    rw [entryLines, entryLines, h, h]

/-- All levels are written as soon as there are enough of them. -/
theorem writeBelow_levels {levels levels' : Nat} {edited? running? : Option Tree}
    (h : levelsOf edited? running? ≤ levels) (h' : levelsOf edited? running? ≤ levels')
    (depth : Nat) (place : Schema.Place) (lead : String) :
    writeBelow levels depth place lead edited? running? =
      writeBelow levels' depth place lead edited? running? := by
  -- on the first count of levels; the second may be any that is large enough as well
  induction levels generalizing levels' edited? running? depth place lead with
  | zero =>
    -- there are no names, so one level writes as little as none
    have hnone : ∀ name, name ∉ namesBelow edited? running? := by
      intro name hname
      have hpos := levelsOf_pos hname
      omega
    cases levels' with
    | zero => rfl
    | succ levels' =>
      rw [writeBelow, writeBelow, eq_comm, List.flatMap_eq_nil_iff]
      exact fun name hname => absurd hname (hnone name)
  | succ levels ih =>
    have hle := levelsOf_child?_le edited? running?
    cases levels' with
    -- with no levels left there is no name to write
    | zero =>
      rw [writeBelow, writeBelow, List.flatMap_eq_nil_iff]
      intro name hname
      have hpos := levelsOf_pos hname
      omega
    | succ levels' =>
      rw [writeBelow, writeBelow]
      refine List.flatMap_congr fun name _ => nameLines_congr (fun depth place lead => ?_) _ _ _
      have hname := hle name
      exact ih (by omega) (by omega) _ _ _

theorem writeBelow_eq_contents {levels : Nat} {edited? running? : Option Tree}
    (h : levelsOf edited? running? ≤ levels) (depth : Nat) (place : Schema.Place) (lead : String) :
    writeBelow levels depth place lead edited? running? =
      contents depth place lead edited? running? :=
  writeBelow_levels h (Nat.le_refl _) _ _ _

/-- The contents of two nodes are those of their children, name by name. -/
theorem contents_eq (depth : Nat) (place : Schema.Place) (lead : String)
    (edited? running? : Option Tree) :
    contents depth place lead edited? running? = (namesBelow edited? running?).flatMap
      (nameLines contents depth place lead edited? running?) := by
  have hsucc : contents depth place lead edited? running? =
      writeBelow (levelsOf edited? running? + 1) depth place lead edited? running? :=
    writeBelow_levels (Nat.le_refl _) (Nat.le_succ _) _ _ _
  rw [hsucc, writeBelow]
  refine List.flatMap_congr fun name _ => nameLines_congr (fun depth place lead => ?_) _ _ _
  have hle := levelsOf_child?_le edited? running? name
  exact writeBelow_eq_contents (by omega) _ _ _

/-! ## Nodes that conform, side by side -/

/-- Two nodes at a place, each of which may be missing. -/
structure Beside (place : Schema.Place) (edited? running? : Option Tree) : Prop where
  edited : ∀ t, edited? = some t → place.Conforms t
  running : ∀ t, running? = some t → place.Conforms t

section Below

variable {place : Schema.Place} {node? : Option Tree}

/-- The names below a node that conforms are those under which it has a child. -/
theorem mem_keys_iff_child? (h : ∀ t, node? = some t → place.Conforms t)
    (hLeaf : place.isLeaf = false) {name : String} :
    name ∈ node?.elim [] Tree.keys ↔ (child? node? name).isSome = true := by
  cases node? with
  | none => simp [child?]
  | some t =>
    obtain ⟨children, rfl, -⟩ := (h t rfl).fits.isSubtree hLeaf
    rw [child?_subtree]
    exact Keyed.isSome_get?_iff.symm

/-- A child of a node that conforms conforms to the place its name leads to. -/
theorem conforms_child? (h : ∀ t, node? = some t → place.Conforms t) {name : String} {child : Tree}
    (hchild : child? node? name = some child) :
    ∃ next, place.enter name = .ok next ∧ next.Conforms child := by
  cases node? with
  | none => exact absurd hchild (by simp [child?])
  | some t =>
    cases t with
    | scalar value => exact absurd hchild (by simp [child?, Tree.get?])
    | list values => exact absurd hchild (by simp [child?, Tree.get?])
    | subtree children =>
      rw [child?_subtree] at hchild
      exact (Schema.Place.conforms_subtree_iff.mp (h _ rfl)).2.2 name child hchild

end Below

namespace Beside

variable {place : Schema.Place} {edited? running? : Option Tree}

theorem mem_namesBelow_iff (h : Beside place edited? running?) (hLeaf : place.isLeaf = false)
    {name : String} : name ∈ namesBelow edited? running? ↔
      (child? edited? name).isSome = true ∨ (child? running? name).isSome = true := by
  rw [Annotated.mem_namesBelow_iff, mem_keys_iff_child? h.edited hLeaf,
    mem_keys_iff_child? h.running hLeaf]

/-- Where a name leads to, children stand beside each other as their parents do. -/
theorem enter (h : Beside place edited? running?) {name : String} {next : Schema.Place}
    (henter : place.enter name = .ok next) :
    Beside next (child? edited? name) (child? running? name) := by
  have hside : ∀ {node? : Option Tree}, (∀ t, node? = some t → place.Conforms t) →
      ∀ child, child? node? name = some child → next.Conforms child := by
    intro node? hnode child hchild
    obtain ⟨next', henter', hchild⟩ := conforms_child? hnode hchild
    rw [henter, Except.ok.injEq] at henter'
    exact henter' ▸ hchild
  exact ⟨hside h.edited, hside h.running⟩

/-- Each name below two nodes leads somewhere. -/
theorem child (h : Beside place edited? running?) (hLeaf : place.isLeaf = false) {name : String}
    (hname : name ∈ namesBelow edited? running?) :
    ∃ next, place.enter name = .ok next ∧
      Beside next (child? edited? name) (child? running? name) := by
  have hleads : ∃ next, place.enter name = .ok next := by
    rcases (h.mem_namesBelow_iff hLeaf).mp hname with hsome | hsome
    · obtain ⟨child, hchild⟩ := Option.isSome_iff_exists.mp hsome
      obtain ⟨next, henter, -⟩ := conforms_child? h.edited hchild
      exact ⟨next, henter⟩
    · obtain ⟨child, hchild⟩ := Option.isSome_iff_exists.mp hsome
      obtain ⟨next, henter, -⟩ := conforms_child? h.running hchild
      exact ⟨next, henter⟩
  obtain ⟨next, henter⟩ := hleads
  exact ⟨next, henter, h.enter henter⟩

end Beside

/-! ## The lines of a path -/

section Lines

variable {schema : Schema} {path : Path} {place : Schema.Place} {edited? running? : Option Tree}

theorem resolve_enter {next : Schema.Place} {name : String} (h : schema.resolve path = .ok place)
    (henter : place.enter name = .ok next) : schema.resolve (path ++ [name]) = .ok next := by
  rw [Schema.resolve_eq_ok_iff] at h ⊢
  exact Schema.Place.leads_snoc_iff.mpr ⟨place, h, henter⟩

/-- The instances of a tag node are its contents, if each has the contents of an instance. -/
private theorem instanceLines_eq_of (hTag : place.isTag = true) {levels depth : Nat}
    (h : ∀ name ∈ namesBelow edited? running?,
      nodeLines schema levels (depth + 1) (path ++ [name]) (child? edited? name)
          (child? running? name) =
        contents (depth + 1) (.instanceOf place.node) "" (child? edited? name)
          (child? running? name)) (tag : String) :
    instanceLines schema levels depth path tag edited? running? =
      contents depth place (tag ++ " ") edited? running? := by
  rw [contents_eq, instanceLines]
  refine List.flatMap_congr fun name hname => ?_
  rw [nameLines, Schema.Place.enter_of_isTag hTag]
  show block _ _ _ _ _ = block _ _ _ _ _
  rw [h name hname]

/-- Asking the schema for paths and going down the places write the same lines. -/
theorem nodeLines_eq (hplace : schema.resolve path = .ok place) (hLeaf : place.isLeaf = false)
    (hTag : place.isTag = false) (h : Beside place edited? running?) {levels : Nat}
    (hlevels : levelsOf edited? running? ≤ levels) (depth : Nat) :
    nodeLines schema levels depth path edited? running? =
      contents depth place "" edited? running? := by
  -- on the levels, one for each step that the schema's path takes
  induction levels generalizing path place edited? running? depth with
  | zero =>
    rw [contents_eq, nodeLines, eq_comm, List.flatMap_eq_nil_iff]
    intro name hname
    have hpos := levelsOf_pos hname
    omega
  | succ levels ih =>
    rw [contents_eq, nodeLines]
    refine List.flatMap_congr fun name hname => ?_
    obtain ⟨next, henter, hchild⟩ := h.child hLeaf hname
    have hnext := resolve_enter hplace henter
    have hle := levelsOf_child?_le edited? running? name
    rw [nameLines, henter]
    dsimp only
    rw [Schema.isTag_of_resolve hnext, Schema.isLeaf_of_resolve hnext, entryLines,
      String.empty_append]
    -- a leaf is written in both forms alike, so only inner nodes and instances are followed
    by_cases hnextLeaf : next.isLeaf = true
    · rw [if_pos hnextLeaf, if_pos hnextLeaf]
    · rw [if_neg hnextLeaf, if_neg hnextLeaf]
      rw [Bool.not_eq_true] at hnextLeaf
      cases hnextTag : next.isTag with
      | true =>
        -- one level of the schema's paths is two of names here
        refine instanceLines_eq_of hnextTag (fun inst _ => ?_) name
        have henterInst := Schema.Place.enter_of_isTag hnextTag inst
        have hleInst := levelsOf_child?_le (child? edited? name) (child? running? name) inst
        exact ih (resolve_enter hnext henterInst) rfl rfl (hchild.enter henterInst) (by omega) _
      | false =>
        rw [if_neg (by simp), if_neg (by simp),
          ih hnext hnextLeaf hnextTag hchild (by omega) (depth + 1)]

/-- The lines of what stands at a path, by the kind of its place. -/
theorem lines_eq (hplace : schema.resolve path = .ok place) (h : Beside place edited? running?) :
    lines schema path edited? running? =
      let name := path.getLast?.getD ""
      if place.isLeaf then leafLines 0 name edited? running?
      else contents 0 place (if place.isTag then name ++ " " else "") edited? running? := by
  unfold lines
  rw [Schema.isTag_of_resolve hplace]
  cases hTag : place.isTag with
  | true =>
    -- a tag node has its instances written by name, each with its own contents
    have hLeaf := Schema.Place.not_isLeaf_of_isTag hTag
    simp only [hLeaf, if_true, if_false, Bool.false_eq_true]
    refine instanceLines_eq_of hTag (fun inst _ => ?_) _
    have henter := Schema.Place.enter_of_isTag hTag inst
    have hle := levelsOf_child?_le edited? running? inst
    have hlevels : levelsOf (child? edited? inst) (child? running? inst) ≤
        levelsOf edited? running? := by omega
    exact nodeLines_eq (resolve_enter hplace henter) rfl rfl (h.enter henter) hlevels _
  | false =>
    cases hLeaf : place.isLeaf with
    | true =>
      -- no subtree fits a leaf
      have hnone : ∀ {node? : Option Tree}, (∀ t, node? = some t → place.Conforms t) →
          node?.any Tree.isSubtree = false := by
        intro node? hnode
        cases node? with
        | none => rfl
        | some t =>
          rcases (hnode t rfl).fits.leaf_cases hLeaf with ⟨-, value, rfl⟩ | ⟨-, values, rfl, -⟩
          · rfl
          · rfl
      simp [hnone h.edited, hnone h.running]
    | false =>
      simp only [if_false, Bool.false_eq_true]
      split
      · exact nodeLines_eq hplace hLeaf hTag h (Nat.le_refl _) 0
      · -- without a subtree on either side there is nothing
        next hneither =>
          have hnone : edited? = none ∧ running? = none := by
            refine ⟨Option.eq_none_iff_forall_not_mem.mpr fun t ht => ?_,
              Option.eq_none_iff_forall_not_mem.mpr fun t ht => ?_⟩
            · obtain ⟨children, rfl, -⟩ := (h.edited t ht).fits.isSubtree hLeaf
              exact hneither (by simp [Option.mem_def.mp ht, Tree.isSubtree])
            · obtain ⟨children, rfl, -⟩ := (h.running t ht).fits.isSubtree hLeaf
              exact hneither (by simp [Option.mem_def.mp ht, Tree.isSubtree])
          obtain ⟨rfl, rfl⟩ := hnone
          rfl

end Lines

end RouterConfig.Annotated
