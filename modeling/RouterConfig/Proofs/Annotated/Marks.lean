import RouterConfig.Proofs.Annotated.Substance
import RouterConfig.Proofs.Host.Conformance

/-!
# RouterConfig — what the marks mean

A line is marked where the two configurations say different things: at each place the lines are all
unmarked if and only if the nodes have the same substance there. Main results:

* `unmarked_leafLines_iff`, `unmarked_block_iff` — when the lines of a leaf, or of a block, are
  unmarked;
* `unmarked_contents_iff` — the same for all that stands below two nodes;
* `Host.Reachable.shows_change_iff` — which changes an operator sees.
-/

namespace RouterConfig

namespace Annotated

/-- No line is of one configuration alone. -/
def Unmarked (lines : List AnnotatedLine) : Prop := ∀ line ∈ lines, line.mark = .same

theorem ofSides_eq_same_iff {edited running : Bool} :
    Mark.ofSides edited running = .same ↔ edited = running := by
  cases edited <;> cases running <;> simp [Mark.ofSides]

/-! ## Leaves -/

/-- The lines of a leaf bear no mark if and only if both sides have the same values. -/
theorem unmarked_leafLines_iff {depth : Nat} {name : String} {edited? running? : Option Tree} :
    Unmarked (leafLines depth name edited? running?) ↔
      ∀ value, value ∈ edited?.elim [] Tree.values ↔ value ∈ running?.elim [] Tree.values := by
  -- a mark is missing from every line when each value stands on both sides
  unfold Unmarked leafLines
  simp only [List.forall_mem_append, List.forall_mem_map, List.mem_filter, ofSides_eq_same_iff]
  constructor
  · rintro ⟨hgone, hthere⟩ value
    constructor
    · intro hvalue
      simpa using (hthere value hvalue).symm
    · intro hvalue
      by_contra hnot
      exact absurd (hgone value ⟨hvalue, by simpa using hnot⟩) (by simp)
  · intro hsame
    refine ⟨fun value hvalue => ?_, fun value hvalue => ?_⟩
    · have hthere := (hsame value).mpr hvalue.1
      exact absurd hvalue.2 (by simpa using hthere)
    · simpa using (hsame value).mp hvalue

theorem isTag_of_isLeaf {place : Schema.Place} (h : place.isLeaf = true) : place.isTag = false := by
  rw [← Bool.not_eq_true]
  intro hTag
  exact absurd h (by simp [Schema.Place.not_isLeaf_of_isTag hTag])

/-- A leaf that is there has a value. -/
theorem values_ne_nil {place : Schema.Place} (hLeaf : place.isLeaf = true) {t : Tree}
    (h : place.Conforms t) : t.values ≠ [] := by
  rcases h.fits.leaf_cases hLeaf with ⟨-, value, rfl⟩ | ⟨-, values, rfl, hne⟩
  · simp [Tree.values]
  · exact hne

/-- At a leaf, nodes have the same values if and only if they are the same with lists as sets. -/
theorem Beside.values_iff {place : Schema.Place} {edited? running? : Option Tree}
    (h : Beside place edited? running?) (hLeaf : place.isLeaf = true) :
    (∀ value, value ∈ edited?.elim [] Tree.values ↔ value ∈ running?.elim [] Tree.values) ↔
      edited?.map Tree.withSets = running?.map Tree.withSets := by
  have hsomewhere : ∀ {t : Tree}, place.Conforms t → ∃ value, value ∈ t.values := fun ht =>
    List.exists_mem_of_ne_nil _ (values_ne_nil hLeaf ht)
  cases edited? with
  | none =>
    cases running? with
    | none => simp
    | some l =>
      obtain ⟨value, hvalue⟩ := hsomewhere (h.running l rfl)
      -- a leaf that is there has a value, which the missing one lacks
      exact ⟨fun hsame => absurd ((hsame value).mpr hvalue) (by simp),
        fun heq => absurd heq (by simp)⟩
  | some e =>
    cases running? with
    | none =>
      obtain ⟨value, hvalue⟩ := hsomewhere (h.edited e rfl)
      exact ⟨fun hsame => absurd ((hsame value).mp hvalue) (by simp),
        fun heq => absurd heq (by simp)⟩
    | some l =>
      simp only [Option.elim_some, Option.map_some, Option.some.injEq]
      -- both are scalars or both are lists, as the leaf says
      rcases (h.edited e rfl).fits.leaf_pair (h.running l rfl).fits hLeaf with
        ⟨v, w, rfl, rfl⟩ | ⟨vs, ws, rfl, rfl⟩
      · simp only [Tree.values, Tree.withSets, List.mem_singleton, Tree.scalar.injEq]
        exact ⟨fun hsame => (hsame v).mp rfl, fun heq value => by rw [heq]⟩
      · rw [Tree.withSets, Tree.withSets, Tree.list.injEq, Keyed.sortedNames_eq_iff]
        rfl

/-! ## Blocks -/

/-- Nothing stands below two nodes that hold nothing. -/
theorem contents_of_unfilled {edited? running? : Option Tree}
    (h : (isFilled edited? || isFilled running?) = false) (depth : Nat) (place : Schema.Place)
    (lead : String) : contents depth place lead edited? running? = [] := by
  have hkeys : ∀ {node? : Option Tree}, isFilled node? = false → node?.elim [] Tree.keys = [] := by
    intro node? hnode
    cases node? with
    | none => rfl
    | some t => cases t <;> simp_all [isFilled, Tree.isEmpty, Tree.keys, Keyed.keys]
  rw [Bool.or_eq_false_iff] at h
  rw [contents_eq, List.flatMap_eq_nil_iff]
  intro name hname
  rw [mem_namesBelow_iff, hkeys h.1, hkeys h.2] at hname
  exact absurd hname (by simp)

/-- A block bears no mark if and only if the node is on both sides and nothing inside bears one. -/
theorem unmarked_block_iff {depth : Nat} {label : String} {edited? running? : Option Tree}
    {inside : List AnnotatedLine}
    (hinside : (isFilled edited? || isFilled running?) = false → inside = []) :
    Unmarked (block depth label edited? running? inside) ↔
      edited?.isSome = running?.isSome ∧ Unmarked inside := by
  unfold Unmarked block
  cases hfilled : (isFilled edited? || isFilled running?) with
  | false => simp [hinside hfilled, ofSides_eq_same_iff]
  | true =>
    simp only [if_true, List.cons_append, List.forall_mem_cons, List.forall_mem_append,
      ofSides_eq_same_iff]
    exact ⟨fun h => ⟨h.1, h.2.1⟩, fun h => ⟨h.1, h.2, h.1, by simp⟩⟩

/-! ## Nodes -/

/-- What a child contributes to the substance of its node: its own substance, or nothing where it is
a bare tag node. -/
theorem substanceAt_eq {place next : Schema.Place} {name : String}
    (henter : place.enter name = .ok next) (node? : Option Tree) :
    substanceAt place node? name = (child? node? name).bind fun child =>
      if next.isTag && child.isEmpty then none else some (next.substance child) := by
  refine Option.bind_congr fun child _ => ?_
  rw [Tree.leftBelow, henter]
  dsimp only
  split <;> rfl

/-- A tag node with an instance says something. -/
theorem substance_eq_empty_iff {place : Schema.Place} (hTag : place.isTag = true) {t : Tree}
    (h : place.Conforms t) : place.substance t = Tree.empty ↔ t.isEmpty = true := by
  obtain ⟨children, rfl, -⟩ := h.fits.isSubtree (Schema.Place.not_isLeaf_of_isTag hTag)
  cases children with
  | nil => exact ⟨fun _ => rfl, fun _ => rfl⟩
  | cons entry rest =>
    obtain ⟨name, child⟩ := entry
    have hleft : Tree.leftBelow place name child =
        some (child.withoutBareTags (.instanceOf place.node)) := by
      rw [Tree.leftBelow, Schema.Place.enter_of_isTag hTag]
      rfl
    rw [Schema.Place.substance, Tree.withoutBareTags, Tree.withoutBareTagsBelow_cons, hleft,
      Tree.withSets, Tree.withSetsBelow]
    simp [Tree.empty, Tree.isEmpty]

/-- What tag nodes contribute is the same if and only if their instances say the same. -/
theorem Beside.tags_iff {place : Schema.Place} {edited? running? : Option Tree}
    (h : Beside place edited? running?) (hTag : place.isTag = true) :
    (edited?.bind fun t => if t.isEmpty then none else some (place.substance t)) =
        (running?.bind fun t => if t.isEmpty then none else some (place.substance t)) ↔
      place.substance (edited?.getD Tree.empty) = place.substance (running?.getD Tree.empty) := by
  have hempty : place.substance Tree.empty = Tree.empty := rfl
  -- a tag node contributes its substance, unless that is empty
  have hside : ∀ {node? : Option Tree}, (∀ t, node? = some t → place.Conforms t) →
      (node?.bind fun t => if t.isEmpty then none else some (place.substance t)) =
        if place.substance (node?.getD Tree.empty) = Tree.empty then none
        else some (place.substance (node?.getD Tree.empty)) := by
    intro node? hnode
    cases node? with
    | none => rw [Option.getD_none, hempty, if_pos rfl, Option.bind_none]
    | some t =>
      rw [Option.bind_some, Option.getD_some]
      exact if_congr (substance_eq_empty_iff hTag (hnode t rfl)).symm rfl rfl
  rw [hside h.edited, hside h.running]
  -- on both sides a bare tag node counts for a missing one, so the options agree as the substances
  -- do
  constructor
  · intro heq
    split at heq
    next he =>
      split at heq
      next hl => rw [he, hl]
      next => exact absurd heq (by simp)
    next =>
      split at heq
      next => exact absurd heq (by simp)
      next => exact Option.some.inj heq
  · intro heq
    rw [heq]

/-- What nodes contribute that are no tag nodes. -/
theorem bind_substance_eq_map {place : Schema.Place} (hTag : place.isTag = false)
    (node? : Option Tree) :
    (node?.bind fun t => if place.isTag && t.isEmpty then none else some (place.substance t)) =
      node?.map place.substance := by
  rw [hTag]
  cases node? with
  | none => rfl
  | some t => rfl

/-- At a leaf there are no tag nodes to leave out. -/
theorem map_substance_of_isLeaf {place : Schema.Place} (hLeaf : place.isLeaf = true)
    {node? : Option Tree} (h : ∀ t, node? = some t → place.Conforms t) :
    node?.map place.substance = node?.map Tree.withSets := by
  refine Option.map_congr fun t ht => ?_
  rcases (h t ht).fits.leaf_cases hLeaf with ⟨-, value, rfl⟩ | ⟨-, values, rfl, -⟩
  · rfl
  · rfl

/-- The lines below two nodes are unmarked if and only if the nodes have the same substance. -/
theorem unmarked_contents_iff {place : Schema.Place} {edited? running? : Option Tree}
    (h : Beside place edited? running?) (hLeaf : place.isLeaf = false) (depth : Nat)
    (lead : String) :
    Unmarked (contents depth place lead edited? running?) ↔
      place.substance (edited?.getD Tree.empty) = place.substance (running?.getD Tree.empty) := by
  -- the induction goes down to the children of both nodes at once
  induction edited?, running? using pair_induction generalizing place depth lead with
  | step edited? running? ih =>
  rw [h.substance_eq_iff hLeaf, contents_eq]
  -- the lines are those of the names, one after the other
  have hnames : Unmarked ((namesBelow edited? running?).flatMap
        (nameLines contents depth place lead edited? running?)) ↔
      ∀ name ∈ namesBelow edited? running?,
        Unmarked (nameLines contents depth place lead edited? running? name) := by
    unfold Unmarked
    simp only [List.mem_flatMap]
    exact ⟨fun hall name hname line hline => hall line ⟨name, hname, hline⟩,
      fun hall line ⟨name, hname, hline⟩ => hall name hname line hline⟩
  rw [hnames]
  refine forall₂_congr fun name hname => ?_
  obtain ⟨next, henter, hchild⟩ := h.child hLeaf hname
  have hsome := (h.mem_namesBelow_iff hLeaf).mp hname
  have hbelow := fun hnextLeaf => ih name hname hchild hnextLeaf
  rw [nameLines, henter, substanceAt_eq henter, substanceAt_eq henter]
  show Unmarked (entryLines _ _ _ _ _ _) ↔ _
  rw [entryLines]
  generalize child? edited? name = edited? at *
  generalize child? running? name = running? at *
  -- by the kind of the child: its values, its instances, or the block around its own children
  by_cases hnextLeaf : next.isLeaf = true
  · have hTag := isTag_of_isLeaf hnextLeaf
    rw [if_pos hnextLeaf, unmarked_leafLines_iff, bind_substance_eq_map hTag,
      bind_substance_eq_map hTag, map_substance_of_isLeaf hnextLeaf hchild.edited,
      map_substance_of_isLeaf hnextLeaf hchild.running]
    exact hchild.values_iff hnextLeaf
  · rw [if_neg hnextLeaf]
    rw [Bool.not_eq_true] at hnextLeaf
    cases hTag : next.isTag with
    | true =>
      simp only [if_true, Bool.true_and]
      rw [hbelow hnextLeaf, hchild.tags_iff hTag]
    | false =>
      rw [← hTag, bind_substance_eq_map hTag, bind_substance_eq_map hTag, hTag, if_neg (by simp),
        unmarked_block_iff fun hunfilled => contents_of_unfilled hunfilled _ _ _,
        hbelow hnextLeaf]
      -- one of the two is there, so both are or the marks tell which one
      cases edited? with
      | none =>
        cases running? with
        | none => exact absurd hsome (by simp)
        | some l => simp
      | some e =>
        cases running? with
        | none => simp
        | some l => simp

/-- What is found at a path conforms to the place that the path leads to. -/
theorem conforms_of_get? {schema : Schema} {t : Tree} (h : schema.Admits t) {path : Path}
    {place : Schema.Place} (hplace : schema.resolve path = .ok place) {node : Tree}
    (hget : t.get? path = some node) : place.Conforms node := by
  intro rest below hbelow
  have hwhole : t.get? (path ++ rest) = some below := by
    rw [Tree.get?_append, hget]
    exact hbelow
  obtain ⟨last, hlast, hfits⟩ := h (path ++ rest) below hwhole
  obtain ⟨middle, hmiddle, hrest⟩ := Schema.Place.leads_append_iff.mp hlast
  have hsame := hmiddle.unique (Schema.resolve_eq_ok_iff.mp hplace)
  exact ⟨last, hsame ▸ hrest, hfits⟩

theorem beside_of_admits {schema : Schema} {edit running : Tree} (hedit : schema.Admits edit)
    (hrunning : schema.Admits running) {path : Path} {place : Schema.Place}
    (hplace : schema.resolve path = .ok place) :
    Beside place (edit.get? path) (running.get? path) :=
  ⟨fun _ => conforms_of_get? hedit hplace, fun _ => conforms_of_get? hrunning hplace⟩

/-- The lines of a path are unmarked if and only if the nodes there have the same substance, where
nothing is as good as an empty subtree. -/
theorem unmarked_lines_iff {schema : Schema} {path : Path} {place : Schema.Place}
    (hplace : schema.resolve path = .ok place) {edited? running? : Option Tree}
    (h : Beside place edited? running?) :
    Unmarked (lines schema path edited? running?) ↔
      place.substance (edited?.getD Tree.empty) = place.substance (running?.getD Tree.empty) := by
  rw [lines_eq hplace h]
  dsimp only
  -- a leaf compares its values, every other place what stands below it
  by_cases hLeaf : place.isLeaf = true
  · rw [if_pos hLeaf, unmarked_leafLines_iff, h.values_iff hLeaf,
      ← map_substance_of_isLeaf hLeaf h.edited, ← map_substance_of_isLeaf hLeaf h.running]
    -- an empty subtree is no leaf, so nothing is lost by taking it for what is missing
    have hempty : ∀ {t : Tree}, place.Conforms t →
        place.substance t ≠ place.substance Tree.empty := by
      intro t ht
      rcases ht.fits.leaf_cases hLeaf with ⟨-, value, rfl⟩ | ⟨-, values, rfl, -⟩
      · exact fun heq => Tree.noConfusion heq
      · exact fun heq => Tree.noConfusion heq
    cases edited? with
    | none =>
      cases running? with
      | none => simp
      | some l =>
        have hne := (hempty (h.running l rfl)).symm
        simpa using hne
    | some e =>
      cases running? with
      | none =>
        have hne := hempty (h.edited e rfl)
        simpa using hne
      | some l => simp
  · rw [if_neg hLeaf]
    exact unmarked_contents_iff h (by simpa using hLeaf) 0 _

end Annotated

/-! ## What an operator sees -/

namespace Session

/-- The lines that are printed of a path. -/
def annotatedLines (s : Session) (schema : Schema) (running : Tree) (path : Path) :
    List AnnotatedLine :=
  let full := s.absolute path
  Annotated.lines schema full (s.edit.get? full) (running.get? full)

theorem annotated_eq_printAll (s : Session) (schema : Schema) (running : Tree) (path : Path) :
    s.annotated schema running path =
      AnnotatedLine.printAll (s.annotatedLines schema running path) := rfl

/-- Whether a line is printed with a mark. -/
def showsChange (s : Session) (schema : Schema) (running : Tree) (path : Path) : Bool :=
  (s.annotatedLines schema running path).any fun line => line.mark ≠ .same

theorem showsChange_eq_false_iff (s : Session) (schema : Schema) (running : Tree) (path : Path) :
    s.showsChange schema running path = false ↔
      Annotated.Unmarked (s.annotatedLines schema running path) := by
  rw [showsChange, List.any_eq_false]
  simp [Annotated.Unmarked]

end Session

/-- On a host that comes from an empty configuration, a session shows a change at a path if and only
if it says something else there than what is running. A change that it shows is one; a change that
it does not show is one of the order or the number of the values of a list, or of tag nodes without
instances. -/
theorem Host.Reachable.shows_change_iff {World Dict : Type} {schema : Schema}
    (hSchema : schema.Compiled) {h : Host World Dict} (hReach : h.Reachable schema) (name : String)
    {path : Path} {place : Schema.Place}
    (hplace : schema.resolve ((h.session name).absolute path) = .ok place) :
    let s := h.session name
    let running := h.store.running
    (s.showsChange schema running path = true ↔
      place.substance (s.subtreeAt running false path) ≠
        place.substance (s.subtreeAt running true path)) ∧
    (s.showsChange schema running path = true → s.changed running path = true) := by
  intro s running
  have hSound := hReach.sound hSchema
  have hBeside := Annotated.beside_of_admits (hSound.session name).edit hSound.store.running hplace
  have hiff : s.showsChange schema running path = true ↔
      place.substance (s.subtreeAt running false path) ≠
        place.substance (s.subtreeAt running true path) := by
    rw [← Bool.not_eq_false, Session.showsChange_eq_false_iff]
    exact not_congr (Annotated.unmarked_lines_iff hplace hBeside)
  refine ⟨hiff, fun hshows => ?_⟩
  -- equal subtrees have equal substance, so a change that shows is a change that is stored
  have hdiffers := hiff.mp hshows
  rw [← Bool.not_eq_false, Session.changed_eq_false_iff]
  exact fun hsame => hdiffers (congrArg place.substance hsame)

namespace Sample

/-- A session puts addresses into another order than the one in which they are running. -/
def reordering : List (String × Operation) :=
  [("a", .setWords ["interface", "eth0", "address", "10.0.0.1"]),
    ("a", .setWords ["interface", "eth0", "address", "10.0.0.2"]),
    ("a", .commit true),
    ("a", .deleteWords ["interface", "eth0", "address", "10.0.0.1"]),
    ("a", .setWords ["interface", "eth0", "address", "10.0.0.1"])]

/-- A session makes a tag node without an instance. -/
def bareTag : List (String × Operation) := [("a", .setWords ["interface"])]

end Sample

namespace Host

/-- A name that is not the running one is shown, and is a change. -/
theorem shows_change_of_name :
    let h := Sample.host.run [("a", .set ["system", "name"] "core")]
    (Sample.schema.Compiled ∧ h.Reachable Sample.schema ∧
      Sample.schema.resolve ((h.session "a").absolute []) = .ok Sample.schema.rootPlace) ∧
    (h.session "a").showsChange Sample.schema h.store.running [] = true ∧
      (h.session "a").changed h.store.running [] = true := by
  intro h
  have hReach : h.Reachable Sample.schema := Sample.reachable _
  have hplace : Sample.schema.resolve ((h.session "a").absolute []) =
      .ok Sample.schema.rootPlace := rfl
  obtain ⟨hiff, hchanged⟩ := hReach.shows_change_iff Sample.compiled "a" hplace
  have hshows := hiff.mpr (by decide +kernel)
  exact ⟨⟨Sample.compiled, hReach, hplace⟩, hshows, hchanged hshows⟩

/-- Addresses in another order are a change that is not shown, and so is a tag node without
instances. -/
theorem changes_without_showing :
    (∀ steps ∈ [Sample.reordering, Sample.bareTag],
      (Sample.host.run steps).Reachable Sample.schema) ∧
    ∀ steps ∈ [Sample.reordering, Sample.bareTag],
      ((Sample.host.run steps).session "a").changed (Sample.host.run steps).store.running [] =
          true ∧
        ((Sample.host.run steps).session "a").showsChange Sample.schema
          (Sample.host.run steps).store.running [] = false := by
  exact ⟨fun steps _ => Sample.reachable steps, by decide +kernel⟩

end Host

end RouterConfig
