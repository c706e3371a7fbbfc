import RouterConfig.Comparison.Mangle
import RouterConfig.Proofs.Comparison.Restriction
import RouterConfig.Proofs.Host.Conformance
import RouterConfig.Proofs.Tree.Renaming

/-!
# RouterConfig — mangled comparisons

The nodes of a class may be handed out with identifiers for their names. Names that a schema
declares side by side may be kept apart by its author, but the names of instances are free: two
instances of one tag node whose names become equal are one instance after that, the one whose name
comes later. Nothing else is lost. Main results:

* `Comparison.below_renamed`, `Comparison.node_renamed` — renaming comes after all else;
* `Schema.Place.Spans.renames` — what renaming makes of the positions of a tree that a schema
  declares;
* `Host.Reachable.mangled` — so it is with every class of every comparison.
-/

namespace RouterConfig

/-! ## Renaming comes last -/

/-- The members of a class with their nodes renamed; bare names stay as they are. -/
def Members.rename (f : Children → Children) : Members → Members
  | .names list => .names list
  | .nodes children => .nodes (f children)

/-- The members of every class with their nodes renamed. -/
def Classes.rename (f : Children → Children) (classes : Classes) : Classes :=
  .ofMembers fun c => (classes.get c).rename f

namespace Comparison

variable {c : Comparison}

/-- The comparison whose nodes are handed out renamed. -/
def renamed (c : Comparison) (f : Children → Children) : Comparison := { c with rename := f }

/-- To compare with renamed names is to compare with the names as they are and then to rename. -/
theorem classes_renamed (hRename : c.rename = id) (f : Children → Children) (request : Request)
    (edited running : Tree) (defaults : Children) :
    (c.renamed f).classes request edited running defaults =
      (c.classes request edited running defaults).rename f := by
  rw [Classes.rename, classes, classes, hRename]
  -- renaming is the last thing that a class goes through, so that it comes apart from the rest
  refine congrArg Classes.ofMembers (funext fun class_ => ?_)
  rw [Classes.get_ofMembers]
  dsimp only
  split <;> rfl

/-- The classes below a position are what they would be without renaming, renamed. -/
theorem below_renamed (hRename : c.rename = id) (f : Children → Children) (request : Request)
    (path : Path) :
    (c.renamed f).below request path = (c.below request path).map (·.rename f) := by
  rw [below, below]
  dsimp only [renamed]
  cases c.schema.resolve (c.level ++ path) with
  | error e => rfl
  | ok place =>
    dsimp only
    split
    · rfl
    · exact congrArg Except.ok (classes_renamed hRename f request _ _ _)

/-- And so it is with a node that is compared by itself. -/
theorem node_renamed (hRename : c.rename = id) (f : Children → Children) (request : Request)
    (path : Path) :
    (c.renamed f).node request path = (c.node request path).map (·.rename f) := by
  rw [node, node]
  dsimp only [renamed]
  cases c.schema.resolve (c.level ++ path) with
  | error e => rfl
  | ok place =>
    cases (c.level ++ path).getLast? with
    | none => rfl
    | some name => exact congrArg Except.ok (classes_renamed hRename f request _ _ _)

end Comparison

namespace Schema

/-! ## Names that stay apart -/

/-- The names that a node declares for its children stay apart when they are renamed. -/
def Node.Apart (rename : String → String) (n : Node) : Prop :=
  ∀ a ∈ Keyed.keys n.children, ∀ b ∈ Keyed.keys n.children, rename a = rename b → a = b

namespace Place

/-- A tree at a place, each of whose positions is one that the schema declares. -/
structure Spans (place : Place) (t : Tree) : Prop where
  orderly : t.Orderly
  declared : ∀ path, (t.get? path).isSome = true → ∃ next, place.Leads path next

/-- What renaming makes of a tree at a place. -/
structure Renames (rename : String → String) (place : Place) (before after : Tree) : Prop where
  /-- What nothing overtakes is there under its new name, with all its names renamed. -/
  kept : ∀ path node, before.get? path = some node → ¬ before.Overtaken rename path →
    after.get? (path.map rename) = some (node.mapKeys rename)
  /-- Nothing else is there. -/
  origin : ∀ p renamed, after.get? p = some renamed →
    ∃ path node, before.get? path = some node ∧ ¬ before.Overtaken rename path ∧
      path.map rename = p ∧ node.mapKeys rename = renamed
  /-- No two positions that are kept become equal. -/
  apart : ∀ p q, (before.get? p).isSome = true → (before.get? q).isSome = true →
    ¬ before.Overtaken rename p → ¬ before.Overtaken rename q → p.map rename = q.map rename → p = q
  /-- Overtaken are instances alone, each by another one of its tag node, and what is below them. -/
  instances : ∀ path, (before.get? path).isSome = true → before.Overtaken rename path →
    ∃ above tag name later, above ++ [name] <+: path ∧ place.Leads above tag ∧ tag.isTag = true ∧
      name < later ∧ rename name = rename later ∧ (before.get? (above ++ [later])).isSome = true
  /-- A node has as many names as before, unless it is a tag node of which two instances become
  equal. -/
  counts : ∀ path node next, before.get? path = some node → place.Leads path next →
    ((node.mapKeys rename).keys.length = node.keys.length ↔
      (next.isTag = true → ∀ a b, (node.get? [a]).isSome = true → (node.get? [b]).isSome = true →
        rename a = rename b → a = b))
  /-- So nothing is lost at all if and only if no two instances of a tag node become equal. -/
  lossless : (∀ path, (before.get? path).isSome = true → ¬ before.Overtaken rename path) ↔
    ∀ above tag a b, place.Leads above tag → tag.isTag = true →
      (before.get? (above ++ [a])).isSome = true → (before.get? (above ++ [b])).isSome = true →
      rename a = rename b → a = b

variable {rename : String → String} {place : Place} {t : Tree}

/-- Where a tree holds two names that become equal, it is at a tag node. -/
theorem Spans.tag_of_equal (h : place.Spans t)
    (hApart : place.node.Everywhere (Node.Apart rename)) {above : Path} {a b : String}
    (ha : (t.get? (above ++ [a])).isSome = true) (hb : (t.get? (above ++ [b])).isSome = true)
    (hne : a ≠ b) (hequal : rename a = rename b) :
    ∃ tag, place.Leads above tag ∧ tag.isTag = true := by
  -- both names lead on from the same place
  obtain ⟨nextA, hnextA⟩ := h.declared _ ha
  obtain ⟨nextB, hnextB⟩ := h.declared _ hb
  obtain ⟨here', hhere', henterA⟩ := leads_snoc_iff.mp hnextA
  obtain ⟨here, hhere, henterB⟩ := leads_snoc_iff.mp hnextB
  obtain rfl := hhere.unique hhere'
  refine ⟨here, hhere', Decidable.byContradiction fun hnot => hne ?_⟩
  -- elsewhere both names are declared, and stay apart
  have hTag : here.isTag = false := by simpa using hnot
  have hLeaf : here.isLeaf = false := not_isLeaf_of_enter henterA
  have hdeclared : ∀ {name : String} {next : Place}, here.enter name = .ok next →
      name ∈ Keyed.keys here.node.children := by
    intro name next henter
    obtain ⟨child, hchild, -⟩ := (enter_eq_ok_iff_of_not_isTag hTag hLeaf).mp henter
    rw [Node.child?] at hchild
    rw [← Keyed.isSome_get?_iff, hchild]
    rfl
  exact (everywhere_of_leads hApart hhere').here a (hdeclared henterA) b (hdeclared henterB) hequal

/-- What is above a position of a tree stands in it as well. -/
theorem isSome_get?_of_above {p q : Path} (hfront : p <+: q) (hq : (t.get? q).isSome = true) :
    (t.get? p).isSome = true := by
  obtain ⟨rest, rfl⟩ := hfront
  rw [Tree.get?_append] at hq
  cases hp : t.get? p with
  | some node => rfl
  | none => simp [hp] at hq

/-- Renaming a tree whose positions are declared, by a schema whose names stay apart. -/
theorem Spans.renames (h : place.Spans t) (hApart : place.node.Everywhere (Node.Apart rename)) :
    place.Renames rename t (t.mapKeys rename) := by
  have hinstances : ∀ path, (t.get? path).isSome = true → t.Overtaken rename path →
      ∃ above tag name later, above ++ [name] <+: path ∧ place.Leads above tag ∧
        tag.isTag = true ∧ name < later ∧ rename name = rename later ∧
        (t.get? (above ++ [later])).isSome = true := by
    -- a position is overtaken only where two names of the tree become equal
    rintro path hpath ⟨above, name, later, hfront, hlt, hequal, hlater⟩
    obtain ⟨tag, htag, hisTag⟩ := h.tag_of_equal hApart (isSome_get?_of_above hfront hpath) hlater
      (String.ne_of_lt hlt) hequal
    exact ⟨above, tag, name, later, hfront, htag, hisTag, hlt, hequal, hlater⟩
  constructor
  case kept =>
    intro path node hnode hfree
    exact (Tree.get?_mapKeys_iff h.orderly).mpr ⟨path, node, hnode, hfree, rfl, rfl⟩
  case origin =>
    intro p renamed hrenamed
    exact (Tree.get?_mapKeys_iff h.orderly).mp hrenamed
  case apart =>
    intro p q hp hq hpFree hqFree hequal
    exact Tree.Overtaken.unique hp hq hpFree hqFree hequal
  case instances => exact hinstances
  case counts =>
    intro path node next hnode hnext
    -- the names below the node are positions of the whole tree
    have hbelow : ∀ name, (node.get? [name]).isSome = (t.get? (path ++ [name])).isSome := by
      intro name
      rw [Tree.get?_append, hnode, Option.bind_some]
    rw [Tree.length_keys_mapKeys (h.orderly.found hnode)]
    constructor
    · exact fun hall _ => hall
    · intro hall a b ha hb hequal
      refine Decidable.byContradiction fun hne => hne (hall ?_ a b ha hb hequal)
      rw [hbelow] at ha hb
      obtain ⟨tag, htag, hisTag⟩ := h.tag_of_equal hApart ha hb hne hequal
      rwa [hnext.unique htag]
  case lossless =>
    constructor
    · intro hfree above tag a b _ _ ha hb hequal
      -- of two names that become equal, the later one would overtake the other
      have hover : ∀ {a b : String}, a < b → rename a = rename b →
          (t.get? (above ++ [b])).isSome = true → t.Overtaken rename (above ++ [a]) :=
        fun hlt hequal hb => ⟨above, _, _, List.prefix_refl _, hlt, hequal, hb⟩
      have hnot : ¬ a < b := fun hlt => hfree _ ha (hover hlt hequal hb)
      have hnot' : ¬ b < a := fun hlt => hfree _ hb (hover hlt hequal.symm ha)
      exact String.le_antisymm (String.not_lt.mp hnot') (String.not_lt.mp hnot)
    · -- a position that is overtaken would give two instances of one new name
      intro hall path hpath hover
      obtain ⟨above, tag, name, later, hfront, htag, hisTag, hlt, hequal, hlater⟩ :=
        hinstances path hpath hover
      have hname := isSome_get?_of_above hfront hpath
      exact String.ne_of_lt hlt (hall above tag name later htag hisTag hname hlater hequal)

/-! ## Trees whose positions are declared -/

theorem Conforms.spans (h : place.Conforms t) : place.Spans t := by
  refine ⟨fun _ _ => h.ordered, fun path hpath => ?_⟩
  obtain ⟨node, hnode⟩ := Option.isSome_iff_exists.mp hpath
  obtain ⟨next, hnext, -⟩ := h path node hnode
  exact ⟨next, hnext⟩

/-- Filled from the defaults, a conforming tree has declared positions alone. -/
theorem Conforms.spans_filled (h : place.Conforms t)
    (hplace : place.node.Everywhere Node.Fillable) (hTag : place.isTag = false)
    (hLeaf : place.isLeaf = false) :
    place.Spans (t.overlay (.subtree (defaultsBelow place.node.children))) := by
  -- the filled tree has the shape of the place, so that each of its positions is declared
  have hfilled := h.filled hplace hTag hLeaf rfl
  refine ⟨Tree.Orderly.overlay (fun _ _ => h.ordered) (defaultsBelow_orderly hplace hTag hLeaf),
    fun path hpath => ?_⟩
  obtain ⟨node, hnode⟩ := Option.isSome_iff_exists.mp hpath
  obtain ⟨next, hnext, -⟩ := hfilled.shaped path node hnode
  exact ⟨next, hnext⟩

/-- Some of the children of a tree have declared positions if all have. -/
theorem Spans.filter {children : Children} (h : place.Spans (.subtree children))
    (p : String → Bool) : place.Spans (.subtree (children.filter fun entry => p entry.1)) := by
  have hOrdered : Keyed.Ordered (children.filter fun entry => p entry.1) :=
    Keyed.ordered_filter h.orderly.children _
  -- a child that is left was there before
  have hfound : ∀ {name : String} {child : Tree},
      Keyed.get? (children.filter fun entry => p entry.1) name = some child →
        Keyed.get? children name = some child := by
    intro name child hchild
    have hmem := Keyed.mem_of_get? hchild
    exact (Keyed.mem_iff_get? h.orderly.children).mp (List.mem_of_mem_filter hmem)
  refine ⟨Tree.orderly_subtree hOrdered fun name child hchild => h.orderly.child (hfound hchild),
    fun path hpath => ?_⟩
  cases path with
  | nil => exact ⟨place, .here _⟩
  | cons name rest =>
    refine h.declared (name :: rest) ?_
    rw [Tree.get?_cons_subtree] at hpath ⊢
    cases hchild : Keyed.get? (children.filter fun entry => p entry.1) name with
    | none => simp [hchild] at hpath
    | some child =>
      rw [hchild] at hpath
      rwa [hfound hchild]

/-- So has a single child, below the place that its name leads to. -/
theorem Spans.single {next : Place} {name : String} {node? : Option Tree}
    (henter : place.enter name = .ok next) (h : ∀ node, node? = some node → next.Spans node) :
    place.Spans (.subtree (Comparison.single name node?)) := by
  cases node? with
  | none =>
    refine ⟨Tree.orderly_empty, fun path hpath => ?_⟩
    cases path with
    | nil => exact ⟨place, .here _⟩
    | cons other rest => simp [Comparison.single, Tree.get?_cons_subtree] at hpath
  | some node =>
    have hnode := h node rfl
    -- there is only the one name to be found
    have hget : ∀ {other : String} {child : Tree}, Keyed.get? [(name, node)] other = some child →
        name = other ∧ node = child := by
      intro other child hchild
      rw [Keyed.get?] at hchild
      by_cases hname : name = other
      · rw [if_pos hname] at hchild
        exact ⟨hname, Option.some.inj hchild⟩
      · rw [if_neg hname] at hchild
        exact absurd hchild (by simp)
    refine ⟨Tree.orderly_subtree (List.pairwise_singleton _ _) fun other child hchild => ?_,
      fun path hpath => ?_⟩
    · exact (hget hchild).2 ▸ hnode.orderly
    · cases path with
      | nil => exact ⟨place, .here _⟩
      | cons other rest =>
        rw [Comparison.single, Tree.get?_cons_subtree] at hpath
        cases hchild : Keyed.get? [(name, node)] other with
        | none => simp [hchild] at hpath
        | some child =>
          obtain ⟨rfl, rfl⟩ := hget hchild
          rw [hchild] at hpath
          obtain ⟨last, hlast⟩ := hnode.declared rest hpath
          exact ⟨last, .step henter hlast⟩

end Place

end Schema

/-! ## The nodes of a class -/

namespace Comparison

variable {c : Comparison} {path : Path} {place : Schema.Place}

/-- The nodes to merge have declared positions, filled or not. -/
theorem spans_merge {schema : Schema} (hSchema : schema.Orderly) {full : Path}
    (hplace : schema.resolve full = .ok place) (hLeaf : place.isLeaf = false) {edited : Children}
    (hEdited : place.Conforms (.subtree edited)) (withDefaults : Bool) :
    place.Spans
      (.subtree (Tree.overlayChildren edited
        (if withDefaults then schema.defaults full else []))) := by
  have hroot : schema.rootPlace.node.Everywhere Schema.Node.Fillable := hSchema.fillable
  have hfillable := Schema.Place.everywhere_of_leads hroot (Schema.resolve_eq_ok_iff.mp hplace)
  -- without defaults nothing is filled in
  have hplain : place.Spans (.subtree (Tree.overlayChildren edited [])) := by
    rw [Tree.overlayChildren]
    exact hEdited.spans
  cases withDefaults with
  | false => exact hplain
  | true =>
    rw [if_pos rfl]
    cases hTag : place.isTag with
    | true =>
      -- a tag node has nothing by default
      rw [Schema.defaults, hplace]
      dsimp only
      rw [hTag, Bool.true_or, if_pos rfl]
      exact hplain
    | false =>
      rw [Schema.defaults_eq hplace hTag hLeaf, ← Tree.overlay_subtree]
      exact hEdited.spans_filled hfillable hTag hLeaf

/-- Below a position, the nodes of every class that is asked for have declared positions. -/
theorem below_spans (hSchema : c.schema.Orderly) (hRename : c.rename = id)
    (hEdited : c.schema.Admits c.edited) (hRunning : c.schema.Admits c.running)
    (hplace : c.schema.resolve (c.level ++ path) = .ok place) (hLeaf : place.isLeaf = false)
    (request : Request) :
    ∃ classes, c.below request path = .ok classes ∧
      ∀ class_ ∈ request.expanded, ∃ children, classes.get class_ = .nodes children ∧
        place.Spans (.subtree children) := by
  -- both sides are compared as subtrees, which are empty where nothing stands
  obtain ⟨hedited, hEditedOrdered⟩ := hEdited.subtreeAt_eq hplace hLeaf
  obtain ⟨hrunning, hRunningOrdered⟩ := hRunning.subtreeAt_eq hplace hLeaf
  have hEditedHere := hedited ▸ hEdited.conforms_subtreeAt hplace hLeaf
  have hRunningHere := hrunning ▸ hRunning.conforms_subtreeAt hplace hLeaf
  have hbelow : c.below request path = .ok (c.classes request
      (.subtree (c.edited.childrenAt (c.level ++ path)))
      (.subtree (c.running.childrenAt (c.level ++ path)))
      (c.schema.defaults (c.level ++ path))) := by
    rw [below, hplace, ← hedited, ← hrunning]
    simp only [hLeaf, Bool.false_eq_true, if_false]
  refine ⟨_, hbelow, fun class_ hclass => ?_⟩
  rw [get_classes hRename hEditedOrdered hRunningOrdered, if_pos hclass]
  refine ⟨_, rfl, ?_⟩
  -- only the nodes to merge are filled; those of the other classes are some of one side
  by_cases hmerge : class_ = .merge
  · rw [if_pos hmerge]
    exact spans_merge hSchema hplace hLeaf hEditedHere request.withDefaults
  · rw [if_neg hmerge]
    refine Schema.Place.Spans.filter ?_ _
    cases class_ with
    | delete => exact hRunningHere.spans
    | merge | add | stable => exact hEditedHere.spans

/-- What is there by default below a position has its names in order. -/
theorem defaults_ordered {schema : Schema} (hSchema : schema.Orderly) (full : Path) :
    Keyed.Ordered (schema.defaults full) := by
  have hroot : schema.rootPlace.node.Everywhere Schema.Node.Fillable := hSchema.fillable
  rw [Schema.defaults]
  cases hplace : schema.resolve full with
  | error e => exact List.Pairwise.nil
  | ok place =>
    have hfillable := Schema.Place.everywhere_of_leads hroot (Schema.resolve_eq_ok_iff.mp hplace)
    dsimp only
    split
    · exact List.Pairwise.nil
    · exact Schema.defaultsBelow_ordered hfillable.here.ordered

/-- What is to merge at a node that is compared by itself has declared positions. -/
theorem spans_overlay? {schema : Schema} (hSchema : schema.Orderly) {full : Path}
    (hplace : schema.resolve full = .ok place) (hLeaf : place.isLeaf = false) {node? : Option Tree}
    (hnode : ∀ node, node? = some node → place.Conforms node) {node : Tree}
    (h : Tree.overlay? node? (Tree.filled? (schema.defaults full)) = some node) :
    place.Spans node := by
  cases hdefault : Tree.filled? (schema.defaults full) with
  | none =>
    rw [hdefault, Tree.overlay?_none_right] at h
    exact (hnode node h).spans
  | some default =>
    obtain ⟨rfl, -⟩ := Tree.filled?_eq_some hdefault
    rw [hdefault] at h
    -- what is there is filled, and where nothing is, an empty subtree
    have hfilled : ∃ children, place.Conforms (.subtree children) ∧
        node = .subtree (Tree.overlayChildren children (schema.defaults full)) := by
      cases node? with
      | none =>
        refine ⟨[], Schema.Place.conforms_empty hLeaf, ?_⟩
        rw [Tree.overlayChildren_nil (defaults_ordered hSchema full)]
        exact (Option.some.inj h).symm
      | some found =>
        have hfound := hnode found rfl
        obtain ⟨children, rfl, -⟩ := hfound.fits.isSubtree hLeaf
        rw [Tree.overlay?, Tree.overlay_subtree, Option.some.injEq] at h
        exact ⟨children, hfound, h.symm⟩
    obtain ⟨children, hconforms, rfl⟩ := hfilled
    exact spans_merge hSchema hplace hLeaf hconforms true

/-- Of a node that is compared by itself, the nodes of every class that is asked for have declared
positions, below the place above it. -/
theorem node_spans (hSchema : c.schema.Orderly) (hRename : c.rename = id)
    (hEdited : c.schema.Admits c.edited) (hRunning : c.schema.Admits c.running) {above : Path}
    {name : String} (hfull : c.level ++ path = above ++ [name]) {parent : Schema.Place}
    (hparent : c.schema.resolve above = .ok parent)
    (hplace : c.schema.resolve (above ++ [name]) = .ok place) (hLeaf : place.isLeaf = false)
    (request : Request) :
    ∃ classes, c.node request path = .ok classes ∧
      ∀ class_ ∈ request.expanded, ∃ children, classes.get class_ = .nodes children ∧
        parent.Spans (.subtree children) := by
  obtain ⟨parent', hparent', henter⟩ := Schema.Place.leads_snoc_iff.mp
    (Schema.resolve_eq_ok_iff.mp hplace)
  obtain rfl := hparent'.unique (Schema.resolve_eq_ok_iff.mp hparent)
  -- on either side, what stands at the node conforms to its place
  have hConforms : ∀ {t : Tree}, c.schema.Admits t → ∀ node,
      t.get? (above ++ [name]) = some node → place.Conforms node := by
    intro t ht node hnode
    have hat := ht.conforms_subtreeAt hplace hLeaf
    rwa [Tree.subtreeAt, hnode] at hat
  have hsingle : ∀ {t : Tree}, c.schema.Admits t →
      parent'.Spans (.subtree (single name (t.get? (above ++ [name])))) := fun ht =>
    .single henter fun node hnode => (hConforms ht node hnode).spans
  refine ⟨_, node_of_full hfull hplace request, fun class_ hclass => ?_⟩
  rw [get_classes hRename (single_ordered _ _) (single_ordered _ _), if_pos hclass]
  refine ⟨_, rfl, ?_⟩
  by_cases hmerge : class_ = .merge
  · rw [if_pos hmerge]
    cases request.withDefaults with
    | false =>
      rw [if_neg (by simp), Tree.overlayChildren]
      exact hsingle hEdited
    | true =>
      rw [if_pos rfl, overlayChildren_single]
      exact .single henter fun node hnode =>
        spans_overlay? hSchema hplace hLeaf (hConforms hEdited) hnode
  · rw [if_neg hmerge]
    refine Schema.Place.Spans.filter ?_ _
    cases class_ with
    | delete => exact hsingle hRunning
    | merge | add | stable => exact hsingle hEdited

/-! ## Mangled classes -/

/-- The answers without and with mangling, for nodes that stand below a place: the same, but that
the nodes of the classes that are asked for with their nodes are renamed. -/
def Mangles (request : Request) (place : Schema.Place) (plain mangled : Except Error Classes) :
    Prop :=
  ∃ classes, plain = .ok classes ∧ mangled = .ok (classes.rename mangleChildren) ∧
    ∀ class_ ∈ request.expanded, ∃ children, classes.get class_ = .nodes children ∧
      (classes.rename mangleChildren).get class_ = .nodes (mangleChildren children) ∧
      place.Renames mangleName (.subtree children) (.subtree (mangleChildren children))

/-- Where names stay apart and all members lie at declared places, the renamed classes are the
classes mangled. -/
theorem mangles_of_spans (hApart : place.node.Everywhere (Schema.Node.Apart mangleName))
    {request : Request} {classes : Classes} {mangled : Except Error Classes}
    (hmangled : mangled = (Except.ok classes : Except Error Classes).map (·.rename mangleChildren))
    (h : ∀ class_ ∈ request.expanded, ∃ children, classes.get class_ = .nodes children ∧
      place.Spans (.subtree children)) :
    Mangles request place (.ok classes) mangled := by
  refine ⟨classes, rfl, hmangled, fun class_ hclass => ?_⟩
  obtain ⟨children, hnodes, hspans⟩ := h class_ hclass
  refine ⟨children, hnodes, ?_, ?_⟩
  · rw [Classes.rename, Classes.get_ofMembers, hnodes, Members.rename]
  · have hrenames := hspans.renames hApart
    rwa [Tree.mapKeys] at hrenames

end Comparison

namespace Host

variable {World Dict : Type} {schema : Schema}

/-- Mangling, in any session of a host that can be reached, of a schema that declares no two names
side by side which become equal. Compared below a position, and compared by itself, each class that
is asked for with its nodes holds what it holds without mangling, name for name: but of instances of
one tag node whose names become equal, the last one stays. -/
theorem Reachable.mangled (hSchema : schema.Orderly)
    (hApart : schema.rootNode.Everywhere (Schema.Node.Apart mangleName)) {h : Host World Dict}
    (hReach : h.Reachable schema) {name : String} {s : Session}
    (hedits : Session.Edits schema h.store.running (h.session name) s) {path : Path}
    {place : Schema.Place} (hplace : schema.resolve (s.absolute path) = .ok place)
    (hLeaf : place.isLeaf = false) (request : Comparison.Request) :
    let c := s.comparison schema h.store.running
    Comparison.Mangles request place (c.below request path)
      ((c.renamed mangleChildren).below request path) ∧
    ∀ above last parent, s.absolute path = above ++ [last] → schema.resolve above = .ok parent →
      Comparison.Mangles request parent (c.node request path)
        ((c.renamed mangleChildren).node request path) := by
  intro c
  -- the session that is compared conforms to the schema, and so does what is running
  have hSound := hReach.sound hSchema.compiled
  have hs := (hSound.session name).edits hSchema.compiled hSound.store.running hedits
  have hroot : schema.rootPlace.node.Everywhere (Schema.Node.Apart mangleName) := hApart
  -- names that stay apart at the root do so at each place that a path leads to
  have hApartAt : ∀ {q : Path} {next : Schema.Place}, schema.resolve q = .ok next →
      next.node.Everywhere (Schema.Node.Apart mangleName) := fun hnext =>
    Schema.Place.everywhere_of_leads hroot (Schema.resolve_eq_ok_iff.mp hnext)
  constructor
  · obtain ⟨classes, hbelow, hspans⟩ := @Comparison.below_spans c path place hSchema rfl hs.edit
      hSound.store.running hplace hLeaf request
    have hrenamed := c.below_renamed rfl mangleChildren request path
    rw [hbelow] at hrenamed ⊢
    exact Comparison.mangles_of_spans (hApartAt hplace) hrenamed hspans
  · intro above last parent hfull hparent
    rw [hfull] at hplace
    obtain ⟨classes, hnode, hspans⟩ := @Comparison.node_spans c path place hSchema rfl hs.edit
      hSound.store.running above last hfull parent hparent hplace hLeaf request
    have hrenamed := c.node_renamed rfl mangleChildren request path
    rw [hnode] at hrenamed ⊢
    exact Comparison.mangles_of_spans (hApartAt hparent) hrenamed hspans

end Host

namespace Sample

/-- Two instances whose names become equal when they are mangled. -/
def hyphenated : List (String × Operation) :=
  [("a", .setWords ["interface", "a-b", "address", "10.0.0.1"]),
    ("a", .setWords ["interface", "a_b", "address", "10.0.0.2"])]

/-- The names that the sample schema declares stay apart when they are mangled. -/
theorem schema_apart : schema.rootNode.Everywhere (Schema.Node.Apart mangleName) := by
  have hleaf : ∀ n : Schema.Node, n.children = [] →
      n.Everywhere (Schema.Node.Apart mangleName) := by
    intro n hchildren
    refine .intro (fun a ha => ?_) fun entry hentry => ?_
    · rw [hchildren] at ha
      exact absurd ha (by simp [Keyed.keys])
    · rw [hchildren] at hentry
      exact absurd hentry (by simp)
  have hinner : ∀ n : Schema.Node, n.Apart mangleName →
      (∀ entry ∈ n.children, entry.2.children = []) →
      n.Everywhere (Schema.Node.Apart mangleName) := fun n hn hbelow =>
    .intro hn fun entry hentry => hleaf entry.2 (hbelow entry hentry)
  have hnames : ∀ names : List String, (∀ name ∈ names, mangleName name = name) →
      ∀ a ∈ names, ∀ b ∈ names, mangleName a = mangleName b → a = b := by
    intro names hsame a ha b hb hequal
    rwa [hsame a ha, hsame b hb] at hequal
  refine .intro (hnames _ (by decide)) fun entry hentry => ?_
  rcases List.mem_cons.mp hentry with rfl | hentry
  · exact hinner _ (hnames _ (by decide)) (by decide)
  · rw [List.mem_singleton.mp hentry]
    exact hinner _ (hnames _ (by decide)) (by decide)

end Sample

namespace Host

/-- Two instances become one, and the one whose name comes later stays. -/
theorem mangled_instances :
    let h := Sample.host.run Sample.hyphenated
    let s := h.session "a"
    let c := s.comparison Sample.schema h.store.running
    let request : Comparison.Request := ⟨[.merge], false⟩
    (Sample.schema.Orderly ∧
      Sample.schema.rootNode.Everywhere (Schema.Node.Apart mangleName) ∧
      h.Reachable Sample.schema ∧
      Session.Edits Sample.schema h.store.running (h.session "a") s ∧
      ∃ place, Sample.schema.resolve (s.absolute ["interface"]) = .ok place ∧
        place.isLeaf = false) ∧
    (∃ place, Comparison.Mangles request place (c.below request ["interface"])
      ((c.renamed mangleChildren).below request ["interface"])) ∧
    (c.renamed mangleChildren).below request ["interface"] =
      .ok ⟨.nodes [("a_b", .subtree [("address", .list ["10.0.0.2"])])], .names [],
        .names ["a-b", "a_b"], .names []⟩ := by
  intro h s c request
  have hReach : h.Reachable Sample.schema := Sample.reachable Sample.hyphenated
  have hedits : Session.Edits Sample.schema h.store.running (h.session "a") s := .refl
  have hplace : ∃ place, Sample.schema.resolve (s.absolute ["interface"]) = .ok place ∧
      place.isLeaf = false := ⟨_, rfl, rfl⟩
  obtain ⟨place, hplace, hLeaf⟩ := hplace
  obtain ⟨hbelow, -⟩ := Reachable.mangled Sample.orderly Sample.schema_apart hReach hedits hplace
    hLeaf request
  exact ⟨⟨Sample.orderly, Sample.schema_apart, hReach, hedits, place, hplace, hLeaf⟩,
    ⟨place, hbelow⟩, rfl⟩

/-- Names that a schema declares may stay apart, and mangling lose an instance all the same. -/
theorem mangling_loses_instance :
    ∃ (schema : Schema) (h : Host Unit Unit) (plain mangled : Children),
      schema.Orderly ∧ schema.rootNode.Everywhere (Schema.Node.Apart mangleName) ∧
      h.Reachable schema ∧ schema.declares ["interface"] = true ∧
      schema.isLeaf ["interface"] = false ∧
      (let c := (h.session "a").comparison schema h.store.running
       let request : Comparison.Request := ⟨[.merge], false⟩
       (∃ classes, c.below request ["interface"] = .ok classes ∧
          classes.get .merge = .nodes plain) ∧
        ∃ classes, (c.renamed mangleChildren).below request ["interface"] = .ok classes ∧
          classes.get .merge = .nodes mangled) ∧
      Keyed.keys plain = ["a-b", "a_b"] ∧ Keyed.keys mangled = ["a_b"] := by
  refine ⟨Sample.schema, Sample.host.run Sample.hyphenated, _, _, Sample.orderly,
    Sample.schema_apart, Sample.reachable _, rfl, rfl, ⟨⟨_, rfl, rfl⟩, ⟨_, rfl, rfl⟩⟩, ?_, ?_⟩
  · decide
  · decide

end Host

end RouterConfig
