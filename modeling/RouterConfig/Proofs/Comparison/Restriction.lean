import RouterConfig.Proofs.Comparison.Filling

/-!
# RouterConfig — a node compared, and among its siblings

The classes of a node that is compared by itself are those of its parent's children, restricted to
its name: what restricting leaves of both sides, it leaves of every class. Only filling makes a
difference. A node that has defaults below it is filled from the same ones either way; a leaf is
filled with its own default among its siblings, and with nothing by itself. Main results:

* `Comparison.get_classes_restrict` — restricting both sides restricts every class;
* `Comparison.node_restricts_below` — a node compared is its parent's children restricted to its
  name, unless it is a leaf with a default that is unset and asked for.
-/

namespace RouterConfig

/-! ## One name of an ordered map -/

namespace Keyed

variable {α : Type}

/-- The entry under one name, if there is one. -/
def at? (m : Keyed α) (name : String) : Keyed α := m.filter fun entry => entry.1 = name

theorem at?_ordered {m : Keyed α} (h : Ordered m) (name : String) : Ordered (m.at? name) :=
  ordered_filter h _

theorem get?_at? (m : Keyed α) (name key : String) :
    get? (m.at? name) key = if key = name then get? m key else none := by
  have hfilter := get?_filter m (fun key => decide (key = name)) key
  rw [at?, hfilter]
  simp only [decide_eq_true_eq]

end Keyed

/-! ## Members under one name -/

/-- The members of a class under one name. -/
def Members.restrict (name : String) : Members → Members
  | .names list => .names (list.filter (· = name))
  | .nodes children => .nodes (Keyed.at? children name)

namespace Comparison

variable {edited running defaults : Children} {name : String}

theorem single_ordered (name : String) (node? : Option Tree) :
    Keyed.Ordered (single name node?) := by
  cases node? with
  | none => exact List.Pairwise.nil
  | some node => exact List.pairwise_singleton _ _

/-- What stands under a name is all that restricting leaves. -/
theorem single_get? {children : Children} (h : Keyed.Ordered children) (name : String) :
    single name (Keyed.get? children name) = Keyed.at? children name := by
  -- both are told apart by look-up alone, as their names stand in order
  refine Keyed.ext (single_ordered name _) (Keyed.at?_ordered h name) fun key => ?_
  rw [Keyed.get?_at?]
  by_cases hkey : key = name
  · subst hkey
    rw [if_pos rfl]
    cases Keyed.get? children key with
    | none => rfl
    | some node => exact if_pos rfl
  · rw [if_neg hkey]
    cases Keyed.get? children name with
    | none => rfl
    | some node => exact if_neg fun heq => hkey heq.symm

/-- A single node is filled from a single one under the same name. -/
theorem overlayChildren_single (name : String) (node? default? : Option Tree) :
    Tree.overlayChildren (single name node?) (single name default?) =
      single name (Tree.overlay? node? default?) := by
  cases default? with
  | none => cases node? <;> rfl
  | some default =>
    rw [single, Tree.overlayChildren_cons, Tree.overlayChildren]
    cases node? with
    | none => rfl
    | some node => simp [single, Keyed.get?, Keyed.insert, Tree.overlay?]

/-- Filled children, restricted to one name. -/
theorem at?_overlayChildren (hEdited : Keyed.Ordered edited) (hDefaults : Keyed.Ordered defaults)
    (name : String) : Keyed.at? (Tree.overlayChildren edited defaults) name =
      single name (Tree.overlay? (Keyed.get? edited name) (Keyed.get? defaults name)) := by
  rw [← single_get? (Tree.overlayChildren_ordered hEdited defaults),
    Tree.get?_overlayChildren edited hDefaults]

/-! ## Classes under one name -/

/-- Restricting both sides restricts what a class takes of its side. -/
theorem filter_takes_at? (c : Class) :
    (c.side (Keyed.at? edited name) (Keyed.at? running name)).filter
        (fun entry => c.takes (Keyed.at? edited name) (Keyed.at? running name) entry.1) =
      Keyed.at? ((c.side edited running).filter fun entry => c.takes edited running entry.1)
        name := by
  -- a class reads the same side of the two parts
  have hside : c.side (Keyed.at? edited name) (Keyed.at? running name) =
      Keyed.at? (c.side edited running) name := by cases c <;> rfl
  have hcontains : ∀ children : Children,
      (Keyed.keys (Keyed.at? children name)).contains name =
        (Keyed.keys children).contains name := by
    intro children
    have hkeys := Keyed.keys_filter children (fun key => decide (key = name))
    rw [Bool.eq_iff_iff, List.contains_iff_mem, List.contains_iff_mem, Keyed.at?, hkeys]
    simp
  have htakes : c.takes (Keyed.at? edited name) (Keyed.at? running name) name =
      c.takes edited running name := by
    cases c <;> simp only [Class.takes, hcontains]
  -- an entry that is left out by its name is left out by its class as well
  have hboth : ∀ entry : String × Tree,
      (c.takes (Keyed.at? edited name) (Keyed.at? running name) entry.1 &&
        decide (entry.1 = name)) = (decide (entry.1 = name) && c.takes edited running entry.1) := by
    intro entry
    by_cases hname : entry.1 = name
    · rw [hname, htakes, Bool.and_comm]
    · simp [hname]
  rw [hside]
  unfold Keyed.at? at hboth ⊢
  rw [List.filter_filter, List.filter_filter]
  exact List.filter_congr fun entry _ => hboth entry

/-- Restricting both sides restricts every class, and so it does with the nodes to merge where their
defaults fill the restricted side as they fill the other one under the name. -/
theorem get_classes_restrict {comparison : Comparison} (hRename : comparison.rename = id)
    (hEdited : Keyed.Ordered edited) (hRunning : Keyed.Ordered running) {request : Request}
    {own : Children} (c : Class)
    (hFills : request.Fills c → Tree.overlayChildren (Keyed.at? edited name) own =
      Keyed.at? (Tree.overlayChildren edited defaults) name) :
    (comparison.classes request (.subtree (Keyed.at? edited name))
        (.subtree (Keyed.at? running name)) own).get c =
      ((comparison.classes request (.subtree edited) (.subtree running) defaults).get c).restrict
        name := by
  rw [get_classes hRename (Keyed.at?_ordered hEdited name) (Keyed.at?_ordered hRunning name),
    get_classes hRename hEdited hRunning]
  -- a class that is not asked for with its nodes has bare names
  by_cases hexpanded : c ∈ request.expanded
  · rw [if_pos hexpanded, if_pos hexpanded, Members.restrict, Members.nodes.injEq]
    by_cases hmerge : c = .merge
    · rw [if_pos hmerge, if_pos hmerge]
      cases hdefaults : request.withDefaults with
      | true => exact hFills ⟨hmerge, hmerge ▸ hexpanded, hdefaults⟩
      | false => rfl
    · rw [if_neg hmerge, if_neg hmerge]
      exact filter_takes_at? c
  · rw [if_neg hexpanded, if_neg hexpanded, Members.restrict, Members.names.injEq, Class.names_eq,
      Class.names_eq, ← Keyed.keys_filter, ← Keyed.keys_filter, filter_takes_at?, Keyed.at?]
    exact Keyed.keys_filter _ fun key => decide (key = name)

/-! ## A node and its siblings -/

/-- What a leaf with a default leaves out by itself: the nodes to merge are to be filled, and the
leaf is unset on the edited side. -/
def LeavesOut (c : Comparison) (request : Request) (full : Path) (child : Schema.Place)
    (default : Tree) : Prop :=
  request.Fills .merge ∧ child.isLeaf = true ∧ child.node.default? = some default ∧
    c.edited.get? full = none

/-- What stands right below a position. -/
theorem get?_of_subtreeAt {t : Tree} {path : Path} {children : Children}
    (h : t.subtreeAt path = .subtree children) (name : String) :
    t.get? (path ++ [name]) = Keyed.get? children name := by
  rw [← Tree.get?_subtreeAt t path (by simp), h, Tree.get?_cons_subtree]
  cases Keyed.get? children name <;> rfl

section Siblings

variable {c : Comparison} {path : Path} {place child : Schema.Place}

/-- A node that is compared by itself is compared as the only one on both sides, wherever the cursor
is. -/
theorem node_of_full {above : Path} (hfull : c.level ++ path = above ++ [name])
    (hPlace : c.schema.resolve (above ++ [name]) = .ok place) (request : Request) :
    c.node request path = .ok (c.classes request
      (.subtree (single name (c.edited.get? (above ++ [name]))))
      (.subtree (single name (c.running.get? (above ++ [name]))))
      (single name (Tree.filled? (c.schema.defaults (above ++ [name]))))) := by
  rw [node]
  dsimp only
  rw [hfull, hPlace, List.getLast?_concat]
  rfl

/-- What is compared at a node of its own: the one name on either side, and the default that is its
own. -/
theorem node_eq (hChild : c.schema.resolve (c.level ++ (path ++ [name])) = .ok child)
    (request : Request) : c.node request (path ++ [name]) =
      .ok (c.classes request
        (.subtree (single name (c.edited.get? (c.level ++ path ++ [name]))))
        (.subtree (single name (c.running.get? (c.level ++ path ++ [name]))))
        (single name (Tree.filled? (c.schema.defaults (c.level ++ path ++ [name]))))) := by
  rw [← List.append_assoc] at hChild
  exact node_of_full (List.append_assoc ..).symm hChild request

/-- What is there by default below a node that is no leaf is what its parent's children have by
default under its name. -/
theorem filled?_defaults (hSchema : c.schema.Orderly)
    (hPlace : c.schema.resolve (c.level ++ path) = .ok place) (hTag : place.isTag = false)
    (hChild : c.schema.resolve (c.level ++ path ++ [name]) = .ok child)
    (hChildTag : child.isTag = false) :
    Keyed.get? (c.schema.defaults (c.level ++ path)) name = child.node.default ∧
      Keyed.Ordered (c.schema.defaults (c.level ++ path)) ∧
      Tree.filled? (c.schema.defaults (c.level ++ path ++ [name])) =
        if child.isLeaf then none else child.node.default := by
  -- the child is declared at a place that is neither a leaf nor a tag node
  obtain ⟨parent, hparent, henter⟩ := Schema.Place.leads_snoc_iff.mp
    (Schema.resolve_eq_ok_iff.mp hChild)
  obtain rfl := hparent.unique (Schema.resolve_eq_ok_iff.mp hPlace)
  have hLeaf := Schema.Place.not_isLeaf_of_enter henter
  obtain ⟨node, hnode, rfl⟩ :=
    (Schema.Place.enter_eq_ok_iff_of_not_isTag hTag hLeaf).mp henter
  have hroot : c.schema.rootPlace.node.Everywhere Schema.Node.Fillable := hSchema.fillable
  have hOrdered := (Schema.Place.everywhere_of_leads hroot hparent).here.ordered
  rw [Schema.defaults_eq hPlace hTag hLeaf, Schema.get?_defaultsBelow hOrdered]
  refine ⟨?_, Schema.defaultsBelow_ordered hOrdered, ?_⟩
  · rw [Schema.Node.child?] at hnode
    rw [hnode]
    rfl
  · -- a leaf has its own default, and any other child those below it
    cases hnodeLeaf : (Schema.Place.declared node).isLeaf with
    | true =>
      rw [Schema.defaults, hChild]
      simp [hnodeLeaf, Tree.filled?]
    | false =>
      rw [Schema.defaults_eq hChild hChildTag hnodeLeaf]
      exact (Schema.Node.default_of_inner hChildTag hnodeLeaf).symm

/-- A node that is declared below the root, an internal node or an instance, and that is no tag
node, is compared by itself as it is among its siblings: each class of its own is the same class of
theirs, restricted to its name. The nodes to merge of a leaf are an exception, where they are to be
filled, the leaf has a default and the edited side has left it unset. Among its siblings it is given
its default there, and by itself it is left out. -/
theorem node_restricts_below (hSchema : c.schema.Orderly) (hRename : c.rename = id)
    (hEdited : c.schema.Admits c.edited) (hRunning : c.schema.Admits c.running)
    (hPlace : c.schema.resolve (c.level ++ path) = .ok place) (hTag : place.isTag = false)
    (hChild : c.schema.resolve (c.level ++ path ++ [name]) = .ok child)
    (hChildTag : child.isTag = false) (request : Request) :
    ∃ around own, c.below request path = .ok around ∧
      c.node request (path ++ [name]) = .ok own ∧
      (∀ class_, (class_ = .merge →
          ∀ default, ¬ c.LeavesOut request (c.level ++ path ++ [name]) child default) →
        own.get class_ = (around.get class_).restrict name) ∧
      ∀ default, c.LeavesOut request (c.level ++ path ++ [name]) child default →
        own.get .merge = .nodes [] ∧
          (around.get .merge).restrict name = .nodes [(name, default)] := by
  -- the parent is no leaf, since a step leads on from it
  obtain ⟨parent, hparent, henter⟩ := Schema.Place.leads_snoc_iff.mp
    (Schema.resolve_eq_ok_iff.mp hChild)
  obtain rfl := hparent.unique (Schema.resolve_eq_ok_iff.mp hPlace)
  have hLeaf := Schema.Place.not_isLeaf_of_enter henter
  obtain ⟨hedited, hEditedOrdered⟩ := hEdited.subtreeAt_eq hPlace hLeaf
  obtain ⟨hrunning, hRunningOrdered⟩ := hRunning.subtreeAt_eq hPlace hLeaf
  obtain ⟨hdefault, hDefaultsOrdered, hown⟩ :=
    filled?_defaults hSchema hPlace hTag hChild hChildTag
  have hbelow : c.below request path = .ok (c.classes request
      (.subtree (c.edited.childrenAt (c.level ++ path)))
      (.subtree (c.running.childrenAt (c.level ++ path)))
      (c.schema.defaults (c.level ++ path))) := by
    rw [below, hPlace, ← hedited, ← hrunning]
    simp only [hLeaf, Bool.false_eq_true, if_false]
  -- what is compared by itself is what stands under the name of the parent
  have hEditedHere := get?_of_subtreeAt hedited name
  have hRunningHere := get?_of_subtreeAt hrunning name
  have hLeafDefault : child.isLeaf = true → child.node.default = child.node.default? := by
    cases child with
    | declared node => exact Schema.Node.default_of_isLeaf
    | instanceOf tag => exact fun h => absurd h (by simp [Schema.Place.isLeaf])
  refine ⟨_, _, hbelow, node_eq (by rwa [List.append_assoc] at hChild) request, ?_, ?_⟩
  · intro class_ hKept
    rw [hEditedHere, hRunningHere, single_get? hEditedOrdered, single_get? hRunningOrdered]
    refine get_classes_restrict hRename hEditedOrdered hRunningOrdered class_ fun hFills => ?_
    rw [at?_overlayChildren hEditedOrdered hDefaultsOrdered, ← single_get? hEditedOrdered,
      overlayChildren_single, hdefault, hown]
    split
    next hChildLeaf =>
      cases hnode : Keyed.get? (c.edited.childrenAt (c.level ++ path)) name with
      | none =>
        -- the leaf has no default that it could leave out
        have hnone : child.node.default? = none :=
          Option.eq_none_iff_forall_ne_some.mpr fun default hvalue =>
            hKept hFills.1 default ⟨hFills.1 ▸ hFills, hChildLeaf, hvalue, hEditedHere.trans hnode⟩
        rw [hLeafDefault hChildLeaf, hnone]
      | some node =>
        -- what is set at a leaf is a value, and stays
        obtain ⟨last, hLeads, hfits⟩ := hEdited _ node (hEditedHere.trans hnode)
        obtain rfl := hLeads.unique (Schema.resolve_eq_ok_iff.mp hChild)
        have hvalue : node.isSubtree = false := by rw [hfits.shaped.isSubtree_eq, hChildLeaf]; rfl
        rw [Tree.overlay?_of_value hvalue, Tree.overlay?_of_value hvalue]
    next => rfl
  · -- the default of an unset leaf is left out where the leaf is compared by itself
    rintro default ⟨hFills, hChildLeaf, hvalue, hunset⟩
    have hOwnNone : Keyed.Ordered (single name none) := List.Pairwise.nil
    rw [hunset, get_merge hRename hOwnNone _ hFills, hown, if_pos hChildLeaf,
      overlayChildren_single]
    refine ⟨rfl, ?_⟩
    rw [get_merge hRename hEditedOrdered _ hFills, Members.restrict,
      at?_overlayChildren hEditedOrdered hDefaultsOrdered, ← hEditedHere, hunset, hdefault,
      hLeafDefault hChildLeaf, hvalue]
    rfl

/-- A clock with a zone of its own is compared as it is among its siblings, and given a source
either way. -/
theorem node_restricts_below_of_clock :
    let c := ofTrees Sample.defaultedSchema Sample.partlyFilled.edit Tree.empty
    let request : Request := ⟨[.merge], true⟩
    (c.schema.Orderly ∧ c.rename = id ∧ c.schema.Admits c.edited ∧ c.schema.Admits c.running ∧
      (∃ place, c.schema.resolve (c.level ++ []) = .ok place ∧ place.isTag = false) ∧
      ∃ child, c.schema.resolve (c.level ++ [] ++ ["clock"]) = .ok child ∧ child.isTag = false) ∧
    ∃ around own, c.below request [] = .ok around ∧ c.node request ["clock"] = .ok own ∧
      (∀ class_, own.get class_ = (around.get class_).restrict "clock") ∧
      own.get .merge =
        .nodes [("clock", .subtree [("source", .scalar "ntp"), ("zone", .scalar "CET")])] := by
  intro c request
  obtain ⟨around, own, hbelow, hnode, hclasses, -⟩ :=
    @node_restricts_below "clock" c [] _ _ Sample.defaultedSchema_orderly rfl
      Sample.partlyFilled_admitted (Schema.admits_empty _) rfl rfl rfl rfl request
  refine ⟨⟨Sample.defaultedSchema_orderly, rfl, Sample.partlyFilled_admitted,
    Schema.admits_empty _, ⟨_, rfl, rfl⟩, _, rfl, rfl⟩, around, own, hbelow, hnode,
    fun class_ => hclasses class_ fun _ _ h => absurd h.2.1 (by decide), ?_⟩
  have hown : Except.ok own = c.node request ["clock"] := hnode.symm
  rw [Except.ok.inj hown]
  rfl

/-- The source of a clock is unset. Among its siblings it is filled with its default, and compared
by itself it is left out. -/
theorem unset_leaf_left_out :
    let c := ofTrees Sample.defaultedSchema Sample.partlyFilled.edit Tree.empty
    let request : Request := ⟨[.merge], true⟩
    (c.schema.Orderly ∧ c.rename = id ∧ c.schema.Admits c.edited ∧ c.schema.Admits c.running ∧
      (∃ place, c.schema.resolve ["clock"] = .ok place ∧ place.isTag = false) ∧
      ∃ child, c.schema.resolve ["clock", "source"] = .ok child ∧ child.isTag = false) ∧
    c.below request ["clock"] =
      .ok ⟨.nodes [("source", .scalar "ntp"), ("zone", .scalar "CET")], .names [], .names ["zone"],
        .names []⟩ ∧
    c.node request ["clock", "source"] =
      .ok ⟨.nodes [], .names [], .names [], .names []⟩ ∧
    Members.nodes [] ≠
      Members.restrict "source" (.nodes [("source", .scalar "ntp"), ("zone", .scalar "CET")]) := by
  intro c request
  refine ⟨⟨Sample.defaultedSchema_orderly, rfl, Sample.partlyFilled_admitted,
    Schema.admits_empty _, ⟨_, rfl, rfl⟩, _, rfl, rfl⟩, rfl, rfl, fun h => ?_⟩
  exact absurd (Members.nodes.inj h) (by simp [Keyed.at?])

end Siblings

end Comparison

end RouterConfig
