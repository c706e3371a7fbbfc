import RouterConfig.Proofs.Comparison.Classification
import RouterConfig.Proofs.Schema.Defaults

/-!
# RouterConfig — defaults among the nodes to merge

The nodes to merge are those of the edited side, filled from the defaults of the schema. No value is
in the way of a default, since a configuration that conforms has none where the schema declares
nodes below. Each leaf that is unset is therefore given its default, if it has one and no tag node
is on the way to it, and nothing else changes. Main results:

* `Schema.Place.Conforms.filled` — what filling a conforming node makes of each of its positions;
* `Session.merge_fills_unset_leaves` — so it is with the nodes to merge, and filling them once more
  changes nothing.
-/

namespace RouterConfig

namespace Schema.Place

/-- A node at a place before and after it has been filled from the defaults, position by
position. -/
structure Filled (place : Place) (before after : Tree) : Prop where
  /-- What is set stays. -/
  kept : ∀ path node, before.get? path = some node → node.isSubtree = false →
    after.get? path = some node
  /-- At tag nodes and inside of them all is as it was. -/
  atTags : ∀ path, place.MeetsTag path → after.get? path = before.get? path
  /-- A leaf with a default that is unset is given its default. -/
  inserted : ∀ path default, place.DefaultsTo path default → before.get? path = none →
    after.get? path = some default
  /-- Any other leaf that is unset stays unset. -/
  unset : ∀ path leaf, place.Leads path (.declared leaf) → leaf.isLeaf = true →
    before.get? path = none → (∀ default, ¬ place.DefaultsTo path default) →
    after.get? path = none
  /-- No subtree goes. -/
  lasting : ∀ path children, before.get? path = some (.subtree children) →
    ∃ filled, after.get? path = some (.subtree filled)
  /-- A subtree that comes is on the way to a default that is inserted. -/
  needed : ∀ path children, after.get? path = some (.subtree children) →
    (∃ old, before.get? path = some (.subtree old)) ∨
      ∃ rest default, place.DefaultsTo (path ++ rest) default ∧ before.get? (path ++ rest) = none
  /-- Each node has the shape of its place. -/
  shaped : ∀ path node, after.get? path = some node →
    ∃ next, place.Leads path next ∧ next.Shaped node

variable {place : Place}

/-- A path to a leaf, or to a tag node, leads away from a place that is neither. -/
theorem DefaultsTo.ne_nil (hLeaf : place.isLeaf = false) {path : Path} {default : Tree}
    (h : place.DefaultsTo path default) : path ≠ [] := by
  rintro rfl
  obtain ⟨leaf, hLeads, hleaf, -⟩ := h
  obtain rfl := leads_nil_iff.mp hLeads
  exact absurd hleaf (by simpa [isLeaf] using hLeaf)

section Defaults

variable {before d : Tree} (hplace : place.node.Everywhere Node.Fillable)
  (hTag : place.isTag = false) (hLeaf : place.isLeaf = false)
  (hd : d = .subtree (defaultsBelow place.node.children))

include hplace hTag hLeaf hd

/-- Below the place, what is found among its defaults is what is there by default. -/
theorem get?_eq_some_iff_finds {path : Path} (hne : path ≠ []) {found : Tree} :
    d.get? path = some found ↔ place.Finds path found := by
  obtain ⟨name, rest, rfl⟩ := List.exists_cons_of_ne_nil hne
  rw [hd]
  exact get?_defaultsBelow_iff hplace hTag hLeaf

/-- What a conforming node that is filled holds at a position depends on what it has held there, and
on what is there by default. -/
theorem Conforms.get?_overlay (h : place.Conforms before) (path : Path) :
    (before.overlay d).get? path = Tree.overlay? (before.get? path) (d.get? path) := by
  refine Tree.get?_overlay (hd ▸ defaultsBelow_orderly hplace hTag hLeaf) ?_ path
  -- where there is a subtree by default, the schema has no leaf
  intro q node children hnode hdefault
  obtain ⟨next, hLeads, hfits⟩ := h q node hnode
  have hnext : next.isLeaf = false := by
    cases q with
    | nil => rwa [leads_nil_iff.mp hLeads]
    | cons name rest =>
      have hfinds := (get?_eq_some_iff_finds hplace hTag hLeaf hd (by simp)).mp hdefault
      obtain ⟨⟨last, hlast, hinner⟩, -⟩ := hfinds.subtree hplace
      rwa [hLeads.unique hlast]
  obtain ⟨children', rfl, -⟩ := hfits.isSubtree hnext
  rfl

/-- Nothing is there by default at a tag node nor below it. -/
theorem get?_eq_none_of_meetsTag {path : Path} (hmeets : place.MeetsTag path) :
    d.get? path = none := by
  have hne : path ≠ [] := by
    rintro rfl
    exact absurd (meetsTag_nil_iff.mp hmeets) (by simp [hTag])
  refine Option.eq_none_iff_forall_ne_some.mpr fun found hfound => ?_
  obtain ⟨last, -, hpast, -⟩ := (get?_eq_some_iff_finds hplace hTag hLeaf hd hne).mp hfound
  exact hpast hmeets

/-- What fills a position that has been empty is found among the defaults of the place. -/
theorem finds_of_unset {path : Path} {found : Tree} (hunset : before.get? path = none)
    (hfound : d.get? path = some found) : place.Finds path found := by
  have hne : path ≠ [] := by
    rintro rfl
    exact absurd hunset (by simp [Tree.get?])
  exact (get?_eq_some_iff_finds hplace hTag hLeaf hd hne).mp hfound

/-- A subtree where there has been none holds a default. -/
theorem Conforms.filled_needed (h : place.Conforms before) {path : Path} {children : Children}
    (hchildren : (before.overlay d).get? path = some (.subtree children)) :
    (∃ old, before.get? path = some (.subtree old)) ∨
      ∃ rest default, place.DefaultsTo (path ++ rest) default ∧
        before.get? (path ++ rest) = none := by
  -- a subtree of the filled tree was a subtree before, or it comes from the defaults
  rw [h.get?_overlay hplace hTag hLeaf hd] at hchildren
  cases hnode : before.get? path with
  | none =>
    rw [hnode, Tree.overlay?_none_left] at hchildren
    have hfinds := finds_of_unset hplace hTag hLeaf hd hnode hchildren
    obtain ⟨-, -, rest, default, hto⟩ := hfinds.subtree hplace
    exact .inr ⟨rest, default, hto, by rw [Tree.get?_append, hnode, Option.bind_none]⟩
  | some node =>
    rcases Tree.isSubtree_cases node with hvalue | ⟨old, rfl⟩
    · -- a value would have stayed
      rw [hnode, Tree.overlay?_of_value hvalue, Option.some.injEq] at hchildren
      rw [hchildren] at hvalue
      exact absurd hvalue (by simp [Tree.isSubtree])
    · exact .inl ⟨old, rfl⟩

/-- A node keeps its shape when it is filled, and what is inserted has the shape of its place. -/
theorem Conforms.filled_shaped (h : place.Conforms before) {path : Path} {node : Tree}
    (hnode : (before.overlay d).get? path = some node) :
    ∃ next, place.Leads path next ∧ next.Shaped node := by
  have hget := h.get?_overlay hplace hTag hLeaf hd path
  have hfilled : (before.overlay d).Orderly :=
    Tree.Orderly.overlay (fun _ _ => h.ordered) (hd ▸ defaultsBelow_orderly hplace hTag hLeaf)
  -- where nothing was, a default is found, and that has the shape of its place
  cases hold : before.get? path with
  | none =>
    rw [hget, hold, Tree.overlay?_none_left] at hnode
    exact (finds_of_unset hplace hTag hLeaf hd hold hnode).shaped hplace
  | some old =>
    obtain ⟨next, hLeads, hfits⟩ := h path old hold
    refine ⟨next, hLeads, ?_⟩
    rcases Tree.isSubtree_cases old with hvalue | ⟨children, rfl⟩
    · rw [hget, hold, Tree.overlay?_of_value hvalue, Option.some.injEq] at hnode
      exact hnode ▸ hfits.shaped
    · -- a subtree stays one, with the names of the defaults in their order
      obtain ⟨filled, hsubtree⟩ := Tree.overlay?_of_subtree children (d.get? path)
      rw [← hold, ← hget, hnode, Option.some.injEq] at hsubtree
      rw [hsubtree] at hnode ⊢
      have hnext : next.isLeaf = false := by
        have hshape := hfits.shaped.isSubtree_eq
        simpa [Tree.isSubtree] using hshape
      exact .subtree hnext (hfilled path filled hnode)

/-- Filling a conforming node gives it the defaults of its unset leaves, and nothing else. -/
theorem Conforms.filled (h : place.Conforms before) : place.Filled before (before.overlay d) := by
  -- what stands at a position of the filled tree depends on the two trees there alone
  have hget := h.get?_overlay hplace hTag hLeaf hd
  constructor
  case kept =>
    intro path node hnode hvalue
    rw [hget, hnode, Tree.overlay?_of_value hvalue]
  case atTags =>
    intro path hmeets
    rw [hget, get?_eq_none_of_meetsTag hplace hTag hLeaf hd hmeets, Tree.overlay?_none_right]
  case inserted =>
    intro path default hto hunset
    rw [hget, hunset, Tree.overlay?_none_left]
    exact (get?_eq_some_iff_finds hplace hTag hLeaf hd (hto.ne_nil hLeaf)).mpr hto.finds
  case unset =>
    intro path leaf hLeads hleaf hunset hnot
    rw [hget, hunset, Tree.overlay?_none_left]
    refine Option.eq_none_iff_forall_ne_some.mpr fun found hfound => hnot found ?_
    exact (finds_of_unset hplace hTag hLeaf hd hunset hfound).default_of_isLeaf hLeads hleaf
  case lasting =>
    intro path children hchildren
    rw [hget, hchildren]
    exact Tree.overlay?_of_subtree children _
  case needed => exact fun _ _ => h.filled_needed hplace hTag hLeaf hd
  case shaped => exact fun _ _ => h.filled_shaped hplace hTag hLeaf hd

end Defaults

end Schema.Place

/-! ## The nodes to merge -/

namespace Comparison

variable {edited defaults : Children} {request : Request}

/-- The nodes to merge are those of the edited side, whatever is running. -/
theorem get_merge {comparison : Comparison} (hRename : comparison.rename = id)
    (hEdited : Keyed.Ordered edited) (running : Tree) (hFills : request.Fills .merge) :
    (comparison.classes request (.subtree edited) running defaults).get .merge =
      .nodes (Tree.overlayChildren edited defaults) := by
  obtain ⟨-, hexpanded, hdefaults⟩ := hFills
  have hall : nodesUnder (Keyed.keys edited) (.subtree edited) = edited := by
    have hpicked := nodesUnder_filter hEdited fun _ => true
    rwa [List.filter_true, List.filter_true] at hpicked
  rw [classes, Classes.get_ofMembers, if_pos (by simpa using hexpanded), hdefaults, hRename]
  exact congrArg (fun found => Members.nodes (Tree.overlayChildren found defaults)) hall

end Comparison

namespace Session

/-- The nodes to merge, asked for with their defaults, are the edited side with a default for each
leaf that is unset. Filling them once more changes nothing. -/
theorem merge_fills_unset_leaves {schema : Schema} (hSchema : schema.Orderly) (s : Session)
    (running : Tree) {path : Path} {place : Schema.Place}
    (hPlace : schema.resolve (s.absolute path) = .ok place) (hTag : place.isTag = false)
    (hLeaf : place.isLeaf = false) (hEdit : place.Conforms (s.edit.subtreeAt (s.absolute path)))
    {request : Comparison.Request} (hFills : request.Fills .merge) :
    ∃ classes children, (s.comparison schema running).below request path = .ok classes ∧
      classes.get .merge = .nodes children ∧
      place.Filled (s.edit.subtreeAt (s.absolute path)) (.subtree children) ∧
      Tree.overlayChildren children (schema.defaults (s.absolute path)) = children := by
  have hroot : schema.rootPlace.node.Everywhere Schema.Node.Fillable := hSchema.fillable
  have hplace := Schema.Place.everywhere_of_leads hroot (Schema.resolve_eq_ok_iff.mp hPlace)
  have hdefaults := Schema.defaults_eq hPlace hTag hLeaf
  obtain ⟨edited, hedited, hOrdered⟩ := hEdit.fits.isSubtree hLeaf
  have hbelow : (s.comparison schema running).below request path =
      .ok ((s.comparison schema running).classes request (.subtree edited)
        (running.subtreeAt (s.absolute path)) (schema.defaults (s.absolute path))) := by
    rw [comparison_below hPlace hLeaf, hedited]
  -- filling the children of the position is filling the tree there
  refine ⟨_, _, hbelow, Comparison.get_merge rfl hOrdered _ hFills, ?_, ?_⟩
  · rw [← Tree.overlay_subtree, ← hedited, hdefaults]
    exact hEdit.filled hplace hTag hLeaf rfl
  · -- a second filling finds set what the first one has set
    have hOrderly : (Tree.subtree edited).Orderly := hedited ▸ fun _ _ => hEdit.ordered
    rw [hdefaults]
    exact Tree.overlayChildren_overlayChildren hOrderly
      (Schema.Place.defaultsBelow_orderly hplace hTag hLeaf)

end Session

namespace Sample

/-- A leaf with the given default. -/
def leafWith (multi : Bool) (default? : Option Yaml.Value) : Schema.Definition :=
  { kind := .leaf, multi, default? }

/-- Leaves with and without defaults, below internal nodes and below a tag node. -/
def defaulted : Keyed Schema.Definition :=
  [("clock",
      { children :=
          [("drift", leafWith false none),
            ("source", leafWith false (some (.scalar (.text "ntp")))),
            ("zone", leafWith false (some (.scalar (.text "UTC"))))] }),
    ("interface",
      { kind := .tag, children := [("mtu", leafWith false (some (.scalar (.integer 1500))))] }),
    ("syslog", { children := [("host", leafWith true (some (.scalar (.text "10.0.0.1"))))] })]

def defaultedSchema : Schema := (Schema.ofDefinitions defaulted).toOption.getD ⟨[]⟩

/-- The sample schema with defaults is orderly. -/
theorem defaultedSchema_orderly : defaultedSchema.Orderly := by
  have hleaf : ∀ multi default?, (leafWith multi default?).Orderly := fun _ _ =>
    .intro List.Pairwise.nil (by simp [leafWith])
  refine ⟨defaulted, ⟨by unfold Keyed.Ordered; decide, ?_⟩, rfl⟩
  simp only [defaulted, List.forall_mem_cons]
  refine ⟨.intro (by unfold Keyed.Ordered; decide) ?_, .intro (by unfold Keyed.Ordered; decide) ?_,
    .intro (by unfold Keyed.Ordered; decide) ?_, by simp⟩
  all_goals simp [hleaf]

/-- A session that has changed a zone and made an instance. -/
def partlyFilled : Session :=
  ⟨.subtree [("clock", .subtree [("zone", .scalar "CET")]),
    ("interface", .subtree [("eth0", .subtree [])])], []⟩

/-- The sample session, which sets some of the leaves that have a default, conforms to that
schema. -/
theorem partlyFilled_admitted : defaultedSchema.Admits partlyFilled.edit := by
  have hCompiled := defaultedSchema_orderly.compiled
  have hempty := Session.sound_ofRunning (Schema.admits_empty defaultedSchema)
  have hsets : ((Session.ofRunning Tree.empty).setWords defaultedSchema ["clock", "zone", "CET"] >>=
      fun s => s.setWords defaultedSchema ["interface", "eth0"]) = .ok partlyFilled := rfl
  obtain ⟨s, hzone, hinstance⟩ := Schema.bind_eq_ok hsets
  have hset := hempty.step hCompiled hempty.edit (.setWords _ hzone)
  exact (hset.step hCompiled hempty.edit (.setWords _ hinstance)).edit

end Sample

/-- The zone that is set stays, the source of the clock and the host are filled, and no leaf of the
instance is. -/
theorem Session.merge_fills_unset_leaves_partly :
    let s := Sample.partlyFilled
    let request : Comparison.Request := ⟨[.merge], true⟩
    let place := Sample.defaultedSchema.rootPlace
    (Sample.defaultedSchema.Orderly ∧ Sample.defaultedSchema.resolve (s.absolute []) = .ok place ∧
      place.isTag = false ∧ place.isLeaf = false ∧
      place.Conforms (s.edit.subtreeAt (s.absolute [])) ∧ request.Fills .merge) ∧
    ∃ classes children,
      (s.comparison Sample.defaultedSchema Tree.empty).below request [] = .ok classes ∧
      classes.get .merge = .nodes children ∧
      place.Filled (s.edit.subtreeAt (s.absolute [])) (.subtree children) ∧
      children =
        [("clock", .subtree [("source", .scalar "ntp"), ("zone", .scalar "CET")]),
          ("interface", .subtree [("eth0", .subtree [])]),
          ("syslog", .subtree [("host", .list ["10.0.0.1"])])] := by
  intro s request place
  have hPlace : Sample.defaultedSchema.resolve (s.absolute []) = .ok place := rfl
  have hEdit : place.Conforms (s.edit.subtreeAt (s.absolute [])) :=
    Sample.partlyFilled_admitted.conforms_subtreeAt hPlace rfl
  have hFills : request.Fills .merge := ⟨rfl, List.mem_singleton.mpr rfl, rfl⟩
  obtain ⟨classes, children, hbelow, hmerge, hfilled, -⟩ :=
    merge_fills_unset_leaves Sample.defaultedSchema_orderly s Tree.empty hPlace rfl rfl hEdit hFills
  refine ⟨⟨Sample.defaultedSchema_orderly, hPlace, rfl, rfl, hEdit, hFills⟩, classes, children,
    hbelow, hmerge, hfilled, ?_⟩
  -- what the comparison computes is what it is proved to tell
  have hclasses : Except.ok classes =
      (s.comparison Sample.defaultedSchema Tree.empty).below request [] := hbelow.symm
  rw [Except.ok.inj hclasses] at hmerge
  exact (Members.nodes.inj hmerge).symm

end RouterConfig
