import RouterConfig.Proofs.Schema.Constraints
import RouterConfig.Proofs.Schema.Defaults
import RouterConfig.Proofs.Schema.Listing

/-!
# RouterConfig — which defaults a schema accepts

A default is turned into a node of a configuration when its definition is compiled, without a look
at what the leaf allows: the constraint is for the check of values, and so is the rule that a value
is not empty. So a schema accepts all of its defaults if and only if each definition allows its own.
Main results:

* `Schema.validateValue_eq_ok_iff_allows` — what the check of values lets pass at a leaf with
  values;
* `Schema.leaf_of_default` — the values among the defaults are those of leaves;
* `Definition.Stands.declared`, `Place.Leads.stands` — what stands among definitions is declared
  somewhere, and what is declared stands among them;
* `acceptsDefaults_iff` — when a schema accepts all of its defaults.
-/

namespace RouterConfig.Schema

/-! ## What a leaf allows -/

/-- A value that is not empty and meets the constraint, if there is one. -/
structure Node.Allows (leaf : Node) (value : String) : Prop where
  nonempty : value ≠ ""
  admitted : ∀ c, leaf.constraint? = some c → c.admits value = true

/-- A leaf that takes values finds no fault with a value if and only if it allows it. -/
theorem Node.valueFault?_eq_none_iff {leaf : Node} (hless : leaf.valueless = false)
    {value : String} : leaf.valueFault? value = none ↔ leaf.Allows value := by
  have hempty : value.isEmpty = true ↔ value = "" := String.isEmpty_iff
  rw [valueFault?, hless]
  constructor
  · intro h
    have hvalue : value ≠ "" := fun heq => by simp [heq] at h
    refine ⟨hvalue, fun c hc => ?_⟩
    rw [hc] at h
    simpa [hvalue] using h
  · rintro ⟨hvalue, hadmitted⟩
    cases hc : leaf.constraint? with
    | none => simp [hvalue]
    | some c => simp [hvalue, hadmitted c hc]

theorem validateValue_eq_ok_iff_fault {schema : Schema} {path : Path} {leaf : Node}
    (hplace : schema.resolve path = .ok (.declared leaf)) (hLeaf : leaf.isLeaf = true)
    {value : String} :
    schema.validateValue path value = .ok () ↔ leaf.valueFault? value = none := by
  rw [validateValue_leaf hplace hLeaf]
  cases leaf.valueFault? value <;> simp

/-- What the check of values lets pass at a leaf that takes values. -/
theorem validateValue_eq_ok_iff_allows {schema : Schema} {path : Path} {leaf : Node}
    (hplace : schema.resolve path = .ok (.declared leaf)) (hLeaf : leaf.isLeaf = true)
    (hless : leaf.valueless = false) {value : String} :
    schema.validateValue path value = .ok () ↔ leaf.Allows value := by
  rw [validateValue_eq_ok_iff_fault hplace hLeaf, Node.valueFault?_eq_none_iff hless]

/-! ## The values among the defaults -/

/-- A leaf with a default takes values. -/
theorem Node.Regular.of_default {n : Node} (h : n.Regular) {default : Tree}
    (hdefault : n.default? = some default) : n.isLeaf = true ∧ n.valueless = false := by
  constructor
  · by_contra hinner
    rw [(h.attributesOnLeaves (by simpa using hinner)).2.2.1] at hdefault
    exact absurd hdefault (by simp)
  · by_contra hless
    rw [(h.valuelessAlone (by simpa using hless)).2] at hdefault
    exact absurd hdefault (by simp)

/-- A value that is found by default is found at a leaf, as the default of that leaf. -/
theorem Place.Finds.defaultsTo {place : Place} {path : Path} {found : Tree}
    (h : place.Finds path found) (hvalue : found.isSubtree = false) :
    place.DefaultsTo path found := by
  obtain ⟨last, hLeads, hpast, hdefault⟩ := h
  have hLeaf : last.isLeaf = true := by
    cases hTag : last.isTag with
    | true => exact absurd hdefault (by simp [Node.default_of_isTag hTag])
    | false =>
      -- at an internal node what is there by default is a subtree
      by_contra hinner
      rw [Node.default_of_inner hTag (by simpa using hinner)] at hdefault
      rw [(Tree.filled?_eq_some hdefault).1] at hvalue
      exact absurd hvalue (by simp [Tree.isSubtree])
  rw [Node.default_of_isLeaf hLeaf] at hdefault
  exact ⟨last, hLeads, hLeaf, hdefault, hpast⟩

/-- A value among the defaults below a path is one to which the place there defaults. -/
theorem defaultsTo_of_default {schema : Schema} (hSchema : schema.Orderly) {path rest : Path}
    {found : Tree} (hfound : (Tree.subtree (schema.defaults path)).get? rest = some found)
    (hvalue : found.isSubtree = false) :
    ∃ place, schema.resolve path = .ok place ∧ place.DefaultsTo rest found := by
  obtain ⟨name, below, rfl⟩ : ∃ name below, rest = name :: below := by
    refine List.exists_cons_of_ne_nil fun hnil => ?_
    rw [hnil, Tree.get?, Option.some.injEq] at hfound
    exact absurd hvalue (by simp [← hfound, Tree.isSubtree])
  cases hplace : schema.resolve path with
  | error e => simp [defaults, hplace, Tree.get?] at hfound
  | ok place =>
    refine ⟨place, rfl, ?_⟩
    have hinner : (place.isTag || place.isLeaf) = false := by
      -- a tag node and a leaf have nothing below by default
      by_contra hnot
      rw [Bool.not_eq_false] at hnot
      rw [defaults, hplace] at hfound
      dsimp only at hfound
      rw [if_pos hnot] at hfound
      exact absurd hfound (by simp [Tree.get?])
    obtain ⟨hTag, hLeaf⟩ := Bool.or_eq_false_iff.mp hinner
    have hroot : schema.rootPlace.node.Everywhere Node.Fillable := hSchema.fillable
    rw [defaults_eq hplace hTag hLeaf, Place.get?_defaultsBelow_iff
      (Place.everywhere_of_leads hroot (resolve_eq_ok_iff.mp hplace)) hTag hLeaf] at hfound
    exact hfound.defaultsTo hvalue

/-- The values among the defaults below a path are defaults of leaves. -/
theorem leaf_of_default {schema : Schema} (hSchema : schema.Orderly) {path rest : Path}
    {found : Tree} (hfound : (Tree.subtree (schema.defaults path)).get? rest = some found)
    (hvalue : found.isSubtree = false) :
    ∃ leaf, schema.resolve (path ++ rest) = .ok (.declared leaf) ∧ leaf.isLeaf = true ∧
      leaf.valueless = false ∧ leaf.default? = some found := by
  obtain ⟨place, hplace, leaf, hbelow, -, hdefault, -⟩ :=
    defaultsTo_of_default hSchema hfound hvalue
  have hLeads : schema.rootPlace.Leads (path ++ rest) (.declared leaf) :=
    Place.leads_append_iff.mpr ⟨place, resolve_eq_ok_iff.mp hplace, hbelow⟩
  obtain ⟨hLeaf, hless⟩ := (regular_of_leads hSchema.compiled hLeads).of_default hdefault
  exact ⟨leaf, resolve_eq_ok_iff.mpr hLeads, hLeaf, hless, hdefault⟩

/-- The default of a leaf is among the defaults of the place above it. -/
theorem get?_defaults_of_child {schema : Schema} (hSchema : schema.Orderly) {path : Path}
    {place : Place} (hplace : schema.resolve path = .ok place) (hTag : place.isTag = false)
    (hLeaf : place.isLeaf = false) {name : String} {leaf : Node}
    (hchild : place.node.child? name = some leaf) (hleaf : leaf.isLeaf = true) {default : Tree}
    (hdefault : leaf.default? = some default) :
    (Tree.subtree (schema.defaults path)).get? [name] = some default := by
  have hroot : schema.rootPlace.node.Everywhere Node.Fillable := hSchema.fillable
  rw [defaults_eq hplace hTag hLeaf, Place.get?_defaultsBelow_iff
    (Place.everywhere_of_leads hroot (resolve_eq_ok_iff.mp hplace)) hTag hLeaf,
    Place.finds_cons_iff hTag hLeaf]
  refine ⟨leaf, hchild, Place.finds_nil_iff.mpr ?_⟩
  rw [Node.default_of_isLeaf hleaf, hdefault]

/-! ## Definitions and where they are declared -/

/-- What stands among definitions is declared somewhere: below each tag node that it stands under,
in an instance of any name. -/
theorem Definition.Stands.declared {ds above : List (String × Definition)}
    {entry : String × Definition} (hstands : Stands ds above entry) {place : Place}
    (hbecomes : EachBecomes ds place.node.children) (hTag : place.isTag = false)
    (hLeaf : place.isLeaf = false) (hOrdered : place.node.Everywhere Node.Placed)
    (hRegular : place.node.Everywhere Node.Regular) :
    ∃ path next n, place.Leads path next ∧ next.isTag = false ∧ next.isLeaf = false ∧
      next.node.child? entry.1 = some n ∧ entry.2.Becomes n := by
  -- on the way down to the entry; what is read from a definition has children read from its
  -- children
  induction hstands generalizing place with
  | @top ds entry hmem =>
    obtain ⟨n, hn, hentry⟩ := hbecomes.exists_of_mem hmem
    exact ⟨[], place, n, .here _, hTag, hLeaf, (Keyed.mem_iff_get? hOrdered.here.ordered).mp hn,
      hentry⟩
  | @under ds above parent entry hmem hbelow ih =>
    obtain ⟨n, hn, hparent⟩ := hbecomes.exists_of_mem hmem
    have hchild : place.node.child? parent.1 = some n :=
      (Keyed.mem_iff_get? hOrdered.here.ordered).mp hn
    have henter : place.enter parent.1 = .ok (.declared n) :=
      (Place.enter_eq_ok_iff_of_not_isTag hTag hLeaf).mpr ⟨n, hchild, rfl⟩
    have hchildren : EachBecomes parent.2.children n.children := by
      cases hparent
      assumption
    have hinner : n.isLeaf = false := by
      -- a leaf would have nothing below
      by_contra hleaf
      rw [(hRegular.child hn).here.leafEnds (by simpa using hleaf)] at hchildren
      generalize parent.2.children = children at hchildren hbelow
      cases hchildren
      exact not_stands_nil hbelow
    -- below a tag node the path goes through an instance, of whatever name
    cases htag : (Place.declared n).isTag with
    | true =>
      obtain ⟨path, next, m, hLeads, hnext⟩ := @ih (.instanceOf n) hchildren rfl rfl
        (hOrdered.child hn) (hRegular.child hn)
      have hinstance : (Place.declared n).enter "x" = .ok (.instanceOf n) :=
        Place.enter_of_isTag htag "x"
      exact ⟨parent.1 :: "x" :: path, next, m, .step henter (.step hinstance hLeads), hnext⟩
    | false =>
      obtain ⟨path, next, m, hLeads, hnext⟩ := @ih (.declared n) hchildren htag hinner
        (hOrdered.child hn) (hRegular.child hn)
      exact ⟨parent.1 :: path, next, m, .step henter hLeads, hnext⟩

/-- The nodes below a place come from definitions that stand among those of all nodes. -/
theorem Place.Leads.stands {place last : Place} {path : Path} (hLeads : place.Leads path last)
    {ds : List (String × Definition)} (hbecomes : Definition.EachBecomes ds place.node.children) :
    ∃ below, Definition.EachBecomes below last.node.children ∧
      ∀ above entry, Definition.Stands below above entry →
        ∃ above', Definition.Stands ds above' entry := by
  induction hLeads generalizing ds with
  | here => exact ⟨ds, hbecomes, fun above entry hstands => ⟨above, hstands⟩⟩
  | @step place next last name rest henter _ ih =>
    cases hTag : place.isTag with
    | true =>
      -- an instance has the children of its tag node
      rw [enter_of_isTag hTag, Except.ok.injEq] at henter
      subst henter
      exact ih hbecomes
    | false =>
      have hLeaf : place.isLeaf = false := not_isLeaf_of_enter henter
      obtain ⟨child, hchild, rfl⟩ := (enter_eq_ok_iff_of_not_isTag hTag hLeaf).mp henter
      obtain ⟨d, hd, hchildBecomes⟩ := hbecomes.exists_of_mem_nodes (Keyed.mem_of_get? hchild)
      cases hchildBecomes with
      | intro _ hchildren =>
        obtain ⟨below, hbelow, hstands⟩ := ih hchildren
        refine ⟨below, hbelow, fun above entry h => ?_⟩
        obtain ⟨above', habove'⟩ := hstands above entry h
        exact ⟨(name, d) :: above', .under hd habove'⟩

/-- What is declared at a path, the root apart, comes from a definition that stands among those of
the schema. -/
theorem stands_of_declared {definitions : Keyed Definition} {schema : Schema}
    (h : ofDefinitions definitions = .ok schema) {path : Path} {n : Node}
    (hplace : schema.resolve path = .ok (.declared n)) (hne : path ≠ []) :
    ∃ above name d, Definition.Stands definitions above (name, d) ∧ d.Becomes n := by
  obtain ⟨path, name, rfl⟩ : ∃ above name, path = above ++ [name] :=
    ⟨_, _, (List.dropLast_concat_getLast hne).symm⟩
  obtain ⟨place, habove, -, -, hchild⟩ := above_of_declared hplace
  have hbecomes : Definition.EachBecomes definitions schema.rootPlace.node.children :=
    eachBecomes_of_ofDefinitions h
  obtain ⟨below, hbelow, hstands⟩ := (resolve_eq_ok_iff.mp habove).stands hbecomes
  obtain ⟨d, hd, hn⟩ := hbelow.exists_of_mem_nodes (Keyed.mem_of_get? hchild)
  obtain ⟨above, habove⟩ := hstands [] (name, d) (.top hd)
  exact ⟨above, name, d, habove, hn⟩

/-! ## When all is accepted -/

/-- The schema accepts its defaults: each leaf that has one has a value at least, and the check of
values lets each of them pass. -/
def AcceptsDefaults (schema : Schema) : Prop :=
  ∀ path rest found, (Tree.subtree (schema.defaults path)).get? rest = some found →
    found.isSubtree = false →
    found.values ≠ [] ∧
      ∀ value ∈ found.values, schema.validateValue (path ++ rest) value = .ok ()

/-- The default of a definition has a value at least, none that is empty and none that does not meet
the constraint of the definition. -/
def Definition.AllowsDefault (d : Definition) : Prop :=
  ∀ value default, d.default? = some value → DefaultOf d.multi value default →
    default.values ≠ [] ∧ ∀ text ∈ default.values, text ≠ "" ∧
      ∀ pattern c, d.constraint? = some pattern → Constraint.ofText? pattern = some c →
        c.admits text = true

theorem DefaultOf.unique {multi : Bool} {value : Yaml.Value} {default default' : Tree}
    (h : DefaultOf multi value default) (h' : DefaultOf multi value default') :
    default = default' := by
  rw [← defaultTree_eq_ok_iff] at h h'
  exact Except.ok.inj (h.symm.trans h')

theorem DefaultOf.isSubtree {multi : Bool} {value : Yaml.Value} {default : Tree}
    (h : DefaultOf multi value default) : default.isSubtree = false := by
  cases h <;> rfl

/-- A leaf allows a value if the definition that it comes from does. -/
theorem Definition.Shows.allows_iff {d : Definition} {n : Node} (h : d.Shows n) {value : String} :
    n.Allows value ↔ value ≠ "" ∧ ∀ pattern c, d.constraint? = some pattern →
      Constraint.ofText? pattern = some c → c.admits value = true := by
  have hconstraint := h.constraint
  -- the pattern is written in the definition if and only if the node has read it
  constructor
  · rintro ⟨hne, hadmitted⟩
    refine ⟨hne, fun pattern c hpattern hc => hadmitted c ?_⟩
    rw [hpattern] at hconstraint
    rcases hread : n.constraint? with _ | c'
    · rw [hread] at hconstraint
      exact nomatch hconstraint
    · rw [hread] at hconstraint
      cases hconstraint with
      | some hc' =>
        rw [Option.some.inj ((Constraint.ofText?_eq_some_iff.mpr hc').symm.trans hc)]
  · rintro ⟨hne, hadmitted⟩
    refine ⟨hne, fun c hc => ?_⟩
    rw [hc] at hconstraint
    rcases hpattern : d.constraint? with _ | pattern
    · rw [hpattern] at hconstraint
      exact nomatch hconstraint
    · rw [hpattern] at hconstraint
      cases hconstraint with
      | some hread => exact hadmitted pattern c hpattern (Constraint.ofText?_eq_some_iff.mpr hread)

/-- The default of a node is the one of its definition. -/
theorem Definition.Shows.default?_iff {d : Definition} {n : Node} (h : d.Shows n) {default : Tree} :
    n.default? = some default ↔
      ∃ value, d.default? = some value ∧ DefaultOf d.multi value default := by
  have hdefault := h.default
  constructor
  · intro hn
    rw [hn] at hdefault
    rcases hvalue : d.default? with _ | value
    · rw [hvalue] at hdefault
      exact nomatch hdefault
    · rw [hvalue] at hdefault
      cases hdefault with
      | some hof => exact ⟨value, rfl, hof⟩
  · rintro ⟨value, hvalue, hof⟩
    rw [hvalue] at hdefault
    rcases hn : n.default? with _ | default'
    · rw [hn] at hdefault
      exact nomatch hdefault
    · rw [hn] at hdefault
      cases hdefault with
      | some hof' => rw [hof.unique hof']

section Accepting

variable {definitions : Keyed Definition} {schema : Schema}

/-- A schema accepts its defaults if and only if each definition, at any depth, allows its own. -/
theorem acceptsDefaults_iff (hOrderly : OrderlyAll definitions)
    (h : ofDefinitions definitions = .ok schema) :
    schema.AcceptsDefaults ↔
      ∀ above entry, Definition.Stands definitions above entry → entry.2.AllowsDefault := by
  have hschema : schema.Orderly := ⟨definitions, hOrderly, h⟩
  have hbecomes : Definition.EachBecomes definitions schema.rootPlace.node.children :=
    eachBecomes_of_ofDefinitions h
  constructor
  · -- the defaults are there below each path, so each of them is checked as a value of its leaf
    intro haccepts above entry hstands value default hvalue hof
    obtain ⟨path, place, n, hLeads, hTag, hLeaf, hchild, hn⟩ :=
      hstands.declared hbecomes rfl rfl hschema.placed hschema.compiled.regular
    have hdefault : n.default? = some default := hn.shows.default?_iff.mpr ⟨value, hvalue, hof⟩
    have hbelow : schema.rootPlace.Leads (path ++ [entry.1]) (.declared n) :=
      Place.leads_snoc_iff.mpr ⟨place, hLeads,
        (Place.enter_eq_ok_iff_of_not_isTag hTag hLeaf).mpr ⟨n, hchild, rfl⟩⟩
    obtain ⟨hleaf, hless⟩ := (regular_of_leads hschema.compiled hbelow).of_default hdefault
    have hfound := get?_defaults_of_child hschema (resolve_eq_ok_iff.mpr hLeads) hTag hLeaf hchild
      hleaf hdefault
    obtain ⟨hne, hvalid⟩ := haccepts path [entry.1] default hfound hof.isSubtree
    refine ⟨hne, fun text htext => hn.shows.allows_iff.mp ?_⟩
    exact (validateValue_eq_ok_iff_allows (resolve_eq_ok_iff.mpr hbelow) hleaf hless).mp
      (hvalid text htext)
  · intro hall path rest found hfound hvalue
    obtain ⟨leaf, hleaf, hisLeaf, hless, hdefault⟩ := leaf_of_default hschema hfound hvalue
    have hne : path ++ rest ≠ [] := by
      intro hnil
      rw [(List.append_eq_nil_iff.mp hnil).2, Tree.get?, Option.some.injEq] at hfound
      exact absurd hvalue (by simp [← hfound, Tree.isSubtree])
    -- the leaf was read from a definition, and its default from what that definition holds
    obtain ⟨above, name, d, hstands, hd⟩ := stands_of_declared h hleaf hne
    obtain ⟨value, hvalueOf, hof⟩ := hd.shows.default?_iff.mp hdefault
    obtain ⟨hne, htexts⟩ := hall above (name, d) hstands value found hvalueOf hof
    refine ⟨hne, fun text htext => ?_⟩
    rw [validateValue_eq_ok_iff_allows hleaf hisLeaf hless, hd.shows.allows_iff]
    exact htexts text htext

end Accepting

end RouterConfig.Schema
