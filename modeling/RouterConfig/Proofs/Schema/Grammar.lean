import RouterConfig.Proofs.Schema.Owned

/-!
# RouterConfig — the grammar of paths

Which paths there are in a schema is given by three rules: the empty path names the root; behind the
root, an internal node or an instance stands the name of a declared child; behind a tag node stands
any name, that of an instance. Nothing stands behind a leaf. Resolving follows these rules, and
where it fails it blames the shortest part of the path that has no meaning. Main results:

* `Orderly.names_iff_leads` — the rules give the places to which paths lead;
* `Place.follow_eq_error_iff` — following a path fails at the first step that cannot be made;
* `resolve_follows_grammar` — resolving finds what a path names, or the first error in it.
-/

namespace RouterConfig.Schema

/-! ## The rules -/

/-- A path names a place of a schema. -/
inductive Names (schema : Schema) : Path → Place → Prop where
  | root : Names schema [] schema.rootPlace
  /-- The root, an internal node and an instance go on with the name of a declared child. -/
  | child {path : Path} {place : Place} {name : String} {child : Node} :
    Names schema path place → place.kind = .node → (name, child) ∈ place.node.children →
      Names schema (path ++ [name]) (.declared child)
  /-- A tag node goes on with the name of an instance, which is any. -/
  | inside {path : Path} {tag : Node} (name : String) :
    Names schema path (.declared tag) → tag.kind = .tag →
      Names schema (path ++ [name]) (.instanceOf tag)

namespace Place

variable {place next last : Place} {name : String} {path : Path}

/-! ## Kinds of places -/

theorem isTag_iff_kind : place.isTag = true ↔ place.kind = .tag := by
  cases place with
  | declared node => simp [isTag, Node.isTag, kind]
  | instanceOf tag => simp [isTag, kind]

theorem isLeaf_iff_kind : place.isLeaf = true ↔ place.kind = .leaf := by
  cases place with
  | declared node => simp [isLeaf, Node.isLeaf, kind]
  | instanceOf tag => simp [isLeaf, kind]

/-- Where children are declared, no instance and no value is. -/
theorem plain_of_kind (h : place.kind = .node) : place.isTag = false ∧ place.isLeaf = false := by
  refine ⟨?_, ?_⟩
  · rw [Bool.eq_false_iff, Ne, isTag_iff_kind, h]
    decide
  · rw [Bool.eq_false_iff, Ne, isLeaf_iff_kind, h]
    decide

/-- A place that is no tag node and no leaf is an inner node. -/
theorem kind_of_plain (hTag : place.isTag = false) (hLeaf : place.isLeaf = false) :
    place.kind = .node := by
  have hnotTag : place.kind ≠ .tag := by rw [Ne, ← isTag_iff_kind, hTag]; decide
  have hnotLeaf : place.kind ≠ .leaf := by rw [Ne, ← isLeaf_iff_kind, hLeaf]; decide
  cases hkind : place.kind with
  | node => rfl
  | tag => exact absurd hkind hnotTag
  | leaf => exact absurd hkind hnotLeaf

/-- A step down leads to an instance from a tag node only, and from there always. -/
theorem isInstance_of_enter (h : place.enter name = .ok next) :
    next.isInstance = place.isTag := by
  cases hTag : place.isTag with
  | true =>
    rw [enter_of_isTag hTag, Except.ok.injEq] at h
    rw [← h]
    rfl
  | false =>
    obtain ⟨child, -, rfl⟩ :=
      (enter_eq_ok_iff_of_not_isTag hTag (not_isLeaf_of_enter h)).mp h
    rfl

/-- A step that cannot be made: behind a leaf there is nothing, and elsewhere the name is declared
nowhere. -/
theorem enter_eq_error {fault : PathFault} (h : place.enter name = .error fault) :
    fault = if place.isLeaf then .pastLeaf else .undeclared := by
  rw [enter] at h
  -- a step fails at a leaf, or for want of the child that is asked for
  by_cases hTag : place.isTag = true
  · rw [if_pos hTag] at h
    exact absurd h (by simp)
  · rw [if_neg hTag] at h
    by_cases hLeaf : place.isLeaf = true
    · rw [if_pos hLeaf, Except.error.injEq] at h
      rw [if_pos hLeaf, h]
    · rw [if_neg hLeaf] at h ⊢
      cases hchild : place.node.child? name with
      | some child => simp [hchild] at h
      | none =>
        rw [hchild] at h
        exact (Except.error.inj h).symm

/-! ## The first error -/

/-- Following a path fails at the first step that cannot be made, and blames the way up to it. -/
theorem follow_eq_error_iff {walked : Path} {e : Error} :
    place.follow walked path = .error e ↔
      ∃ before name rest last fault, path = before ++ name :: rest ∧ place.Leads before last ∧
        last.enter name = .error fault ∧ e = .path (walked ++ before ++ [name]) fault := by
  -- on the path: the first step fails, or the rest of the path does
  induction path generalizing place walked with
  | nil =>
    rw [follow]
    simp
  | cons first rest ih =>
    rw [follow]
    constructor
    · intro h
      cases henter : place.enter first with
      | error fault =>
        rw [henter] at h
        refine ⟨[], first, rest, place, fault, rfl, .here _, henter, ?_⟩
        rw [List.append_nil]
        exact (Except.error.inj h).symm
      | ok next =>
        rw [henter] at h
        obtain ⟨before, name, after, last, fault, rfl, hLeads, hfault, rfl⟩ := ih.mp h
        exact ⟨first :: before, name, after, last, fault, rfl, .step henter hLeads, hfault,
          by simp⟩
    · -- a path that fails does so at its first step or past it
      rintro ⟨before, name, after, last, fault, hpath, hLeads, hfault, rfl⟩
      cases before with
      | nil =>
        obtain ⟨rfl, rfl⟩ := List.cons.inj hpath
        rw [leads_nil_iff.mp hLeads] at hfault
        rw [hfault]
        simp
      | cons second between =>
        obtain ⟨rfl, rfl⟩ := List.cons.inj hpath
        obtain ⟨next, henter, hrest⟩ := leads_cons_iff.mp hLeads
        rw [henter]
        exact ih.mpr ⟨between, name, after, last, fault, rfl, hrest, hfault, by simp⟩

end Place

/-! ## What resolving finds -/

variable {schema : Schema}

/-- The rules give the places to which paths lead. -/
theorem Orderly.names_iff_leads (h : schema.Orderly) {path : Path} {place : Place} :
    schema.Names path place ↔ schema.rootPlace.Leads path place := by
  have hroot : schema.rootPlace.node.Everywhere Node.Placed := h.placed
  -- each name is declared once, so that what is declared under a name is what is found there
  have hfound : ∀ {path : Path} {place : Place}, schema.rootPlace.Leads path place →
      ∀ name child, (name, child) ∈ place.node.children ↔ place.node.child? name = some child :=
    fun hLeads _ _ => Keyed.mem_iff_get? (Place.everywhere_of_leads hroot hLeads).here.ordered
  constructor
  · intro hNames
    -- on the grammar, whose last step is either a child or an instance
    induction hNames with
    | root => exact .here _
    | @child path place name child _ hkind hmem ih =>
      obtain ⟨hTag, hLeaf⟩ := Place.plain_of_kind hkind
      have henter : place.enter name = .ok (.declared child) :=
        (Place.enter_eq_ok_iff_of_not_isTag hTag hLeaf).mpr ⟨child, (hfound ih _ _).mp hmem, rfl⟩
      exact Place.leads_snoc_iff.mpr ⟨place, ih, henter⟩
    | @inside path tag name _ hkind ih =>
      have hTag : (Place.declared tag).isTag = true := Place.isTag_iff_kind.mpr hkind
      exact Place.leads_snoc_iff.mpr ⟨.declared tag, ih, Place.enter_of_isTag hTag name⟩
  · -- along the way, what has been walked names the place that has been reached
    intro hLeads
    suffices hgoes : ∀ {place last : Place} {rest : Path}, place.Leads rest last → ∀ walked,
        schema.rootPlace.Leads walked place → schema.Names walked place →
        schema.Names (walked ++ rest) last from hgoes hLeads [] (.here _) .root
    intro place last rest hrest
    induction hrest with
    | here place =>
      intro walked _ hwalked
      rwa [List.append_nil]
    | @step place next last name rest henter _ ih =>
      intro walked hreached hwalked
      have hnext : schema.rootPlace.Leads (walked ++ [name]) next :=
        Place.leads_snoc_iff.mpr ⟨place, hreached, henter⟩
      have hstep : schema.Names (walked ++ [name]) next := by
        cases hTag : place.isTag with
        | true =>
          rw [Place.enter_of_isTag hTag, Except.ok.injEq] at henter
          subst henter
          cases place with
          | declared tag => exact .inside name hwalked (Place.isTag_iff_kind.mp hTag)
          | instanceOf tag => exact absurd hTag (by simp [Place.isTag])
        | false =>
          have hLeaf := Place.not_isLeaf_of_enter henter
          obtain ⟨child, hchild, rfl⟩ := (Place.enter_eq_ok_iff_of_not_isTag hTag hLeaf).mp henter
          exact .child hwalked (Place.kind_of_plain hTag hLeaf) ((hfound hreached _ _).mpr hchild)
      have hlast := ih (walked ++ [name]) hnext hstep
      rwa [List.append_assoc, List.singleton_append] at hlast

/-- What leads on from a place along a path has led to it along the part before. -/
theorem declares_of_above {above path : Path} (h : above <+: path)
    (hdeclares : schema.declares path = true) : schema.declares above = true := by
  obtain ⟨rest, rfl⟩ := h
  obtain ⟨last, hLeads⟩ := declares_iff.mp hdeclares
  obtain ⟨place, habove, -⟩ := Place.leads_append_iff.mp hLeads
  exact declares_iff.mpr ⟨place, habove⟩

/-- A leaf is nowhere but at the end of a path. -/
theorem not_isLeaf_of_strictly_above {above path : Path} (h : above <+: path) (hne : above ≠ path)
    (hdeclares : schema.declares path = true) : schema.isLeaf above = false := by
  obtain ⟨rest, rfl⟩ := h
  obtain ⟨last, hLeads⟩ := declares_iff.mp hdeclares
  obtain ⟨place, habove, hrest⟩ := Place.leads_append_iff.mp hLeads
  cases hrest with
  | here => exact absurd (List.append_nil above).symm hne
  | step henter _ =>
    rw [isLeaf_of_resolve (resolve_eq_ok_iff.mpr habove)]
    exact Place.not_isLeaf_of_enter henter

/-- A place is an instance if and only if the path to it ends in a name behind a tag node. -/
theorem isInstance_iff {path : Path} {place : Place} (h : schema.resolve path = .ok place) :
    place.isInstance = true ↔
      ∃ above name, path = above ++ [name] ∧ schema.isTag above = true := by
  have hLeads := resolve_eq_ok_iff.mp h
  -- an instance is what a path leads to whose last step is taken at a tag node
  have hends : ∀ above name, path = above ++ [name] →
      schema.isTag above = place.isInstance := by
    rintro above name rfl
    obtain ⟨parent, hparent, henter⟩ := Place.leads_snoc_iff.mp hLeads
    rw [isTag_of_resolve (resolve_eq_ok_iff.mpr hparent), Place.isInstance_of_enter henter]
  constructor
  · intro hinstance
    rcases List.eq_nil_or_concat path with rfl | ⟨above, name, rfl⟩
    · rw [Place.leads_nil_iff.mp hLeads] at hinstance
      exact absurd hinstance (by simp [rootPlace, Place.isInstance])
    · rw [List.concat_eq_append] at hends ⊢
      exact ⟨above, name, rfl, (hends above name rfl).trans hinstance⟩
  · rintro ⟨above, name, rfl, hTag⟩
    rw [← hends above name rfl, hTag]

/-- No path names both a tag node and a leaf. -/
theorem not_isTag_and_isLeaf (schema : Schema) (path : Path) :
    ¬ (schema.isTag path = true ∧ schema.isLeaf path = true) := by
  rintro ⟨hTag, hLeaf⟩
  cases hdeclared : schema.declared? path with
  | none => simp [isTag, hdeclared] at hTag
  | some node =>
    have hkind : node.kind = .tag ∧ node.kind = .leaf := by
      simpa [isTag, isLeaf, Node.isTag, Node.isLeaf, hdeclared] using And.intro hTag hLeaf
    exact absurd (hkind.1.symm.trans hkind.2) (by decide)

/-- What resolving blames: the shortest part of the path that has no meaning. -/
structure BlamesFirst (schema : Schema) (path shortest : Path) (fault : PathFault) : Prop where
  part : shortest <+: path
  undeclared : schema.declares shortest = false
  /-- Every shorter part has a meaning. -/
  before : ∀ above, above <+: shortest → above ≠ shortest → schema.declares above = true
  /-- Every longer part has none either. -/
  beyond : ∀ longer, shortest <+: longer → schema.declares longer = false
  /-- The last step would lead past a leaf, or to a name that is not declared. -/
  reason : fault = if schema.isLeaf shortest.dropLast then .pastLeaf else .undeclared

/-- A path that does not resolve is refused for its shortest part that does not, with the fault of
the step that fails. -/
theorem blamesFirst_of_resolve {path : Path} {e : Error} (h : schema.resolve path = .error e) :
    ∃ shortest fault, e = .path shortest fault ∧ schema.BlamesFirst path shortest fault := by
  obtain ⟨before, name, rest, last, fault, rfl, hLeads, hfault, rfl⟩ :=
    Place.follow_eq_error_iff.mp h
  have hbefore : schema.resolve before = .ok last := resolve_eq_ok_iff.mpr hLeads
  -- a step that fails has no place to lead to
  have hstuck : schema.declares (before ++ [name]) = false := by
    rw [Bool.eq_false_iff, Ne, declares_iff]
    rintro ⟨place, hplace⟩
    obtain ⟨parent, hparent, henter⟩ := Place.leads_snoc_iff.mp hplace
    rw [hparent.unique hLeads, hfault] at henter
    exact absurd henter (by simp)
  refine ⟨[] ++ before ++ [name], fault, rfl, ?_⟩
  rw [List.nil_append]
  refine ⟨⟨rest, by simp⟩, hstuck, fun above habove hne => ?_, fun longer hlonger => ?_, ?_⟩
  · -- a shorter part ends before the step that fails
    have hpart : above <+: before := by
      rcases List.prefix_concat_iff.mp habove with heq | hpart
      · exact absurd heq hne
      · exact hpart
    exact declares_of_above hpart (declares_iff.mpr ⟨last, hLeads⟩)
  · -- a longer path would have to pass the same step
    rw [Bool.eq_false_iff]
    intro hdeclares
    rw [declares_of_above hlonger hdeclares] at hstuck
    exact absurd hstuck (by simp)
  · rw [List.dropLast_concat, isLeaf_of_resolve hbefore]
    exact Place.enter_eq_error hfault

/-- In an orderly schema, for every path:

* resolving it finds a place if and only if the rules say that the path names that place;
* then the place is an instance if and only if the last name is that of an instance, every part of
  the path has a meaning too, and none of them but the whole is a leaf;
* no path names both a tag node and a leaf;
* where resolving fails, it blames the shortest part of the path that has no meaning. -/
theorem resolve_follows_grammar (h : schema.Orderly) (path : Path) :
    (∀ place, schema.resolve path = .ok place ↔ schema.Names path place) ∧
    (∀ place, schema.resolve path = .ok place →
      (place.isInstance = true ↔
        ∃ above name, path = above ++ [name] ∧ schema.isTag above = true) ∧
      ∀ above, above <+: path →
        schema.declares above = true ∧ (above ≠ path → schema.isLeaf above = false)) ∧
    ¬ (schema.isTag path = true ∧ schema.isLeaf path = true) ∧
    ∀ e, schema.resolve path = .error e →
      ∃ shortest fault, e = .path shortest fault ∧ schema.BlamesFirst path shortest fault := by
  refine ⟨fun place => ?_, fun place hplace => ⟨isInstance_iff hplace, fun above habove => ?_⟩,
    not_isTag_and_isLeaf schema path, fun e he => blamesFirst_of_resolve he⟩
  · rw [resolve_eq_ok_iff, h.names_iff_leads]
  · have hdeclares : schema.declares path = true :=
      declares_iff.mpr ⟨place, resolve_eq_ok_iff.mp hplace⟩
    exact ⟨declares_of_above habove hdeclares,
      fun hne => not_isLeaf_of_strictly_above habove hne hdeclares⟩

end RouterConfig.Schema

namespace RouterConfig

namespace Sample

/-- Interfaces have units, which are instances inside of instances, and some positions have a
priority with or without an owner. -/
def layered : Keyed Schema.Definition :=
  [("interface",
    { kind := .tag, owner? := some "net", priority? := some 300,
      children :=
        [("mtu", { kind := .leaf, priority? := some 7 }),
          ("unit", { kind := .tag, children := [("mtu", { kind := .leaf })] })] }),
    ("system",
      { owner? := some "host",
        children :=
          [("name", { kind := .leaf, owner? := some "host", priority? := some 300 }),
            ("ssh", { priority? := some (-5) })] })]

def layeredSchema : Schema := (Schema.ofDefinitions layered).toOption.getD ⟨[]⟩

theorem layered_orderly : Schema.OrderlyAll layered :=
  ⟨by unfold Keyed.Ordered; decide, Schema.orderly_of_eachOrderly layered (by decide)⟩

theorem layeredSchema_orderly : layeredSchema.Orderly := ⟨layered, layered_orderly, rfl⟩

end Sample

namespace Schema

/-- Instances that are called like what is declared are instances where an instance stands, and what
is declared where a child does; behind the leaf the path is blamed as a whole. -/
theorem resolve_follows_grammar_of_layered :
    Sample.layeredSchema.Orderly ∧
    (∃ leaf, Sample.layeredSchema.Names ["interface", "unit", "unit", "mtu", "mtu"]
        (.declared leaf) ∧
      leaf.kind = .leaf) ∧
    ∃ e, Sample.layeredSchema.resolve ["interface", "unit", "unit", "mtu", "mtu", "mtu"] =
        .error e ∧
      ∃ shortest fault, e = .path shortest fault ∧
        Sample.layeredSchema.BlamesFirst ["interface", "unit", "unit", "mtu", "mtu", "mtu"] shortest
          fault := by
  have hgrammar := resolve_follows_grammar Sample.layeredSchema_orderly
  refine ⟨Sample.layeredSchema_orderly, ⟨_, ((hgrammar _).1 _).mp rfl, rfl⟩, _, rfl, ?_⟩
  exact (hgrammar ["interface", "unit", "unit", "mtu", "mtu", "mtu"]).2.2.2 _ rfl

end Schema

end RouterConfig
