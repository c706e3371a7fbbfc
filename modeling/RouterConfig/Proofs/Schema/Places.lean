import RouterConfig.Proofs.Keyed.Lookup
import RouterConfig.Schema.Definition
import RouterConfig.Schema.Resolve

/-!
# RouterConfig — the places of a schema

`Place.Leads` says where a path leads without saying what goes wrong where it leads nowhere, and is
what resolving decides. What compiling checks of one definition holds of the node that it becomes
(`Node.Regular`), and so of every place of a compiled schema. Main results:

* `Schema.resolve_eq_ok_iff` — resolving a path succeeds if and only if it leads to a place;
* `Schema.Compiled.everywhere` — what definitions give to the nodes that they become holds of all
  nodes of a compiled schema;
* `Schema.regular_of_leads` — every place of a compiled schema is declared by a regular node.
-/

namespace RouterConfig.Schema

/-! ## Where paths lead -/

/-- The place at the root. -/
def rootPlace (schema : Schema) : Place := .declared schema.rootNode

/-- Following `path` down from a place ends at `last`. -/
inductive Place.Leads : Place → Path → Place → Prop where
  | here (place : Place) : Leads place [] place
  | step {place next last : Place} {name : String} {rest : Path} :
    place.enter name = .ok next → Leads next rest last → Leads place (name :: rest) last

namespace Place

theorem leads_nil_iff {place last : Place} : place.Leads [] last ↔ last = place := by
  constructor
  · rintro ⟨⟩
    rfl
  · rintro rfl
    exact .here _

/-- A path leads on by its first step and then by the rest of it. -/
theorem leads_cons_iff {place last : Place} {name : String} {rest : Path} :
    place.Leads (name :: rest) last ↔
      ∃ next, place.enter name = .ok next ∧ next.Leads rest last := by
  constructor
  · rintro (_ | ⟨henter, hrest⟩)
    exact ⟨_, henter, hrest⟩
  · rintro ⟨next, henter, hrest⟩
    exact .step henter hrest

/-- A path leads to one place only. -/
theorem Leads.unique {place last last' : Place} {path : Path} (h : place.Leads path last)
    (h' : place.Leads path last') : last = last' := by
  induction h with
  | here => exact (leads_nil_iff.mp h').symm
  | step henter _ ih =>
    obtain ⟨next', henter', hrest'⟩ := leads_cons_iff.mp h'
    rw [henter, Except.ok.injEq] at henter'
    exact ih (henter' ▸ hrest')

/-- A path of two parts leads to where its second part leads from where the first does. -/
theorem leads_append_iff {place last : Place} {p q : Path} :
    place.Leads (p ++ q) last ↔ ∃ next, place.Leads p next ∧ next.Leads q last := by
  -- on the first path, whose steps are those of both paths together
  induction p generalizing place with
  | nil =>
    constructor
    · intro h
      exact ⟨place, .here _, h⟩
    · rintro ⟨next, hp, hq⟩
      rwa [leads_nil_iff.mp hp] at hq
  | cons name rest ih =>
    rw [List.cons_append, leads_cons_iff]
    constructor
    · rintro ⟨first, henter, hrest⟩
      obtain ⟨next, hp, hq⟩ := ih.mp hrest
      exact ⟨next, .step henter hp, hq⟩
    · rintro ⟨next, hp, hq⟩
      obtain ⟨first, henter, hrest⟩ := leads_cons_iff.mp hp
      exact ⟨first, henter, ih.mpr ⟨next, hrest, hq⟩⟩

theorem leads_snoc_iff {place last : Place} {path : Path} {name : String} :
    place.Leads (path ++ [name]) last ↔
      ∃ parent, place.Leads path parent ∧ parent.enter name = .ok last := by
  rw [leads_append_iff]
  simp only [leads_cons_iff, leads_nil_iff, exists_eq_right']

/-- A path can be followed if and only if it leads somewhere, and then that is where it arrives. -/
theorem follow_eq_ok_iff {place last : Place} {walked path : Path} :
    place.follow walked path = .ok last ↔ place.Leads path last := by
  induction path generalizing place walked with
  | nil => rw [follow, leads_nil_iff, Except.ok.injEq, eq_comm]
  | cons name rest ih =>
    rw [follow, leads_cons_iff]
    cases place.enter name with
    | error fault => simp
    | ok next => simp [ih]

/-- Nothing is below a leaf. -/
theorem not_isLeaf_of_enter {place next : Place} {name : String} (h : place.enter name = .ok next) :
    place.isLeaf = false := by
  cases place with
  | instanceOf tag => rfl
  | declared node =>
    rw [enter] at h
    by_cases hTag : (declared node).isTag = true
    · have hkind : node.kind = .tag := by simpa [isTag, Node.isTag] using hTag
      simp [isLeaf, Node.isLeaf, hkind]
    · rw [if_neg hTag] at h
      by_cases hLeaf : (declared node).isLeaf = true
      · rw [if_pos hLeaf] at h
        exact absurd h (by simp)
      · simpa using hLeaf

/-- At a tag node every name leads to an instance. -/
theorem enter_of_isTag {place : Place} (h : place.isTag = true) (name : String) :
    place.enter name = .ok (.instanceOf place.node) := by
  rw [enter, if_pos h]

theorem not_isLeaf_of_isTag {place : Place} (h : place.isTag = true) : place.isLeaf = false :=
  not_isLeaf_of_enter (enter_of_isTag h "")

/-- Elsewhere, leaves apart, the declared names lead to what is declared under them. -/
theorem enter_eq_ok_iff_of_not_isTag {place next : Place} {name : String}
    (hTag : place.isTag = false) (hLeaf : place.isLeaf = false) :
    place.enter name = .ok next ↔
      ∃ child, place.node.child? name = some child ∧ next = .declared child := by
  rw [enter, if_neg (by simp [hTag]), if_neg (by simp [hLeaf])]
  cases place.node.child? name with
  | none => simp
  | some child => simp [eq_comm]

end Place

theorem resolve_eq_ok_iff {schema : Schema} {path : Path} {place : Place} :
    schema.resolve path = .ok place ↔ schema.rootPlace.Leads path place :=
  Place.follow_eq_ok_iff

/-- Above a declared node stands neither a leaf nor a tag node. -/
theorem above_of_declared {schema : Schema} {path : Path} {name : String} {node : Node}
    (h : schema.resolve (path ++ [name]) = .ok (.declared node)) :
    ∃ place, schema.resolve path = .ok place ∧ place.isLeaf = false ∧ place.isTag = false ∧
      place.node.child? name = some node := by
  obtain ⟨place, hplace, henter⟩ := Place.leads_snoc_iff.mp (resolve_eq_ok_iff.mp h)
  have hTag : place.isTag = false := by
    refine Bool.eq_false_iff.mpr fun hTag => ?_
    -- below a tag node stand instances
    rw [Place.enter_of_isTag hTag, Except.ok.injEq] at henter
    exact absurd henter (by simp)
  have hinner : place.isLeaf = false := Place.not_isLeaf_of_enter henter
  obtain ⟨child, hchild, heq⟩ := (Place.enter_eq_ok_iff_of_not_isTag hTag hinner).mp henter
  obtain rfl : node = child := Place.declared.inj heq
  exact ⟨place, resolve_eq_ok_iff.mpr hplace, hinner, hTag, hchild⟩

/-- A path is declared if and only if it leads somewhere. -/
theorem declares_iff {schema : Schema} {path : Path} :
    schema.declares path = true ↔ ∃ place, schema.rootPlace.Leads path place := by
  rw [declares]
  cases h : schema.resolve path with
  | ok place => simpa [Except.toBool] using ⟨place, resolve_eq_ok_iff.mp h⟩
  | error e =>
    simp only [Except.toBool, Bool.false_eq_true, false_iff, not_exists]
    intro place hplace
    rw [resolve_eq_ok_iff.mpr hplace] at h
    exact absurd h (by simp)

theorem declared?_eq_some_iff {schema : Schema} {path : Path} {node : Node} :
    schema.declared? path = some node ↔ schema.rootPlace.Leads path (.declared node) := by
  rw [declared?, ← resolve_eq_ok_iff]
  cases schema.resolve path with
  | error e => simp
  | ok place => cases place <;> simp

theorem declares_nil (schema : Schema) : schema.declares [] = true :=
  declares_iff.mpr ⟨_, .here _⟩

/-! ## Nodes of compiled schemas -/

/-- What compiling promises of the attributes of a single node. -/
structure Node.Regular (n : Node) : Prop where
  /-- A leaf has no children. -/
  leafEnds : n.isLeaf = true → n.children = []
  /-- Lists, valueless leaves, defaults and constraints are a matter of leaves. -/
  attributesOnLeaves : n.isLeaf = false →
    n.multi = false ∧ n.valueless = false ∧ n.default? = none ∧ n.constraint? = none
  /-- A leaf without values has neither a list of them nor a default one. -/
  valuelessAlone : n.valueless = true → n.multi = false ∧ n.default? = none

/-- A leaf of many values takes values. -/
theorem Node.Regular.takesValues {n : Node} (h : n.Regular) (hMulti : n.multi = true) :
    n.valueless = false := by
  cases hless : n.valueless with
  | false => rfl
  | true =>
    have hone : n.multi = false := (h.valuelessAlone hless).1
    exact absurd hMulti (by simp [hone])

/-- A property of a node and of all below it. -/
inductive Node.Everywhere (P : Node → Prop) : Node → Prop where
  | intro {n : Node} : P n → (∀ entry ∈ n.children, Everywhere P entry.2) → Everywhere P n

theorem Node.Everywhere.here {P : Node → Prop} {n : Node} (h : n.Everywhere P) : P n := by
  cases h
  assumption

theorem Node.Everywhere.child {P : Node → Prop} {n : Node} (h : n.Everywhere P)
    {entry : String × Node} (hmem : entry ∈ n.children) : entry.2.Everywhere P := by
  cases h with
  | intro _ hbelow => exact hbelow entry hmem

theorem bind_eq_ok {ε α β : Type} {x : Except ε α} {f : α → Except ε β} {b : β}
    (h : (x >>= f) = .ok b) : ∃ a, x = .ok a ∧ f a = .ok b := by
  cases x with
  | error e => exact absurd h (by simp [bind, Except.bind])
  | ok a => exact ⟨a, rfl, h⟩

namespace Definition

/-- The default of a definition, ready for use. -/
def readDefault (d : Definition) (path : Path) : Except Error (Option Tree) :=
  match d.default? with
  | none => .ok none
  | some value =>
    match defaultTree d.multi value with
    | .ok tree => .ok (some tree)
    | .error fault => .error (.definition path fault)

/-- The constraint of a definition, ready for use. -/
def readConstraint (d : Definition) : Except Error (Option Constraint) :=
  match d.constraint? with
  | none => .ok none
  | some text =>
    match Constraint.ofText? text with
    | some c => .ok (some c)
    | none => .error (.unreadable .pattern)

/-- Without a fault of the attributes the default is read and then the constraint. -/
theorem attributes_eq_bind {d : Definition} {path : Path} {belowTag : Bool}
    (hfault : d.attributeFault? belowTag = none) :
    d.attributes path belowTag = d.readDefault path >>= fun default? =>
      d.readConstraint >>= fun constraint? => .ok (default?, constraint?) := by
  have hconstraint : ∀ tree? : Option Tree,
      (match d.constraint? with
        | none => .ok (tree?, none)
        | some text =>
          match Constraint.ofText? text with
          | some c => .ok (tree?, some c)
          | none => .error (.unreadable .pattern)) =
      d.readConstraint >>= fun constraint? => .ok (tree?, constraint?) := by
    intro tree?
    rw [readConstraint]
    cases d.constraint? with
    | none => rfl
    | some text =>
      dsimp only
      cases Constraint.ofText? text <;> rfl
  -- the default is read first, and its failure is the one reported
  rw [attributes, hfault, readDefault]
  cases d.default? with
  | none => exact hconstraint none
  | some value =>
    cases h : defaultTree d.multi value with
    | error fault =>
      simp only [h]
      rfl
    | ok tree =>
      simp only [h]
      exact hconstraint (some tree)

/-- A default that is read is the tree that the value of the definition was compiled to. -/
theorem readDefault_eq_ok_some {d : Definition} {path : Path} {tree : Tree}
    (h : d.readDefault path = .ok (some tree)) :
    ∃ value, d.default? = some value ∧ defaultTree d.multi value = .ok tree := by
  rw [readDefault] at h
  cases hd : d.default? with
  | none => simp [hd] at h
  | some value =>
    cases hvalue : defaultTree d.multi value with
    | error fault => simp [hd, hvalue] at h
    | ok tree' =>
      simp only [hd, hvalue, Except.ok.injEq, Option.some.injEq] at h
      exact ⟨value, rfl, h ▸ hvalue⟩

/-- Attributes are only ready for use where no rule is broken. They are those that are read. -/
theorem attributes_eq_ok {d : Definition} {path : Path} {belowTag : Bool}
    {default? : Option Tree} {constraint? : Option Constraint}
    (h : d.attributes path belowTag = .ok (default?, constraint?)) :
    d.attributeFault? belowTag = none ∧ d.readDefault path = .ok default? ∧
      d.readConstraint = .ok constraint? := by
  cases hfault : d.attributeFault? belowTag with
  | some fault =>
    rw [attributes, hfault] at h
    exact absurd h (by simp)
  | none =>
    rw [attributes_eq_bind hfault] at h
    obtain ⟨tree?, htree, h⟩ := bind_eq_ok h
    obtain ⟨c?, hc, h⟩ := bind_eq_ok h
    obtain ⟨rfl, rfl⟩ := Prod.mk.inj (Except.ok.inj h)
    exact ⟨rfl, htree, hc⟩

/-- What the rules on attributes say of a definition that breaks none. -/
theorem rules_of_attributeFault? {d : Definition} {belowTag : Bool}
    (h : d.attributeFault? belowTag = none) :
    (d.kind = .leaf → d.children = []) ∧
      (d.kind ≠ .leaf → d.multi = false ∧ d.valueless = false ∧ d.default? = none ∧
        d.constraint? = none) ∧
      (d.valueless = true → d.multi = false ∧ d.default? = none) ∧
      (belowTag = true → d.owner? = none) := by
  -- none of the four faults is found, so each of the four rules holds
  rw [attributeFault?] at h
  split at h
  · simp at h
  · rename_i hchildren
    split at h
    · simp at h
    · rename_i hattribute
      split at h
      · simp at h
      · rename_i hvalueless
        split at h
        · simp at h
        · rename_i howner
          refine ⟨fun hleaf => ?_, fun hleaf => ?_, fun hless => ?_, fun hbelow => ?_⟩
          · simpa [hleaf] using hchildren
          · simpa [hleaf, and_assoc] using hattribute
          · simpa [hless] using hvalueless
          · simpa [hbelow] using howner

/-- The node that a definition becomes, with the attributes that were read from it and the nodes
that its children became. -/
def node (d : Definition) (default? : Option Tree) (constraint? : Option Constraint)
    (nodes : List (String × Node)) : Node :=
  ⟨d.kind, d.multi, d.valueless, d.hidden, d.owner?, d.priority?, default?, constraint?, d.help?,
    nodes⟩

/-- A definition is compiled by making its attributes ready and compiling its children. -/
theorem compile_eq_ok_iff {d : Definition} {path : Path} {belowTag : Bool} {n : Node} :
    d.compile path belowTag = .ok n ↔ ∃ default? constraint? nodes,
      d.attributes path belowTag = .ok (default?, constraint?) ∧
        compileAll path (belowTag || d.kind = .tag) d.children = .ok nodes ∧
        d.node default? constraint? nodes = n := by
  cases d
  rw [compile]
  constructor
  · intro h
    obtain ⟨⟨default?, constraint?⟩, hattributes, h⟩ := bind_eq_ok h
    obtain ⟨nodes, hnodes, h⟩ := bind_eq_ok h
    exact ⟨default?, constraint?, nodes, hattributes, hnodes, Except.ok.inj h⟩
  · rintro ⟨default?, constraint?, nodes, hattributes, hnodes, rfl⟩
    dsimp only at hattributes hnodes ⊢
    rw [hattributes]
    dsimp only [bind, Except.bind]
    rw [hnodes]
    rfl

theorem compileAll_nil_eq_ok_iff {path : Path} {belowTag : Bool} {nodes : List (String × Node)} :
    compileAll path belowTag [] = .ok nodes ↔ nodes = [] := by
  rw [compileAll, Except.ok.injEq, eq_comm]

/-- A list of definitions is compiled if and only if the first of them and the others are. -/
theorem compileAll_cons_eq_ok_iff {name : String} {d : Definition}
    {rest : List (String × Definition)} {path : Path} {belowTag : Bool}
    {nodes : List (String × Node)} :
    compileAll path belowTag ((name, d) :: rest) = .ok nodes ↔ ∃ first others,
      d.compile (path ++ [name]) belowTag = .ok first ∧
        compileAll path belowTag rest = .ok others ∧ nodes = (name, first) :: others := by
  rw [compileAll]
  constructor
  · intro h
    obtain ⟨first, hfirst, h⟩ := bind_eq_ok h
    obtain ⟨others, hothers, h⟩ := bind_eq_ok h
    exact ⟨first, others, hfirst, hothers, (Except.ok.inj h).symm⟩
  · rintro ⟨first, others, hfirst, hothers, rfl⟩
    rw [hfirst]
    dsimp only [bind, Except.bind]
    rw [hothers]

/-- A property that definitions give to the nodes that they become, whatever is below them. -/
def Gives (P : Node → Prop) : Prop :=
  ∀ (d : Definition) (path : Path) (belowTag : Bool) (default? : Option Tree)
    (constraint? : Option Constraint) (nodes : List (String × Node)),
    d.attributes path belowTag = .ok (default?, constraint?) → (d.children = [] → nodes = []) →
    P (d.node default? constraint? nodes)

mutual

/-- What every definition gives the nodes of a compiled schema have, wherever they are. -/
private theorem compile_everywhere {P : Node → Prop} (hP : Gives P) : ∀ (d : Definition)
    (path : Path) (belowTag : Bool) (node : Node),
    d.compile path belowTag = .ok node → node.Everywhere P
  | ⟨kind, multi, valueless, hidden, owner?, priority?, default?, constraint?, help?, children⟩,
      path, belowTag, node, h => by
    obtain ⟨default', constraint', nodes, hattributes, hnodes, rfl⟩ := compile_eq_ok_iff.mp h
    refine .intro (hP _ path belowTag default' constraint' nodes hattributes fun hnil => ?_)
      (compileAll_everywhere hP children path _ nodes hnodes)
    rw [hnil] at hnodes
    exact compileAll_nil_eq_ok_iff.mp hnodes

/-- What every definition gives holds of the nodes that a list of definitions gives. -/
private theorem compileAll_everywhere {P : Node → Prop} (hP : Gives P) :
    ∀ (ds : List (String × Definition)) (path : Path) (belowTag : Bool)
    (nodes : List (String × Node)),
    compileAll path belowTag ds = .ok nodes → ∀ entry ∈ nodes, entry.2.Everywhere P
  | [], path, belowTag, nodes, h => by
    rw [compileAll_nil_eq_ok_iff.mp h]
    exact List.forall_mem_nil _
  | (name, d) :: rest, path, belowTag, nodes, h => by
    obtain ⟨first, others, hfirst, hothers, rfl⟩ := compileAll_cons_eq_ok_iff.mp h
    intro entry hmem
    rcases List.mem_cons.mp hmem with rfl | hmem
    · exact compile_everywhere hP d _ _ first hfirst
    · exact compileAll_everywhere hP rest path belowTag others hothers entry hmem

end

/-- A definition that breaks no rule has regular attributes. -/
private theorem gives_regular : Gives Node.Regular := by
  intro d path belowTag default? constraint? nodes h hnodes
  obtain ⟨hfault, hdefault, hconstraint⟩ := attributes_eq_ok h
  obtain ⟨hchildren, hattribute, hvalueless, -⟩ := rules_of_attributeFault? hfault
  -- there is none to read where the definition says nothing
  have hnoDefault : d.default? = none → default? = none := by
    intro hd
    rw [readDefault, hd, Except.ok.injEq] at hdefault
    exact hdefault.symm
  have hnoConstraint : d.constraint? = none → constraint? = none := by
    intro hc
    rw [readConstraint, hc, Except.ok.injEq] at hconstraint
    exact hconstraint.symm
  constructor
  · intro hleaf
    exact hnodes (hchildren (of_decide_eq_true hleaf))
  · intro hleaf
    obtain ⟨hmulti, hless, hd, hc⟩ := hattribute (of_decide_eq_false hleaf)
    exact ⟨hmulti, hless, hnoDefault hd, hnoConstraint hc⟩
  · intro hless
    obtain ⟨hmulti, hd⟩ := hvalueless hless
    exact ⟨hmulti, hnoDefault hd⟩

end Definition

/-- The schemas that definitions can define. -/
def Compiled (schema : Schema) : Prop :=
  ∃ definitions : Keyed Definition, ofDefinitions definitions = .ok schema

/-- What definitions give to the nodes that they become holds everywhere in a compiled schema, if it
holds of the node at the root. -/
theorem Compiled.everywhere {schema : Schema} (h : schema.Compiled) {P : Node → Prop}
    (hP : Definition.Gives P) (hroot : P schema.rootNode) : schema.rootNode.Everywhere P := by
  obtain ⟨definitions, h⟩ := h
  rw [ofDefinitions] at h
  obtain ⟨top, htop, h⟩ := bind_eq_ok h
  rw [Except.ok.injEq] at h
  subst h
  exact .intro hroot (Definition.compileAll_everywhere hP definitions [] false top htop)

theorem Compiled.regular {schema : Schema} (h : schema.Compiled) :
    schema.rootNode.Everywhere Node.Regular := by
  refine h.everywhere Definition.gives_regular
    ⟨fun hleaf => ?_, fun _ => ⟨rfl, rfl, rfl, rfl⟩, fun hless => ?_⟩
  · exact absurd hleaf (by simp [rootNode, Node.isLeaf])
  · exact absurd hless (by simp [rootNode])

/-- What holds at every node below a place holds at every node that a path leads to from it. -/
theorem Place.everywhere_of_leads {P : Node → Prop} {place last : Place} {path : Path}
    (hP : place.node.Everywhere P) (h : place.Leads path last) : last.node.Everywhere P := by
  -- on the steps: an instance is of the node it belongs to, and a child is below it
  induction h with
  | here => exact hP
  | @step place next last name rest henter _ ih =>
    apply ih
    by_cases hTag : place.isTag = true
    · rw [Place.enter_of_isTag hTag, Except.ok.injEq] at henter
      rw [← henter]
      exact hP
    · have hLeaf := Place.not_isLeaf_of_enter henter
      obtain ⟨child, hchild, rfl⟩ :=
        (Place.enter_eq_ok_iff_of_not_isTag (by simpa using hTag) hLeaf).mp henter
      have hmem : (name, child) ∈ place.node.children := by
        rw [Node.child?] at hchild
        exact Keyed.mem_of_get? hchild
      exact hP.child hmem

theorem regular_of_leads {schema : Schema} (hSchema : schema.Compiled) {path : Path}
    {place : Place} (h : schema.rootPlace.Leads path place) : place.node.Regular := by
  have hroot : schema.rootPlace.node.Everywhere Node.Regular := hSchema.regular
  exact (Place.everywhere_of_leads hroot h).here

end RouterConfig.Schema
