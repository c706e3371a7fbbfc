import Mathlib.Data.List.Forall2
import RouterConfig.Proofs.Schema.Grammar

/-!
# RouterConfig — which definitions make a schema

Compiling checks one definition after the other, and hands on to what is below whether it stands
below a tag node. `WellFormed` says what is asked of a single definition that stands below given
others, and `Becomes` what is made of it. Main results:

* `Definition.attributes_eq_ok_iff` — when the attributes of a definition are ready for use, and
  what they then are;
* `Definition.compile_exists_iff` — a definition is compiled if and only if it and all below it are
  well formed;
* `Definition.becomes_of_compile` — what is compiled has the nodes and the attributes of what was
  defined;
* `compiles_iff_wellFormed` — the two for whole schemas.
-/

namespace RouterConfig

/-- The text that stands for a value (`scalar_text`): a text itself, and a truth value or a number
as YAML writes it. Nothing else has one: neither null nor what is made of other values or tagged. -/
inductive Yaml.Value.Spells : Yaml.Value → String → Prop where
  | text (t : String) : Spells (.scalar (.text t)) t
  | yes : Spells (.scalar (.bool true)) "true"
  | no : Spells (.scalar (.bool false)) "false"
  | whole (n : Int) : Spells (.scalar (.integer n)) (toString n)
  | real (x : Double) : Spells (.scalar (.real x)) x.text
  | infinity : Spells (.scalar (.infinity false)) ".inf"
  | negativeInfinity : Spells (.scalar (.infinity true)) "-.inf"
  | notANumber : Spells (.scalar .notANumber) ".nan"

/-- A text, a truth value or a number. -/
def Yaml.Value.Simple (value : Yaml.Value) : Prop := ∃ text, value.Spells text

namespace Schema

/-! ## Default values -/

/-- A default is read as the text that its kind of value spells, and as nothing where it spells
none. -/
theorem defaultText?_eq_some_iff {value : Yaml.Value} {text : String} :
    defaultText? value = some text ↔ value.Spells text := by
  -- by the kind of the value; each spelling is the text that is read for its kind
  constructor
  · intro h
    cases value with
    | scalar s =>
      cases s with
      | null => exact absurd h (by simp [defaultText?, Yaml.Scalar.configText?])
      | bool b => cases b <;> exact Option.some.inj h ▸ by constructor
      | integer n => exact Option.some.inj h ▸ .whole n
      | real x => exact Option.some.inj h ▸ .real x
      | infinity negative => cases negative <;> exact Option.some.inj h ▸ by constructor
      | notANumber => exact Option.some.inj h ▸ .notANumber
      | text t => exact Option.some.inj h ▸ .text t
    | sequence items => exact absurd h (by simp [defaultText?])
    | mapping entries => exact absurd h (by simp [defaultText?])
    | tagged name inner => exact absurd h (by simp [defaultText?])
  · intro h
    cases h <;> rfl

/-- The node that a default value stands for (`default_value`): the text of a single value, as a
scalar or as a list of one, or the texts of a sequence, item by item and only at a leaf of many
values. -/
inductive DefaultOf : (multi : Bool) → Yaml.Value → Tree → Prop where
  | single {value : Yaml.Value} {text : String} :
    value.Spells text → DefaultOf false value (.scalar text)
  | one {value : Yaml.Value} {text : String} :
    value.Spells text → DefaultOf true value (.list [text])
  | many {items : List Yaml.Value} {texts : List String} :
    List.Forall₂ Yaml.Value.Spells items texts → DefaultOf true (.sequence items) (.list texts)

/-- A value that a leaf of many values, or of one, may have by default. -/
def MayDefault (multi : Bool) (value : Yaml.Value) : Prop :=
  value.Simple ∨ multi = true ∧ ∃ items, value = .sequence items ∧ ∀ item ∈ items, item.Simple

/-- A list of defaults is read as the texts that its items spell, if each of them spells one. -/
theorem mapM_defaultText?_eq_some_iff {items : List Yaml.Value} {texts : List String} :
    items.mapM defaultText? = some texts ↔ List.Forall₂ Yaml.Value.Spells items texts := by
  induction items generalizing texts with
  | nil => simp [eq_comm]
  | cons item rest ih =>
    rw [List.mapM_cons]
    constructor
    · intro h
      obtain ⟨text, htext, h⟩ := Option.bind_eq_some_iff.mp h
      obtain ⟨others, hothers, h⟩ := Option.bind_eq_some_iff.mp h
      rw [← Option.some.inj h]
      exact .cons (defaultText?_eq_some_iff.mp htext) (ih.mp hothers)
    · rintro (_ | ⟨htext, hothers⟩)
      rw [defaultText?_eq_some_iff.mpr htext, ih.mpr hothers]
      rfl

/-- What is no sequence is read as a whole. -/
theorem defaultTree_of_not_sequence {multi : Bool} {value : Yaml.Value}
    (h : ∀ items, value ≠ .sequence items) :
    defaultTree multi value =
      match defaultText? value with
      | some text => .ok (if multi then .list [text] else .scalar text)
      | none => .error .compositeDefault := by
  cases value with
  | sequence items => exact absurd rfl (h items)
  | _ => rfl

/-- A default is compiled to the tree that its kind of value and `multi` ask for, and refused where
they ask for none. -/
theorem defaultTree_eq_ok_iff {multi : Bool} {value : Yaml.Value} {tree : Tree} :
    defaultTree multi value = .ok tree ↔ DefaultOf multi value tree := by
  by_cases hsequence : ∃ items, value = .sequence items
  · -- a sequence has no text, so that it is read item by item or refused
    obtain ⟨items, rfl⟩ := hsequence
    have hnone : ∀ text, ¬ (Yaml.Value.sequence items).Spells text := by
      rintro text ⟨⟩
    rw [defaultTree]
    cases multi with
    | false =>
      simp only [Bool.false_eq_true, if_false, reduceCtorEq, false_iff]
      rintro ⟨htext⟩
      exact hnone _ htext
    | true =>
      rw [if_pos rfl]
      constructor
      · intro h
        cases htexts : items.mapM defaultText? with
        | none => simp [htexts] at h
        | some texts =>
          rw [htexts] at h
          rw [← Except.ok.inj h]
          exact .many (mapM_defaultText?_eq_some_iff.mp htexts)
      · rintro (_ | ⟨htext⟩ | ⟨htexts⟩)
        · exact absurd htext (hnone _)
        · rw [mapM_defaultText?_eq_some_iff.mpr htexts]
  · rw [defaultTree_of_not_sequence fun items h => hsequence ⟨items, h⟩]
    -- what is no sequence has a text or none, and the shape depends on `multi` alone
    constructor
    · intro h
      cases htext : defaultText? value with
      | none => simp [htext] at h
      | some text =>
        rw [htext] at h
        rw [← Except.ok.inj h]
        cases multi with
        | true => exact .one (defaultText?_eq_some_iff.mp htext)
        | false => exact .single (defaultText?_eq_some_iff.mp htext)
    · rintro (⟨htext⟩ | ⟨htext⟩ | _)
      · rw [defaultText?_eq_some_iff.mpr htext]
        rfl
      · rw [defaultText?_eq_some_iff.mpr htext]
        rfl
      · exact absurd ⟨_, rfl⟩ hsequence

/-- A value may be a default if and only if there is a tree that it is the default of. -/
theorem mayDefault_iff {multi : Bool} {value : Yaml.Value} :
    MayDefault multi value ↔ ∃ tree, DefaultOf multi value tree := by
  constructor
  · rintro (⟨text, htext⟩ | ⟨rfl, items, rfl, hitems⟩)
    · cases multi with
      | true => exact ⟨_, .one htext⟩
      | false => exact ⟨_, .single htext⟩
    · suffices htexts : ∃ texts, List.Forall₂ Yaml.Value.Spells items texts by
        obtain ⟨texts, htexts⟩ := htexts
        exact ⟨_, .many htexts⟩
      -- on the items, each of which has a text of its own
      induction items with
      | nil => exact ⟨[], .nil⟩
      | cons item rest ih =>
        obtain ⟨text, htext⟩ := hitems item (List.mem_cons_self ..)
        obtain ⟨texts, htexts⟩ := ih fun other hother =>
          hitems other (List.mem_cons_of_mem _ hother)
        exact ⟨text :: texts, .cons htext htexts⟩
  · rintro ⟨tree, h⟩
    cases h with
    | single htext => exact .inl ⟨_, htext⟩
    | one htext => exact .inl ⟨_, htext⟩
    | @many items texts htexts =>
      refine .inr ⟨rfl, items, rfl, fun item hitem => ?_⟩
      obtain ⟨index, hindex, rfl⟩ := List.getElem_of_mem hitem
      exact ⟨_, htexts.get hindex (htexts.length_eq ▸ hindex)⟩

/-! ## Constraints -/

/-- The constraint that a pattern text makes (`compile`): the text is put into a group between the
two anchors, and this must be a pattern as a whole, and none too large. -/
structure Constraint.Wraps (text : String) (c : Constraint) : Prop where
  source : c.text = "^(?:" ++ text ++ ")$"
  read : ∃ e, Pattern.Expression.ofText? ("^(?:" ++ text ++ ")$").toList = some e ∧
    (Pattern.Plan.ofExpression e).fits = true ∧ c.pattern = e.pattern

/-- A constraint is compiled if and only if the text between the anchors can be read and fits, and
then to that text and what was read. -/
theorem Constraint.ofText?_eq_some_iff {text : String} {c : Constraint} :
    Constraint.ofText? text = some c ↔ Constraint.Wraps text c := by
  rw [Constraint.ofText?, Constraint.anchored]
  constructor
  · intro h
    -- the text is read, and what is read is anchored only if it is not too deep
    split at h
    · next e he =>
      split at h
      · next hfits =>
        rw [← Option.some.inj h]
        exact ⟨rfl, e, he, hfits, rfl⟩
      · exact absurd h (by simp)
    · exact absurd h (by simp)
  · rintro ⟨htext, e, he, hfits, hpattern⟩
    rw [he]
    dsimp only
    rw [if_pos hfits, ← htext, ← hpattern]

namespace Definition

/-! ## Single definitions -/

/-- What is asked of a definition, which may stand below a tag node. -/
structure WellFormed (d : Definition) (belowTag : Prop) : Prop where
  /-- A leaf has no children. -/
  leafEnds : d.kind = .leaf → d.children = []
  /-- Lists, valueless leaves, defaults and constraints are a matter of leaves. -/
  attributesOnLeaves : d.kind ≠ .leaf →
    d.multi = false ∧ d.valueless = false ∧ d.default? = none ∧ d.constraint? = none
  /-- A leaf without values has neither a list of them nor a default one. -/
  valuelessAlone : d.valueless = true → d.multi = false ∧ d.default? = none
  /-- Nobody owns what is below a tag node. -/
  ownerAbove : belowTag → d.owner? = none
  default : ∀ value, d.default? = some value → MayDefault d.multi value
  /-- The constraint is a pattern when it stands between anchors. -/
  constraint : ∀ text, d.constraint? = some text → ∃ c, Constraint.Wraps text c

/-- A node has the attributes that a definition gives to it. -/
structure Shows (d : Definition) (n : Node) : Prop where
  kind : n.kind = d.kind
  multi : n.multi = d.multi
  valueless : n.valueless = d.valueless
  hidden : n.hidden = d.hidden
  owner : n.owner? = d.owner?
  priority : n.priority? = d.priority?
  default : Option.Rel (DefaultOf d.multi) d.default? n.default?
  constraint : Option.Rel Constraint.Wraps d.constraint? n.constraint?
  help : n.help? = d.help?

/-- The attributes of a definition have no fault if and only if they keep the four rules about
leaves, their attributes, valueless leaves and owners. -/
theorem attributeFault?_eq_none_iff {d : Definition} {belowTag : Bool} :
    d.attributeFault? belowTag = none ↔
      (d.kind = .leaf → d.children = []) ∧
      (d.kind ≠ .leaf → d.multi = false ∧ d.valueless = false ∧ d.default? = none ∧
        d.constraint? = none) ∧
      (d.valueless = true → d.multi = false ∧ d.default? = none) ∧
      (belowTag = true → d.owner? = none) := by
  refine ⟨rules_of_attributeFault?, fun ⟨hleaf, hattribute, hvalueless, howner⟩ => ?_⟩
  -- each rule keeps one of the four faults from being found
  have hchildren : (d.kind = .leaf && !d.children.isEmpty) = false := by
    by_cases hkind : d.kind = .leaf
    · simp [hleaf hkind]
    · simp [hkind]
  have hon : (d.kind ≠ .leaf &&
      (d.multi || d.valueless || d.default?.isSome || d.constraint?.isSome)) = false := by
    by_cases hkind : d.kind = .leaf
    · simp [hkind]
    · obtain ⟨hmulti, hless, hdefault, hconstraint⟩ := hattribute hkind
      simp [hmulti, hless, hdefault, hconstraint]
  have halone : (d.valueless && (d.multi || d.default?.isSome)) = false := by
    cases hless : d.valueless with
    | false => rfl
    | true =>
      obtain ⟨hmulti, hdefault⟩ := hvalueless hless
      simp [hmulti, hdefault]
  have hfree : (belowTag && d.owner?.isSome) = false := by
    cases hbelow : belowTag with
    | false => rfl
    | true => simp [howner hbelow]
  rw [attributeFault?, hchildren, hon, halone, hfree]
  rfl

/-- The default of a definition is read if and only if it has none or it is one that its leaf can
have. -/
theorem readDefault_eq_ok_iff {d : Definition} {path : Path} {default? : Option Tree} :
    d.readDefault path = .ok default? ↔ Option.Rel (DefaultOf d.multi) d.default? default? := by
  rw [readDefault]
  -- without a default there is nothing to read, and nothing can be wrong with it
  cases d.default? with
  | none =>
    constructor
    · intro h
      rw [← Except.ok.inj h]
      exact .none
    · rintro ⟨⟩
      rfl
  | some value =>
    constructor
    · intro h
      cases htree : defaultTree d.multi value with
      | error fault => simp [htree] at h
      | ok tree =>
        simp only [htree, Except.ok.injEq] at h
        exact h ▸ .some (defaultTree_eq_ok_iff.mp htree)
    · rintro (htree | _)
      simp only [defaultTree_eq_ok_iff.mpr htree]

/-- The constraint of a definition is read if and only if it has none or the regex engine takes
it. -/
theorem readConstraint_eq_ok_iff {d : Definition} {constraint? : Option Constraint} :
    d.readConstraint = .ok constraint? ↔
      Option.Rel Constraint.Wraps d.constraint? constraint? := by
  rw [readConstraint]
  cases d.constraint? with
  | none =>
    constructor
    · intro h
      rw [← Except.ok.inj h]
      exact .none
    · rintro ⟨⟩
      rfl
  | some text =>
    constructor
    · intro h
      cases hc : Constraint.ofText? text with
      | none => simp [hc] at h
      | some c =>
        simp only [hc, Except.ok.injEq] at h
        exact h ▸ .some (Constraint.ofText?_eq_some_iff.mp hc)
    · rintro (hc | _)
      simp only [Constraint.ofText?_eq_some_iff.mpr hc]

/-- The attributes of a definition are ready for use if no rule is broken and what is said of the
default and of the constraint can be read. -/
theorem attributes_eq_ok_iff {d : Definition} {path : Path} {belowTag : Bool}
    {default? : Option Tree} {constraint? : Option Constraint} :
    d.attributes path belowTag = .ok (default?, constraint?) ↔
      d.attributeFault? belowTag = none ∧
      Option.Rel (DefaultOf d.multi) d.default? default? ∧
      Option.Rel Constraint.Wraps d.constraint? constraint? := by
  rw [← readDefault_eq_ok_iff, ← readConstraint_eq_ok_iff]
  refine ⟨attributes_eq_ok, fun ⟨hfault, hdefault, hconstraint⟩ => ?_⟩
  rw [attributes_eq_bind hfault, hdefault, hconstraint]
  rfl

/-- They can be made ready for use if and only if the definition is well formed. -/
theorem attributes_exists_iff {d : Definition} (path : Path) {belowTag : Bool} :
    (∃ default? constraint?, d.attributes path belowTag = .ok (default?, constraint?)) ↔
      d.WellFormed (belowTag = true) := by
  simp only [attributes_eq_ok_iff, attributeFault?_eq_none_iff]
  -- every rule but those on the two texts is one of the attributes alone
  constructor
  · rintro ⟨default?, constraint?, ⟨hleaf, hattribute, hvalueless, howner⟩, hdefault, hconstraint⟩
    refine ⟨hleaf, hattribute, hvalueless, howner, fun value hvalue => ?_, fun text htext => ?_⟩
    · rw [hvalue] at hdefault
      rcases hdefault with htree | _
      exact mayDefault_iff.mpr ⟨_, htree⟩
    · rw [htext] at hconstraint
      rcases hconstraint with hc | _
      exact ⟨_, hc⟩
  · intro h
    have hdefault : ∃ default?, Option.Rel (DefaultOf d.multi) d.default? default? := by
      cases hvalue : d.default? with
      | none => exact ⟨none, .none⟩
      | some value =>
        obtain ⟨tree, htree⟩ := mayDefault_iff.mp (h.default value hvalue)
        exact ⟨some tree, .some htree⟩
    have hconstraint : ∃ constraint?, Option.Rel Constraint.Wraps d.constraint? constraint? := by
      cases htext : d.constraint? with
      | none => exact ⟨none, .none⟩
      | some text =>
        obtain ⟨c, hc⟩ := h.constraint text htext
        exact ⟨some c, .some hc⟩
    obtain ⟨default?, hdefault⟩ := hdefault
    obtain ⟨constraint?, hconstraint⟩ := hconstraint
    exact ⟨default?, constraint?,
      ⟨h.leafEnds, h.attributesOnLeaves, h.valuelessAlone, h.ownerAbove⟩, hdefault, hconstraint⟩

/-! ## Definitions and all below them -/

/-- A definition stands among and below others: `above` are those on the way down to it. -/
inductive Stands : List (String × Definition) → List (String × Definition) →
    String × Definition → Prop where
  | top {ds : List (String × Definition)} {entry : String × Definition} :
    entry ∈ ds → Stands ds [] entry
  | under {ds above : List (String × Definition)} {parent entry : String × Definition} :
    parent ∈ ds → Stands parent.2.children above entry → Stands ds (parent :: above) entry

/-- All that stands among and below definitions is well formed; `belowTag` tells that all of it
stands below a tag node. -/
def EachWellFormed (ds : List (String × Definition)) (belowTag : Prop) : Prop :=
  ∀ above entry, Stands ds above entry →
    entry.2.WellFormed (belowTag ∨ ∃ parent ∈ above, parent.2.kind = .tag)

theorem not_stands_nil {above : List (String × Definition)} {entry : String × Definition} :
    ¬ Stands [] above entry := by
  rintro (h | ⟨h, -⟩)
  · exact absurd h (by simp)
  · exact absurd h (by simp)

/-- What is asked of definitions is asked of each of them and of what is below it. -/
theorem eachWellFormed_cons_iff {name : String} {d : Definition}
    {rest : List (String × Definition)} {belowTag : Prop} :
    EachWellFormed ((name, d) :: rest) belowTag ↔
      (d.WellFormed belowTag ∧ EachWellFormed d.children (belowTag ∨ d.kind = .tag)) ∧
        EachWellFormed rest belowTag := by
  constructor
  · intro h
    -- what stands at the top of the list, what stands below it, and what stands in the rest
    refine ⟨⟨?_, fun above entry hstands => ?_⟩, fun above entry hstands => ?_⟩
    · have hhere := h [] (name, d) (.top (List.mem_cons_self ..))
      simpa using hhere
    · have hbelow := h _ _ (.under (List.mem_cons_self ..) hstands)
      simpa [or_assoc] using hbelow
    · cases hstands with
      | top hmem => exact h _ _ (.top (List.mem_cons_of_mem _ hmem))
      | under hmem hbelow => exact h _ _ (.under (List.mem_cons_of_mem _ hmem) hbelow)
  · -- and each of these is an entry of one of the three
    rintro ⟨⟨hhere, hbelow⟩, hrest⟩ above entry hstands
    cases hstands with
    | top hmem =>
      rcases List.mem_cons.mp hmem with rfl | hmem
      · simpa using hhere
      · exact hrest _ _ (.top hmem)
    | @under _ above parent _ hmem hchildren =>
      rcases List.mem_cons.mp hmem with rfl | hmem
      · simpa [or_assoc] using hbelow _ _ hchildren
      · exact hrest _ _ (.under hmem hchildren)

mutual

/-- A definition is compiled if and only if it and all below it are well formed. -/
theorem compile_exists_iff : ∀ (d : Definition) (path : Path) (belowTag : Bool),
    (∃ n, d.compile path belowTag = .ok n) ↔
      d.WellFormed (belowTag = true) ∧
        EachWellFormed d.children (belowTag = true ∨ d.kind = .tag)
  | ⟨kind, multi, valueless, hidden, owner?, priority?, default?, constraint?, help?, children⟩,
      path, belowTag => by
    have hflag : (belowTag || kind = .tag) = true ↔ belowTag = true ∨ kind = .tag := by simp
    rw [← attributes_exists_iff path]
    dsimp only
    rw [← hflag, ← compileAll_exists_iff children path (belowTag || kind = .tag)]
    constructor
    · rintro ⟨n, h⟩
      obtain ⟨default', constraint', nodes, hattributes, hnodes, -⟩ := compile_eq_ok_iff.mp h
      exact ⟨⟨default', constraint', hattributes⟩, nodes, hnodes⟩
    · rintro ⟨⟨default', constraint', hattributes⟩, nodes, hnodes⟩
      exact ⟨_, compile_eq_ok_iff.mpr ⟨default', constraint', nodes, hattributes, hnodes, rfl⟩⟩

/-- Some are if and only if each of them and all below it are. -/
theorem compileAll_exists_iff : ∀ (ds : List (String × Definition)) (path : Path)
    (belowTag : Bool),
    (∃ nodes, compileAll path belowTag ds = .ok nodes) ↔ EachWellFormed ds (belowTag = true)
  | [], path, belowTag => by
    exact ⟨fun _ _ _ hstands => absurd hstands not_stands_nil,
      fun _ => ⟨[], compileAll_nil_eq_ok_iff.mpr rfl⟩⟩
  | (name, d) :: rest, path, belowTag => by
    rw [eachWellFormed_cons_iff, ← compile_exists_iff d (path ++ [name]) belowTag,
      ← compileAll_exists_iff rest path belowTag]
    constructor
    · rintro ⟨nodes, h⟩
      obtain ⟨first, others, hfirst, hothers, -⟩ := compileAll_cons_eq_ok_iff.mp h
      exact ⟨⟨first, hfirst⟩, others, hothers⟩
    · rintro ⟨⟨first, hfirst⟩, others, hothers⟩
      exact ⟨_, compileAll_cons_eq_ok_iff.mpr ⟨first, others, hfirst, hothers, rfl⟩⟩

end

/-! ## What is made of definitions -/

mutual

/-- A node has the attributes that a definition gives to it, and so have all nodes below. -/
inductive Becomes : Definition → Node → Prop where
  | intro {d : Definition} {n : Node} :
    d.Shows n → EachBecomes d.children n.children → Becomes d n

/-- Nodes stand under the names of the definitions that they have their attributes from. -/
inductive EachBecomes : List (String × Definition) → List (String × Node) → Prop where
  | nil : EachBecomes [] []
  | cons {name : String} {d : Definition} {n : Node} {ds : List (String × Definition)}
      {nodes : List (String × Node)} :
    Becomes d n → EachBecomes ds nodes → EachBecomes ((name, d) :: ds) ((name, n) :: nodes)

end

mutual

/-- What a definition is compiled to is what it becomes. -/
theorem becomes_of_compile : ∀ (d : Definition) (path : Path) (belowTag : Bool) (n : Node),
    d.compile path belowTag = .ok n → d.Becomes n
  | ⟨kind, multi, valueless, hidden, owner?, priority?, default?, constraint?, help?, children⟩,
      path, belowTag, n, h => by
    obtain ⟨default', constraint', nodes, hattributes, hnodes, rfl⟩ := compile_eq_ok_iff.mp h
    obtain ⟨-, hdefault, hconstraint⟩ := attributes_eq_ok_iff.mp hattributes
    exact .intro ⟨rfl, rfl, rfl, rfl, rfl, rfl, hdefault, hconstraint, rfl⟩
      (eachBecomes_of_compileAll children path _ nodes hnodes)

/-- What a list of definitions is compiled to comes from it, node by node and all the way down. -/
theorem eachBecomes_of_compileAll : ∀ (ds : List (String × Definition)) (path : Path)
    (belowTag : Bool) (nodes : List (String × Node)),
    compileAll path belowTag ds = .ok nodes → EachBecomes ds nodes
  | [], path, belowTag, nodes, h => by
    rw [compileAll_nil_eq_ok_iff.mp h]
    exact .nil
  | (name, d) :: rest, path, belowTag, nodes, h => by
    obtain ⟨first, others, hfirst, hothers, rfl⟩ := compileAll_cons_eq_ok_iff.mp h
    exact .cons (becomes_of_compile d _ _ first hfirst)
      (eachBecomes_of_compileAll rest path belowTag others hothers)

end

end Definition

/-! ## Schemas -/

/-- A default is a list at a leaf of many values, and a scalar at any other. -/
def Node.DefaultFits (n : Node) : Prop :=
  ∀ tree, n.default? = some tree → n.isLeaf = true ∧
    if n.multi then ∃ values, tree = .list values else ∃ value, tree = .scalar value

/-- A definition gives a node whose default, if it has one, fits the leaf. -/
theorem Definition.gives_defaultFits : Definition.Gives Node.DefaultFits := by
  rintro d path belowTag default? constraint? nodes h - tree rfl
  obtain ⟨hfault, hdefault, -⟩ := Definition.attributes_eq_ok_iff.mp h
  obtain ⟨-, hattribute, -, -⟩ := Definition.attributeFault?_eq_none_iff.mp hfault
  have hLeaf : d.kind = .leaf := by
    refine Decidable.byContradiction fun hkind => ?_
    rw [(hattribute hkind).2.2.1] at hdefault
    exact nomatch hdefault
  refine ⟨decide_eq_true hLeaf, ?_⟩
  show if d.multi then _ else _
  -- which kind of default was given no longer matters, only what became of it
  generalize d.default? = value? at hdefault
  generalize d.multi = multi at hdefault
  cases hdefault with
  | some htree =>
    cases htree with
    | single => exact ⟨_, rfl⟩
    | one => exact ⟨_, rfl⟩
    | many => exact ⟨_, rfl⟩

/-- A schema is compiled if and only if its definitions are, and then its top nodes are what they
give. -/
theorem ofDefinitions_eq_ok_iff {definitions : Keyed Definition} {schema : Schema} :
    ofDefinitions definitions = .ok schema ↔
      Definition.compileAll [] false definitions = .ok schema.top := by
  rw [ofDefinitions]
  cases Definition.compileAll [] false definitions with
  | error e => simp [bind, Except.bind]
  | ok nodes =>
    cases schema
    simp [bind, Except.bind]

/-- A definition without children makes a schema by itself, once its attributes can be read. -/
theorem ofDefinitions_single {name : String} {d : Definition} {default? : Option Tree}
    {constraint? : Option Constraint}
    (h : d.attributes ([] ++ [name]) false = .ok (default?, constraint?))
    (hchildren : d.children = []) :
    ofDefinitions [(name, d)] = .ok ⟨[(name, d.node default? constraint? [])]⟩ := by
  obtain ⟨_, _, _, _, _, _, _, _, _, children⟩ := d
  obtain rfl : children = [] := hchildren
  rw [ofDefinitions_eq_ok_iff, Definition.compileAll, Definition.compile, h]
  rfl

/-- A schema has the nodes and the attributes of what it was made of. -/
theorem eachBecomes_of_ofDefinitions {definitions : Keyed Definition} {schema : Schema}
    (h : ofDefinitions definitions = .ok schema) :
    Definition.EachBecomes definitions schema.top :=
  Definition.eachBecomes_of_compileAll definitions [] false _ (ofDefinitions_eq_ok_iff.mp h)

/-- Definitions make a schema if and only if each of them, at any depth, is well formed: a leaf has
no children, attributes of leaves are on leaves only, a valueless leaf is neither of many values nor
has a default, nothing below a tag node has an owner, defaults are texts, numbers or truth values,
or sequences of them for leaves of many values, and constraints are patterns between their anchors.
The schema has the same nodes with the same attributes, each default being a list at a leaf of many
values and a scalar at any other. -/
theorem compiles_iff_wellFormed (definitions : Keyed Definition) :
    ((∃ schema, ofDefinitions definitions = .ok schema) ↔
      ∀ above entry, Definition.Stands definitions above entry →
        entry.2.WellFormed (∃ parent ∈ above, parent.2.kind = .tag)) ∧
    ∀ schema, ofDefinitions definitions = .ok schema →
      Definition.EachBecomes definitions schema.top ∧
        schema.rootNode.Everywhere Node.DefaultFits := by
  constructor
  · have hall := Definition.compileAll_exists_iff definitions [] false
    simp only [Definition.EachWellFormed, Bool.false_eq_true, false_or] at hall
    -- to be compiled is to have top nodes, so the schema and the nodes come to the same
    rw [← hall]
    constructor
    · rintro ⟨schema, h⟩
      exact ⟨schema.top, ofDefinitions_eq_ok_iff.mp h⟩
    · rintro ⟨nodes, h⟩
      exact ⟨⟨nodes⟩, ofDefinitions_eq_ok_iff.mpr h⟩
  · intro schema h
    -- the nodes are those of the definitions, and a node that is compiled keeps its own rules
    refine ⟨eachBecomes_of_ofDefinitions h, ?_⟩
    have hcompiled : schema.Compiled := ⟨definitions, h⟩
    exact hcompiled.everywhere Definition.gives_defaultFits fun tree htree =>
      absurd htree (by simp [rootNode])

end Schema

namespace Sample

/-- A leaf with a default value. -/
def preset (multi : Bool) (value : Yaml.Value) : Schema.Definition :=
  { kind := .leaf, multi := multi, default? := some value }

/-- Leaves with default values of each kind, one of them below a tag node. -/
def presets : Keyed Schema.Definition :=
  [("bridge", { kind := .tag, children := [("stp", preset false (.scalar (.bool false)))] }),
    ("burst", preset false (.scalar (.real ⟨false, 7629394531250000, 17⟩))),
    ("drift", preset false (.scalar .notANumber)),
    ("floor", preset false (.scalar (.infinity true))),
    ("gain", preset false (.scalar (.real ⟨true, 6755399441055744, -52⟩))),
    ("limit", preset false (.scalar (.infinity false))),
    ("loss", preset false (.scalar (.real ⟨false, 7205759403792794, -56⟩))),
    ("mtu", preset false (.scalar (.integer 1500))),
    ("name", preset false (.scalar (.text "it's on"))),
    ("offset", preset false (.scalar (.integer (-5)))),
    ("servers", preset true (.sequence
      [.scalar (.text "10.0.0.1"), .scalar (.integer 8), .scalar (.bool true)])),
    ("zones", preset true (.scalar (.text "all")))]

/-- A tag node, a node below it, and a leaf below both that has an owner. -/
def deepOwner : Keyed Schema.Definition :=
  [("bridge", { kind := .tag, children :=
    [("member", { children := [("port", { kind := .leaf, owner? := some "net" })] })] })]

/-- What the leaves are compiled to. -/
def presetSchema : Schema := (Schema.ofDefinitions presets).toOption.getD ⟨[]⟩

end Sample

namespace Schema

/-- Each kind of default comes out as the text that YAML writes it with; an owner two levels below a
tag node, a default that stands for nothing, and a list at a leaf of one value are refused. -/
theorem compiles_iff_wellFormed_of_presets :
    (ofDefinitions Sample.presets = .ok Sample.presetSchema ∧
      (∀ above entry, Definition.Stands Sample.presets above entry →
        entry.2.WellFormed (∃ parent ∈ above, parent.2.kind = .tag)) ∧
      Definition.EachBecomes Sample.presets Sample.presetSchema.top ∧
      Sample.presetSchema.rootNode.Everywhere Node.DefaultFits ∧
      (Sample.presetSchema.top.map fun entry => (entry.1, entry.2.default?)) =
        [("bridge", none), ("burst", some (.scalar "1e21")), ("drift", some (.scalar ".nan")),
          ("floor", some (.scalar "-.inf")), ("gain", some (.scalar "-1.5")),
          ("limit", some (.scalar ".inf")), ("loss", some (.scalar "0.1")),
          ("mtu", some (.scalar "1500")), ("name", some (.scalar "it's on")),
          ("offset", some (.scalar "-5")),
          ("servers", some (.list ["10.0.0.1", "8", "true"])), ("zones", some (.list ["all"]))] ∧
      (Sample.presetSchema.top.flatMap fun entry => entry.2.children.map fun below =>
        (below.1, below.2.default?)) = [("stp", some (.scalar "false"))]) ∧
    (¬ ∃ schema, ofDefinitions Sample.deepOwner = .ok schema) ∧
    (¬ ∃ schema, ofDefinitions [("name", Sample.preset false (.scalar .null))] = .ok schema) ∧
    ¬ ∃ schema, ofDefinitions [("name", Sample.preset false (.sequence []))] = .ok schema := by
  refine ⟨?_, ?_, ?_, ?_⟩
  · obtain ⟨hiff, hcompiled⟩ := compiles_iff_wellFormed Sample.presets
    have h : ofDefinitions Sample.presets = .ok Sample.presetSchema := rfl
    obtain ⟨hbecomes, hfits⟩ := hcompiled _ h
    exact ⟨h, hiff.mp ⟨_, h⟩, hbecomes, hfits, by decide +kernel, by decide +kernel⟩
  · intro h
    have hleaf : Definition.Stands Sample.deepOwner _ ("port", _) :=
      .under (List.mem_singleton.mpr rfl) (.under (List.mem_singleton.mpr rfl)
        (.top (List.mem_singleton.mpr rfl)))
    have howner := ((compiles_iff_wellFormed _).1.mp h _ _ hleaf).ownerAbove
      ⟨_, List.mem_cons_self .., rfl⟩
    exact absurd howner (by simp)
  · intro h
    have hdefault := ((compiles_iff_wellFormed _).1.mp h [] _
      (.top (List.mem_singleton.mpr rfl))).default _ rfl
    rcases hdefault with ⟨text, ⟨⟩⟩ | ⟨⟨⟩, -⟩
  · intro h
    have hdefault := ((compiles_iff_wellFormed _).1.mp h [] _
      (.top (List.mem_singleton.mpr rfl))).default _ rfl
    rcases hdefault with ⟨text, ⟨⟩⟩ | ⟨⟨⟩, -⟩

end Schema

end RouterConfig
