import RouterConfig.Proofs.Pattern.Anchoring
import RouterConfig.Proofs.Schema.Compiling

/-!
# RouterConfig — what constraints say of values

A constraint is put in a group between anchors before it is read as a pattern. Where its text is a
pattern by itself, a value meets it if and only if that pattern matches the whole value. The text
need not be one: it may end the group and open another, and then it is about parts of values. Main
results:

* `Constraint.whole_or_endsGroup` — what a constraint means, by its text;
* `values_match_constraint` — which values a leaf takes;
* `ending_constraint_compiles` — a text that is no pattern may be a constraint.
-/

namespace RouterConfig.Schema

open RouterConfig.Pattern (Expression)

/-! ## Constraints -/

namespace Constraint

variable {c : Constraint} {text : String}

/-- A closing parenthesis of the text ends the group that the text is put in. Up to there it is an
expression, but as a whole it is none. -/
structure EndsGroup (text : String) : Prop where
  broken : Expression.ofText? text.toList = none
  front : ∃ left right, text.toList = left ++ ')' :: right ∧ (Expression.ofText? left).isSome = true

theorem anchored_toList (text : String) :
    (anchored text).toList = '^' :: '(' :: '?' :: ':' :: (text.toList ++ [')', '$']) := by
  rw [anchored, String.toList_append, String.toList_append]
  rfl

/-- A value meets a constraint if the pattern matches some part of it. -/
theorem admits_iff (h : ofText? text = some c) (value : String) :
    c.admits value = true ↔ c.pattern.MatchesSomewhere value.toList := by
  obtain ⟨-, e, he, -, hpattern⟩ := ofText?_eq_some_iff.mp h
  rw [admits, hpattern]
  exact Pattern.occursIn_iff (Expression.ofText?_counted he)

/-- Either the text of a constraint is an expression, and the constraint is met by what it matches
as a whole, or the text ends the group that it is put in. -/
theorem whole_or_endsGroup (h : ofText? text = some c) :
    (∃ e, Expression.ofText? text.toList = some e ∧
        ∀ value : String, c.admits value = true ↔ e.pattern.MatchesWhole value.toList) ∨
      EndsGroup text := by
  obtain ⟨-, whole, hwhole, -, hpattern⟩ := ofText?_eq_some_iff.mp h
  rw [← anchored, anchored_toList] at hwhole
  rcases Expression.ofText?_anchored hwhole with ⟨e, he, rfl⟩ | ⟨hbroken, hfront⟩
  · left
    have hanchors : c.pattern =
        .append (.anchor .textStart) (.append e.pattern (.anchor .textEnd)) := by
      rw [hpattern]
      simp [Expression.pattern, Expression.inOrder]
    refine ⟨e, he, fun value => ?_⟩
    rw [admits_iff h, hanchors, Pattern.matchesSomewhere_anchored_iff]
  · exact .inr ⟨hbroken, hfront⟩

end Constraint

/-! ## Leaves -/

/-- The constraint of a node was read from a text. -/
def Node.ReadsConstraint (n : Node) : Prop :=
  ∀ c, n.constraint? = some c → ∃ text, Constraint.ofText? text = some c

theorem Definition.gives_readsConstraint : Definition.Gives Node.ReadsConstraint := by
  rintro d path belowTag default? constraint? nodes h - c rfl
  obtain ⟨-, -, hconstraint⟩ := Definition.attributes_eq_ok_iff.mp h
  generalize d.constraint? = text? at hconstraint
  cases hconstraint with
  | some htext => exact ⟨_, Constraint.ofText?_eq_some_iff.mpr htext⟩

theorem Compiled.readsConstraint {schema : Schema} (hSchema : schema.Compiled) {path : Path}
    {place : Place} (hplace : schema.resolve path = .ok place) : place.node.ReadsConstraint := by
  have hall : schema.rootPlace.node.Everywhere Node.ReadsConstraint :=
    hSchema.everywhere Definition.gives_readsConstraint fun c hc =>
      absurd hc (by simp [rootNode])
  exact (Place.everywhere_of_leads hall (resolve_eq_ok_iff.mp hplace)).here

/-- At a leaf that takes values, a value passes if it meets the constraint. -/
theorem validateValue_eq_ok_iff {schema : Schema} {path : Path} {leaf : Node} {c : Constraint}
    (hplace : schema.resolve path = .ok (.declared leaf)) (hLeaf : leaf.isLeaf = true)
    (hValues : leaf.valueless = false) (hConstraint : leaf.constraint? = some c) {value : String}
    (hvalue : value ≠ "") :
    schema.validateValue path value = .ok () ↔ c.admits value = true := by
  have hsomething : value.isEmpty = false := by
    rw [Bool.eq_false_iff, Ne, String.isEmpty_iff]
    exact hvalue
  have hfault : leaf.valueFault? value =
      if c.admits value then none else some (.mismatch value c.text) := by
    rw [Node.valueFault?, hValues, hsomething, hConstraint]
    rfl
  rw [validateValue_leaf hplace hLeaf, hfault]
  cases c.admits value with
  | true => simp
  | false => simp

/-- What the values of a leaf are compared with. The text of the constraint stands between anchors.
Where it is a pattern by itself, a value passes if and only if that pattern matches the whole value;
where it is none, it ends the group between the anchors, and a value passes as well if the pattern
of the anchored text matches a part of it. -/
theorem values_match_constraint {schema : Schema} (hSchema : schema.Compiled) {path : Path}
    {leaf : Node} {c : Constraint} (hplace : schema.resolve path = .ok (.declared leaf))
    (hLeaf : leaf.isLeaf = true) (hValues : leaf.valueless = false)
    (hConstraint : leaf.constraint? = some c) :
    ∃ text, c.text = Constraint.anchored text ∧
      (∀ value, value ≠ "" →
        (schema.validateValue path value = .ok () ↔ c.pattern.MatchesSomewhere value.toList)) ∧
      ((∃ e, Expression.ofText? text.toList = some e ∧
          ∀ value, value ≠ "" →
            (schema.validateValue path value = .ok () ↔ e.pattern.MatchesWhole value.toList)) ∨
        Constraint.EndsGroup text) := by
  obtain ⟨text, htext⟩ := hSchema.readsConstraint hplace c hConstraint
  have hpasses : ∀ value, value ≠ "" →
      (schema.validateValue path value = .ok () ↔ c.admits value = true) :=
    fun value hvalue => validateValue_eq_ok_iff hplace hLeaf hValues hConstraint hvalue
  refine ⟨text, (Constraint.ofText?_eq_some_iff.mp htext).source, fun value hvalue => ?_, ?_⟩
  · rw [hpasses value hvalue, Constraint.admits_iff htext]
  · rcases Constraint.whole_or_endsGroup htext with ⟨e, he, hmeets⟩ | hends
    · exact .inl ⟨e, he, fun value hvalue => by rw [hpasses value hvalue, hmeets]⟩
    · exact .inr hends

end RouterConfig.Schema

namespace RouterConfig

open Pattern (Expression)

namespace Sample

/-- A schema with one leaf, whose values have to meet a constraint. -/
def constrained (c : Schema.Constraint) : Schema where
  top :=
    [("state",
      { kind := .leaf, multi := false, valueless := false, hidden := false, owner? := none,
        priority? := none, default? := none, constraint? := some c, help? := none,
        children := [] })]

/-- The sample schema with a constraint on its leaf is compiled. -/
theorem constrained_compiled {text : String} {c : Schema.Constraint}
    (h : Schema.Constraint.ofText? text = some c) : (constrained c).Compiled := by
  have hattributes : ({ kind := .leaf, constraint? := some text } : Schema.Definition).attributes
      ([] ++ ["state"]) false = .ok (none, some c) :=
    Schema.Definition.attributes_eq_ok_iff.mpr
      ⟨rfl, .none, .some (Schema.Constraint.ofText?_eq_some_iff.mp h)⟩
  exact ⟨_, Schema.ofDefinitions_single hattributes rfl⟩

theorem upOrDown_reads : (Schema.Constraint.ofText? "up|down").isSome = true := by decide +kernel

/-- A constraint that allows two values. -/
def upOrDown : Schema.Constraint := (Schema.Constraint.ofText? "up|down").get upOrDown_reads

theorem upOrDown_read : Schema.Constraint.ofText? "up|down" = some upOrDown :=
  (Option.some_get upOrDown_reads).symm

theorem endingGroup_reads : (Schema.Constraint.ofText? "a)|(?:b").isSome = true := by
  decide +kernel

/-- A constraint that ends the group that it is put in, and opens another one. -/
def endingGroup : Schema.Constraint := (Schema.Constraint.ofText? "a)|(?:b").get endingGroup_reads

end Sample

namespace Schema

/-- Each of the alternatives is anchored at both ends, as the text is a pattern by itself. -/
theorem values_match_constraint_of_alternatives :
    ∃ leaf, (Sample.constrained Sample.upOrDown).Compiled ∧
      (Sample.constrained Sample.upOrDown).resolve ["state"] = .ok (.declared leaf) ∧
      leaf.isLeaf = true ∧ leaf.valueless = false ∧ leaf.constraint? = some Sample.upOrDown ∧
      ∃ text, Sample.upOrDown.text = Constraint.anchored text ∧
        (∀ value, value ≠ "" →
          ((Sample.constrained Sample.upOrDown).validateValue ["state"] value = .ok () ↔
            Sample.upOrDown.pattern.MatchesSomewhere value.toList)) ∧
        ((∃ e, Expression.ofText? text.toList = some e ∧
            ∀ value, value ≠ "" →
              ((Sample.constrained Sample.upOrDown).validateValue ["state"] value = .ok () ↔
                e.pattern.MatchesWhole value.toList)) ∨
          Constraint.EndsGroup text) := by
  have hcompiled : (Sample.constrained Sample.upOrDown).Compiled :=
    Sample.constrained_compiled (Option.some_get Sample.upOrDown_reads).symm
  exact ⟨_, hcompiled, rfl, rfl, rfl, rfl,
    values_match_constraint hcompiled rfl rfl rfl rfl⟩

/-- A text that is no pattern may be a constraint, and then a part of a value may be enough. -/
theorem ending_constraint_compiles :
    (Sample.constrained Sample.endingGroup).Compiled ∧
      Sample.endingGroup.text = Constraint.anchored "a)|(?:b" ∧
      Expression.ofText? "a)|(?:b".toList = none ∧
      (Sample.constrained Sample.endingGroup).validateValue ["state"] "ax" = .ok () := by
  have hread : Constraint.ofText? "a)|(?:b" = some Sample.endingGroup :=
    (Option.some_get Sample.endingGroup_reads).symm
  have hadmits : Sample.endingGroup.admits "ax" = true := by decide +kernel
  refine ⟨Sample.constrained_compiled hread, (Constraint.ofText?_eq_some_iff.mp hread).source,
    Option.isNone_iff_eq_none.mp (by decide +kernel), ?_⟩
  exact (validateValue_eq_ok_iff rfl rfl rfl rfl (by decide)).mpr hadmits

end Schema

end RouterConfig
