import RouterConfig.Proofs.Schema.Constraints
import RouterConfig.Proofs.Session.Effects
import RouterConfig.Proofs.Text.Quoting

/-!
# RouterConfig — leaves that take no value

Such a leaf is set in two ways: by its name at the place above it, and by an empty value at the leaf
itself. The second way compares the empty value with the constraint of the leaf, if it has one, and
the first way does not. So the two agree as long as no constraint keeps an empty text out. Main
results:

* `Schema.writeAt_of_presence`, `Schema.writeAt_empty_value` — what each of the two is to write;
* `Session.presence_spelled` — when the two agree, and which of the leaves that are present pass the
  check of their values.
-/

namespace RouterConfig

namespace Schema

/-! ## What the two ways write -/

/-- The constraint of a leaf, where it keeps an empty text out. -/
def Node.barrier? (leaf : Node) : Option Constraint :=
  leaf.constraint?.filter fun c => !c.admits ""

/-- At a leaf that takes no value only the constraint may refuse an empty one. -/
theorem Node.valueFault?_empty {leaf : Node} (hless : leaf.valueless = true) :
    leaf.valueFault? "" = leaf.barrier?.map fun c => .mismatch "" c.text := by
  rw [valueFault?, barrier?, hless]
  cases leaf.constraint? with
  | none => rfl
  | some c => cases hadmits : c.admits "" <;> simp [Option.filter, hadmits]

/-- Set by its name, the leaf is written without a look at its constraint. -/
theorem writeAt_of_presence {schema : Schema} {full : Path} {typed : String} {place : Place}
    {leaf : Node} (hplace : schema.resolve full = .ok place) (hinner : place.isLeaf = false)
    (hTag : place.isTag = false) (hchild : place.node.child? (unquote typed) = some leaf)
    (hLeaf : leaf.isLeaf = true) (hless : leaf.valueless = true) :
    schema.writeAt full typed =
      if holdsBothQuotes (unquote typed) then .error (.path full .bothQuotes)
      else .ok ⟨full ++ [unquote typed], .value ""⟩ := by
  have hwrite : place.node.childWrite full (unquote typed) =
      .ok ⟨full ++ [unquote typed], .value ""⟩ := by
    rw [Node.childWrite, hchild]
    simp [hLeaf, hless]
  rw [writeAt, hplace]
  simp [hinner, hTag, hwrite]

/-- Set by an empty value, it is written unless its constraint keeps that out. -/
theorem writeAt_empty_value {schema : Schema} {full : Path} {leaf : Node}
    (hplace : schema.resolve full = .ok (.declared leaf)) (hLeaf : leaf.isLeaf = true)
    (hless : leaf.valueless = true) (hone : leaf.multi = false) :
    schema.writeAt full "" =
      match leaf.barrier? with
      | none => .ok ⟨full, .value ""⟩
      | some c => .error (.path full (.mismatch "" c.text)) := by
  have hempty : unquote "" = "" := by decide
  have hquotes : holdsBothQuotes "" = false := by decide
  have hplain : (Place.declared leaf).isLeaf = true := hLeaf
  rw [writeAt, hempty, hquotes, if_neg (by simp), hplace]
  dsimp only
  rw [if_pos hplain, Place.node, Node.leafWrite, Node.valueFault?_empty hless]
  cases leaf.barrier? with
  | none => simp [hone, hless]
  | some c => rfl

/-- The check of an empty value at a leaf that takes none. -/
theorem validateValue_empty {schema : Schema} {path : Path} {leaf : Node}
    (hplace : schema.resolve path = .ok (.declared leaf)) (hLeaf : leaf.isLeaf = true)
    (hless : leaf.valueless = true) :
    schema.validateValue path "" =
      match leaf.barrier? with
      | none => .ok ()
      | some c => .error (.path path (.mismatch "" c.text)) := by
  rw [validateValue_leaf hplace hLeaf, Node.valueFault?_empty hless]
  cases leaf.barrier? <;> rfl

end Schema

namespace Session

variable {schema : Schema} {s : Session}

/-! ## What comes of them -/

/-- What comes of the two ways to set a leaf that takes no value: `s'` is the session in which it is
there and all else is as before. A name with both kinds of quotes cannot be typed, and an empty
value may be kept out by the constraint. -/
structure SetsPresence (schema : Schema) (s : Session) (path : Path) (typed : String)
    (leaf : Schema.Node) (s' : Session) : Prop where
  level : s'.level = s.level
  written : s.edit.Written (s.absolute path ++ [unquote typed]) (.scalar "") s'.edit
  byName : s.set schema path typed =
    if holdsBothQuotes (unquote typed) then .error (.path (s.absolute path) .bothQuotes) else .ok s'
  byValue : s.set schema (path ++ [unquote typed]) "" =
    match leaf.barrier? with
    | none => .ok s'
    | some c => .error (.path (s.absolute path ++ [unquote typed]) (.mismatch "" c.text))

/-- The two ways have the same outcome if and only if nothing keeps the one or the other back. -/
theorem SetsPresence.agree_iff {path : Path} {typed : String} {leaf : Schema.Node} {s' : Session}
    (h : s.SetsPresence schema path typed leaf s') :
    s.set schema path typed = s.set schema (path ++ [unquote typed]) "" ↔
      holdsBothQuotes (unquote typed) = false ∧ leaf.barrier? = none := by
  rw [h.byName, h.byValue]
  cases holdsBothQuotes (unquote typed) <;> cases leaf.barrier? <;> simp

/-- A leaf without a value that is named at its parent is set there: its presence is written and
nothing is asked of its constraint. -/
theorem Sound.setsPresence (hs : s.Sound schema) (hSchema : schema.Compiled) {path : Path}
    {typed : String} {place : Schema.Place} {leaf : Schema.Node}
    (hplace : schema.resolve (s.absolute path) = .ok place) (hinner : place.isLeaf = false)
    (hTag : place.isTag = false) (hchild : place.node.child? (unquote typed) = some leaf)
    (hLeaf : leaf.isLeaf = true) (hless : leaf.valueless = true) :
    ∃ s', s.SetsPresence schema path typed leaf s' := by
  let full := s.absolute path ++ [unquote typed]
  have hLeads : schema.rootPlace.Leads full (.declared leaf) :=
    Schema.Place.leads_snoc_iff.mpr ⟨place, Schema.resolve_eq_ok_iff.mp hplace,
      (Schema.Place.enter_eq_ok_iff_of_not_isTag hTag hinner).mpr ⟨leaf, hchild, rfl⟩⟩
  have hone : leaf.multi = false :=
    ((Schema.regular_of_leads hSchema hLeads).valuelessAlone hless).1
  -- it can be written, whatever stands there
  obtain ⟨edit, hrun, -⟩ : ∃ edit, Write.run? ⟨full, .value ""⟩ s.edit = some edit ∧ _ :=
    hs.edit.write hLeads (.value (.presence hLeaf hone hless))
  obtain ⟨node, hnode, hwritten⟩ := Tree.written_of_update? hrun
  obtain rfl : Tree.scalar "" = node := Option.some.inj hnode
  have hwrite : s.write ⟨full, .value ""⟩ = .ok { s with edit := edit } := by
    rw [write, hrun]
  refine ⟨{ s with edit := edit }, rfl, hwritten, ?_, ?_⟩
  · rw [set_eq_write, Schema.writeAt_of_presence hplace hinner hTag hchild hLeaf hless]
    cases holdsBothQuotes (unquote typed) with
    | true => rfl
    | false => exact hwrite
  · rw [set_eq_write, absolute_append,
      Schema.writeAt_empty_value (Schema.resolve_eq_ok_iff.mpr hLeads) hLeaf hless hone]
    cases leaf.barrier? with
    | none => exact hwrite
    | some c => rfl

/-- A leaf that is present passes the check of its values, unless it takes none and has a constraint
that keeps an empty text out. -/
theorem Sound.values_checked (hs : s.Sound schema) {path : Path} {node : Tree}
    (hget : s.edit.get? path = some node) (hLeaf : schema.isLeaf path = true) :
    ∃ leaf, schema.resolve path = .ok (.declared leaf) ∧ leaf.isLeaf = true ∧
      ((∀ value ∈ node.values, schema.validateValue path value = .ok ()) ↔
        (leaf.valueless = true → leaf.barrier? = none)) := by
  obtain ⟨place, hLeads, hfits⟩ := hs.edit path node hget
  have hplace := Schema.resolve_eq_ok_iff.mpr hLeads
  rw [Schema.isLeaf_of_resolve hplace] at hLeaf
  -- by what a leaf can hold; only where it takes no value is the empty text looked at
  cases place with
  | instanceOf tag => exact absurd hLeaf (by simp [Schema.Place.isLeaf])
  | declared leaf =>
    refine ⟨leaf, hplace, hLeaf, ?_⟩
    cases hfits with
    | subtree h => exact absurd hLeaf (by simp [h])
    | presence _ _ hless =>
      have hless : leaf.valueless = true := hless
      rw [show (Tree.scalar "").values = [""] from rfl, List.forall_mem_singleton,
        Schema.validateValue_empty hplace hLeaf hless]
      cases leaf.barrier? <;> simp [hless]
    | value _ _ hless htakes =>
      have hless : leaf.valueless = false := hless
      simp only [hless, Bool.false_eq_true, false_implies, iff_true]
      intro value hvalue
      rw [List.mem_singleton.mp hvalue]
      exact Schema.validateValue_of_takes hplace htakes
    | values _ _ hless _ hvalues =>
      have hless : leaf.valueless = false := hless
      simp only [hless, Bool.false_eq_true, false_implies, iff_true]
      exact fun value hvalue => Schema.validateValue_of_takes hplace (hvalues value hvalue)

/-- A leaf that takes no value can be made present, though its constraint keeps an empty text
out. -/
theorem present_against_barrier (hSchema : schema.Compiled) {path : Path} {name : String}
    {leaf : Schema.Node} (hplace : schema.resolve (path ++ [name]) = .ok (.declared leaf))
    (hLeaf : leaf.isLeaf = true) (hless : leaf.valueless = true)
    (hquotes : holdsBothQuotes name = false) :
    ∃ t : Session, t.Reachable schema ∧ t.edit.get? (path ++ [name]) = some (.scalar "") := by
  have hstart := reachable_empty schema
  have hname : unquote (quote name) = name := unquote_quote hquotes
  obtain ⟨place, habove, hinner, hTag, hchild⟩ := Schema.above_of_declared hplace
  obtain ⟨t, ht⟩ : ∃ t, (ofRunning Tree.empty).SetsPresence schema path (quote name) leaf t :=
    (hstart.sound hSchema).setsPresence hSchema habove hinner hTag (hname.symm ▸ hchild) hLeaf hless
  have hset : (ofRunning Tree.empty).set schema path (quote name) = .ok t := by
    rw [ht.byName, hname, hquotes]
    rfl
  refine ⟨t, hstart.set hset, ?_⟩
  have hhere := ht.written.here
  rwa [hname] at hhere

/-- The two ways to set a leaf that takes no value, below whatever node or instance:

* by its name it is there after it, unless the name has both kinds of quotes; by an empty value it
  is there in the very same session, unless its constraint keeps an empty text out. So the two agree
  if and only if neither is so;
* a leaf that is present passes the check of its values, unless it takes none and has a constraint
  that keeps an empty text out;
* and such a leaf can be made present, by its name. -/
theorem presence_spelled (hSchema : schema.Compiled) :
    (∀ s : Session, s.Reachable schema → ∀ path typed place leaf,
      schema.resolve (s.absolute path) = .ok place → place.isLeaf = false → place.isTag = false →
      place.node.child? (unquote typed) = some leaf → leaf.isLeaf = true → leaf.valueless = true →
      (∃ s', s.SetsPresence schema path typed leaf s') ∧
        (s.set schema path typed = s.set schema (path ++ [unquote typed]) "" ↔
          holdsBothQuotes (unquote typed) = false ∧ leaf.barrier? = none)) ∧
    (∀ s : Session, s.Reachable schema → ∀ path node, s.edit.get? path = some node →
      schema.isLeaf path = true →
      ∃ leaf, schema.resolve path = .ok (.declared leaf) ∧ leaf.isLeaf = true ∧
        ((∀ value ∈ node.values, schema.validateValue path value = .ok ()) ↔
          (leaf.valueless = true → leaf.barrier? = none))) ∧
    ∀ path name leaf c, schema.resolve (path ++ [name]) = .ok (.declared leaf) →
      leaf.isLeaf = true → leaf.valueless = true → holdsBothQuotes name = false →
      leaf.barrier? = some c →
      (∃ t : Session, t.Reachable schema ∧ t.edit.get? (path ++ [name]) = some (.scalar "")) ∧
        schema.validateValue (path ++ [name]) "" =
          .error (.path (path ++ [name]) (.mismatch "" c.text)) := by
  refine ⟨?spellings, ?checked, ?barriers⟩
  case spellings =>
    intro s hs path typed place leaf hplace hinner hTag hchild hLeaf hless
    obtain ⟨s', hs'⟩ :=
      (hs.sound hSchema).setsPresence hSchema hplace hinner hTag hchild hLeaf hless
    exact ⟨⟨s', hs'⟩, hs'.agree_iff⟩
  case checked =>
    intro s hs path node hget hLeaf
    exact (hs.sound hSchema).values_checked hget hLeaf
  case barriers =>
    intro path name leaf c hplace hLeaf hless hquotes hbarrier
    refine ⟨present_against_barrier hSchema hplace hLeaf hless hquotes, ?_⟩
    rw [Schema.validateValue_empty hplace hLeaf hless, hbarrier]

end Session

namespace Sample

/-- A leaf that takes no value and has a constraint. -/
def beep (c : Schema.Constraint) : Schema.Node :=
  { kind := .leaf, multi := false, valueless := true, hidden := false, owner? := none,
    priority? := none, default? := none, constraint? := some c, help? := none, children := [] }

/-- A schema with one such leaf. -/
def signal (c : Schema.Constraint) : Schema := ⟨[("beep", beep c)]⟩

/-- The sample schema with a constraint on its leaf is compiled. -/
theorem signal_compiled {text : String} {c : Schema.Constraint}
    (h : Schema.Constraint.ofText? text = some c) : (signal c).Compiled := by
  let d : Schema.Definition := { kind := .leaf, valueless := true, constraint? := some text }
  have hattributes : d.attributes ([] ++ ["beep"]) false = .ok (none, some c) :=
    Schema.Definition.attributes_eq_ok_iff.mpr
      ⟨rfl, .none, .some (Schema.Constraint.ofText?_eq_some_iff.mp h)⟩
  exact ⟨_, Schema.ofDefinitions_single hattributes rfl⟩

theorem beep_barrier : (beep upOrDown).barrier? = some upOrDown := by
  have hadmits : upOrDown.admits "" = false := by decide +kernel
  rw [Schema.Node.barrier?, beep]
  simp [Option.filter, hadmits]

end Sample

namespace Session

/-- A leaf without values whose constraint asks for one of two words: it can be set by its name and
not by an empty value, and present it does not pass the check of its values. -/
theorem presence_spelled_under_constraint :
    let schema := Sample.signal Sample.upOrDown
    let start := ofRunning Tree.empty
    (schema.Compiled ∧ start.Reachable schema) ∧
      (∃ s', start.SetsPresence schema [] "beep" (Sample.beep Sample.upOrDown) s') ∧
      start.set schema [] "beep" ≠ start.set schema ["beep"] "" ∧
      (∃ t : Session, t.Reachable schema ∧ t.edit.get? ["beep"] = some (.scalar "")) ∧
      schema.validateValue ["beep"] "" =
        .error (.path ["beep"] (.mismatch "" "^(?:up|down)$")) := by
  intro schema start
  -- the same name once typed as the value of its parent and once as a path of its own
  have hcompiled : schema.Compiled := Sample.signal_compiled Sample.upOrDown_read
  have hstart : start.Reachable schema := reachable_empty schema
  obtain ⟨hspellings, -, hbarriers⟩ := presence_spelled hcompiled
  have hname : unquote "beep" = "beep" := by decide
  obtain ⟨hsets, hagree⟩ := hspellings start hstart [] "beep" _ (Sample.beep Sample.upOrDown)
    rfl rfl rfl (by rw [hname]; rfl) rfl rfl
  obtain ⟨hpresent, hrefused⟩ := hbarriers [] "beep" (Sample.beep Sample.upOrDown) Sample.upOrDown
    rfl rfl rfl (by decide) Sample.beep_barrier
  rw [hname] at hagree
  have htext : Sample.upOrDown.text = "^(?:up|down)$" :=
    (Schema.Constraint.ofText?_eq_some_iff.mp Sample.upOrDown_read).source
  refine ⟨⟨hcompiled, hstart⟩, hsets, fun heq => ?_, hpresent, htext ▸ hrefused⟩
  exact absurd (hagree.mp heq).2 (by simp [Sample.beep_barrier])

/-- The two ways do not agree for every schema that compiles, nor does every leaf that is present
pass the check of its values. -/
theorem presence_not_checked :
    ∃ (schema : Schema) (s s' : Session) (path : Path) (name : String) (leaf : Schema.Node),
      schema.Compiled ∧ s.Reachable schema ∧ s'.Reachable schema ∧
      schema.resolve (s.absolute (path ++ [name])) = .ok (.declared leaf) ∧
      leaf.isLeaf = true ∧ leaf.valueless = true ∧
      s.set schema path name = .ok s' ∧ s'.edit = .subtree [("beep", .scalar "")] ∧
      s.set schema (path ++ [name]) "" =
        .error (.path ["beep"] (.mismatch "" "^(?:up|down)$")) ∧
      schema.validateValue ["beep"] "" =
        .error (.path ["beep"] (.mismatch "" "^(?:up|down)$")) := by
  have hcompiled := Sample.signal_compiled Sample.upOrDown_read
  have hstart := reachable_empty (Sample.signal Sample.upOrDown)
  have hplace : (Sample.signal Sample.upOrDown).resolve ["beep"] =
      .ok (.declared (Sample.beep Sample.upOrDown)) := rfl
  have htext : Sample.upOrDown.text = "^(?:up|down)$" :=
    (Schema.Constraint.ofText?_eq_some_iff.mp Sample.upOrDown_read).source
  have hset : (ofRunning Tree.empty).set (Sample.signal Sample.upOrDown) [] "beep" =
      .ok ⟨.subtree [("beep", .scalar "")], []⟩ := by decide
  refine ⟨Sample.signal Sample.upOrDown, ofRunning Tree.empty, _, [], "beep",
    Sample.beep Sample.upOrDown, hcompiled, hstart, hstart.set hset, rfl, rfl, rfl, hset, rfl,
    ?_, ?_⟩
  · rw [set_eq_write, show (ofRunning Tree.empty).absolute ([] ++ ["beep"]) = ["beep"] from rfl,
      Schema.writeAt_empty_value hplace rfl rfl rfl, Sample.beep_barrier, ← htext]
    rfl
  · rw [Schema.validateValue_empty hplace rfl rfl, Sample.beep_barrier, ← htext]

end Session

end RouterConfig
