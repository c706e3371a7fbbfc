import RouterConfig.Proofs.Comparison.Filling
import RouterConfig.Proofs.Schema.Accepting
import RouterConfig.Proofs.Session.Effects

/-!
# RouterConfig — defaults that a comparison hands out

The nodes to merge come with the defaults of the leaves that are unset. No default is checked before
it is handed out, so that one which its own definition does not allow comes among them, while no
session can be given it by a set. Main results:

* `Session.Sound.set_leaf_exists_iff` — a leaf can be set to what passes the check of its values;
* `Session.Sound.merge_hands_out` — the default of a leaf that is unset is handed out as it is;
* `defaults_accepted` — which defaults a schema accepts, and what becomes of the others.
-/

namespace RouterConfig

namespace Session.Sound

variable {schema : Schema} {s : Session}

/-- A leaf can be set to what passes the check of its values and can be quoted. -/
theorem set_leaf_exists_iff (hs : s.Sound schema) (hSchema : schema.Compiled) {path : Path}
    {typed : String} {leaf : Schema.Node}
    (hplace : schema.resolve (s.absolute path) = .ok (.declared leaf))
    (hLeaf : leaf.isLeaf = true) :
    (∃ s', s.set schema path typed = .ok s') ↔
      holdsBothQuotes (unquote typed) = false ∧
        schema.validateValue (s.absolute path) (unquote typed) = .ok () := by
  have hplain : (Schema.Place.declared leaf).isLeaf = true := hLeaf
  rw [exists_ok_iff, hs.set_outcome hSchema, ← exists_ok_iff, Schema.writeAt_exists_iff, hplace,
    Schema.validateValue_eq_ok_iff_fault hplace hLeaf]
  simp [Schema.Place.accepts_leaf_iff hplain, Schema.Place.node]

/-- The nodes to merge hold the default of each leaf below that has one and is unset. -/
theorem merge_hands_out (hs : s.Sound schema) (hSchema : schema.Orderly) (running : Tree)
    {path : Path} {place : Schema.Place}
    (hplace : schema.resolve (s.absolute path) = .ok place) (hTag : place.isTag = false)
    (hLeaf : place.isLeaf = false) {request : Comparison.Request} (hFills : request.Fills .merge) :
    ∃ classes children, (s.comparison schema running).below request path = .ok classes ∧
      classes.get .merge = .nodes children ∧
      ∀ rest default, place.DefaultsTo rest default →
        s.edit.get? (s.absolute path ++ rest) = none →
        (Tree.subtree children).get? rest = some default := by
  let full := s.absolute path
  have hroot : schema.rootPlace.node.Everywhere Schema.Node.Fillable := hSchema.fillable
  have hfillable := Schema.Place.everywhere_of_leads hroot (Schema.resolve_eq_ok_iff.mp hplace)
  have hEdit : place.Conforms (s.edit.subtreeAt full) := hs.edit.conforms_subtreeAt hplace hLeaf
  obtain ⟨hsubtree, hOrdered⟩ := hs.edit.subtreeAt_eq hplace hLeaf
  -- the classes are those of the subtree at the position and of the defaults there
  have hbelow : (s.comparison schema running).below request path =
      .ok ((s.comparison schema running).classes request (.subtree (s.edit.childrenAt full))
        (running.subtreeAt full) (schema.defaults full)) := by
    rw [comparison_below hplace hLeaf, hsubtree]
  refine ⟨_, _, hbelow, Comparison.get_merge rfl hOrdered _ hFills, ?_⟩
  -- a default that is unset is inserted, and so it is among the nodes to merge
  intro rest default hto hunset
  rw [← Tree.overlay_subtree, ← hsubtree, Schema.defaults_eq hplace hTag hLeaf]
  have hfilled := hEdit.filled hfillable hTag hLeaf rfl
  refine hfilled.inserted rest default hto ?_
  rw [Tree.get?_subtreeAt _ _ (hto.ne_nil hLeaf)]
  exact hunset

end Session.Sound

namespace Schema

variable {definitions : Keyed Definition} {schema : Schema}

/-- What becomes of defaults, whatever the definitions are that have been compiled:

* a value among the defaults below a path is one of the default of a leaf, and passes the check of
  values there if and only if it is not empty and meets the constraint of the leaf;
* the schema accepts all defaults if and only if each definition allows its own, for which compiling
  does not ask;
* the default of a leaf that is unset is handed out with the nodes to merge all the same, and the
  leaf can be set to a value of it if and only if that passes the check and can be quoted. -/
theorem defaults_accepted (hOrderly : OrderlyAll definitions)
    (h : ofDefinitions definitions = .ok schema) :
    (∀ path rest found, (Tree.subtree (schema.defaults path)).get? rest = some found →
      found.isSubtree = false →
      ∃ leaf, schema.resolve (path ++ rest) = .ok (.declared leaf) ∧ leaf.isLeaf = true ∧
        leaf.default? = some found ∧
        ∀ value, schema.validateValue (path ++ rest) value = .ok () ↔ leaf.Allows value) ∧
    (schema.AcceptsDefaults ↔
      ∀ above entry, Definition.Stands definitions above entry → entry.2.AllowsDefault) ∧
    ∀ s : Session, s.Reachable schema → ∀ (running : Tree) (path : Path) (place : Place)
      (request : Comparison.Request),
      schema.resolve (s.absolute path) = .ok place → place.isTag = false → place.isLeaf = false →
      request.Fills .merge →
      ∃ classes children, (s.comparison schema running).below request path = .ok classes ∧
        classes.get .merge = .nodes children ∧
        ∀ rest default,
          (Tree.subtree (schema.defaults (s.absolute path))).get? rest = some default →
          default.isSubtree = false → s.edit.get? (s.absolute path ++ rest) = none →
          (Tree.subtree children).get? rest = some default ∧
            ∀ typed, unquote typed ∈ default.values →
              ((∃ s', s.set schema (path ++ rest) typed = .ok s') ↔
                holdsBothQuotes (unquote typed) = false ∧
                  schema.validateValue (s.absolute path ++ rest) (unquote typed) = .ok ()) := by
  have hschema : schema.Orderly := ⟨definitions, hOrderly, h⟩
  refine ⟨?leaves, acceptsDefaults_iff hOrderly h, ?merges⟩
  case leaves =>
    intro path rest found hfound hvalue
    obtain ⟨leaf, hplace, hLeaf, hless, hdefault⟩ := leaf_of_default hschema hfound hvalue
    exact ⟨leaf, hplace, hLeaf, hdefault,
      fun value => validateValue_eq_ok_iff_allows hplace hLeaf hless⟩
  case merges =>
    intro s hs running path place request hplace hTag hLeaf hFills
    -- a session that can be reached conforms to the schema
    have hSound := hs.sound hschema.compiled
    obtain ⟨classes, children, hbelow, hmerge, hhanded⟩ :=
      hSound.merge_hands_out hschema running hplace hTag hLeaf hFills
    refine ⟨classes, children, hbelow, hmerge, fun rest default hfound hvalue hunset => ?_⟩
    -- each default belongs to a leaf, and is found there from the place that is compared
    obtain ⟨leaf, hleaf, hisLeaf, -, -⟩ := leaf_of_default hschema hfound hvalue
    obtain ⟨place', hplace', hto⟩ := defaultsTo_of_default hschema hfound hvalue
    obtain rfl : place = place' := Except.ok.inj (hplace.symm.trans hplace')
    refine ⟨hhanded rest default hto hunset, fun typed _ => ?_⟩
    rw [← Session.absolute_append] at hleaf ⊢
    exact hSound.set_leaf_exists_iff hschema.compiled hleaf hisLeaf

end Schema

namespace Sample

/-- A leaf with a constraint that its default does not meet. -/
def misfit : Schema.Definition :=
  { kind := .leaf, default? := some (.scalar (.text "unknown")), constraint? := some "up|down" }

/-- The schema with this leaf alone. -/
def misfitSchema : Schema :=
  ⟨[("state", misfit.node (some (.scalar "unknown")) (some upOrDown) [])]⟩

theorem misfit_orderly : Schema.OrderlyAll [("state", misfit)] :=
  ⟨by unfold Keyed.Ordered; decide, Schema.orderly_of_eachOrderly _ rfl⟩

theorem misfit_compiles : Schema.ofDefinitions [("state", misfit)] = .ok misfitSchema := by
  have hattributes : misfit.attributes ([] ++ ["state"]) false =
      .ok (some (.scalar "unknown"), some upOrDown) :=
    Schema.Definition.attributes_eq_ok_iff.mpr ⟨rfl, .some (.single (.text _)),
      .some (Schema.Constraint.ofText?_eq_some_iff.mp upOrDown_read)⟩
  exact Schema.ofDefinitions_single hattributes rfl

/-- The default does not pass the check of values at its own leaf. -/
theorem misfit_refused : misfitSchema.validateValue ["state"] "unknown" =
    .error (.path ["state"] (.mismatch "unknown" "^(?:up|down)$")) := by
  have hplace : misfitSchema.resolve ["state"] =
      .ok (.declared (misfit.node (some (.scalar "unknown")) (some upOrDown) [])) := rfl
  have hadmits : upOrDown.admits "unknown" = false := by decide +kernel
  have htext : upOrDown.text = "^(?:up|down)$" :=
    (Schema.Constraint.ofText?_eq_some_iff.mp upOrDown_read).source
  have hfault : (misfit.node (some (.scalar "unknown")) (some upOrDown) []).valueFault? "unknown" =
      some (.mismatch "unknown" "^(?:up|down)$") := by
    simp [Schema.Node.valueFault?, Schema.Definition.node, misfit, hadmits, htext]
  rw [Schema.validateValue_leaf hplace rfl, hfault]

end Sample

namespace Schema

/-- A leaf that is up or down, and unknown by default: its default is handed out with the nodes to
merge, and no session can set it. -/
theorem defaults_accepted_of_misfit :
    OrderlyAll [("state", Sample.misfit)] ∧
      ofDefinitions [("state", Sample.misfit)] = .ok Sample.misfitSchema ∧
      ¬ (∀ above entry, Definition.Stands [("state", Sample.misfit)] above entry →
        entry.2.AllowsDefault) ∧
      (let start := Session.ofRunning Tree.empty
       ∃ classes children,
        (start.comparison Sample.misfitSchema Tree.empty).below ⟨[.merge], true⟩ [] = .ok classes ∧
        classes.get .merge = .nodes children ∧
        (Tree.subtree children).get? ["state"] = some (.scalar "unknown") ∧
        ¬ ∃ s', start.set Sample.misfitSchema ["state"] "unknown" = .ok s') := by
  obtain ⟨-, haccepts, hmerges⟩ :=
    defaults_accepted Sample.misfit_orderly Sample.misfit_compiles
  have hfound : (Tree.subtree (Sample.misfitSchema.defaults [])).get? ["state"] =
      some (.scalar "unknown") := rfl
  have hname : unquote "unknown" = "unknown" := by decide
  have hrefused : Sample.misfitSchema.validateValue ["state"] "unknown" ≠ .ok () := by
    rw [Sample.misfit_refused]
    simp
  -- nothing is set, so the default is handed out
  obtain ⟨classes, children, hbelow, hmerge, hhanded⟩ :=
    hmerges (Session.ofRunning Tree.empty) (Session.reachable_empty _) Tree.empty [] _
      ⟨[.merge], true⟩ rfl rfl rfl ⟨rfl, List.mem_singleton.mpr rfl, rfl⟩
  obtain ⟨hdefault, hset⟩ := hhanded ["state"] (.scalar "unknown") hfound rfl rfl
  refine ⟨Sample.misfit_orderly, Sample.misfit_compiles, fun hall => ?_, classes, children, hbelow,
    hmerge, hdefault, fun hexists => ?_⟩
  · obtain ⟨-, hvalid⟩ := haccepts.mpr hall [] ["state"] _ hfound rfl
    exact hrefused (hvalid "unknown" (List.mem_singleton.mpr rfl))
  · have hsettable := hset "unknown" (by rw [hname]; exact List.mem_singleton.mpr rfl)
    rw [hname] at hsettable
    exact hrefused (hsettable.mp hexists).2

/-- Not every default of a schema that compiles passes the check of values at its own leaf. -/
theorem default_not_accepted :
    ∃ (definitions : Keyed Definition) (schema : Schema), OrderlyAll definitions ∧
      ofDefinitions definitions = .ok schema ∧ schema.declares [] = true ∧
      schema.defaults [] = [("state", .scalar "unknown")] ∧ schema.isLeaf ["state"] = true ∧
      schema.validateValue ["state"] "unknown" =
        .error (.path ["state"] (.mismatch "unknown" "^(?:up|down)$")) :=
  ⟨_, Sample.misfitSchema, Sample.misfit_orderly, Sample.misfit_compiles, rfl, rfl, rfl,
    Sample.misfit_refused⟩

end Schema

end RouterConfig
