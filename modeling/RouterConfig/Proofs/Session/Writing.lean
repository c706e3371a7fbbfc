import RouterConfig.Proofs.Schema.Conformance

/-!
# RouterConfig — a set is one write

A set does two things in turn: it asks the schema what is to be written where, and it writes it. The
first is `Schema.writeAt`, which never looks at the configuration; the second is `Session.write`,
which never looks at the schema. Main results:

* `Session.set_eq_write` — a set is the two of them;
* `Schema.suits_of_writeAt` — what the schema asks for suits the place that it is meant for;
* `Schema.Admits.write` — where all conforms a write that suits succeeds, and all conforms after it;
* `Schema.Admits.deleted` — and so it is with what a deletion leaves.
-/

namespace RouterConfig

/-! ## Writes -/

/-- What becomes of the node at one position. -/
inductive Deed where
  /-- A subtree has to be there. -/
  | node
  /-- A single value comes in place of what was there. -/
  | value (value : String)
  /-- A list gets one value more. -/
  | entry (value : String)
  deriving DecidableEq

/-- The node that a deed makes of what is there, if it can make one. -/
def Deed.on : Deed → Option Tree → Option Tree
  | node, node? => Tree.alteredNode? some node?
  | value v, _ => some (.scalar v)
  | entry v, node? => Tree.appended? node? v

/-- A deed and the position that it is for. -/
structure Write where
  path : Path
  deed : Deed
  deriving DecidableEq

namespace Write

/-- The tree after a write, if nothing stands in its way. -/
def run? (w : Write) (t : Tree) : Option Tree := Tree.update? w.deed.on (some t) w.path

/-- What stands in the way of a write. -/
def fault (w : Write) (t : Tree) : Error :=
  match w.deed with
  | .node => .path w.path .valueOnPath
  | .value _ => .path w.path.dropLast .valueOnPath
  | .entry _ =>
    if (t.ensureSubtree? w.path.dropLast).isSome then .path w.path .notAList
    else .path w.path.dropLast .valueOnPath

end Write

/-- The session with a write done. -/
def Session.write (s : Session) (w : Write) : Except Error Session :=
  match w.run? s.edit with
  | some edit => .ok { s with edit := edit }
  | none => .error (w.fault s.edit)

namespace Schema

/-- What a set of a leaf is to write. -/
def Node.leafWrite (leaf : Node) (full : Path) (value : String) : Except Error Write :=
  match leaf.valueFault? value with
  | some fault => .error (.path full fault)
  | none =>
    if leaf.multi then .ok ⟨full, .entry value⟩
    else .ok ⟨full, .value (if leaf.valueless then "" else value)⟩

/-- What a set of a tag node is to write. -/
def instanceWrite (full : Path) (name : String) : Except Error Write :=
  if name.isEmpty then .error (.path full .unnamedInstance) else .ok ⟨full ++ [name], .node⟩

/-- What a set of an internal node or of an instance is to write. -/
def Node.childWrite (node : Node) (full : Path) (name : String) : Except Error Write :=
  match node.child? name with
  | none => .error (.path (full ++ [name]) .undeclared)
  | some child =>
    if !child.isLeaf then .ok ⟨full ++ [name], .node⟩
    else if !child.valueless then .error (.path (full ++ [name]) .valueMissing)
    else .ok ⟨full ++ [name], .value ""⟩

/-- What a set at `full` is to write. -/
def writeAt (schema : Schema) (full : Path) (typed : String) : Except Error Write :=
  let value := unquote typed
  if holdsBothQuotes value then .error (.path full .bothQuotes)
  else
    match schema.resolve full with
    | .error e => .error e
    | .ok place =>
      if place.isLeaf then place.node.leafWrite full value
      else if place.isTag then instanceWrite full value
      else place.node.childWrite full value

/-- The root is no leaf, so a leaf has a name. -/
theorem ne_nil_of_isLeaf {schema : Schema} {full : Path} {place : Place}
    (hLeads : schema.rootPlace.Leads full place) (hLeaf : place.isLeaf = true) : full ≠ [] := by
  rintro rfl
  obtain rfl := Place.leads_nil_iff.mp hLeads
  exact absurd hLeaf (by simp [rootPlace, rootNode, Place.isLeaf, Node.isLeaf])

end Schema

namespace Session

theorem makeNode_eq_write (s : Session) (full : Path) :
    s.makeNode full = s.write ⟨full, .node⟩ := by
  rw [makeNode, write, Tree.ensureSubtree?, Tree.alter?_eq_update?]
  rfl

/-- Storing a value is a write of it. -/
theorem storeValue_eq_write (s : Session) {full : Path} (hfull : full ≠ []) (value : String) :
    s.storeValue full value = s.write ⟨full, .value value⟩ := by
  obtain ⟨path, name, rfl⟩ : ∃ path name, full = path ++ [name] :=
    ⟨_, _, (List.dropLast_concat_getLast hfull).symm⟩
  have hwrite : s.edit.alter? (fun cs => some (Keyed.insert cs name (.scalar value))) path =
      Tree.update? (Deed.value value).on (some s.edit) (path ++ [name]) :=
    Tree.alter?_entry (Deed.value value).on s.edit path name
  rw [storeValue, write, Write.run?, List.getLast?_concat, List.dropLast_concat]
  dsimp only
  rw [hwrite]
  cases Tree.update? (Deed.value value).on (some s.edit) (path ++ [name]) with
  | some edit => rfl
  | none => simp only [Write.fault, List.dropLast_concat]

/-- Adding a value is a write of it behind those that are there. -/
theorem addValue_eq_write (s : Session) {full : Path} (hfull : full ≠ []) (value : String) :
    s.addValue full value = s.write ⟨full, .entry value⟩ := by
  obtain ⟨path, name, rfl⟩ : ∃ path name, full = path ++ [name] :=
    ⟨_, _, (List.dropLast_concat_getLast hfull).symm⟩
  have hwrite : s.edit.alter? (fun cs =>
        (Tree.appended? (Keyed.get? cs name) value).map (Keyed.insert cs name)) path =
      Tree.update? (Deed.entry value).on (some s.edit) (path ++ [name]) :=
    Tree.alter?_entry (Deed.entry value).on s.edit path name
  rw [addValue, write, Write.run?, List.getLast?_concat, List.dropLast_concat]
  dsimp only
  rw [hwrite]
  simp only [Write.fault, List.dropLast_concat]
  cases Tree.update? (Deed.entry value).on (some s.edit) (path ++ [name]) with
  | some edit => rfl
  -- what stands in the way is on the path, or it is the value itself
  | none =>
    dsimp only
    split <;> rfl

/-- Writing to a leaf is the write that the leaf asks for. -/
theorem setLeaf_eq_write (s : Session) (leaf : Schema.Node) {full : Path} (hfull : full ≠ [])
    (value : String) : s.setLeaf leaf full value = (leaf.leafWrite full value).bind s.write := by
  rw [setLeaf, Schema.Node.leafWrite]
  cases leaf.valueFault? value with
  | some fault => rfl
  | none =>
    dsimp only
    by_cases hMulti : leaf.multi = true
    · rw [if_pos hMulti, if_pos hMulti]
      exact addValue_eq_write s hfull _
    · rw [if_neg hMulti, if_neg hMulti]
      exact storeValue_eq_write s hfull _

/-- Making an instance is a write of a node. -/
theorem setInstance_eq_write (s : Session) (full : Path) (name : String) :
    s.setInstance full name = (Schema.instanceWrite full name).bind s.write := by
  rw [setInstance, Schema.instanceWrite]
  by_cases hname : name.isEmpty = true
  · rw [if_pos hname, if_pos hname]
    rfl
  · rw [if_neg hname, if_neg hname]
    exact makeNode_eq_write s _

/-- Writing to a child is the write that the child asks for. -/
theorem setChild_eq_write (s : Session) (node : Schema.Node) (full : Path) (name : String) :
    s.setChild node full name = (node.childWrite full name).bind s.write := by
  rw [setChild, Schema.Node.childWrite]
  cases node.child? name with
  | none => rfl
  | some child =>
    dsimp only
    -- by the kind of child: an internal one is made, a leaf is made only without a value
    by_cases hLeaf : (!child.isLeaf) = true
    · rw [if_pos hLeaf, if_pos hLeaf]
      exact makeNode_eq_write s _
    · rw [if_neg hLeaf, if_neg hLeaf]
      by_cases hless : (!child.valueless) = true
      · rw [if_pos hless, if_pos hless]
        rfl
      · rw [if_neg hless, if_neg hless]
        exact storeValue_eq_write s (by simp) _

/-- A set asks the schema what to write, and writes it. -/
theorem set_eq_write (s : Session) (schema : Schema) (path : Path) (typed : String) :
    s.set schema path typed = (schema.writeAt (s.absolute path) typed).bind s.write := by
  rw [set, Schema.writeAt]
  -- both begin with the same tests, in the same order
  by_cases hquotes : holdsBothQuotes (unquote typed) = true
  · rw [if_pos hquotes, if_pos hquotes]
    rfl
  rw [if_neg hquotes, if_neg hquotes]
  cases hplace : schema.resolve (s.absolute path) with
  | error e => rfl
  | ok place =>
    dsimp only
    by_cases hLeaf : place.isLeaf = true
    · rw [if_pos hLeaf, if_pos hLeaf]
      exact setLeaf_eq_write s _
        (Schema.ne_nil_of_isLeaf (Schema.resolve_eq_ok_iff.mp hplace) hLeaf) _
    · rw [if_neg hLeaf, if_neg hLeaf]
      by_cases hTag : place.isTag = true
      · rw [if_pos hTag, if_pos hTag]
        exact setInstance_eq_write s _ _
      · rw [if_neg hTag, if_neg hTag]
        exact setChild_eq_write s _ _ _

end Session

/-! ## Writes where all conforms -/

namespace Schema

/-- A deed that suits a place. -/
inductive Suits (target : Place) : Deed → Prop where
  | node : target.isLeaf = false → Suits target .node
  | value {value : String} : target.Fits (.scalar value) → Suits target (.value value)
  | entry {value : String} :
    target.isLeaf = true → target.node.multi = true → target.node.valueless = false →
      target.node.Takes value → Suits target (.entry value)

/-- A value for a leaf that takes one is not empty, and nothing else would be a fault. -/
theorem Node.takes_of_valueFault? {leaf : Node} {value : String} (hless : leaf.valueless = false)
    (hfault : leaf.valueFault? value = none) (hquotes : holdsBothQuotes value = false) :
    leaf.Takes value := by
  refine ⟨fun hempty => ?_, hfault, hquotes⟩
  rw [valueFault?, hless, hempty] at hfault
  exact absurd hfault (by simp)

/-- What a leaf asks for suits it: one value, one of several, or its presence. -/
private theorem suits_of_leafWrite {place : Place} (hLeaf : place.isLeaf = true)
    (hRegular : place.node.Regular) {full : Path} {value : String} {w : Write}
    (hquotes : holdsBothQuotes value = false) (h : place.node.leafWrite full value = .ok w) :
    w.path = full ∧ Suits place w.deed := by
  rw [Node.leafWrite] at h
  -- a leaf of many values takes one more, any other leaf exactly one
  cases hfault : place.node.valueFault? value with
  | some fault => simp [hfault] at h
  | none =>
    rw [hfault] at h
    dsimp only at h
    by_cases hMulti : place.node.multi = true
    · rw [if_pos hMulti, Except.ok.injEq] at h
      subst h
      have hless := hRegular.takesValues hMulti
      exact ⟨rfl, .entry hLeaf hMulti hless (Node.takes_of_valueFault? hless hfault hquotes)⟩
    · rw [if_neg hMulti, Except.ok.injEq] at h
      subst h
      refine ⟨rfl, .value ?_⟩
      cases hless : place.node.valueless with
      | true =>
        rw [if_pos rfl]
        exact .presence hLeaf (by simpa using hMulti) hless
      | false =>
        rw [if_neg (by simp)]
        exact .value hLeaf (by simpa using hMulti) hless
          (Node.takes_of_valueFault? hless hfault hquotes)

/-- What a child asks for suits it: a node of its own, or its presence. -/
private theorem suits_of_childWrite {place : Place} (hTag : place.isTag = false)
    (hLeaf : place.isLeaf = false) {full : Path} {name : String} {w : Write}
    (hRegular : ∀ child, place.enter name = .ok (.declared child) → child.Regular)
    (h : place.node.childWrite full name = .ok w) :
    ∃ target, w.path = full ++ [name] ∧ place.enter name = .ok target ∧ Suits target w.deed := by
  rw [Node.childWrite] at h
  cases hchild : place.node.child? name with
  | none => simp [hchild] at h
  | some child =>
    rw [hchild] at h
    dsimp only at h
    have henter : place.enter name = .ok (.declared child) :=
      (Place.enter_eq_ok_iff_of_not_isTag hTag hLeaf).mpr ⟨child, hchild, rfl⟩
    -- an internal child is a place of its own, and a leaf without a value is its presence
    cases hChildLeaf : child.isLeaf with
    | false =>
      rw [hChildLeaf, if_pos (by simp), Except.ok.injEq] at h
      subst h
      exact ⟨.declared child, rfl, henter, .node hChildLeaf⟩
    | true =>
      rw [hChildLeaf, if_neg (by simp)] at h
      cases hless : child.valueless with
      | false =>
        rw [hless, if_pos (by simp)] at h
        exact absurd h (by simp)
      | true =>
        rw [hless, if_neg (by simp), Except.ok.injEq] at h
        subst h
        exact ⟨.declared child, rfl, henter,
          .value (.presence hChildLeaf ((hRegular child henter).valuelessAlone hless).1 hless)⟩

/-- What the schema asks for suits the place that it is meant for. -/
theorem suits_of_writeAt {schema : Schema} (hSchema : schema.Compiled) {full : Path}
    {typed : String} {w : Write} (h : schema.writeAt full typed = .ok w) :
    ∃ target, schema.rootPlace.Leads w.path target ∧ Suits target w.deed := by
  rw [writeAt] at h
  by_cases hquotes : holdsBothQuotes (unquote typed) = true
  · rw [if_pos hquotes] at h
    exact absurd h (by simp)
  rw [if_neg hquotes] at h
  cases hplace : schema.resolve full with
  | error e => simp [hplace] at h
  | ok place =>
    rw [hplace] at h
    dsimp only at h
    have hLeads := resolve_eq_ok_iff.mp hplace
    -- each kind of place is met by the lemma for its own write
    by_cases hLeaf : place.isLeaf = true
    · rw [if_pos hLeaf] at h
      obtain ⟨hpath, hSuits⟩ := suits_of_leafWrite hLeaf (regular_of_leads hSchema hLeads)
        (by simpa using hquotes) h
      exact ⟨place, hpath ▸ hLeads, hSuits⟩
    · rw [if_neg hLeaf] at h
      by_cases hTag : place.isTag = true
      · rw [if_pos hTag, instanceWrite] at h
        split at h
        · exact absurd h (by simp)
        · rw [Except.ok.injEq] at h
          subst h
          have hinstance := Place.enter_of_isTag hTag (unquote typed)
          exact ⟨_, Place.leads_snoc_iff.mpr ⟨place, hLeads, hinstance⟩, .node rfl⟩
      · rw [if_neg hTag] at h
        obtain ⟨target, hpath, henter, hSuits⟩ := suits_of_childWrite (by simpa using hTag)
          (by simpa using hLeaf) (fun child henter => regular_of_leads hSchema
            (Place.leads_snoc_iff.mpr ⟨place, hLeads, henter⟩)) h
        exact ⟨target, hpath ▸ Place.leads_snoc_iff.mpr ⟨place, hLeads, henter⟩, hSuits⟩

/-- Where all conforms, a deed that suits a place can be done there, and all conforms after it. -/
private theorem Suits.on {target : Place} {deed : Deed} (h : Suits target deed)
    {node? : Option Tree} (hnode : ∀ t, node? = some t → target.Conforms t) :
    ∃ t, deed.on node? = some t ∧ target.Conforms t := by
  -- what is put is a node, a value, or one more entry of a list that is there
  cases h with
  | node hLeaf =>
    cases node? with
    | none => exact ⟨Tree.empty, rfl, Place.conforms_empty hLeaf⟩
    | some t =>
      obtain ⟨children, rfl, -⟩ := (hnode t rfl).fits.isSubtree hLeaf
      exact ⟨_, rfl, hnode _ rfl⟩
  | value hfits => exact ⟨_, rfl, (Place.conforms_value_iff rfl).mpr hfits⟩
  | @entry value hLeaf hMulti hless htakes =>
    cases node? with
    | none =>
      refine ⟨.list [value], rfl, (Place.conforms_value_iff rfl).mpr
        (.values hLeaf hMulti hless (by simp) fun v hv => ?_)⟩
      rw [List.mem_singleton.mp hv]
      exact htakes
    | some t =>
      -- only a list fits a leaf of many values
      cases (hnode t rfl).fits with
      | subtree h => exact absurd hLeaf (by simp [h])
      | presence _ h => exact absurd hMulti (by simp [h])
      | value _ h => exact absurd hMulti (by simp [h])
      | @values values _ _ _ hne hvalues =>
        refine ⟨.list (values ++ [value]), rfl, (Place.conforms_value_iff rfl).mpr
          (.values hLeaf hMulti hless (by simp) fun v hv => ?_)⟩
        rcases List.mem_append.mp hv with hv | hv
        · exact hvalues v hv
        · rw [List.mem_singleton.mp hv]
          exact htakes

/-- Where all conforms a write that suits its place succeeds, and all conforms after it. -/
theorem Admits.write {schema : Schema} {t : Tree} (h : schema.Admits t) {w : Write} {target : Place}
    (hLeads : schema.rootPlace.Leads w.path target) (hSuits : Suits target w.deed) :
    ∃ t', w.run? t = some t' ∧ schema.Admits t' := by
  have hroot : ∀ u, some t = some u → schema.rootPlace.Conforms u := fun u hu =>
    Option.some.inj hu ▸ h
  obtain ⟨t', ht'⟩ := Place.Conforms.update_exists hroot hLeads fun found? hfound =>
    (hSuits.on hfound).imp fun _ h => h.1
  refine ⟨t', ht', Place.Conforms.update hroot hLeads (fun found? u hfound hu => ?_) ht'⟩
  obtain ⟨u', hu', hconforms⟩ := hSuits.on hfound
  rw [hu', Option.some.injEq] at hu
  exact hu ▸ hconforms

/-! ## Deletions where all conforms -/

/-- Taking one value out of a leaf leaves a configuration that conforms, once it is pruned. -/
private theorem Admits.withoutValue {schema : Schema} {t t' : Tree} (h : schema.Admits t)
    {full : Path} {place : Place} (hLeads : schema.rootPlace.Leads full place) {value : String}
    (hLeaf : place.isLeaf = true) (ht' : t.withoutValue? full value = some t') :
    schema.Admits (t'.prune full) := by
  rw [Tree.withoutValue?] at ht'
  cases hget : t.get? full with
  | none => simp [hget] at ht'
  | some node =>
    rw [hget] at ht'
    -- what stands at the leaf fits it, so it is one value or a list of them
    obtain ⟨place', hplace', hfits⟩ := h full node hget
    obtain rfl := hLeads.unique hplace'
    cases node with
    | subtree children => simp at ht'
    | scalar stored =>
      dsimp only at ht'
      split at ht'
      · obtain ⟨removed, -, rfl⟩ := Option.map_eq_some_iff.mp ht'
        exact (Place.Conforms.remove h full).prune full
      · exact absurd ht' (by simp)
    | list stored =>
      dsimp only at ht'
      split at ht'
      · by_cases hlast : stored.erase value = []
        · -- no value is left, so the leaf goes as if it had been taken out
          have hfull := ne_nil_of_isLeaf hLeads hLeaf
          rw [hlast] at ht'
          rw [Tree.prune_replace_empty (fun p children hp => Place.Conforms.ordered h hp) rfl hfull
            ht']
          exact (Place.Conforms.remove h full).prune full
        · refine Place.Conforms.prune ?_ full
          rw [Tree.replace?_eq_update?] at ht'
          refine Place.Conforms.update (fun u hu => Option.some.inj hu ▸ h) hLeads ?_ ht'
          intro found? u _ hu
          obtain ⟨_, -, rfl⟩ := Option.map_eq_some_iff.mp hu
          cases hfits with
          | values _ hMulti hless _ hvalues =>
            exact (Place.conforms_value_iff rfl).mpr (.values hLeaf hMulti hless hlast
              fun v hv => hvalues v (List.mem_of_mem_erase hv))
      · exact absurd ht' (by simp)

/-- What a deletion leaves conforms. -/
theorem Admits.deleted {schema : Schema} {t t' : Tree} (h : schema.Admits t) {full : Path}
    {place : Place} (hLeads : schema.rootPlace.Leads full place) {value? : Option String}
    (ht' : Session.deleted? t place full value? = some t') : schema.Admits (t'.prune full) := by
  have hwithout : ∀ path, t.without? path = some t' → schema.Admits (t'.prune full) := by
    intro path hpath
    obtain ⟨removed, -, rfl⟩ := Option.map_eq_some_iff.mp hpath
    exact (Place.Conforms.remove h path).prune full
  cases value? with
  | none => exact hwithout full ht'
  | some value =>
    rw [Session.deleted?] at ht'
    by_cases hLeaf : place.isLeaf = true
    · rw [if_pos hLeaf] at ht'
      exact h.withoutValue hLeads hLeaf ht'
    · rw [if_neg hLeaf] at ht'
      exact hwithout _ ht'

end Schema

end RouterConfig
