import RouterConfig.Proofs.Schema.Compiling
import RouterConfig.Proofs.Schema.Turns

/-!
# RouterConfig — owners and priorities as they were defined

What a schema lists of its owners, by the definitions that the schema was made of: whatever
names an owner is listed with its path, and the path leads back to it. Main results:

* `EachBecomes.listed_of_stands`, `EachBecomes.stands_of_listed` — the nodes of a schema are listed
  under the paths at which they were defined;
* `Orderly.not_isTag_of_owned` — no part of an owned path but the whole names a tag node;
* `listings_of_definitions` — both listings of a schema.
-/

namespace RouterConfig.Schema

/-! ## Nodes and their definitions -/

namespace Definition

/-- A definition stands at a path among and below others. -/
def StandsAt (ds : List (String × Definition)) (path : Path) (d : Definition) : Prop :=
  ∃ above name, Stands ds above (name, d) ∧ path = above.map (·.1) ++ [name]

/-- Every definition of a list becomes a node under its name. -/
theorem EachBecomes.exists_of_mem {ds : List (String × Definition)} {nodes : List (String × Node)}
    (h : EachBecomes ds nodes) {name : String} {d : Definition} (hmem : (name, d) ∈ ds) :
    ∃ n, (name, n) ∈ nodes ∧ d.Becomes n := by
  induction ds generalizing nodes with
  | nil => exact absurd hmem (by simp)
  | cons first rest ih =>
    cases h with
    | cons hfirst hrest =>
      rcases List.mem_cons.mp hmem with heq | hmem
      · obtain ⟨rfl, rfl⟩ := Prod.mk.inj heq
        exact ⟨_, List.mem_cons_self .., hfirst⟩
      · obtain ⟨n, hn, hbecomes⟩ := ih hrest hmem
        exact ⟨n, List.mem_cons_of_mem _ hn, hbecomes⟩

/-- Every node that a list of definitions gives comes from one of them, under its name. -/
theorem EachBecomes.exists_of_mem_nodes {ds : List (String × Definition)}
    {nodes : List (String × Node)} (h : EachBecomes ds nodes) {name : String} {n : Node}
    (hmem : (name, n) ∈ nodes) : ∃ d, (name, d) ∈ ds ∧ d.Becomes n := by
  induction ds generalizing nodes with
  | nil =>
    cases h
    exact absurd hmem (by simp)
  | cons first rest ih =>
    cases h with
    | cons hfirst hrest =>
      rcases List.mem_cons.mp hmem with heq | hmem
      · obtain ⟨rfl, rfl⟩ := Prod.mk.inj heq
        exact ⟨_, List.mem_cons_self .., hfirst⟩
      · obtain ⟨d, hd, hbecomes⟩ := ih hrest hmem
        exact ⟨d, List.mem_cons_of_mem _ hd, hbecomes⟩

/-- What stands among and below definitions is listed with its path. -/
theorem EachBecomes.listed_of_stands {ds above : List (String × Definition)}
    {entry : String × Definition} (hstands : Stands ds above entry) {nodes : List (String × Node)}
    (h : EachBecomes ds nodes) (path : Path) :
    ∃ n, (path ++ (above.map (·.1) ++ [entry.1]), n) ∈ declarationsBelow path nodes ∧
      entry.2.Becomes n := by
  -- on the way down to the entry: it is listed at the top, or below a name that is listed
  induction hstands generalizing nodes path with
  | @top ds entry hmem =>
    obtain ⟨n, hn, hbecomes⟩ := h.exists_of_mem hmem
    refine ⟨n, ?_, hbecomes⟩
    rw [declarationsBelow_eq_flatMap]
    refine List.mem_flatMap.mpr ⟨(entry.1, n), hn, ?_⟩
    rw [Node.declarations_eq]
    exact List.mem_cons_self ..
  | @under ds above parent entry hmem _ ih =>
    obtain ⟨n, hn, hbecomes⟩ := h.exists_of_mem hmem
    cases hbecomes with
    | intro _ hchildren =>
      obtain ⟨found, hfound, hentry⟩ := ih hchildren (path ++ [parent.1])
      refine ⟨found, ?_, hentry⟩
      rw [declarationsBelow_eq_flatMap]
      refine List.mem_flatMap.mpr ⟨(parent.1, n), hn, ?_⟩
      rw [Node.declarations_eq]
      rw [List.append_assoc] at hfound
      exact List.mem_cons_of_mem _ hfound

/-- What is defined below a definition is defined below those that it is among. -/
theorem StandsAt.under {ds : List (String × Definition)} {name : String} {parent d : Definition}
    {rest : Path} (hparent : (name, parent) ∈ ds) (h : StandsAt parent.children rest d) :
    StandsAt ds (name :: rest) d := by
  obtain ⟨above, last, hstands, rfl⟩ := h
  exact ⟨(name, parent) :: above, last, .under hparent hstands, rfl⟩

theorem StandsAt.top {ds : List (String × Definition)} {name : String} {d : Definition}
    (h : (name, d) ∈ ds) : StandsAt ds [name] d := ⟨[], name, .top h, rfl⟩

/-- What is listed below a node stands among and below the definitions of its children. -/
theorem EachBecomes.stands_of_listed {n m : Node} (hPlaced : n.Everywhere Node.Placed)
    {ds : List (String × Definition)} (h : EachBecomes ds n.children) {path q : Path}
    (hlisted : (q, m) ∈ declarationsBelow path n.children) :
    ∃ rest d, StandsAt ds rest d ∧ q = path ++ rest ∧ d.Becomes m := by
  induction hPlaced generalizing ds path with
  | @intro n _ _ ih =>
    rw [declarationsBelow_eq_flatMap] at hlisted
    obtain ⟨⟨name, child⟩, hchild, hlisted⟩ := List.mem_flatMap.mp hlisted
    obtain ⟨d, hd, hbecomes⟩ := h.exists_of_mem_nodes hchild
    rw [Node.declarations_eq] at hlisted
    rcases List.mem_cons.mp hlisted with heq | hlisted
    · obtain ⟨rfl, rfl⟩ := Prod.mk.inj heq
      exact ⟨[name], d, .top hd, rfl, hbecomes⟩
    · cases hbecomes with
      | intro _ hchildren =>
        obtain ⟨rest, e, hstands, rfl, he⟩ := ih (name, child) hchild hchildren hlisted
        exact ⟨name :: rest, e, hstands.under hd, by rw [List.append_assoc]; rfl, he⟩

theorem Becomes.shows {d : Definition} {n : Node} (h : d.Becomes n) : d.Shows n := by
  cases h
  assumption

end Definition

/-! ## What a schema lists -/

/-- A declaration is listed as owned if and only if it has an owner, with its own priority and
kind. -/
theorem owned?_eq_some_iff {path : Path} {n : Node} {owned : OwnedPath} :
    owned? (path, n) = some owned ↔
      owned.path = path ∧ n.owner? = some owned.owner ∧ n.priority? = owned.priority? ∧
        (n.kind = .tag ↔ owned.isTag = true) := by
  rw [owned?]
  constructor
  · intro h
    obtain ⟨owner, howner, rfl⟩ := Option.map_eq_some_iff.mp h
    exact ⟨rfl, howner, rfl, by simp [Node.isTag]⟩
  · rintro ⟨rfl, howner, hpriority, hkind⟩
    have hTag : n.isTag = owned.isTag := by
      rw [Bool.eq_iff_iff, ← hkind, Node.isTag, decide_eq_true_eq]
    rw [howner, Option.map_some, hpriority, hTag]

/-- A declaration is listed with its priority if and only if it has one and no owner. -/
theorem unowned?_eq_some_iff {path : Path} {n : Node} {entry : Int × Path} :
    unowned? (path, n) = some entry ↔
      entry.2 = path ∧ n.owner? = none ∧ n.priority? = some entry.1 := by
  obtain ⟨priority, other⟩ := entry
  rw [unowned?]
  cases n.owner? with
  | some owner => simp
  | none =>
    rw [if_neg (by simp), Option.map_eq_some_iff]
    constructor
    · rintro ⟨_, hpriority, heq⟩
      obtain ⟨rfl, rfl⟩ := Prod.mk.inj heq
      exact ⟨rfl, rfl, hpriority⟩
    · rintro ⟨rfl, -, hpriority⟩
      exact ⟨priority, hpriority, rfl⟩

section Listings

variable {definitions : Keyed Definition} {schema : Schema}

/-- Something is declared at a path if and only if what defines it stands there. -/
theorem declared_iff_stands (hOrderly : OrderlyAll definitions)
    (h : ofDefinitions definitions = .ok schema) {path : Path} {P : Node → Prop}
    {Q : Definition → Prop} (hPQ : ∀ {d n}, d.Shows n → (P n ↔ Q d)) :
    (∃ n, (path, n) ∈ declarationsBelow [] schema.top ∧ P n) ↔
      ∃ d, Definition.StandsAt definitions path d ∧ Q d := by
  have hbecomes := eachBecomes_of_ofDefinitions h
  have hplaced : schema.rootNode.Everywhere Node.Placed := Orderly.placed ⟨definitions, hOrderly, h⟩
  constructor
  · rintro ⟨n, hlisted, hn⟩
    obtain ⟨rest, d, hstands, rfl, hd⟩ := Definition.EachBecomes.stands_of_listed hplaced hbecomes
      hlisted
    exact ⟨d, hstands, (hPQ hd.shows).mp hn⟩
  · rintro ⟨d, ⟨above, name, hstands, rfl⟩, hd⟩
    obtain ⟨n, hlisted, hn⟩ := hbecomes.listed_of_stands hstands []
    exact ⟨n, hlisted, (hPQ hn.shows).mpr hd⟩

/-- The owned paths of a schema are those at which its definitions have an owner. -/
theorem mem_ownedPaths_iff_stands (hOrderly : OrderlyAll definitions)
    (h : ofDefinitions definitions = .ok schema) (owned : OwnedPath) :
    owned ∈ schema.ownedPaths ↔
      ∃ d, Definition.StandsAt definitions owned.path d ∧ d.owner? = some owned.owner ∧
        d.priority? = owned.priority? ∧ (d.kind = .tag ↔ owned.isTag = true) := by
  rw [ownedPaths, (sortBy_perm OwnedPath.precedes _).mem_iff, List.mem_filterMap,
    ← declared_iff_stands hOrderly h fun {d n} hshows => by
      rw [← hshows.owner, ← hshows.priority, ← hshows.kind]]
  constructor
  · rintro ⟨⟨path, n⟩, hlisted, hof⟩
    obtain ⟨rfl, hattributes⟩ := owned?_eq_some_iff.mp hof
    exact ⟨n, hlisted, hattributes⟩
  · rintro ⟨n, hlisted, hattributes⟩
    exact ⟨(owned.path, n), hlisted, owned?_eq_some_iff.mpr ⟨rfl, hattributes⟩⟩

/-- The priorities without an owner are those at which its definitions have a priority and none. -/
theorem mem_unownedPriorities_iff_stands (hOrderly : OrderlyAll definitions)
    (h : ofDefinitions definitions = .ok schema) (priority : Int) (path : Path) :
    (priority, path) ∈ schema.unownedPriorities ↔
      ∃ d, Definition.StandsAt definitions path d ∧ d.owner? = none ∧
        d.priority? = some priority := by
  rw [unownedPriorities, (sortBy_perm _ _).mem_iff, List.mem_filterMap,
    ← declared_iff_stands hOrderly h fun {d n} hshows => by
      rw [← hshows.owner, ← hshows.priority]]
  constructor
  · rintro ⟨⟨other, n⟩, hlisted, hof⟩
    obtain ⟨rfl, hattributes⟩ := unowned?_eq_some_iff.mp hof
    exact ⟨n, hlisted, hattributes⟩
  · rintro ⟨n, hlisted, hattributes⟩
    exact ⟨(path, n), hlisted, unowned?_eq_some_iff.mpr ⟨rfl, hattributes⟩⟩

namespace Orderly

theorem path_ne_of_lt {p q : Path} (h : p < q) : p ≠ q := fun heq => List.lt_irrefl q (heq ▸ h)

/-- No path is listed twice among the owned ones. -/
theorem ownedPaths_nodup (h : schema.Orderly) : (schema.ownedPaths.map (·.path)).Nodup := by
  have hlisted : ((declarationsBelow [] schema.top).filterMap owned?).Pairwise
      fun a b => a.path ≠ b.path := by
    refine h.declared_pairwise.filterMap owned? fun a b hlt a' ha b' hb => ?_
    rw [(owned?_eq_some_iff.mp ha).1, (owned?_eq_some_iff.mp hb).1]
    exact path_ne_of_lt hlt
  rw [ownedPaths, ((sortBy_perm OwnedPath.precedes _).map _).nodup_iff]
  exact List.pairwise_map.mpr hlisted

theorem unownedPriorities_listed (h : schema.Orderly) :
    ((declarationsBelow [] schema.top).filterMap unowned?).Pairwise fun a b => a.2 < b.2 := by
  refine h.declared_pairwise.filterMap unowned? fun a b hlt a' ha b' hb => ?_
  rw [(unowned?_eq_some_iff.mp ha).1, (unowned?_eq_some_iff.mp hb).1]
  exact hlt

/-- Nor is any among those with a priority and without an owner. -/
theorem unownedPriorities_nodup (h : schema.Orderly) :
    (schema.unownedPriorities.map (·.2)).Nodup := by
  rw [unownedPriorities, ((sortBy_perm _ _).map _).nodup_iff]
  exact List.pairwise_map.mpr (h.unownedPriorities_listed.imp path_ne_of_lt)

/-- The priorities without an owner are in order, and those that are equal in the order of their
paths. -/
theorem unownedPriorities_pairwise (h : schema.Orderly) :
    schema.unownedPriorities.Pairwise fun a b => a.1 < b.1 ∨ a.1 = b.1 ∧ a.2 < b.2 := by
  refine (sortBy_pairwise (fun a b => ?_) (fun a b c hab hbc => ?_)
    h.unownedPriorities_listed).imp ?_
  · simp only [decide_eq_true_eq]
    exact Int.le_total a.1 b.1
  · simp only [decide_eq_true_eq] at hab hbc ⊢
    exact Int.le_trans hab hbc
  · rintro a b ⟨hab, hstable⟩
    simp only [decide_eq_true_eq] at hab hstable
    rcases Int.lt_or_eq_of_le hab with hlt | heq
    · exact .inl hlt
    · exact .inr ⟨heq, hstable (Int.le_of_eq heq.symm)⟩

/-- What a definition with an owner becomes is where its path leads. -/
theorem leads_of_stands (hOrderly : OrderlyAll definitions)
    (h : ofDefinitions definitions = .ok schema) {path : Path} {d : Definition}
    (hstands : Definition.StandsAt definitions path d) (howner : d.owner?.isSome = true) :
    ∃ n, schema.rootPlace.Leads path (.declared n) ∧ d.Becomes n := by
  have hschema : schema.Orderly := ⟨definitions, hOrderly, h⟩
  obtain ⟨above, name, hstands, rfl⟩ := hstands
  obtain ⟨n, hlisted, hn⟩ := (eachBecomes_of_ofDefinitions h).listed_of_stands hstands []
  have hroot : schema.rootNode.Everywhere Node.Placed := hschema.placed
  have hbelow : ([] ++ (above.map (·.1) ++ [name]), n) ∈ schema.rootNode.declarations [] := by
    rw [Node.declarations_eq]
    exact List.mem_cons_of_mem _ hlisted
  obtain ⟨rest, hpath, hLeads⟩ := leads_of_declarations schema.rootNode [] _ n hroot
    hschema.compiled.regular (by rw [hn.shows.owner]; exact howner) hbelow
  rw [List.nil_append, List.nil_append] at hpath
  exact ⟨n, hpath ▸ hLeads, hn⟩

/-- On the way to a node with an owner there is no tag node. -/
theorem not_isTag_of_owned (h : schema.Orderly) {path above : Path} {n : Node}
    (hLeads : schema.rootPlace.Leads path (.declared n)) (howner : n.owner?.isSome = true)
    (habove : above <+: path) (hne : above ≠ path) : schema.isTag above = false := by
  obtain ⟨rest, rfl⟩ := habove
  obtain ⟨place, hplace, hrest⟩ := Place.leads_append_iff.mp hLeads
  rw [isTag_of_resolve (resolve_eq_ok_iff.mpr hplace)]
  refine Bool.eq_false_iff.mpr fun hTag => ?_
  cases hrest with
  | here => exact hne (List.append_nil above).symm
  | @step _ next _ name rest henter hnext =>
    -- the next name is that of an instance, below which there are no owners
    rw [Place.enter_of_isTag hTag, Except.ok.injEq] at henter
    subst henter
    have hroot : schema.rootPlace.node.Everywhere Node.Placed := h.placed
    have hplaced : place.node.Placed := (Place.everywhere_of_leads hroot hplace).here
    have htag : place.node.isTag = true := by
      cases place with
      | declared tag => exact hTag
      | instanceOf tag => exact absurd hTag (by simp [Place.isTag])
    rw [owner?_of_instance_leads hplaced htag hnext] at howner
    exact absurd howner (by simp)

end Orderly

/-- What a schema lists of definitions. -/
structure Lists (definitions : Keyed Definition) (schema : Schema) : Prop where
  /-- Listed is whatever names an owner, with its attributes. -/
  owned : ∀ owned : OwnedPath, owned ∈ schema.ownedPaths ↔
    ∃ d, Definition.StandsAt definitions owned.path d ∧ d.owner? = some owned.owner ∧
      d.priority? = owned.priority? ∧ (d.kind = .tag ↔ owned.isTag = true)
  ownedOnce : (schema.ownedPaths.map (·.path)).Nodup
  /-- The order is one of priorities, with those that have none at the end, and of paths. -/
  ownedOrder : schema.ownedPaths.Pairwise OwnedPath.Before
  /-- Listed is whatever has a priority and names no owner. -/
  unowned : ∀ priority path, (priority, path) ∈ schema.unownedPriorities ↔
    ∃ d, Definition.StandsAt definitions path d ∧ d.owner? = none ∧ d.priority? = some priority
  unownedOnce : (schema.unownedPriorities.map (·.2)).Nodup
  unownedOrder :
    schema.unownedPriorities.Pairwise fun a b => a.1 < b.1 ∨ a.1 = b.1 ∧ a.2 < b.2

/-- A schema lists exactly once whatever its definitions give to owners, in the order of their
turns, and exactly once whatever has a priority but no owner, in the order of the priorities. The
path of a definition with an owner leads to what the definition has become, never to an instance:
none of its parts names a tag node. -/
theorem listings_of_definitions (hOrderly : OrderlyAll definitions)
    (h : ofDefinitions definitions = .ok schema) :
    Lists definitions schema ∧
    ∀ path d, Definition.StandsAt definitions path d → d.owner?.isSome = true →
      (∃ n, schema.resolve path = .ok (.declared n) ∧ d.Becomes n) ∧
      ∀ above, above <+: path → above ≠ path → schema.isTag above = false := by
  have hschema : schema.Orderly := ⟨definitions, hOrderly, h⟩
  constructor
  · exact ⟨mem_ownedPaths_iff_stands hOrderly h, hschema.ownedPaths_nodup,
      hschema.ownedPaths_pairwise, mem_unownedPriorities_iff_stands hOrderly h,
      hschema.unownedPriorities_nodup, hschema.unownedPriorities_pairwise⟩
  · intro path d hstands howner
    obtain ⟨n, hLeads, hn⟩ := Orderly.leads_of_stands hOrderly h hstands howner
    have hnode : n.owner?.isSome = true := by
      rw [hn.shows.owner]
      exact howner
    exact ⟨⟨n, resolve_eq_ok_iff.mpr hLeads, hn⟩,
      fun above habove hne => hschema.not_isTag_of_owned hLeads hnode habove hne⟩

/-- Positions are listed by priority, and an owner without one comes last; the units of interfaces
stand below a tag node, so that they have no owner. -/
theorem listings_of_definitions_of_layered :
    Lists Sample.layered Sample.layeredSchema ∧
    (⟨["interface"], "net", some 300, true⟩ : OwnedPath) ∈ Sample.layeredSchema.ownedPaths ∧
    ∃ n, Sample.layeredSchema.resolve ["system", "name"] = .ok (.declared n) ∧
      n.owner? = some "host" := by
  have hlists := listings_of_definitions Sample.layered_orderly
    (show ofDefinitions Sample.layered = .ok Sample.layeredSchema from rfl)
  refine ⟨hlists.1, ?_, ?_⟩
  · exact (hlists.1.owned _).mpr ⟨_, .top (List.mem_cons_self ..), rfl, rfl, by decide⟩
  · have hname : Definition.StandsAt Sample.layered ["system", "name"]
        { kind := .leaf, owner? := some "host", priority? := some 300 } :=
      .under (List.mem_cons_of_mem _ (List.mem_cons_self ..)) (.top (List.mem_cons_self ..))
    obtain ⟨⟨n, hn, hbecomes⟩, -⟩ := hlists.2 _ _ hname rfl
    exact ⟨n, hn, hbecomes.shows.owner⟩

end Listings

end RouterConfig.Schema
