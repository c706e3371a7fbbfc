import RouterConfig.Schema.Owners
import RouterConfig.Schema.Reader
import RouterConfig.Proofs.Schema.Conformance

/-!
# RouterConfig — where owned positions lead

An owned position is listed with the names of the declarations on its way. In an orderly schema each
name is declared once, and no owner is below a tag node, so that the position leads to the very
declaration that names its owner. Main results:

* `definition?_orderly`, `Read.orderly` — what is read defines each name once, in order;
* `Orderly.placed` — so do the nodes of an orderly schema;
* `Orderly.leads_of_owned` — an owned position leads to the node that declares it;
* `Admits.isSubtree_of_isTag` — a conforming configuration holds a subtree at a tag node.
-/

namespace RouterConfig.Schema

/-! ## Definitions as they are read -/

/-- Each name is defined once, in order, at and below a definition. -/
inductive Definition.Orderly : Definition → Prop where
  | intro {d : Definition} :
    Keyed.Ordered d.children → (∀ entry ∈ d.children, Orderly entry.2) → Orderly d

/-- Each name is defined once, in order, among and below definitions. -/
def OrderlyAll (ds : Keyed Definition) : Prop :=
  Keyed.Ordered ds ∧ ∀ entry ∈ ds, entry.2.Orderly

mutual

/-- Whether each name is defined once, in order, at and below a definition. -/
def Definition.isOrderly : Definition → Bool
  | ⟨_, _, _, _, _, _, _, _, _, children⟩ =>
    decide (children.Pairwise fun a b => a.1 < b.1) && eachOrderly children

/-- Whether it is so at and below each of some definitions. -/
def eachOrderly : List (String × Definition) → Bool
  | [] => true
  | (_, d) :: rest => d.isOrderly && eachOrderly rest

end

mutual

theorem Definition.orderly_of_isOrderly : ∀ d : Definition, d.isOrderly = true → d.Orderly
  | ⟨_, _, _, _, _, _, _, _, _, children⟩, h => by
    rw [Definition.isOrderly, Bool.and_eq_true, decide_eq_true_eq] at h
    exact .intro h.1 (orderly_of_eachOrderly children h.2)

/-- Definitions that are checked to be orderly one by one are orderly. -/
theorem orderly_of_eachOrderly : ∀ ds : List (String × Definition), eachOrderly ds = true →
    ∀ entry ∈ ds, entry.2.Orderly
  | [], _, entry, hentry => absurd hentry (by simp)
  | (_, d) :: rest, h, entry, hentry => by
    rw [eachOrderly, Bool.and_eq_true] at h
    rcases List.mem_cons.mp hentry with rfl | hentry
    · exact d.orderly_of_isOrderly h.1
    · exact orderly_of_eachOrderly rest h.2 entry hentry

end

/-- A definition under another name leaves the list of definitions orderly. -/
theorem OrderlyAll.insert {ds : Keyed Definition} (h : OrderlyAll ds) (name : String)
    {d : Definition} (hd : d.Orderly) : OrderlyAll (Keyed.insert ds name d) := by
  have hOrdered := Keyed.insert_ordered h.1 name d
  refine ⟨hOrdered, fun entry hentry => ?_⟩
  have hget := (Keyed.mem_iff_get? hOrdered).mp hentry
  by_cases hname : name = entry.1
  · rw [← hname, Keyed.get?_insert_self, Option.some.injEq] at hget
    exact hget ▸ hd
  · rw [Keyed.get?_insert_of_ne _ _ hname] at hget
    exact h.2 entry (Keyed.mem_of_get? hget)

/-- The other fields have nothing to do with the children. -/
theorem setField?_children {d d' : Definition} {name : String} {node : Yaml.Node}
    (h : setField? d name node = some d') : d'.children = d.children := by
  unfold setField? at h
  split at h
  all_goals first
    | obtain ⟨_, -, rfl⟩ := Option.map_eq_some_iff.mp h
      rfl
    | exact absurd h (by simp)

mutual

/-- A definition that is read from a file is orderly, since its children are. -/
theorem definition?_orderly : ∀ (node : Yaml.Node) (d : Definition),
    definition? node = some d → d.Orderly
  | .mapping entries _, d, h => by
    rw [definition?] at h
    exact fields?_orderly entries [] {} d (.intro List.Pairwise.nil (by simp)) h
  | .scalar text style _, d, h => by
    rw [definition?] at h
    split at h
    · rw [← Option.some.inj h]
      exact .intro List.Pairwise.nil (by simp)
    · exact absurd h (by simp)
  | .sequence _ _, d, h => by
    rw [definition?] at h
    exact absurd h (by simp)

/-- The entries of a definition that are read from a file leave it orderly. -/
theorem fields?_orderly : ∀ (entries : List (Yaml.Node × Yaml.Node)) (seen : List String)
    (d d' : Definition), d.Orderly → fields? entries seen d = some d' → d'.Orderly
  | [], seen, d, d', hd, h => by
    rw [fields?] at h
    exact Option.some.inj h ▸ hd
  | (key, value) :: rest, seen, d, d', hd, h => by
    rw [fields?] at h
    -- a name that is read twice is refused; else it sets the children or a field
    cases hkey : scalarText? key with
    | none => simp [hkey] at h
    | some name =>
      rw [hkey] at h
      dsimp only at h
      split at h
      · exact absurd h (by simp)
      · split at h
        · cases hchildren : children? value with
          | none => simp [hchildren] at h
          | some children =>
            rw [hchildren] at h
            have hall := children?_orderly value children hchildren
            exact fields?_orderly rest _ _ d' (.intro hall.1 hall.2) h
        · cases hfield : setField? d name value with
          | none => simp [hfield] at h
          | some next =>
            rw [hfield] at h
            -- the children are still those that were read before
            have hnext : next.Orderly := by
              cases hd with
              | intro hOrdered hbelow =>
                rw [← setField?_children hfield] at hOrdered hbelow
                exact .intro hOrdered hbelow
            exact fields?_orderly rest _ next d' hnext h

/-- The children that are read from a file are orderly. -/
theorem children?_orderly : ∀ (node : Yaml.Node) (ds : Keyed Definition),
    children? node = some ds → OrderlyAll ds
  | .mapping entries _, ds, h => by
    rw [children?] at h
    exact namedDefinitions?_orderly entries [] ds ⟨List.Pairwise.nil, by simp⟩ h
  | .scalar text style _, ds, h => by
    rw [children?] at h
    split at h
    · rw [← Option.some.inj h]
      exact ⟨List.Pairwise.nil, by simp⟩
    · exact absurd h (by simp)
  | .sequence _ _, ds, h => by
    rw [children?] at h
    exact absurd h (by simp)

/-- The named definitions that are read from a file are orderly, as each is put in under its
name. -/
theorem namedDefinitions?_orderly : ∀ (entries : List (Yaml.Node × Yaml.Node))
    (before ds : Keyed Definition), OrderlyAll before →
    namedDefinitions? entries before = some ds → OrderlyAll ds
  | [], before, ds, hbefore, h => by
    rw [namedDefinitions?] at h
    exact Option.some.inj h ▸ hbefore
  | (key, value) :: rest, before, ds, hbefore, h => by
    rw [namedDefinitions?] at h
    cases hkey : scalarText? key with
    | none => simp [hkey] at h
    | some name =>
      cases hvalue : definition? value with
      | none => simp [hkey, hvalue] at h
      | some d =>
        rw [hkey, hvalue] at h
        have hd := definition?_orderly value d hvalue
        exact namedDefinitions?_orderly rest _ ds (hbefore.insert name hd) h

end

/-! ## Nodes of orderly schemas -/

/-- A node without an owner. -/
def Node.Ownerless (n : Node) : Prop := n.owner? = none

/-- What an orderly schema promises of the children of a single node. -/
structure Node.Placed (n : Node) : Prop where
  ordered : Keyed.Ordered n.children
  /-- No owner is below a tag node. -/
  ownerless : n.isTag = true → ∀ entry ∈ n.children, entry.2.Everywhere Node.Ownerless

namespace Definition

mutual

/-- An orderly definition gives a node that is placed: names in order, and no owner below a tag. -/
theorem compile_placed : ∀ (d : Definition) (path : Path) (belowTag : Bool) (node : Node),
    d.Orderly → d.compile path belowTag = .ok node →
    node.Everywhere Node.Placed ∧ (belowTag = true → node.Everywhere Node.Ownerless)
  | ⟨kind, multi, valueless, hidden, owner?, priority?, default?, constraint?, help?, children⟩,
      path, belowTag, node, hd, h => by
    obtain ⟨default', constraint', nodes, hattributes, hnodes, rfl⟩ := compile_eq_ok_iff.mp h
    cases hd with
    | intro hOrdered hbelow =>
      obtain ⟨hnames, hall⟩ := compileAll_placed children path _ nodes hbelow hnodes
      obtain ⟨hfault, -⟩ := attributes_eq_ok hattributes
      obtain ⟨-, -, -, howner⟩ := rules_of_attributeFault? hfault
      refine ⟨.intro ⟨?_, fun hTag entry hmem => ?_⟩ fun entry hmem => (hall entry hmem).1, ?_⟩
      -- the order is one of the names, and compiling keeps the names
      · rw [Keyed.Ordered, ← List.pairwise_map] at hOrdered ⊢
        exact hnames ▸ hOrdered
      · have hkind : kind = .tag := of_decide_eq_true hTag
        exact (hall entry hmem).2 (by simp [hkind])
      · intro hbelowTag
        exact .intro (howner hbelowTag) fun entry hmem =>
          (hall entry hmem).2 (by simp [hbelowTag])

/-- Orderly definitions give nodes that are placed, under the names they have. -/
theorem compileAll_placed : ∀ (ds : List (String × Definition)) (path : Path) (belowTag : Bool)
    (nodes : List (String × Node)), (∀ entry ∈ ds, entry.2.Orderly) →
    compileAll path belowTag ds = .ok nodes →
    nodes.map (·.1) = ds.map (·.1) ∧ ∀ entry ∈ nodes, entry.2.Everywhere Node.Placed ∧
      (belowTag = true → entry.2.Everywhere Node.Ownerless)
  | [], path, belowTag, nodes, _, h => by
    rw [compileAll_nil_eq_ok_iff.mp h]
    exact ⟨rfl, List.forall_mem_nil _⟩
  | (name, d) :: rest, path, belowTag, nodes, hds, h => by
    obtain ⟨first, others, hfirst, hothers, rfl⟩ := compileAll_cons_eq_ok_iff.mp h
    obtain ⟨hnames, hrest⟩ := compileAll_placed rest path belowTag others
      (fun entry hmem => hds entry (List.mem_cons_of_mem _ hmem)) hothers
    refine ⟨congrArg (name :: ·) hnames, fun entry hmem => ?_⟩
    rcases List.mem_cons.mp hmem with rfl | hmem
    · exact compile_placed d _ _ first (hds _ (List.mem_cons_self ..)) hfirst
    · exact hrest entry hmem

end

end Definition

/-- The schemas of definitions that define each name once. -/
def Orderly (schema : Schema) : Prop :=
  ∃ definitions : Keyed Definition, OrderlyAll definitions ∧ ofDefinitions definitions = .ok schema

/-- A schema that has been read from a text. -/
def Read (schema : Schema) : Prop := ∃ text, ofYaml text = .ok schema

/-- What is read defines each name once. -/
theorem Read.orderly {schema : Schema} (h : schema.Read) : schema.Orderly := by
  obtain ⟨text, h⟩ := h
  rw [ofYaml] at h
  cases hread : (Yaml.Document.ofText? text).bind definitionsOf? with
  | none => simp [hread] at h
  | some ds =>
    rw [hread] at h
    obtain ⟨document, -, hds⟩ := Option.bind_eq_some_iff.mp hread
    refine ⟨ds, ?_, h⟩
    cases document with
    | missing =>
      rw [definitionsOf?, Option.some.injEq] at hds
      exact hds ▸ ⟨List.Pairwise.nil, by simp⟩
    | one root => exact children?_orderly root ds hds

namespace Orderly

variable {schema : Schema}

theorem compiled (h : schema.Orderly) : schema.Compiled := by
  obtain ⟨ds, -, hds⟩ := h
  exact ⟨ds, hds⟩

/-- The nodes of an orderly schema are placed. -/
theorem placed (h : schema.Orderly) : schema.rootNode.Everywhere Node.Placed := by
  obtain ⟨ds, hOrderly, hds⟩ := h
  rw [ofDefinitions] at hds
  obtain ⟨top, htop, hds⟩ := bind_eq_ok hds
  rw [Except.ok.injEq] at hds
  subst hds
  obtain ⟨hnames, hall⟩ := Definition.compileAll_placed ds [] false top hOrderly.2 htop
  refine .intro ⟨?_, fun hTag => ?_⟩ fun entry hmem => (hall entry hmem).1
  · have hOrdered := hOrderly.1
    rw [Keyed.Ordered, ← List.pairwise_map] at hOrdered ⊢
    exact hnames ▸ hOrdered
  · exact absurd hTag (by simp [rootNode, Node.isTag])

end Orderly

theorem Read.compiled {schema : Schema} (h : schema.Read) : schema.Compiled := h.orderly.compiled

/-! ## Owned positions -/

/-- A conforming configuration holds nothing but a subtree at a tag node. -/
theorem Admits.isSubtree_of_isTag {schema : Schema} {t : Tree} (ht : schema.Admits t) {path : Path}
    {node : Node} (hLeads : schema.rootPlace.Leads path (.declared node))
    (hTag : node.isTag = true) : (t.subtreeAt path).isSubtree = true := by
  rw [Tree.subtreeAt]
  cases hget : t.get? path with
  | none => rfl
  | some found =>
    obtain ⟨place, hplace, hfits⟩ := ht path found hget
    obtain rfl := hplace.unique hLeads
    have hkind : node.kind = .tag := by simpa [Node.isTag] using hTag
    obtain ⟨children, rfl, -⟩ := hfits.isSubtree (by simp [Place.isLeaf, Node.isLeaf, hkind])
    rfl

/-- A child leads to where it is declared, unless its parent is a tag node. -/
theorem enter_of_mem {n : Node} (hPlaced : n.Placed) (hRegular : n.Regular)
    (hTag : n.isTag = false) {name : String} {child : Node} (hmem : (name, child) ∈ n.children) :
    (Place.declared n).enter name = .ok (.declared child) := by
  have hLeaf : n.isLeaf = false := by
    cases hLeaf : n.isLeaf with
    | false => rfl
    | true =>
      rw [hRegular.leafEnds hLeaf] at hmem
      exact absurd hmem (by simp)
  have hfound : n.child? name = some child := (Keyed.mem_iff_get? hPlaced.ordered).mp hmem
  have hplace : (Place.declared n).isTag = false ∧ (Place.declared n).isLeaf = false :=
    ⟨hTag, hLeaf⟩
  exact (Place.enter_eq_ok_iff_of_not_isTag hplace.1 hplace.2).mpr ⟨child, hfound, rfl⟩

mutual

/-- The declarations with an owner stand where their paths lead. -/
theorem leads_of_declarations : ∀ (n : Node) (path q : Path) (d : Node),
    n.Everywhere Node.Placed → n.Everywhere Node.Regular → d.owner?.isSome = true →
    (q, d) ∈ n.declarations path → ∃ rest, q = path ++ rest ∧
      (Place.declared n).Leads rest (.declared d)
  | ⟨kind, multi, valueless, hidden, owner?, priority?, default?, constraint?, help?, children⟩,
      path, q, d, hPlaced, hRegular, howner, hmem => by
    rw [Node.declarations] at hmem
    rcases List.mem_cons.mp hmem with heq | hmem
    · obtain ⟨rfl, rfl⟩ := Prod.mk.inj heq
      exact ⟨[], (List.append_nil q).symm, .here _⟩
    · obtain ⟨name, child, hchild, rest, rfl, hLeads⟩ :=
        leads_of_declarationsBelow children path q d
          (fun entry hentry => ⟨hPlaced.child hentry, hRegular.child hentry⟩) howner hmem
      refine ⟨name :: rest, rfl, .step (enter_of_mem hPlaced.here hRegular.here ?_ hchild) hLeads⟩
      -- below a tag node there would be no owner
      cases hTag : Node.isTag ⟨kind, multi, valueless, hidden, owner?, priority?, default?,
        constraint?, help?, children⟩ with
      | false => rfl
      | true =>
        have hnone := Place.everywhere_of_leads (hPlaced.here.ownerless hTag _ hchild) hLeads
        rw [show d.owner? = none from hnone.here] at howner
        exact absurd howner (by simp)

/-- A node that is declared below the children with an owner is led to by its path. -/
theorem leads_of_declarationsBelow : ∀ (children : List (String × Node)) (path q : Path) (d : Node),
    (∀ entry ∈ children, entry.2.Everywhere Node.Placed ∧ entry.2.Everywhere Node.Regular) →
    d.owner?.isSome = true → (q, d) ∈ declarationsBelow path children →
    ∃ name child, (name, child) ∈ children ∧ ∃ rest, q = path ++ name :: rest ∧
      (Place.declared child).Leads rest (.declared d)
  | [], path, q, d, _, _, hmem => by
    rw [declarationsBelow] at hmem
    exact absurd hmem (by simp)
  | (name, child) :: others, path, q, d, hall, howner, hmem => by
    rw [declarationsBelow] at hmem
    rcases List.mem_append.mp hmem with hmem | hmem
    · obtain ⟨hPlaced, hRegular⟩ := hall _ (List.mem_cons_self ..)
      obtain ⟨rest, rfl, hLeads⟩ :=
        leads_of_declarations child (path ++ [name]) q d hPlaced hRegular howner hmem
      exact ⟨name, child, List.mem_cons_self .., rest, by simp, hLeads⟩
    · obtain ⟨other, node, hnode, rest, hq, hLeads⟩ := leads_of_declarationsBelow others path q d
        (fun entry hentry => hall entry (List.mem_cons_of_mem _ hentry)) howner hmem
      exact ⟨other, node, List.mem_cons_of_mem _ hnode, rest, hq, hLeads⟩

end

namespace Orderly

variable {schema : Schema}

/-- An owned position leads to the node that declares it. -/
theorem leads_of_owned (h : schema.Orderly) {owned : OwnedPath}
    (howned : owned ∈ schema.ownedPaths) :
    ∃ node, schema.rootPlace.Leads owned.path (.declared node) ∧
      node.owner? = some owned.owner ∧ node.isTag = owned.isTag := by
  have hmem := (sortBy_perm OwnedPath.precedes _).mem_iff.mp howned
  obtain ⟨⟨path, node⟩, hdeclared, hof⟩ := List.mem_filterMap.mp hmem
  obtain ⟨owner, howner, rfl⟩ := Option.map_eq_some_iff.mp hof
  have hroot := h.placed
  have hregular := h.compiled.regular
  obtain ⟨name, child, hchild, rest, rfl, hLeads⟩ := leads_of_declarationsBelow schema.top [] path
    node (fun entry hentry => ⟨hroot.child hentry, hregular.child hentry⟩)
    (by rw [howner]; rfl) hdeclared
  have henter : schema.rootPlace.enter name = .ok (.declared child) :=
    enter_of_mem hroot.here hregular.here rfl hchild
  exact ⟨node, .step henter hLeads, howner, rfl⟩

/-- A conforming configuration holds nothing but a subtree at an owned tag node. -/
theorem isSubtree_of_isTag (h : schema.Orderly) {owned : OwnedPath}
    (howned : owned ∈ schema.ownedPaths) (hTag : owned.isTag = true) {t : Tree}
    (ht : schema.Admits t) : (t.subtreeAt owned.path).isSubtree = true := by
  obtain ⟨node, hLeads, -, hnode⟩ := h.leads_of_owned howned
  exact ht.isSubtree_of_isTag hLeads (hnode.trans hTag)

end Orderly

end RouterConfig.Schema
