import RouterConfig.Proofs.Session.Commuting
import RouterConfig.Proofs.Tree.Surroundings

/-!
# RouterConfig — what an edit does, and nothing else

A set puts a node at one position and makes what is missing on the way there; a delete takes a node,
or one value of it, out of one position and whatever is empty on the way there after that. All else
stays as it is, so that schema, cursor and arguments say exactly which configuration comes of an
edit. Main results:

* `Schema.writeAt_exists_iff`, `Schema.puts_of_writeAt` — which values a place accepts, and what is
  put where for one;
* `Session.set_exact` — what a set does;
* `Removal.run_of_misses`, `Removal.leaves_deed` — when a removal takes nothing, and what it leaves
  otherwise;
* `Session.delete_exact` — what a delete does.
-/

namespace RouterConfig

/-- Something succeeds if and only if it does where its result is left out. -/
theorem exists_ok_iff {ε α : Type} {x : Except ε α} :
    (∃ a, x = .ok a) ↔ x.map (fun _ => ()) = .ok () := by
  cases x with
  | error e => simp [Except.map]
  | ok a => simp [Except.map]

/-! ## What a set puts where -/

namespace Schema

/-- A value that a place accepts: one without fault for a leaf, a name for an instance of a tag
node, or what is declared below any other place, unless that is a leaf which wants a value of its
own. -/
inductive Place.Accepts (place : Place) (value : String) : Prop where
  | leaf : place.isLeaf = true → place.node.valueFault? value = none → Accepts place value
  | named : place.isTag = true → value ≠ "" → Accepts place value
  | declared {child : Node} : place.isLeaf = false → place.isTag = false →
    place.node.child? value = some child → (child.isLeaf = true → child.valueless = true) →
    Accepts place value

/-- What setting a value at a place puts where: the position, and the node that stands there after
it. -/
inductive Place.Puts (place : Place) (full : Path) (value : String) (t : Tree) :
    Path → Tree → Prop where
  /-- A leaf of one value holds the value. -/
  | value : place.isLeaf = true → place.node.multi = false → place.node.valueless = false →
    Puts place full value t full (.scalar value)
  /-- A leaf that takes no value is there. -/
  | presence : place.isLeaf = true → place.node.valueless = true →
    Puts place full value t full (.scalar "")
  /-- A leaf of many values holds the value after those that it held. -/
  | further {values : List String} : place.isLeaf = true → place.node.multi = true →
    place.node.valueless = false → t.get? full = some (.list values) →
    Puts place full value t full (.list (values ++ [value]))
  | first : place.isLeaf = true → place.node.multi = true → place.node.valueless = false →
    t.get? full = none → Puts place full value t full (.list [value])
  /-- An instance of the name is there with all that it held, or empty. -/
  | named : place.isTag = true →
    Puts place full value t (full ++ [value]) (t.subtreeAt (full ++ [value]))
  /-- A child of the name is there with all that it held, or empty. -/
  | inner {child : Node} : place.isLeaf = false → place.isTag = false →
    place.node.child? value = some child → child.isLeaf = false →
    Puts place full value t (full ++ [value]) (t.subtreeAt (full ++ [value]))
  /-- A leaf of the name, which takes no value, is there. -/
  | present {child : Node} : place.isLeaf = false → place.isTag = false →
    place.node.child? value = some child → child.isLeaf = true → child.valueless = true →
    Puts place full value t (full ++ [value]) (.scalar "")

theorem Node.leafWrite_exists_iff {leaf : Node} {full : Path} {value : String} :
    (∃ w, leaf.leafWrite full value = .ok w) ↔ leaf.valueFault? value = none := by
  rw [leafWrite]
  cases leaf.valueFault? value with
  | some fault => simp
  | none => cases leaf.multi <;> simp

theorem instanceWrite_exists_iff {full : Path} {name : String} :
    (∃ w, instanceWrite full name = .ok w) ↔ name ≠ "" := by
  rw [instanceWrite]
  by_cases hname : name = ""
  · simp [hname]
  · simp [hname]

/-- A child can be written by its name if and only if it is declared and needs no value. -/
theorem Node.childWrite_exists_iff {node : Node} {full : Path} {name : String} :
    (∃ w, node.childWrite full name = .ok w) ↔
      ∃ child, node.child? name = some child ∧
        (child.isLeaf = true → child.valueless = true) := by
  rw [childWrite]
  cases node.child? name with
  | none => simp
  | some child =>
    cases hLeaf : child.isLeaf with
    | false => simp [hLeaf]
    | true => cases hless : child.valueless <;> simp [hLeaf, hless]

/-- A leaf accepts a value if and only if it has no fault to find with it. -/
theorem Place.accepts_leaf_iff {place : Place} {value : String} (hLeaf : place.isLeaf = true) :
    place.Accepts value ↔ place.node.valueFault? value = none := by
  refine ⟨?_, .leaf hLeaf⟩
  rintro (⟨-, hfault⟩ | ⟨hTag, -⟩ | ⟨hnot, -, -, -⟩)
  · exact hfault
  · exact absurd hLeaf (by simp [not_isLeaf_of_isTag hTag])
  · exact absurd hLeaf (by simp [hnot])

/-- A tag node accepts an instance by any name but the empty one. -/
theorem Place.accepts_tag_iff {place : Place} {value : String} (hTag : place.isTag = true) :
    place.Accepts value ↔ value ≠ "" := by
  refine ⟨?_, .named hTag⟩
  rintro (⟨hLeaf, -⟩ | ⟨-, hname⟩ | ⟨-, hnot, -, -⟩)
  · exact absurd hLeaf (by simp [not_isLeaf_of_isTag hTag])
  · exact hname
  · exact absurd hTag (by simp [hnot])

/-- An inner place accepts the name of a child that is declared and needs no value. -/
theorem Place.accepts_inner_iff {place : Place} {value : String} (hLeaf : place.isLeaf = false)
    (hTag : place.isTag = false) :
    place.Accepts value ↔ ∃ child, place.node.child? value = some child ∧
      (child.isLeaf = true → child.valueless = true) := by
  constructor
  · rintro (⟨h, -⟩ | ⟨h, -⟩ | ⟨-, -, hchild, hless⟩)
    · exact absurd h (by simp [hLeaf])
    · exact absurd h (by simp [hTag])
    · exact ⟨_, hchild, hless⟩
  · rintro ⟨child, hchild, hless⟩
    exact .declared hLeaf hTag hchild hless

/-- The schema lets a value be written if its path leads to a place that accepts it, unless no
quoting could tell it. -/
theorem writeAt_exists_iff {schema : Schema} {full : Path} {typed : String} :
    (∃ w, schema.writeAt full typed = .ok w) ↔
      holdsBothQuotes (unquote typed) = false ∧
        ∃ place, schema.resolve full = .ok place ∧ place.Accepts (unquote typed) := by
  rw [writeAt]
  cases hquotes : holdsBothQuotes (unquote typed) with
  | true => simp
  | false =>
    rw [if_neg (by simp)]
    cases hplace : schema.resolve full with
    | error e => simp
    | ok place =>
      -- a place takes the value, an instance or the name of a child, by its kind
      simp only [true_and, Except.ok.injEq, exists_eq_left']
      by_cases hLeaf : place.isLeaf = true
      · rw [if_pos hLeaf, Place.accepts_leaf_iff hLeaf]
        exact Node.leafWrite_exists_iff
      rw [if_neg hLeaf]
      by_cases hTag : place.isTag = true
      · rw [if_pos hTag, Place.accepts_tag_iff hTag]
        exact instanceWrite_exists_iff
      · rw [if_neg hTag, Place.accepts_inner_iff (by simpa using hLeaf) (by simpa using hTag)]
        exact Node.childWrite_exists_iff

end Schema

/-- Where a subtree has to be there, it is the one that was, or an empty one. -/
theorem Deed.eq_of_node_on {node? : Option Tree} {node : Tree}
    (h : Deed.node.on node? = some node) : node = node?.getD Tree.empty := by
  rw [Deed.on, Tree.alteredNode?] at h
  rcases Tree.isSubtree_cases (node?.getD Tree.empty) with hvalue | ⟨children, hchildren⟩
  · cases hnode : node?.getD Tree.empty with
    | subtree _ => simp [hnode, Tree.isSubtree] at hvalue
    | scalar _ => simp [hnode] at h
    | list _ => simp [hnode] at h
  · rw [hchildren] at h ⊢
    exact (Option.some.inj h).symm

namespace Schema

/-- What a leaf writes is the value that its kind of leaf asks for. -/
private theorem puts_of_leafWrite {place : Place} (hLeaf : place.isLeaf = true)
    (hRegular : place.node.Regular) {full : Path} {value : String} {w : Write} {t node : Tree}
    (h : place.node.leafWrite full value = .ok w) (hnode : w.deed.on (t.get? w.path) = some node) :
    place.Puts full value t w.path node := by
  -- a value that is refused is written nowhere; one that is taken is written as the leaf asks
  rw [Node.leafWrite] at h
  cases hfault : place.node.valueFault? value with
  | some fault => simp [hfault] at h
  | none =>
    rw [hfault] at h
    dsimp only at h
    cases hMulti : place.node.multi with
    | true =>
      rw [hMulti, if_pos rfl, Except.ok.injEq] at h
      subst h
      have hless := hRegular.takesValues hMulti
      -- the value comes after those that were there
      cases hget : t.get? full with
      | none =>
        obtain rfl : Tree.list [value] = node := by
          simpa [Deed.on, Tree.appended?, hget] using hnode
        exact .first hLeaf hMulti hless hget
      | some found =>
        cases found with
        | list values =>
          obtain rfl : Tree.list (values ++ [value]) = node := by
            simpa [Deed.on, Tree.appended?, hget] using hnode
          exact .further hLeaf hMulti hless hget
        | scalar _ => simp [Deed.on, Tree.appended?, hget] at hnode
        | subtree _ => simp [Deed.on, Tree.appended?, hget] at hnode
    | false =>
      rw [hMulti, if_neg (by simp), Except.ok.injEq] at h
      subst h
      cases hless : place.node.valueless with
      | true =>
        obtain rfl : Tree.scalar "" = node := by simpa [Deed.on, hless] using hnode
        exact .presence hLeaf hless
      | false =>
        obtain rfl : Tree.scalar value = node := by simpa [Deed.on, hless] using hnode
        exact .value hLeaf hMulti hless

/-- What a child is written as is the node that its kind of child asks for. -/
private theorem puts_of_childWrite {place : Place} (hLeaf : place.isLeaf = false)
    (hTag : place.isTag = false) {full : Path} {name : String} {w : Write} {t node : Tree}
    (h : place.node.childWrite full name = .ok w) (hnode : w.deed.on (t.get? w.path) = some node) :
    place.Puts full name t w.path node := by
  -- an internal child is made as a node, a leaf only if it takes no value
  rw [Node.childWrite] at h
  cases hchild : place.node.child? name with
  | none => simp [hchild] at h
  | some child =>
    rw [hchild] at h
    dsimp only at h
    cases hChildLeaf : child.isLeaf with
    | false =>
      rw [hChildLeaf, if_pos (by simp), Except.ok.injEq] at h
      subst h
      rw [Deed.eq_of_node_on hnode]
      exact .inner hLeaf hTag hchild hChildLeaf
    | true =>
      cases hless : child.valueless with
      | false => simp [hChildLeaf, hless] at h
      | true =>
        rw [hChildLeaf, hless, if_neg (by simp), if_neg (by simp), Except.ok.injEq] at h
        subst h
        obtain rfl : Tree.scalar "" = node := Option.some.inj hnode
        exact .present hLeaf hTag hchild hChildLeaf hless

/-- What the schema asks for is put where the place that is set says. -/
theorem puts_of_writeAt {schema : Schema} (hSchema : schema.Compiled) {full : Path}
    {typed : String} {w : Write} (h : schema.writeAt full typed = .ok w) {t node : Tree}
    (hnode : w.deed.on (t.get? w.path) = some node) :
    ∃ place, schema.resolve full = .ok place ∧
      place.Puts full (unquote typed) t w.path node := by
  rw [writeAt] at h
  split at h
  · exact absurd h (by simp)
  cases hplace : schema.resolve full with
  | error e => simp [hplace] at h
  | ok place =>
    rw [hplace] at h
    dsimp only at h
    refine ⟨place, rfl, ?_⟩
    -- the kind of place decides which of the three writes it is
    by_cases hLeaf : place.isLeaf = true
    · rw [if_pos hLeaf] at h
      have hRegular := regular_of_leads hSchema (resolve_eq_ok_iff.mp hplace)
      exact puts_of_leafWrite hLeaf hRegular h hnode
    rw [if_neg hLeaf] at h
    by_cases hTag : place.isTag = true
    · rw [if_pos hTag, instanceWrite] at h
      split at h
      · exact absurd h (by simp)
      · rw [Except.ok.injEq] at h
        subst h
        rw [Deed.eq_of_node_on hnode]
        exact .named hTag
    · rw [if_neg hTag] at h
      exact puts_of_childWrite (by simpa using hLeaf) (by simpa using hTag) h hnode

end Schema

/-- What a set does in a session that can be reached. It succeeds if and only if the value can be
quoted and the path leads to a place that accepts it. After that the node stands at the position
that the place says, the way there is made, and all else is as it was: no other configuration is
so. -/
theorem Session.set_exact {schema : Schema} (hSchema : schema.Compiled) {s : Session}
    (hs : s.Reachable schema) (path : Path) (typed : String) :
    ((∃ s', s.set schema path typed = .ok s') ↔
      holdsBothQuotes (unquote typed) = false ∧
        ∃ place, schema.resolve (s.absolute path) = .ok place ∧
          place.Accepts (unquote typed)) ∧
    ∀ s', s.set schema path typed = .ok s' →
      s'.level = s.level ∧
      ∃ place target node, schema.resolve (s.absolute path) = .ok place ∧
        place.Puts (s.absolute path) (unquote typed) s.edit target node ∧
        s.edit.Written target node s'.edit ∧
        ∀ u : Tree, u.Orderly → s.edit.Written target node u → u = s'.edit := by
  have hSound := hs.sound hSchema
  constructor
  · rw [exists_ok_iff, hSound.set_outcome hSchema, ← exists_ok_iff]
    exact Schema.writeAt_exists_iff
  · intro s' hset
    have hOrderly : s'.edit.Orderly := (hSound.set hSchema hset).edit.orderly
    obtain ⟨w, hw, hrun⟩ := hSound.write_of_set hSchema hset
    obtain ⟨node, hnode, hwritten⟩ := Tree.written_of_update? hrun
    obtain ⟨place, hplace, hputs⟩ := Schema.puts_of_writeAt hSchema hw hnode
    exact ⟨set_level hset, place, w.path, node, hplace, hputs, hwritten,
      fun u hu h => h.unique hwritten hu hOrderly⟩

/-- An address of an instance that is not there yet: the instance comes into being with it, next to
the one that is there. -/
theorem Session.set_exact_of_new_instance :
    let path := ["interface", "eth0", "address"]
    (Sample.schema.Compiled ∧ Sample.lone.Reachable Sample.schema) ∧
    ∃ s' place target node, Sample.lone.set Sample.schema path "'10.0.0.1'" = .ok s' ∧
      Sample.schema.resolve path = .ok place ∧
      place.Puts path "10.0.0.1" Sample.lone.edit target node ∧
      Sample.lone.edit.Written target node s'.edit ∧
      s'.edit = .subtree [("interface", .subtree
        [("eth0", .subtree [("address", .list ["10.0.0.1"])]), ("eth1", .subtree [])])] := by
  intro path
  have hexact := Session.set_exact Sample.compiled Sample.lone_reachable path "'10.0.0.1'"
  obtain ⟨-, place, target, node, hplace, hputs, hwritten, -⟩ := hexact.2 _ rfl
  have hvalue : unquote "'10.0.0.1'" = "10.0.0.1" := by decide
  rw [hvalue] at hputs
  exact ⟨⟨Sample.compiled, Sample.lone_reachable⟩, _, place, target, node, rfl, hplace, hputs,
    hwritten, rfl⟩

/-! ## What a delete takes -/

namespace Removal

/-- Whether a removal finds nothing to take out: it is one of the root, or nothing stands at its
position, or the leaf there does not hold the value. -/
def Misses (r : Removal) (t : Tree) : Prop :=
  r.path = [] ∨ t.get? r.path = none ∨
    ∃ value node, r.value? = some value ∧ t.get? r.path = some node ∧ value ∉ node.values

/-- What is left of a node of which one value has been taken, or all. -/
inductive Leaves : Option String → Tree → Option Tree → Prop where
  | nothing (node : Tree) : Leaves none node none
  | single (value : String) : Leaves (some value) (.scalar value) none
  /-- A list goes with its last value. -/
  | last (value : String) : Leaves (some value) (.list [value]) none
  /-- The first value of its kind goes, and the others stay in their order. -/
  | others {value : String} {before after : List String} : value ∉ before → before ++ after ≠ [] →
    Leaves (some value) (.list (before ++ value :: after)) (some (.list (before ++ after)))

/-- Taking out all, or a value that is there, leaves what it is meant to leave. -/
theorem leaves_deed {value? : Option String} {node : Tree}
    (h : ∀ value, value? = some value → node.isSubtree = false ∧ value ∈ node.values) :
    Leaves value? node (deed value? node) := by
  -- by what stands at the node; of several values the first of its kind is taken
  cases value? with
  | none => exact .nothing node
  | some value =>
    obtain ⟨hvalue, hmem⟩ := h value rfl
    cases node with
    | subtree _ => exact absurd hvalue (by simp [Tree.isSubtree])
    | scalar stored =>
      obtain rfl : value = stored := by simpa [Tree.values] using hmem
      rw [deed, if_pos rfl]
      exact .single value
    | list stored =>
      obtain ⟨before, after, rfl, hfirst⟩ := List.eq_append_cons_of_mem hmem
      have herase : (before ++ value :: after).erase value = before ++ after := by
        rw [List.erase_append_right _ hfirst, List.erase_cons_head]
      rw [deed, herase]
      by_cases hleft : before ++ after = []
      · obtain ⟨rfl, rfl⟩ := List.append_eq_nil_iff.mp hleft
        exact .last value
      · rw [if_neg (by rwa [List.isEmpty_iff])]
        exact .others hfirst hleft

/-- Where all conforms a removal that misses changes nothing. -/
theorem run_of_misses {schema : Schema} {t : Tree} (ht : schema.Admits t) {r : Removal}
    (h : r.Misses t) : r.run t = t := by
  rcases h with hroot | hnone | ⟨value, node, hvalue, hnode, habsent⟩
  · rw [run, hroot]
    rfl
  · exact run_eq_self ht.orderly fun node hnode => absurd (hnone.symm.trans hnode) (by simp)
  · refine run_eq_self ht.orderly fun found hfound => ?_
    obtain rfl : node = found := Option.some.inj (hnode.symm.trans hfound)
    rw [hvalue]
    cases node with
    | subtree _ => rfl
    | scalar stored =>
      have hne : stored ≠ value := fun heq => habsent (by simp [Tree.values, heq])
      rw [deed, if_neg hne]
    | list stored =>
      -- a list that conforms is not empty, so that it stays
      have hne : stored ≠ [] := by
        obtain ⟨place, -, hfits⟩ := ht r.path _ hnode
        cases hfits with
        | values _ _ _ hne _ => exact hne
      have herase : stored.erase value = stored := List.erase_of_not_mem habsent
      rw [deed, herase, if_neg (by rwa [List.isEmpty_iff])]

/-- Where all conforms a removal that does not miss takes what it is meant to take, and clears the
way. -/
theorem cleared_of_run {schema : Schema} {t : Tree} (ht : schema.Admits t) {full : Path}
    {place : Schema.Place} (hplace : schema.resolve full = .ok place) {typed? : Option String}
    (h : ¬ (place.removal full typed?).Misses t) :
    ∃ node left?, t.get? (place.removal full typed?).path = some node ∧
      Leaves (place.removal full typed?).value? node left? ∧
      t.Cleared (place.removal full typed?).path left? ((place.removal full typed?).run t) := by
  generalize hr : place.removal full typed? = r at h ⊢
  obtain ⟨hroot, h⟩ := not_or.mp h
  obtain ⟨hnone, habsent⟩ := not_or.mp h
  obtain ⟨node, hnode⟩ := Option.ne_none_iff_exists'.mp hnone
  refine ⟨node, deed r.value? node, hnode, leaves_deed fun value hvalue => ⟨?_, ?_⟩, ?_⟩
  · -- a value is taken out of a leaf, which has nothing below
    obtain ⟨hLeaf, hpath⟩ : place.isLeaf = true ∧ r.path = full := by
      cases typed? with
      | none =>
        subst hr
        exact absurd hvalue (by simp [Schema.Place.removal])
      | some typed =>
        rw [Schema.Place.removal] at hr
        by_cases hLeaf : place.isLeaf = true
        · rw [if_pos hLeaf] at hr
          subst hr
          exact ⟨hLeaf, rfl⟩
        · rw [if_neg hLeaf] at hr
          subst hr
          exact absurd hvalue (by simp)
    obtain ⟨place', hplace', hfits⟩ := ht r.path node hnode
    obtain rfl := (Schema.resolve_eq_ok_iff.mp hplace).unique (hpath ▸ hplace')
    rcases hfits.leaf_cases hLeaf with ⟨-, stored, rfl⟩ | ⟨-, stored, rfl, -⟩ <;> rfl
  · exact Classical.byContradiction fun hnot => habsent ⟨value, node, hvalue, hnode, hnot⟩
  · -- the cut leaves the tree that the removal leaves, emptied ancestors and all
    rw [run, if_neg (by simpa using hroot)]
    exact Tree.cleared_of_cut ht.orderly hroot hnode

end Removal

/-- What a delete does in a session that can be reached. It succeeds if and only if its path leads
to a place. What it takes out is one value of the leaf there, or the whole node, or the child that
is named. Where that misses, all stays as it is. Otherwise no more is left at the position than is
meant to be, what the way leads through goes as far as nothing else is left below it, and all else
is as it was: no other configuration is so. -/
theorem Session.delete_exact {schema : Schema} (hSchema : schema.Compiled) {s : Session}
    (hs : s.Reachable schema) (path : Path) (typed? : Option String) :
    ((∃ s', s.delete schema path typed? = .ok s') ↔ schema.declares (s.absolute path) = true) ∧
    ∀ place, schema.resolve (s.absolute path) = .ok place →
      let r := place.removal (s.absolute path) typed?
      ∃ edit, s.delete schema path typed? = .ok { s with edit := edit } ∧
        (r.Misses s.edit → edit = s.edit) ∧
        (¬ r.Misses s.edit → ∃ node left?, s.edit.get? r.path = some node ∧
          Removal.Leaves r.value? node left? ∧ s.edit.Cleared r.path left? edit ∧
          ∀ u : Tree, u.Orderly → s.edit.Cleared r.path left? u → u = edit) := by
  have hSound := hs.sound hSchema
  constructor
  · rw [exists_ok_iff, delete_outcome, ← exists_ok_iff, Schema.declares_iff]
    simp only [Schema.resolve_eq_ok_iff]
  · -- the removal is at a declared place, so the outcome is that of the cut
    intro place hplace r
    have hdelete : s.delete schema path typed? = .ok { s with edit := r.run s.edit } := by
      rw [delete_eq_removal hSound.edit, Schema.removalAt, hplace]
      rfl
    have hOrderly : (r.run s.edit).Orderly := (hSound.delete hdelete).edit.orderly
    refine ⟨r.run s.edit, hdelete, Removal.run_of_misses hSound.edit, fun hhits => ?_⟩
    obtain ⟨node, left?, hnode, hleaves, hcleared⟩ :=
      Removal.cleared_of_run hSound.edit hplace hhits
    exact ⟨node, left?, hnode, hleaves, hcleared, fun u hu h => h.unique hcleared hu hOrderly⟩

namespace Sample

/-- A session with an instance that has an address, and one that has not. -/
def paired : Session :=
  (host.run [("a", .setWords ["interface", "eth0", "address", "10.0.0.1"]),
    ("a", .setWords ["interface", "eth1"])]).session "a"

theorem paired_reachable : paired.Reachable schema :=
  ⟨Unit, Unit, _, "a", reachable [("a", .setWords ["interface", "eth0", "address", "10.0.0.1"]),
    ("a", .setWords ["interface", "eth1"])], .refl⟩

end Sample

/-- The only address of an instance goes, and the list and the instance with it; the tag node stays,
as another instance is below it, which is no less there for being empty. -/
theorem Session.delete_exact_of_last_value :
    let path := ["interface", "eth0", "address"]
    let r : Removal := ⟨path, some "10.0.0.1"⟩
    (Sample.schema.Compiled ∧ Sample.paired.Reachable Sample.schema ∧
      ¬ r.Misses Sample.paired.edit) ∧
    ∃ place edit node left?, Sample.schema.resolve path = .ok place ∧
      place.removal path (some "'10.0.0.1'") = r ∧
      Sample.paired.delete Sample.schema path (some "'10.0.0.1'") =
        .ok { Sample.paired with edit := edit } ∧
      Sample.paired.edit.get? path = some node ∧ Removal.Leaves (some "10.0.0.1") node left? ∧
      Sample.paired.edit.Cleared path left? edit ∧
      edit = .subtree [("interface", .subtree [("eth1", .subtree [])])] := by
  intro path r
  have hplace : ∃ place, Sample.schema.resolve path = .ok place ∧
      place.removal path (some "'10.0.0.1'") = r := ⟨_, rfl, by decide⟩
  obtain ⟨place, hplace, hr⟩ := hplace
  -- the address is there, so the removal hits it
  have hhits : ¬ r.Misses Sample.paired.edit := by
    rintro (hroot | hnone | ⟨value, node, hvalue, hnode, habsent⟩)
    · exact absurd hroot (by decide)
    · exact absurd hnone (by decide)
    · obtain rfl : "10.0.0.1" = value := Option.some.inj hvalue
      obtain rfl : Tree.list ["10.0.0.1"] = node := Option.some.inj hnode
      exact habsent (by decide)
  obtain ⟨edit, hdelete, -, hcleared⟩ :=
    (Session.delete_exact Sample.compiled Sample.paired_reachable path (some "'10.0.0.1'")).2
      place hplace
  rw [show Sample.paired.absolute path = path from rfl, hr] at hcleared
  obtain ⟨node, left?, hnode, hleaves, hcut, -⟩ := hcleared hhits
  -- what the delete computes is what it is proved to leave
  have hedit : Except.ok { Sample.paired with edit := edit } =
      Sample.paired.delete Sample.schema path (some "'10.0.0.1'") := hdelete.symm
  exact ⟨⟨Sample.compiled, Sample.paired_reachable, hhits⟩, place, edit, node, left?, hplace, hr,
    hdelete, hnode, hleaves, hcut, congrArg Session.edit (Except.ok.inj hedit)⟩

end RouterConfig
