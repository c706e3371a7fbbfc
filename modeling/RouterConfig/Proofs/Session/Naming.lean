import RouterConfig.Proofs.CommandFile.Values

/-!
# RouterConfig — instances without a name

An instance comes into being as what is set at its tag node, where the empty text is refused, or as
a segment of a path on which something else is set, where it is not. So a set makes an instance
without a name if and only if its path leads through one. Main results:

* `Session.Sound.stands_of_set`, `Session.Sound.stands_of_delete` — at which positions something
  stands after an edit;
* `Session.Sound.named_set_iff` — which sets leave all instances with a name;
* `Session.Named.edits` — edits whose paths lead through no instance without a name make none.
-/

namespace RouterConfig

namespace Schema

/-- A configuration in which every instance has a name. -/
def Named (schema : Schema) (t : Tree) : Prop :=
  ∀ tag, schema.isTag tag = true → t.get? (tag ++ [""]) = none

/-- A path that leads through no instance without a name, and to none. -/
def Spells (schema : Schema) (path : Path) : Prop :=
  ∀ tag, schema.isTag tag = true → ¬ tag ++ [""] <+: path

theorem named_empty (schema : Schema) : schema.Named Tree.empty := by
  intro tag _
  cases tag <;> rfl

theorem spells_nil (schema : Schema) : schema.Spells [] := by
  intro tag _ hway
  simpa using hway.length_le

variable {schema : Schema} {path : Path} {name : String}

/-- A path goes on through named instances with segments that are not empty. -/
theorem Spells.append (h : schema.Spells path) {rest : Path} (hrest : "" ∉ rest) :
    schema.Spells (path ++ rest) := by
  intro tag hTag hway
  rcases List.prefix_or_prefix_of_prefix hway (List.prefix_append path rest) with hin | hpast
  · exact h tag hTag hin
  · -- the way goes on past the path, so that the empty segment is one of those after it
    obtain ⟨more, hmore⟩ := hpast
    rw [← hmore, List.prefix_append_right_inj] at hway
    rcases List.eq_nil_or_concat more with rfl | ⟨init, last, rfl⟩
    · exact h tag hTag (by rw [← hmore, List.append_nil])
    · rw [List.concat_eq_append, ← List.append_assoc] at hmore
      obtain rfl : last = "" := List.singleton_inj.mp (List.append_inj' hmore rfl).2
      exact hrest (hway.subset (by simp))

/-- One segment more leads to an instance without a name if it is empty and stands at a tag
node. -/
theorem spells_snoc_iff (hname : schema.isTag path = true → name ≠ "") :
    schema.Spells (path ++ [name]) ↔ schema.Spells path := by
  constructor
  · intro h tag hTag hway
    exact h tag hTag (hway.trans (List.prefix_append ..))
  · intro h tag hTag hway
    rcases List.prefix_concat_iff.mp hway with heq | hway
    · obtain ⟨rfl, hempty⟩ := List.append_inj' heq rfl
      exact hname hTag (List.singleton_inj.mp hempty).symm
    · exact h tag hTag hway

end Schema

/-! ## What stands after an edit -/

namespace Tree

variable {t t' node : Tree} {p q : Path}

/-- Where a node is written that has below it what stood there before, something stands as it did,
and on the whole way to the node. -/
theorem Written.stands_iff (h : t.Written p node t')
    (hbelow : ∀ name rest, node.get? (name :: rest) = t.get? (p ++ name :: rest)) :
    (t'.get? q).isSome = true ↔ (t.get? q).isSome = true ∨ q <+: p := by
  -- by where the position lies: on the way to what is written, past it, or beside
  by_cases hway : q <+: p
  · refine iff_of_true ?_ (.inr hway)
    by_cases heq : q = p
    · rw [heq, h.here]
      rfl
    · obtain ⟨children, hchildren⟩ := h.way q hway heq
      rw [hchildren]
      rfl
  · rw [or_iff_left hway]
    -- nothing stands past the node, in the old tree or the new
    by_cases hpast : p <+: q
    · obtain ⟨name, rest, rfl⟩ :=
        Path.exists_name_of_above hpast fun heq => hway (heq ▸ List.prefix_rfl)
      rw [get?_append, h.here, Option.bind_some, hbelow]
    · rw [h.beside q (Path.parts_iff.mpr ⟨hway, hpast⟩)]

/-- Where a node goes, or is left without anything below it, nothing stands that did not before. -/
theorem Cleared.stands {left? : Option Tree} (h : t.Cleared p left? t')
    (hnode : t.get? p = some node)
    (hleft : ∀ left, left? = some left → left.isSubtree = false)
    (hstands : (t'.get? q).isSome = true) : (t.get? q).isSome = true := by
  by_cases hway : q <+: p
  · -- what the way to the node leads through stood there with it
    obtain ⟨rest, rfl⟩ := hway
    rw [get?_append] at hnode
    obtain ⟨above, habove, -⟩ := Option.bind_eq_some_iff.mp hnode
    rw [habove]
    rfl
  by_cases hpast : p <+: q
  · obtain ⟨name, rest, rfl⟩ :=
      Path.exists_name_of_above hpast fun heq => hway (heq ▸ List.prefix_rfl)
    rw [get?_append, h.here] at hstands
    -- what is left of the node is a value, so nothing stands past it
    cases hgone : left? with
    | none => exact absurd hstands (by simp [hgone])
    | some left =>
      rw [hgone, Option.bind_some, get?_cons_of_value (hleft left hgone)] at hstands
      exact absurd hstands (by simp)
  · rwa [← h.beside q (Path.parts_iff.mpr ⟨hway, hpast⟩)]

end Tree

/-- What is put somewhere has below it what stood there before, and nothing else. -/
theorem Schema.Place.Puts.below {schema : Schema} {place : Place} {full target : Path}
    {value : String} {t node : Tree} (h : place.Puts full value t target node)
    (hplace : schema.rootPlace.Leads full place) (ht : schema.Admits t) (name : String)
    (rest : Path) : node.get? (name :: rest) = t.get? (target ++ name :: rest) := by
  have hmade : ∀ path, (t.subtreeAt path).get? (name :: rest) = t.get? (path ++ name :: rest) := by
    intro path
    rw [Tree.subtreeAt, Tree.get?_append]
    cases t.get? path <;> rfl
  -- at a leaf there is nothing further down, neither before nor after
  have hleaf : ∀ path leaf (node : Tree), schema.rootPlace.Leads path leaf → leaf.isLeaf = true →
      node.isSubtree = false → node.get? (name :: rest) = t.get? (path ++ name :: rest) := by
    intro path leaf node hleads hLeaf hvalue
    rw [Tree.get?_cons_of_value hvalue, eq_comm, Option.eq_none_iff_forall_ne_some]
    intro found hfound
    obtain ⟨children, hchildren⟩ := Tree.subtree_of_get?_below hfound
    obtain ⟨other, hother, hfits⟩ := ht path _ hchildren
    obtain rfl := hother.unique hleads
    rcases hfits.leaf_cases hLeaf with ⟨-, _, heq⟩ | ⟨-, _, heq, -⟩ <;> exact absurd heq (by simp)
  have hchild : ∀ child, place.isLeaf = false → place.isTag = false →
      place.node.child? value = some child →
      schema.rootPlace.Leads (full ++ [value]) (.declared child) := by
    intro child hLeaf hTag hchild
    exact leads_snoc_iff.mpr ⟨place, hplace,
      (enter_eq_ok_iff_of_not_isTag hTag hLeaf).mpr ⟨child, hchild, rfl⟩⟩
  -- by what is put: at a leaf nothing lies further down, and a node is made as it was
  cases h with
  | value hLeaf => exact hleaf _ _ _ hplace hLeaf rfl
  | presence hLeaf => exact hleaf _ _ _ hplace hLeaf rfl
  | further hLeaf => exact hleaf _ _ _ hplace hLeaf rfl
  | first hLeaf => exact hleaf _ _ _ hplace hLeaf rfl
  | named => exact hmade _
  | inner => exact hmade _
  | present hLeaf hTag hdeclared hPresence =>
    exact hleaf _ _ _ (hchild _ hLeaf hTag hdeclared) hPresence rfl

theorem Schema.Place.Puts.target_eq {place : Place} {full target : Path} {value : String}
    {t node : Tree} (h : place.Puts full value t target node) :
    target = if place.isLeaf then full else full ++ [value] := by
  cases h with
  | named hTag => rw [if_neg (by simp [not_isLeaf_of_isTag hTag])]
  | _ hLeaf => simp [hLeaf]

theorem Removal.Leaves.isSubtree {value? : Option String} {node left : Tree}
    (h : Leaves value? node (some left)) : left.isSubtree = false := by
  generalize hleft : some left = left? at h
  cases h with
  | others => exact Option.some.inj hleft ▸ rfl
  | _ => exact absurd hleft (by simp)

namespace Session.Sound

variable {schema : Schema} {s s' : Session} {path : Path}

/-- After a set something stands where it did before, and on the whole way to what is set. -/
theorem stands_of_set (h : s.Sound schema) (hSchema : schema.Compiled) {typed : String}
    (hset : s.set schema path typed = .ok s') {q : Path} :
    (s'.edit.get? q).isSome = true ↔ (s.edit.get? q).isSome = true ∨
      q <+: schema.targetAt (s.absolute path) (some typed) := by
  obtain ⟨place, target, node, hplace, -, hputs, hwritten⟩ := h.puts_of_set hSchema hset
  rw [Schema.targetAt, Schema.isLeaf_of_resolve hplace, ← hputs.target_eq]
  exact hwritten.stands_iff (hputs.below (Schema.resolve_eq_ok_iff.mp hplace) h.edit)

/-- After a delete nothing stands where it did not before. -/
theorem stands_of_delete (h : s.Sound schema) {typed? : Option String}
    (hdelete : s.delete schema path typed? = .ok s') {q : Path}
    (hstands : (s'.edit.get? q).isSome = true) : (s.edit.get? q).isSome = true := by
  rcases h.cleared_of_delete hdelete with hsame | ⟨_, _, node, left?, hnode, hleaves, hcleared⟩
  · rwa [hsame] at hstands
  · exact hcleared.stands hnode (fun left hleft => (hleft ▸ hleaves).isSubtree) hstands

/-! ## Which edits make instances without a name -/

/-- A set leaves all instances with a name if and only if they had one, and its path leads through
none without. -/
theorem named_set_iff (h : s.Sound schema) (hSchema : schema.Compiled) {typed : String}
    (hset : s.set schema path typed = .ok s') :
    schema.Named s'.edit ↔ schema.Named s.edit ∧ schema.Spells (s.absolute path) := by
  have hnone : ∀ {t : Tree}, schema.Named t ↔
      ∀ tag, schema.isTag tag = true → ¬ (t.get? (tag ++ [""])).isSome = true := by
    simp [Schema.Named]
  obtain ⟨place, -, -, hplace, haccepts, -⟩ := h.puts_of_set hSchema hset
  -- at a tag node a set asks for a name, so that no segment is missing but on the way there
  have hTarget : schema.Spells (schema.targetAt (s.absolute path) (some typed)) ↔
      schema.Spells (s.absolute path) := by
    rw [Schema.targetAt]
    split
    · rfl
    · refine Schema.spells_snoc_iff fun hTag => ?_
      rw [Schema.isTag_of_resolve hplace] at hTag
      exact (Schema.Place.accepts_tag_iff hTag).mp haccepts
  rw [← hTarget, hnone, hnone, Schema.Spells, ← forall₂_and]
  refine forall₂_congr fun tag hTag => ?_
  rw [h.stands_of_set hSchema hset, not_or]

/-- A delete leaves all instances with a name if they had one. -/
theorem named_of_delete (h : s.Sound schema) {typed? : Option String}
    (hdelete : s.delete schema path typed? = .ok s') (hnamed : schema.Named s.edit) :
    schema.Named s'.edit := by
  intro tag hTag
  have hstands := h.stands_of_delete hdelete (q := tag ++ [""])
  rw [hnamed tag hTag] at hstands
  simpa using hstands

end Session.Sound

/-! ## Sessions in which all instances have a name -/

namespace Session

variable {schema : Schema} {running : Tree} {s s' : Session} {path : Path}

/-- A session in which every instance has a name, and whose cursor stands in none without. -/
structure Named (schema : Schema) (s : Session) : Prop where
  edit : schema.Named s.edit
  cursor : schema.Spells s.level

theorem named_ofRunning (h : schema.Named running) : (ofRunning running).Named schema :=
  ⟨h, schema.spells_nil⟩

/-- Edits, one after the other, whose paths lead through no instance without a name, unless the
cursor stands in one already. Words are a path and a value, and what they set and delete is set and
deleted there. -/
inductive NamedEdits (schema : Schema) (running : Tree) (s : Session) : Session → Prop where
  | refl : NamedEdits schema running s s
  | set {t u : Session} (path : Path) (typed : String) : NamedEdits schema running s t →
    (schema.Spells t.level → schema.Spells (t.absolute path)) →
    t.set schema path typed = .ok u → NamedEdits schema running s u
  | delete {t u : Session} (path : Path) (typed? : Option String) :
    NamedEdits schema running s t → t.delete schema path typed? = .ok u →
    NamedEdits schema running s u
  | setLevel {t u : Session} (path : Path) : NamedEdits schema running s t →
    schema.Spells path → t.setLevel schema path = .ok u → NamedEdits schema running s u
  | discard {t : Session} : NamedEdits schema running s t →
    NamedEdits schema running s (t.discard running)

/-- Edits that spell their instances are edits. -/
theorem NamedEdits.edits (h : NamedEdits schema running s s') : Edits schema running s s' := by
  induction h with
  | refl => exact .refl
  | set path typed _ _ hset ih => exact .tail ih (.set path typed hset)
  | delete path typed? _ hdelete ih => exact .tail ih (.delete path typed? hdelete)
  | setLevel path _ _ hlevel ih => exact .tail ih (.setLevel path hlevel)
  | discard _ ih => exact .tail ih .discard

theorem setLevel_level (h : s.setLevel schema path = .ok s') : s'.level = path := by
  obtain ⟨place, -, rfl⟩ := map_eq_ok h
  rfl

namespace Named

variable (h : s.Named schema)
include h

/-- A `set` keeps the instances named if and only if the path it is made at is spelled. -/
theorem set_iff (hs : s.Sound schema) (hSchema : schema.Compiled) {typed : String}
    (hset : s.set schema path typed = .ok s') :
    s'.Named schema ↔ schema.Spells (s.absolute path) := by
  have hedit := hs.named_set_iff hSchema hset
  constructor
  · intro h'
    exact (hedit.mp h'.edit).2
  · intro hway
    exact ⟨hedit.mpr ⟨h.edit, hway⟩, set_level hset ▸ h.cursor⟩

theorem delete (hs : s.Sound schema) {typed? : Option String}
    (hdelete : s.delete schema path typed? = .ok s') : s'.Named schema :=
  ⟨hs.named_of_delete hdelete h.edit, delete_level hdelete ▸ h.cursor⟩

/-- Moving the cursor keeps the instances named if and only if the path it is moved to is
spelled. -/
theorem setLevel_iff (hlevel : s.setLevel schema path = .ok s') :
    s'.Named schema ↔ schema.Spells path := by
  constructor
  · intro h'
    exact setLevel_level hlevel ▸ h'.cursor
  · intro hway
    exact ⟨setLevel_edit hlevel ▸ h.edit, (setLevel_level hlevel).symm ▸ hway⟩

/-- A `set` with its words in a line keeps the instances named if and only if the words in front of
the last one are spelled. -/
theorem setWords_iff (hs : s.Sound schema) (hSchema : schema.Compiled) {words : List String}
    (hset : s.setWords schema words = .ok s') :
    s'.Named schema ↔ schema.Spells (s.absolute words.dropLast) := by
  rw [Session.setWords] at hset
  cases hlast : words.getLast? with
  | none => simp [hlast] at hset
  | some typed =>
    rw [hlast] at hset
    exact h.set_iff hs hSchema hset

theorem deleteWords (hs : s.Sound schema) {words : List String}
    (hdelete : s.deleteWords schema words = .ok s') : s'.Named schema := by
  simp only [Session.deleteWords] at hdelete
  split at hdelete
  · exact h.delete hs hdelete
  · exact h.delete hs hdelete

theorem resetLevel : s.resetLevel.Named schema := ⟨h.edit, schema.spells_nil⟩

/-- Edits whose paths lead through no instance without a name make none. -/
theorem edits (hs : s.Sound schema) (hSchema : schema.Compiled) (hRunning : schema.Admits running)
    (hNamed : schema.Named running) (hedits : NamedEdits schema running s s') :
    s'.Named schema := by
  induction hedits with
  | refl => exact h
  | set path typed hbefore hway hset ih =>
    have ht := hs.edits hSchema hRunning hbefore.edits
    exact (ih.set_iff ht hSchema hset).mpr (hway ih.cursor)
  | delete path typed? hbefore hdelete ih =>
    exact ih.delete (hs.edits hSchema hRunning hbefore.edits) hdelete
  | setLevel path _ hway hlevel ih => exact (ih.setLevel_iff hlevel).mpr hway
  | discard => exact named_ofRunning hNamed

end Named

end Session

end RouterConfig
