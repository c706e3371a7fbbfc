import Mathlib.Data.List.Dedup
import Mathlib.Data.List.Induction
import RouterConfig.Proofs.Tree.Filling

/-!
# RouterConfig — renamed trees, position by position

When all names of a tree are renamed, two names of one subtree may become equal. Then the node whose
name came later stays, with all below it, and the other one is overtaken. So a position of the
renamed tree stands for the one position of the tree that is renamed to it and that nothing
overtakes. Main results:

* `Keyed.get?_ofList_map` — what is found under a new name;
* `Keyed.length_ofList_map` — there are as many new names as old ones if and only if no two of them
  become equal;
* `Tree.get?_mapKeys_iff` — what is found at a position of a renamed tree;
* `Tree.Overtaken.unique` — which position it comes from.
-/

namespace RouterConfig

/-! ## Maps under new names -/

namespace Keyed

variable {α β : Type}

theorem ordered_concat {m : Keyed α} {entry : String × α} :
    Ordered (m ++ [entry]) ↔ Ordered m ∧ ∀ other ∈ m, other.1 < entry.1 := by
  rw [Ordered, List.pairwise_append]
  simp [Ordered]

/-- What is found under a new name comes from the last of the names that become it. -/
theorem get?_ofList_map {m : Keyed α} (hm : Ordered m) (rename : String → String) (f : α → β)
    {key : String} {value : β} :
    get? (ofList (m.map fun entry => (rename entry.1, f entry.2))) key = some value ↔
      ∃ entry ∈ m, rename entry.1 = key ∧ f entry.2 = value ∧
        ∀ later ∈ m, entry.1 < later.1 → rename later.1 ≠ key := by
  -- the induction is on the end of the map, where what is put last stays
  induction m using List.reverseRecOn with
  | nil => simp [ofList]
  | append_singleton m last ih =>
    obtain ⟨hbefore, hlt⟩ := ordered_concat.mp hm
    rw [List.map_append, List.map_singleton, ofList_concat]
    dsimp only
    by_cases hkey : rename last.1 = key
    · rw [hkey, get?_insert_self, Option.some.injEq]
      constructor
      · intro hvalue
        refine ⟨last, List.mem_append_right _ (List.mem_singleton.mpr rfl), hkey, hvalue, ?_⟩
        intro later hlater hafter
        rcases List.mem_append.mp hlater with hlater | hlater
        · exact absurd (String.lt_trans hafter (hlt later hlater)) (String.lt_irrefl _)
        · rw [List.mem_singleton.mp hlater] at hafter
          exact absurd hafter (String.lt_irrefl _)
      · rintro ⟨entry, hentry, -, hvalue, hlast⟩
        rcases List.mem_append.mp hentry with hentry | hentry
        · have hafter := hlast last (List.mem_append_right _ (List.mem_singleton.mpr rfl))
            (hlt entry hentry)
          exact absurd hkey hafter
        · rwa [List.mem_singleton.mp hentry] at hvalue
    · rw [get?_insert_of_ne _ _ hkey, ih hbefore]
      constructor
      · rintro ⟨entry, hentry, hname, hvalue, hlast⟩
        refine ⟨entry, List.mem_append_left _ hentry, hname, hvalue, fun later hlater => ?_⟩
        rcases List.mem_append.mp hlater with hlater | hlater
        · exact hlast later hlater
        · rw [List.mem_singleton.mp hlater]
          exact fun _ => hkey
      · rintro ⟨entry, hentry, hname, hvalue, hlast⟩
        rcases List.mem_append.mp hentry with hentry | hentry
        · exact ⟨entry, hentry, hname, hvalue,
            fun later hlater => hlast later (List.mem_append_left _ hlater)⟩
        · rw [List.mem_singleton.mp hentry] at hname
          exact absurd hname hkey

/-- There are as many new names as old ones if and only if no two of them become equal. -/
theorem length_ofList_map {m : Keyed α} (hm : Ordered m) (rename : String → String) (f : α → β) :
    (ofList (m.map fun entry => (rename entry.1, f entry.2))).length = m.length ↔
      ∀ a ∈ keys m, ∀ b ∈ keys m, rename a = rename b → a = b := by
  have hnames : (m.map fun entry => (rename entry.1, f entry.2)).map (·.1) =
      (keys m).map rename := by
    rw [keys, List.map_map, List.map_map]
    rfl
  -- the names that are left are the renamed ones, each of them once
  have hperm : (keys (ofList (m.map fun entry => (rename entry.1, f entry.2)))).Perm
      ((keys m).map rename).dedup := by
    refine (List.perm_ext_iff_of_nodup (keys_nodup (ofList_ordered _)) (List.nodup_dedup _)).mpr ?_
    intro key
    rw [List.mem_dedup, mem_keys_ofList, hnames]
  have hlength : (ofList (m.map fun entry => (rename entry.1, f entry.2))).length =
      ((keys m).map rename).dedup.length := by
    rw [← hperm.length_eq, keys, List.length_map]
  have hold : m.length = ((keys m).map rename).length := by simp [keys]
  -- a length is kept if and only if no name is lost, which is that renaming is injective
  rw [hlength, hold, ← List.nodup_map_iff_inj_on (keys_nodup hm)]
  constructor
  · intro hequal
    rw [← List.dedup_eq_self]
    exact (List.dedup_sublist _).eq_of_length hequal
  · intro hnodup
    rw [List.dedup_eq_self.mpr hnodup]

end Keyed

/-! ## Trees under new names -/

namespace Tree

variable {t : Tree} {cs : Children} {rename : String → String} {name : String} {rest : Path}

/-- The children are renamed one by one, each below its new name. -/
theorem mapEntries_eq_map (rename : String → String) (cs : Children) :
    mapEntries rename cs = cs.map fun entry => (rename entry.1, entry.2.mapKeys rename) := by
  induction cs with
  | nil => rw [mapEntries, List.map_nil]
  | cons entry rest ih =>
    obtain ⟨name, child⟩ := entry
    rw [mapEntries, ih, List.map_cons]

theorem mapKeys_subtree (rename : String → String) (cs : Children) :
    (Tree.subtree cs).mapKeys rename =
      .subtree (Keyed.ofList (cs.map fun entry => (rename entry.1, entry.2.mapKeys rename))) := by
  rw [mapKeys, mapEntries_eq_map]

/-- Renaming leaves values alone. -/
theorem mapKeys_of_value (h : t.isSubtree = false) : t.mapKeys rename = t := by
  cases t with
  | scalar _ => rw [mapKeys]
  | list _ => rw [mapKeys]
  | subtree _ => exact absurd h (by simp [isSubtree])

/-- On the way to a position, another name of the same subtree comes later and becomes equal. -/
def Overtaken (rename : String → String) (t : Tree) (path : Path) : Prop :=
  ∃ above name later, above ++ [name] <+: path ∧ name < later ∧ rename name = rename later ∧
    (t.get? (above ++ [later])).isSome = true

theorem not_overtaken_nil : ¬ t.Overtaken rename [] := by
  rintro ⟨above, name, later, hfront, -⟩
  exact absurd (List.prefix_nil.mp hfront) (by simp)

/-- Overtaken is a position if its first name is, or the rest of it below that name. -/
theorem overtaken_cons_iff {child : Tree} (hchild : Keyed.get? cs name = some child) :
    (Tree.subtree cs).Overtaken rename (name :: rest) ↔
      (∃ later, name < later ∧ rename name = rename later ∧
        (Keyed.get? cs later).isSome = true) ∨ child.Overtaken rename rest := by
  have hsingle : ∀ later, (Tree.subtree cs).get? [later] = Keyed.get? cs later := by
    intro later
    rw [get?_cons_subtree]
    cases Keyed.get? cs later <;> rfl
  -- the path is overtaken at this level, or below the child it goes through
  constructor
  · rintro ⟨above, other, later, hfront, hlt, hequal, hlater⟩
    cases above with
    | nil =>
      obtain ⟨rfl, -⟩ := List.cons_prefix_cons.mp hfront
      rw [List.nil_append, hsingle] at hlater
      exact .inl ⟨later, hlt, hequal, hlater⟩
    | cons first above =>
      obtain ⟨rfl, hbelow⟩ := List.cons_prefix_cons.mp hfront
      rw [List.cons_append, get?_cons_of_get? hchild] at hlater
      exact .inr ⟨above, other, later, hbelow, hlt, hequal, hlater⟩
  · rintro (⟨later, hlt, hequal, hlater⟩ | ⟨above, other, later, hbelow, hlt, hequal, hlater⟩)
    · refine ⟨[], name, later, List.cons_prefix_cons.mpr ⟨rfl, List.nil_prefix⟩, hlt, hequal, ?_⟩
      rwa [List.nil_append, hsingle]
    · refine ⟨name :: above, other, later, List.cons_prefix_cons.mpr ⟨rfl, hbelow⟩, hlt, hequal, ?_⟩
      rwa [List.cons_append, get?_cons_of_get? hchild]

/-- What is found at a position of a renamed tree is the renamed node of a position that is renamed
to it and that nothing overtakes. -/
theorem get?_mapKeys_iff (ht : t.Orderly) {p : Path} {renamed : Tree} :
    (t.mapKeys rename).get? p = some renamed ↔
      ∃ path node, t.get? path = some node ∧ ¬ t.Overtaken rename path ∧
        path.map rename = p ∧ node.mapKeys rename = renamed := by
  -- on the renamed path: of the names that become its first key, the last one is gone through
  induction p generalizing t with
  | nil =>
    constructor
    · intro h
      exact ⟨[], t, rfl, not_overtaken_nil, rfl, Option.some.inj h⟩
    · rintro ⟨path, node, hnode, -, hpath, rfl⟩
      obtain rfl := List.map_eq_nil_iff.mp hpath
      obtain rfl := Option.some.inj hnode
      rfl
  | cons key below ih =>
    rcases isSubtree_cases t with hvalue | ⟨cs, rfl⟩
    · -- below a value there is nothing, renamed or not
      rw [mapKeys_of_value hvalue, get?_cons_of_value hvalue]
      simp only [reduceCtorEq, false_iff]
      rintro ⟨path, node, hnode, -, hpath, -⟩
      obtain ⟨name, rest, rfl, -, -⟩ := List.map_eq_cons_iff.mp hpath
      rw [get?_cons_of_value hvalue] at hnode
      exact absurd hnode (by simp)
    · rw [mapKeys_subtree, get?_cons_subtree, Option.bind_eq_some_iff]
      simp only [Keyed.get?_ofList_map ht.children]
      constructor
      · rintro ⟨_, ⟨⟨name, child⟩, hmem, rfl, rfl, hlast⟩, hbelow⟩
        have hchild := (Keyed.mem_iff_get? ht.children).mp hmem
        obtain ⟨rest, node, hnode, hfree, rfl, rfl⟩ := (ih (ht.child hchild)).mp hbelow
        refine ⟨name :: rest, node, ?_, ?_, rfl, rfl⟩
        · rwa [get?_cons_of_get? hchild]
        · rw [overtaken_cons_iff hchild]
          rintro (⟨later, hlt, hequal, hlater⟩ | hover)
          · obtain ⟨other, hother⟩ := Option.isSome_iff_exists.mp hlater
            exact hlast (later, other) (Keyed.mem_of_get? hother) hlt hequal.symm
          · exact hfree hover
      · rintro ⟨path, node, hnode, hfree, hpath, rfl⟩
        obtain ⟨name, rest, rfl, rfl, rfl⟩ := List.map_eq_cons_iff.mp hpath
        rw [get?_cons_subtree] at hnode
        obtain ⟨child, hchild, hrest⟩ := Option.bind_eq_some_iff.mp hnode
        rw [overtaken_cons_iff hchild, not_or] at hfree
        refine ⟨child.mapKeys rename, ⟨(name, child), Keyed.mem_of_get? hchild, rfl, rfl, ?_⟩,
          (ih (ht.child hchild)).mpr ⟨rest, node, hrest, hfree.2, rfl, rfl⟩⟩
        rintro ⟨later, other⟩ hmem hlt hequal
        have hother := (Keyed.mem_iff_get? ht.children).mp hmem
        exact hfree.1 ⟨later, hlt, hequal.symm, by rw [hother]; rfl⟩

/-- No two positions that nothing overtakes become equal. -/
theorem Overtaken.unique {p q : Path} (hp : (t.get? p).isSome = true)
    (hq : (t.get? q).isSome = true) (hpFree : ¬ t.Overtaken rename p)
    (hqFree : ¬ t.Overtaken rename q) (hequal : p.map rename = q.map rename) : p = q := by
  -- step by step: the two paths are the same, name by name
  induction p generalizing t q with
  | nil => exact (List.map_eq_nil_iff.mp hequal.symm).symm
  | cons name rest ih =>
    obtain ⟨other, rest', rfl, hname, hrest⟩ := List.map_eq_cons_iff.mp hequal.symm
    rcases isSubtree_cases t with hvalue | ⟨cs, rfl⟩
    · rw [get?_cons_of_value hvalue] at hp
      exact absurd hp (by simp)
    · rw [get?_cons_subtree] at hp hq
      cases hchild : Keyed.get? cs name with
      | none => simp [hchild] at hp
      | some child =>
        cases hchild' : Keyed.get? cs other with
        | none => simp [hchild'] at hq
        | some child' =>
          rw [overtaken_cons_iff hchild, not_or] at hpFree
          rw [overtaken_cons_iff hchild', not_or] at hqFree
          -- of two names that become equal the earlier one would be overtaken
          obtain rfl : name = other := by
            have hnot : ¬ name < other := fun hlt =>
              hpFree.1 ⟨other, hlt, hname.symm, by rw [hchild']; rfl⟩
            have hnot' : ¬ other < name := fun hlt =>
              hqFree.1 ⟨name, hlt, hname, by rw [hchild]; rfl⟩
            exact String.le_antisymm (String.not_lt.mp hnot') (String.not_lt.mp hnot)
          obtain rfl : child = child' := Option.some.inj (hchild.symm.trans hchild')
          rw [hchild] at hp hq
          exact congrArg (name :: ·) (ih hp hq hpFree.2 hqFree.2 hrest.symm)

/-- A renamed node has as many names as before if and only if no two of them become equal. -/
theorem length_keys_mapKeys (ht : t.Orderly) :
    (t.mapKeys rename).keys.length = t.keys.length ↔
      ∀ a b, (t.get? [a]).isSome = true → (t.get? [b]).isSome = true → rename a = rename b →
        a = b := by
  rcases isSubtree_cases t with hvalue | ⟨cs, rfl⟩
  · rw [mapKeys_of_value hvalue]
    simp [get?_cons_of_value hvalue]
  · have hsingle : ∀ name,
        ((Tree.subtree cs).get? [name]).isSome = true ↔ name ∈ Keyed.keys cs := by
      intro name
      rw [get?_cons_subtree, ← Keyed.isSome_get?_iff]
      cases Keyed.get? cs name <;> rfl
    have hlength : ∀ ds : Children, (Tree.subtree ds).keys.length = ds.length := by
      intro ds
      simp [Tree.keys, Keyed.keys]
    rw [mapKeys_subtree, hlength, hlength, Keyed.length_ofList_map ht.children]
    simp only [hsingle]
    exact ⟨fun h a b ha hb => h a ha b hb, fun h a ha b hb => h a b ha hb⟩

end Tree

end RouterConfig
