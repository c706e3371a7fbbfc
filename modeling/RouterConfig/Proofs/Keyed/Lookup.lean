import RouterConfig.Keyed

/-!
# RouterConfig — look-up in ordered maps

What the operations on `Keyed` maps do to look-up, beyond insertion under the same and under another
name, and the equations by which several operations under one name become one. The order of the
names matters for erasing only: a map that is not ordered may hold a name twice. Main results:

* `Keyed.mem_iff_get?` — the entries of an ordered map are what is found in it;
* `Keyed.get?_erase_self`, `Keyed.get?_erase_of_ne` — what erasing does to look-up;
* `Keyed.insert_insert_self`, `Keyed.erase_insert_self` — the last operation under a name counts;
* `Keyed.insert_of_forall_lt` — a name after all others is put at the end;
* `Keyed.ext` — ordered maps in which the same is found are equal;
* `Keyed.sortedNames_pairwise`, `Keyed.mem_sortedNames` — sorted names are those given, in order;
* `Keyed.ofList_of_ordered` — ordered entries are a map as they stand;
* `Keyed.get?_filter` — what is found under some of the names.
-/

namespace RouterConfig.Keyed

variable {α : Type}

/-! ## Entries -/

/-- What is found under a name is an entry. -/
theorem mem_of_get? {m : Keyed α} {key : String} {value : α} (h : get? m key = some value) :
    (key, value) ∈ m := by
  induction m with
  | nil => simp at h
  | cons entry rest ih =>
    obtain ⟨k, old⟩ := entry
    rw [get?] at h
    by_cases hk : k = key
    · rw [if_pos hk, Option.some.injEq] at h
      rw [hk, h]
      exact List.mem_cons_self ..
    · rw [if_neg hk] at h
      exact List.mem_cons_of_mem _ (ih h)

theorem get?_eq_none_of_forall_ne {m : Keyed α} {key : String} (h : ∀ entry ∈ m, entry.1 ≠ key) :
    get? m key = none := by
  cases hget : get? m key with
  | none => rfl
  | some value => exact absurd rfl (h _ (mem_of_get? hget))

/-- No entry is found under a name that is before all others. -/
theorem get?_eq_none_of_forall_lt {m : Keyed α} {key : String} (h : ∀ entry ∈ m, key < entry.1) :
    get? m key = none := by
  refine get?_eq_none_of_forall_ne fun entry hentry heq => ?_
  have hlt := h entry hentry
  rw [heq] at hlt
  exact String.lt_irrefl key hlt

theorem ordered_cons {entry : String × α} {rest : Keyed α} :
    Ordered (entry :: rest) ↔ (∀ other ∈ rest, entry.1 < other.1) ∧ Ordered rest :=
  List.pairwise_cons

/-- The entries of an ordered map are what is found in it. -/
theorem mem_iff_get? {m : Keyed α} (hm : Ordered m) {key : String} {value : α} :
    (key, value) ∈ m ↔ get? m key = some value := by
  refine ⟨fun h => ?_, mem_of_get?⟩
  induction m with
  | nil => simp at h
  | cons entry rest ih =>
    obtain ⟨k, old⟩ := entry
    obtain ⟨hlt, hrest⟩ := ordered_cons.mp hm
    rw [get?]
    rcases List.mem_cons.mp h with heq | hmem
    · rw [Prod.mk.injEq] at heq
      rw [heq.1, heq.2, if_pos rfl]
    · -- an entry further on has a greater name
      have hne : k ≠ key := fun heq => by
        have := hlt _ hmem
        rw [heq] at this
        exact String.lt_irrefl key this
      rw [if_neg hne]
      exact ih hrest hmem

/-! ## Erasing -/

/-- Erasing leaves nothing under the name, which stands there only once. -/
@[simp] theorem get?_erase_self {m : Keyed α} (hm : Ordered m) (key : String) :
    get? (erase m key) key = none := by
  induction m with
  | nil => rfl
  | cons entry rest ih =>
    obtain ⟨k, old⟩ := entry
    obtain ⟨hlt, hrest⟩ := ordered_cons.mp hm
    rw [erase]
    by_cases hk : k = key
    · rw [if_pos hk]
      exact get?_eq_none_of_forall_lt fun other hother => hk ▸ hlt other hother
    · rw [if_neg hk, get?, if_neg hk]
      exact ih hrest

/-- Erasing leaves the other names as they are. -/
theorem get?_erase_of_ne (m : Keyed α) {key other : String} (h : key ≠ other) :
    get? (erase m key) other = get? m other := by
  induction m with
  | nil => rfl
  | cons entry rest ih =>
    obtain ⟨k, old⟩ := entry
    rw [erase]
    by_cases hk : k = key
    · rw [if_pos hk, get?, if_neg (hk ▸ h)]
    · rw [if_neg hk, get?, get?, ih]

/-- What is found after erasing was there before. -/
theorem get?_of_get?_erase {m : Keyed α} (hm : Ordered m) {key other : String} {value : α}
    (h : get? (erase m key) other = some value) : get? m other = some value := by
  by_cases heq : key = other
  · rw [← heq, get?_erase_self hm] at h
    exact absurd h (by simp)
  · rwa [get?_erase_of_ne m heq] at h

/-- There is nothing to erase under a name that is missing. -/
theorem erase_of_get?_eq_none {m : Keyed α} {key : String} (h : get? m key = none) :
    erase m key = m := by
  induction m with
  | nil => rfl
  | cons entry rest ih =>
    obtain ⟨k, old⟩ := entry
    rw [get?] at h
    by_cases hk : k = key
    · rw [if_pos hk] at h
      exact absurd h (by simp)
    · rw [if_neg hk] at h
      rw [erase, if_neg hk, ih h]

/-! ## Several operations under one name -/

/-- The second of two insertions under a name replaces the first. -/
theorem insert_insert_self (m : Keyed α) (key : String) (first second : α) :
    insert (insert m key first) key second = insert m key second := by
  induction m with
  | nil => simp [insert]
  | cons entry rest ih =>
    obtain ⟨k, old⟩ := entry
    by_cases hk : k = key
    · simp [insert, hk]
    · by_cases hlt : key < k
      · simp [insert, hk, hlt]
      · simp [insert, hk, hlt, ih]

/-- To insert under a name and erase it again is to erase it. -/
theorem erase_insert_self {m : Keyed α} (hm : Ordered m) (key : String) (value : α) :
    erase (insert m key value) key = erase m key := by
  -- on the entries; the name is before the first, at it, or further on
  induction m with
  | nil => simp [insert, erase]
  | cons entry rest ih =>
    obtain ⟨k, old⟩ := entry
    obtain ⟨hlt, hrest⟩ := ordered_cons.mp hm
    by_cases hk : k = key
    · simp [insert, erase, hk]
    · by_cases hbefore : key < k
      · -- the name is before all others, so there is nothing to erase
        have habsent : get? ((k, old) :: rest) key = none := by
          refine get?_eq_none_of_forall_lt fun other hother => ?_
          rcases List.mem_cons.mp hother with rfl | hother
          · exact hbefore
          · exact String.lt_trans hbefore (hlt other hother)
        rw [erase_of_get?_eq_none habsent]
        simp [insert, erase, hk, hbefore]
      · simp [insert, erase, hk, hbefore, ih hrest]

/-- A name after all others is put at the end. -/
theorem insert_of_forall_lt {m : Keyed α} {key : String} (h : ∀ entry ∈ m, entry.1 < key)
    (value : α) : insert m key value = m ++ [(key, value)] := by
  induction m with
  | nil => rfl
  | cons entry rest ih =>
    obtain ⟨k, old⟩ := entry
    have hk : k < key := h (k, old) (List.mem_cons_self ..)
    have hne : k ≠ key := fun heq => String.lt_irrefl key (heq ▸ hk)
    have hnot : ¬ key < k := fun hlt => String.lt_irrefl key (String.lt_trans hlt hk)
    rw [insert, if_neg hne, if_neg hnot,
      ih fun other hother => h other (List.mem_cons_of_mem _ hother)]
    rfl

/-! ## Equality -/

/-- Ordered maps in which the same is found are equal. -/
theorem ext {m m' : Keyed α} (hm : Ordered m) (hm' : Ordered m')
    (h : ∀ key, get? m key = get? m' key) : m = m' := by
  have hmem : ∀ entry, entry ∈ m ↔ entry ∈ m' := by
    intro entry
    rw [mem_iff_get? hm, mem_iff_get? hm', h]
  have hnodup : ∀ n : Keyed α, Ordered n → n.Nodup := by
    intro n hn
    refine hn.imp fun {a b} hlt heq => ?_
    rw [heq] at hlt
    exact String.lt_irrefl _ hlt
  -- the same entries, in one and the same order
  refine List.Perm.eq_of_pairwise ?_ hm hm' ((List.perm_ext_iff_of_nodup (hnodup m hm)
    (hnodup m' hm')).mpr hmem)
  intro a b _ _ hab hba
  exact absurd (String.lt_trans hab hba) (String.lt_irrefl _)

/-! ## Assigning -/

/-- The map with the given entry under `key`, or with none. -/
def assign (m : Keyed α) (key : String) : Option α → Keyed α
  | some value => insert m key value
  | none => erase m key

theorem assign_ordered {m : Keyed α} (hm : Ordered m) (key : String) (value? : Option α) :
    Ordered (assign m key value?) := by
  cases value? with
  | some value => exact insert_ordered hm key value
  | none => exact erase_ordered hm key

theorem get?_assign_self {m : Keyed α} (hm : Ordered m) (key : String) (value? : Option α) :
    get? (assign m key value?) key = value? := by
  cases value? with
  | some value => exact get?_insert_self m key value
  | none => exact get?_erase_self hm key

theorem get?_assign_of_ne (m : Keyed α) {key other : String} (value? : Option α)
    (h : key ≠ other) : get? (assign m key value?) other = get? m other := by
  cases value? with
  | some value => exact get?_insert_of_ne m value h
  | none => exact get?_erase_of_ne m h

/-- Assigning what is there already changes nothing. -/
theorem assign_get? {m : Keyed α} (hm : Ordered m) (key : String) :
    assign m key (get? m key) = m := by
  refine ext (assign_ordered hm _ _) hm fun other => ?_
  by_cases hkey : key = other
  · rw [← hkey, get?_assign_self hm]
  · exact get?_assign_of_ne m _ hkey

theorem insert_of_get? {m : Keyed α} (hm : Ordered m) {key : String} {value : α}
    (h : get? m key = some value) : insert m key value = m := by
  have hself := assign_get? hm key
  rwa [h] at hself

/-- The second of two assignments to a name undoes the first. -/
theorem assign_assign_self {m : Keyed α} (hm : Ordered m) (key : String)
    (first? second? : Option α) :
    assign (assign m key first?) key second? = assign m key second? := by
  have hfirst := assign_ordered hm key first?
  refine ext (assign_ordered hfirst _ _) (assign_ordered hm _ _) fun other => ?_
  by_cases hkey : key = other
  · rw [← hkey, get?_assign_self hfirst, get?_assign_self hm]
  · rw [get?_assign_of_ne _ _ hkey, get?_assign_of_ne _ _ hkey, get?_assign_of_ne _ _ hkey]

/-- Assignments to different names may be made in either order. -/
theorem assign_comm {m : Keyed α} (hm : Ordered m) {key other : String} (h : key ≠ other)
    (value? value'? : Option α) :
    assign (assign m key value?) other value'? = assign (assign m other value'?) key value? := by
  have hkey := assign_ordered hm key value?
  have hother := assign_ordered hm other value'?
  refine ext (assign_ordered hkey _ _) (assign_ordered hother _ _) fun name => ?_
  by_cases hname : other = name
  · subst hname
    rw [get?_assign_self hkey, get?_assign_of_ne _ _ h, get?_assign_self hm]
  · rw [get?_assign_of_ne _ _ hname]
    by_cases hname' : key = name
    · subst hname'
      rw [get?_assign_self hm, get?_assign_self hother]
    · rw [get?_assign_of_ne _ _ hname', get?_assign_of_ne _ _ hname',
        get?_assign_of_ne _ _ hname]

theorem ne_nil_of_get? {m : Keyed α} {key : String} {value : α} (h : get? m key = some value) :
    m ≠ [] := by
  rintro rfl
  exact absurd h (by simp)

/-! ## Names -/

/-- Something is found under the names of the entries, and only there. -/
theorem isSome_get?_iff {m : Keyed α} {key : String} :
    (get? m key).isSome = true ↔ key ∈ keys m := by
  induction m with
  | nil => simp [keys]
  | cons entry rest ih =>
    obtain ⟨k, value⟩ := entry
    rw [get?, keys, List.map_cons, List.mem_cons]
    by_cases hk : k = key
    · rw [if_pos hk]
      simp [hk]
    · have hne : key ≠ k := fun heq => hk heq.symm
      rw [if_neg hk, ih]
      simp [hne, keys]

/-- Something has been inserted, so there is an entry. -/
theorem insert_ne_nil (m : Keyed α) (key : String) (value : α) : insert m key value ≠ [] := by
  cases m with
  | nil => simp [insert]
  | cons entry rest =>
    obtain ⟨k, old⟩ := entry
    rw [insert]
    split
    · simp
    · split <;> simp

/-- Sorting names loses none of them but repeated ones, so none is left only if there was none. -/
theorem sortedNames_ne_nil {names : List String} (h : names ≠ []) : sortedNames names ≠ [] := by
  have hfold : ∀ (entries : List (String × Unit)) (m : Keyed Unit), m ≠ [] →
      entries.foldl (fun m entry => insert m entry.1 entry.2) m ≠ [] := by
    intro entries
    induction entries with
    | nil => exact fun m hm => hm
    | cons entry rest ih => exact fun m _ => ih _ (insert_ne_nil _ _ _)
  cases names with
  | nil => exact absurd rfl h
  | cons name rest =>
    rw [sortedNames, ofList, List.map_cons, List.foldl_cons, keys, Ne, List.map_eq_nil_iff]
    exact hfold _ _ (insert_ne_nil _ _ _)

/-- A map that is made of a list of entries has its names in order, in whatever order the list has
them. -/
theorem ofList_ordered (entries : List (String × α)) : Ordered (ofList entries) := by
  have hfold : ∀ (entries : List (String × α)) (m : Keyed α), Ordered m →
      Ordered (entries.foldl (fun m entry => insert m entry.1 entry.2) m) := by
    intro entries
    induction entries with
    | nil => exact fun m hm => hm
    | cons entry rest ih => exact fun m hm => ih _ (insert_ordered hm _ _)
  exact hfold entries [] List.Pairwise.nil

theorem sortedNames_pairwise (names : List String) : (sortedNames names).Pairwise (· < ·) := by
  have hOrdered := ofList_ordered (names.map fun name => (name, ()))
  rw [Ordered, ← List.pairwise_map] at hOrdered
  exact hOrdered

theorem ofList_concat (entries : List (String × α)) (entry : String × α) :
    ofList (entries ++ [entry]) = insert (ofList entries) entry.1 entry.2 := by
  rw [ofList, List.foldl_append, ofList]
  rfl

/-- The names found in a map that entries were put into are those of the entries and the ones
before. -/
private theorem isSome_get?_foldl (entries : List (String × α)) (m : Keyed α) (key : String) :
    (get? (entries.foldl (fun m entry => insert m entry.1 entry.2) m) key).isSome = true ↔
      key ∈ entries.map (·.1) ∨ (get? m key).isSome = true := by
  induction entries generalizing m with
  | nil => simp
  | cons entry rest ih =>
    rw [List.foldl_cons, ih, List.map_cons, List.mem_cons]
    by_cases hname : entry.1 = key
    · simp [hname]
    · rw [get?_insert_of_ne _ _ hname]
      have hne : ¬ key = entry.1 := fun heq => hname heq.symm
      simp [hne]

theorem mem_keys_ofList {entries : List (String × α)} {key : String} :
    key ∈ keys (ofList entries) ↔ key ∈ entries.map (·.1) := by
  rw [← isSome_get?_iff, ofList, isSome_get?_foldl]
  simp

theorem mem_sortedNames {names : List String} {key : String} :
    key ∈ sortedNames names ↔ key ∈ names := by
  rw [sortedNames, mem_keys_ofList]
  simp

/-- Ordered entries are a map as they stand. -/
theorem ofList_of_ordered {m : Keyed α} (h : Ordered m) : ofList m = m := by
  have hfold : ∀ after before : Keyed α, Ordered (before ++ after) →
      after.foldl (fun m entry => insert m entry.1 entry.2) before = before ++ after := by
    intro after
    induction after with
    | nil => exact fun before _ => (List.append_nil before).symm
    | cons entry rest ih =>
      intro before hOrdered
      -- the next name is after all that have been put before
      have hlt : ∀ other ∈ before, other.1 < entry.1 := fun other hother =>
        (List.pairwise_append.mp hOrdered).2.2 other hother entry (List.mem_cons_self ..)
      rw [List.foldl_cons, insert_of_forall_lt hlt, ih _ (by simpa using hOrdered),
        List.append_assoc, List.singleton_append]
  exact hfold m [] h

/-! ## Some of the names -/

theorem keys_pairwise {m : Keyed α} (h : Ordered m) : (keys m).Pairwise (· < ·) :=
  List.pairwise_map.mpr h

theorem keys_nodup {m : Keyed α} (h : Ordered m) : (keys m).Nodup :=
  List.nodup_iff_pairwise_ne.mpr ((keys_pairwise h).imp String.ne_of_lt)

theorem keys_filter (m : Keyed α) (p : String → Bool) :
    keys (m.filter fun entry => p entry.1) = (keys m).filter p := by
  rw [keys, keys, List.filter_map]
  rfl

/-- Filtering by name keeps what stands under the names that are kept. -/
theorem get?_filter (m : Keyed α) (p : String → Bool) (key : String) :
    get? (m.filter fun entry => p entry.1) key = if p key then get? m key else none := by
  -- on the entries: one under another name does not matter, whether it is kept or not
  induction m with
  | nil => simp
  | cons entry rest ih =>
    obtain ⟨k, value⟩ := entry
    rw [List.filter_cons, get?]
    by_cases hk : k = key
    · subst hk
      split
      · simp [get?, *]
      · simp [*]
    · rw [if_neg hk]
      split
      · rw [get?, if_neg hk, ih]
      · exact ih

/-! ## Other values under the same names -/

section Map

variable {β : Type}

/-- Changing the values changes what is found under each name, and only that. -/
theorem get?_map (f : String → α → β) (m : Keyed α) (key : String) :
    get? (m.map fun entry => (entry.1, f entry.1 entry.2)) key = (get? m key).map (f key) := by
  induction m with
  | nil => rfl
  | cons entry rest ih =>
    obtain ⟨k, value⟩ := entry
    rw [List.map_cons, get?, get?]
    by_cases hk : k = key
    · rw [if_pos hk, if_pos hk, hk]
      rfl
    · rw [if_neg hk, if_neg hk]
      exact ih

theorem ordered_map {m : Keyed α} (h : Ordered m) (f : String → α → β) :
    Ordered (m.map fun entry => (entry.1, f entry.1 entry.2)) := by
  rw [Ordered, List.pairwise_map]
  exact h

end Map

end RouterConfig.Keyed
