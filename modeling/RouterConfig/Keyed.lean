/-!
# RouterConfig — key-ordered association lists

`Keyed α` maps names to `α`; the entries stand in code point order of their names, each name once
(`Keyed.Ordered`). Equality of two ordered maps is equality of the lists, so maps with the same
entries are equal. Main results:

* `Keyed.get?_insert_self`, `Keyed.get?_insert_of_ne` — what insertion does to look-up;
* `Keyed.insert_ordered`, `Keyed.erase_ordered` — the order is kept.
-/

namespace RouterConfig

/-- Entries by name, in code point order of the names. -/
abbrev Keyed (α : Type) := List (String × α)

namespace Keyed

variable {α : Type}

/-- Names strictly increase. -/
def Ordered (m : Keyed α) : Prop := m.Pairwise fun a b => a.1 < b.1

/-- The entry under `key`. -/
def get? (m : Keyed α) (key : String) : Option α :=
  match m with
  | [] => none
  | (k, value) :: rest => if k = key then some value else get? rest key

/-- Whether there is an entry under `key`. -/
def contains (m : Keyed α) (key : String) : Bool := (get? m key).isSome

/-- Puts `value` under `key`, in place of the entry that was there. -/
def insert (m : Keyed α) (key : String) (value : α) : Keyed α :=
  match m with
  | [] => [(key, value)]
  | (k, old) :: rest =>
    -- The name may stand at the place already, or it belongs right before the first greater one.
    if k = key then (key, value) :: rest
    else if key < k then (key, value) :: (k, old) :: rest
    else (k, old) :: insert rest key value

/-- Takes the entry under `key` out. -/
def erase (m : Keyed α) (key : String) : Keyed α :=
  match m with
  | [] => []
  | (k, value) :: rest => if k = key then rest else (k, value) :: erase rest key

/-- The names in order. -/
def keys (m : Keyed α) : List String := m.map (·.1)

/-- The map with the given entries; of two entries under one name the later stays. -/
def ofList (entries : List (String × α)) : Keyed α :=
  entries.foldl (fun m entry => insert m entry.1 entry.2) []

/-- The given names in order, each once. -/
def sortedNames (names : List String) : List String :=
  keys (ofList (names.map fun name => (name, ())))

@[simp] theorem get?_nil (key : String) : get? ([] : Keyed α) key = none := rfl

@[simp] theorem get?_insert_self (m : Keyed α) (key : String) (value : α) :
    get? (insert m key value) key = some value := by
  induction m with
  | nil => simp [insert, get?]
  | cons entry rest ih =>
    obtain ⟨k, old⟩ := entry
    simp only [insert]
    split
    · simp [get?]
    · split
      · simp [get?]
      · rename_i hne _
        simp [get?, hne, ih]

theorem get?_insert_of_ne (m : Keyed α) {key other : String} (value : α) (h : key ≠ other) :
    get? (insert m key value) other = get? m other := by
  induction m with
  | nil => simp [insert, get?, h]
  | cons entry rest ih =>
    obtain ⟨k, old⟩ := entry
    simp only [insert]
    split
    · rename_i hk
      subst hk
      simp [get?, h]
    · split
      · simp [get?, h]
      · simp only [get?, ih]

private theorem mem_insert {m : Keyed α} {key : String} {value : α} {entry : String × α}
    (h : entry ∈ insert m key value) : entry = (key, value) ∨ entry ∈ m := by
  induction m with
  | nil => simpa [insert] using h
  | cons first rest ih =>
    obtain ⟨k, old⟩ := first
    simp only [insert] at h
    split at h
    · rcases List.mem_cons.mp h with h | h
      · exact Or.inl h
      · exact Or.inr (List.mem_cons_of_mem _ h)
    · split at h
      · exact List.mem_cons.mp h
      · rcases List.mem_cons.mp h with h | h
        · exact Or.inr (h ▸ List.mem_cons_self ..)
        · rcases ih h with h | h
          · exact Or.inl h
          · exact Or.inr (List.mem_cons_of_mem _ h)

private theorem lt_of_not_lt_of_ne {a b : String} (h : ¬ b < a) (hne : a ≠ b) : a < b :=
  Decidable.byContradiction fun hn =>
    hne (String.le_antisymm (String.not_lt.mp h) (String.not_lt.mp hn))

theorem insert_ordered {m : Keyed α} (h : Ordered m) (key : String) (value : α) :
    Ordered (insert m key value) := by
  induction m with
  | nil => simp [insert, Ordered]
  | cons first rest ih =>
    obtain ⟨k, old⟩ := first
    have hfirst := (List.pairwise_cons.mp h).1
    have hrest := (List.pairwise_cons.mp h).2
    simp only [insert]
    split
    · rename_i hk
      subst hk
      exact List.pairwise_cons.mpr ⟨hfirst, hrest⟩
    · split
      · rename_i _ hlt
        refine List.pairwise_cons.mpr ⟨fun entry hmem => ?_, h⟩
        rcases List.mem_cons.mp hmem with rfl | hmem
        · exact hlt
        · exact String.lt_trans hlt (hfirst entry hmem)
      · rename_i hne hnlt
        refine List.pairwise_cons.mpr ⟨fun entry hmem => ?_, ih hrest⟩
        rcases mem_insert hmem with rfl | hmem
        · exact lt_of_not_lt_of_ne hnlt hne
        · exact hfirst entry hmem

theorem erase_ordered {m : Keyed α} (h : Ordered m) (key : String) : Ordered (erase m key) := by
  induction m with
  | nil => exact h
  | cons first rest ih =>
    obtain ⟨k, old⟩ := first
    have hfirst := (List.pairwise_cons.mp h).1
    have hrest := (List.pairwise_cons.mp h).2
    simp only [erase]
    split
    · exact hrest
    · refine List.pairwise_cons.mpr ⟨fun entry hmem => hfirst entry ?_, ih hrest⟩
      clear ih hfirst hrest h
      induction rest with
      | nil => exact hmem
      | cons second rest ih =>
        simp only [erase] at hmem
        split at hmem
        · exact List.mem_cons_of_mem _ hmem
        · rcases List.mem_cons.mp hmem with h | h
          · exact h ▸ List.mem_cons_self ..
          · exact List.mem_cons_of_mem _ (ih h)

end Keyed

end RouterConfig
