import RouterConfig.Proofs.Session.Soundness
import RouterConfig.Proofs.Tree.Parting

/-!
# RouterConfig — a delete is one removal

A delete asks the schema what is to be taken out, and takes it out. The first never looks at the
configuration, the second never at the schema. Main results:

* `Session.delete_eq_removal` — a delete is the two of them, where all conforms;
* `Removal.run_comm` — removals commute, whatever they are of.
-/

namespace RouterConfig

/-! ## Removals -/

/-- A position and what is taken out there: one occurrence of a value, or the whole node. -/
structure Removal where
  path : Path
  value? : Option String
  deriving DecidableEq

namespace Removal

/-- What taking one value out leaves of a node, or what taking all of it out does. -/
def deed : Option String → Tree → Option Tree
  | some value, .scalar stored => if stored = value then none else some (.scalar stored)
  | some value, .list stored =>
    if (stored.erase value).isEmpty then none else some (.list (stored.erase value))
  | some _, .subtree children => some (.subtree children)
  | none, _ => none

/-- The tree after a removal. The root stays. -/
def run (r : Removal) (t : Tree) : Tree :=
  if r.path.isEmpty then t else (t.cut (deed r.value?) r.path).getD Tree.empty

/-- Nothing of a list is left after a second removal if nothing is left after the first. -/
private theorem erase_erase_eq_nil {stored : List String} {first : String}
    (h : stored.erase first = []) (second : String) : (stored.erase second).erase first = [] := by
  rw [List.erase_comm, h]
  rfl

/-- Taking out does not depend on the order: what is left of a node is what nothing took. -/
theorem deed_comm (first? second? : Option String) (t : Tree) :
    (deed first? t).bind (deed second?) = (deed second? t).bind (deed first?) := by
  cases first? with
  | none => cases deed second? t <;> rfl
  | some first =>
    cases second? with
    | none => cases deed (some first) t <;> rfl
    | some second =>
      cases t with
      | subtree children => rfl
      | scalar stored =>
        -- a single value is gone as soon as one of the two is meant for it
        rw [deed, deed]
        split <;> split <;> simp [deed, *]
      | list stored =>
        -- one occurrence of each goes, and an empty list with the last one
        by_cases hfirst : stored.erase first = []
        · have hgone := erase_erase_eq_nil hfirst second
          by_cases hsecond : stored.erase second = [] <;> simp [deed, hfirst, hsecond, hgone]
        · by_cases hsecond : stored.erase second = []
          · have hgone := erase_erase_eq_nil hsecond first
            simp [deed, hfirst, hsecond, hgone]
          · simp [deed, hfirst, hsecond, List.erase_comm first second]

/-- Taking a value out leaves the kind of node that was there. -/
theorem isSubtree_of_deed {value : String} {t left : Tree} (h : deed (some value) t = some left) :
    left.isSubtree = t.isSubtree := by
  -- a deed changes the values of a leaf, and never makes a leaf a subtree
  cases t with
  | subtree children =>
    obtain rfl : Tree.subtree children = left := Option.some.inj h
    rfl
  | scalar stored =>
    rw [deed] at h
    split at h
    · exact absurd h (by simp)
    · rw [← Option.some.inj h]
  | list stored =>
    rw [deed] at h
    split at h
    · exact absurd h (by simp)
    · rw [← Option.some.inj h]
      rfl

theorem deed_of_isSubtree {value : String} {t : Tree} (ht : t.isSubtree = true) :
    deed (some value) t = some t := by
  cases t with
  | subtree children => rfl
  | scalar _ => exact absurd ht (by simp [Tree.isSubtree])
  | list _ => exact absurd ht (by simp [Tree.isSubtree])

/-- Whatever is left of a node is left by a removal at the node and by one below it, in any order:
nothing is below a value, and what takes a value out leaves subtrees alone. -/
theorem deed_comm_below (value? : Option String) (deed' : Tree → Option Tree) (name : String)
    (rest : Path) (t : Tree) :
    ((deed value? t).bind fun left => left.cut deed' (name :: rest)) =
      (t.cut deed' (name :: rest)).bind (deed value?) := by
  -- what one deed leaves as it is, the other may as well be made on alone
  have hself : ∀ (left? : Option Tree) (f : Tree → Option Tree),
      (∀ left, left? = some left → f left = some left) → left?.bind f = left? := by
    intro left? f hf
    cases left? with
    | none => rfl
    | some left => exact hf left rfl
  -- the second removal is of a value or of a whole node, and lies below the first
  cases value? with
  | none => cases t.cut deed' (name :: rest) <;> rfl
  | some value =>
    cases ht : t.isSubtree with
    | true =>
      rw [deed_of_isSubtree ht, Option.bind_some, hself]
      intro left hleft
      exact deed_of_isSubtree ((Tree.isSubtree_of_cut hleft).trans ht)
    | false =>
      rw [Tree.cut_cons_of_value ht, Option.bind_some, hself]
      intro left hleft
      exact Tree.cut_cons_of_value ((isSubtree_of_deed hleft).trans ht) name rest

/-- What is found after a removal, besides the root. -/
theorem get?_run {r : Removal} (hr : r.path ≠ []) {p : Path} (hp : p ≠ []) (t : Tree) :
    (r.run t).get? p = (t.cut (deed r.value?) r.path).bind fun left => left.get? p := by
  rw [run, if_neg (by simpa using hr)]
  cases t.cut (deed r.value?) r.path with
  | some left => rfl
  | none =>
    obtain ⟨name, rest, rfl⟩ := List.exists_cons_of_ne_nil hp
    rfl

/-- Two removals are one cut after the other. The root that the first one leaves empty stays. -/
theorem run_run {r r' : Removal} (hr : r.path ≠ []) (hr' : r'.path ≠ []) (t : Tree) :
    r'.run (r.run t) =
      ((t.cut (deed r.value?) r.path).bind fun left =>
        left.cut (deed r'.value?) r'.path).getD Tree.empty := by
  rw [run, run, if_neg (by simpa using hr'), if_neg (by simpa using hr)]
  cases t.cut (deed r.value?) r.path with
  | some left => rfl
  | none =>
    -- in the empty root the second one finds nothing to take out
    obtain ⟨name, rest, hpath⟩ := List.exists_cons_of_ne_nil hr'
    rw [hpath]
    rfl

/-- Removals at a position and at one that goes on from it commute. -/
private theorem cut_comm_below {r r' : Removal} {t : Tree} (ht : t.Orderly)
    (hbelow : r.path <+: r'.path) :
    ((t.cut (deed r.value?) r.path).bind fun left => left.cut (deed r'.value?) r'.path) =
      (t.cut (deed r'.value?) r'.path).bind fun left => left.cut (deed r.value?) r.path := by
  obtain ⟨rest, hrest⟩ := hbelow
  have happend := fun left : Tree => left.cut_append (deed r'.value?) r.path rest
  simp only [← hrest, happend]
  -- both are cuts at the upper position, and what is below is part of what the second one does
  refine Tree.cut_comm_of_deeds ht fun node => ?_
  cases rest with
  | nil =>
    simp only [Tree.cut_nil]
    exact deed_comm r.value? r'.value? node
  | cons name rest => exact deed_comm_below r.value? _ name rest node

/-- Two removals may be made in either order. -/
theorem run_comm (r r' : Removal) {t : Tree} (ht : t.Orderly) :
    r'.run (r.run t) = r.run (r'.run t) := by
  by_cases hr : r.path = []
  · simp [run, hr]
  by_cases hr' : r'.path = []
  · simp [run, hr']
  rw [run_run hr hr', run_run hr' hr]
  -- one position goes on from the other, or their paths part
  by_cases hbelow : r.path <+: r'.path
  · rw [cut_comm_below ht hbelow]
  by_cases hbelow' : r'.path <+: r.path
  · rw [cut_comm_below ht hbelow']
  · rw [Tree.cut_comm (Path.parts_iff.mpr ⟨hbelow, hbelow'⟩) ht]

end Removal

/-! ## Deletes -/

/-- Removals at one position do the same if they leave the same of the node that stands there. -/
theorem Removal.run_congr {t node : Tree} {p : Path} (hnode : t.get? p = some node)
    {value? value'? : Option String} (h : deed value? node = deed value'? node) :
    (Removal.mk p value?).run t = (Removal.mk p value'?).run t := by
  have hcut : t.cut (deed value?) p = t.cut (deed value'?) p := by
    refine Tree.cut_congr fun found hfound => ?_
    rw [hnode] at hfound
    rw [← Option.some.inj hfound]
    exact h
  rw [run, run]
  dsimp only
  rw [hcut]

/-- A removal that takes nothing of the node that it finds changes nothing. -/
theorem Removal.run_eq_self {t : Tree} (ht : t.Orderly) {r : Removal}
    (h : ∀ node, t.get? r.path = some node → deed r.value? node = some node) : r.run t = t := by
  rw [run, Tree.cut_eq_self ht h]
  split <;> rfl

namespace Schema

/-- The position that an edit at `full` writes or removes: the leaf, the instance or the child that
is named, or what stands at `full` itself. -/
def targetAt (schema : Schema) (full : Path) : Option String → Path
  | none => full
  | some typed => if schema.isLeaf full then full else full ++ [unquote typed]

/-- What a delete at a place is to take out. -/
def Place.removal (place : Place) (full : Path) : Option String → Removal
  | none => ⟨full, none⟩
  | some typed =>
    if place.isLeaf then ⟨full, some (unquote typed)⟩ else ⟨full ++ [unquote typed], none⟩

/-- What a delete at `full` is to take out. -/
def removalAt (schema : Schema) (full : Path) (typed? : Option String) : Except Error Removal :=
  (schema.resolve full).map fun place => place.removal full typed?

/-- What a request removes is at the target of that request. -/
theorem path_of_removalAt {schema : Schema} {full : Path} {typed? : Option String} {r : Removal}
    (h : schema.removalAt full typed? = .ok r) : r.path = schema.targetAt full typed? := by
  obtain ⟨place, hplace, rfl⟩ := map_eq_ok h
  cases typed? with
  | none => rfl
  | some typed =>
    rw [targetAt, isLeaf_of_resolve hplace, Place.removal]
    split <;> rfl

theorem Node.path_of_leafWrite {leaf : Node} {full : Path} {value : String} {w : Write}
    (h : leaf.leafWrite full value = .ok w) : w.path = full := by
  rw [leafWrite] at h
  split at h
  · exact absurd h (by simp)
  · split at h <;> rw [← Except.ok.inj h]

theorem path_of_instanceWrite {full : Path} {name : String} {w : Write}
    (h : instanceWrite full name = .ok w) : w.path = full ++ [name] := by
  rw [instanceWrite] at h
  split at h
  · exact absurd h (by simp)
  · rw [← Except.ok.inj h]

/-- What a child is written as is written at its own name. -/
theorem Node.path_of_childWrite {node : Node} {full : Path} {name : String} {w : Write}
    (h : node.childWrite full name = .ok w) : w.path = full ++ [name] := by
  rw [childWrite] at h
  split at h
  · exact absurd h (by simp)
  split at h
  · rw [← Except.ok.inj h]
  -- a leaf takes its name alone only if it takes no value
  split at h
  · exact absurd h (by simp)
  · rw [← Except.ok.inj h]

/-- What a request writes is written at the target of that request. -/
theorem path_of_writeAt {schema : Schema} {full : Path} {typed : String} {w : Write}
    (h : schema.writeAt full typed = .ok w) : w.path = schema.targetAt full (some typed) := by
  rw [writeAt] at h
  split at h
  · exact absurd h (by simp)
  cases hplace : schema.resolve full with
  | error e => simp [hplace] at h
  | ok place =>
    rw [hplace] at h
    dsimp only at h
    rw [targetAt, isLeaf_of_resolve hplace]
    -- a leaf takes the value, a tag node an instance, and any other node a child
    by_cases hLeaf : place.isLeaf = true
    · rw [if_pos hLeaf] at h ⊢
      exact Node.path_of_leafWrite h
    rw [if_neg hLeaf] at h ⊢
    by_cases hTag : place.isTag = true
    · rw [if_pos hTag] at h
      exact path_of_instanceWrite h
    · rw [if_neg hTag] at h
      exact Node.path_of_childWrite h

theorem Admits.orderly {schema : Schema} {t : Tree} (h : schema.Admits t) : t.Orderly :=
  fun _ _ hget => Place.Conforms.ordered h hget

/-- Taking a node out with the way that leads to it, or to its parent, is a removal. -/
theorem removal_of_without? {t : Tree} (ht : t.Orderly) {p way : Path}
    (hway : way = p ∨ way = p.dropLast) :
    ((t.without? p).map fun t' => t'.prune way).getD t = (Removal.mk p none).run t := by
  rw [Tree.without?, Tree.removed?]
  by_cases hp : p.isEmpty = true
  · rw [if_pos hp, Removal.run, if_pos hp]
    rfl
  · rw [if_neg hp]
    have hne : p ≠ [] := by simpa using hp
    cases hnode : t.get? p with
    | some node =>
      rw [Removal.run, if_neg hp]
      exact Tree.prune_remove_eq_cut ht hne hnode hway
    | none =>
      rw [Removal.run_eq_self ht fun node hfound => absurd (hnode.symm.trans hfound) (by simp)]
      rfl

/-- Where nothing of the node is left, to replace it by an empty one and to prune is a removal. -/
theorem removal_of_replaced_empty {t t' node left : Tree} (ht : t.Orderly) {full : Path}
    (hfull : full ≠ []) (hnode : t.get? full = some node) {value : String}
    (hnone : Removal.deed (some value) node = none) (hempty : left.isEmpty = true)
    (h : t.replace? left full = some t') :
    t'.prune full = (Removal.mk full (some value)).run t := by
  have hwhole : (Removal.mk full none).run t = (Removal.mk full (some value)).run t :=
    Removal.run_congr hnode hnone.symm
  rw [← hwhole, Tree.prune_replace_empty ht hempty hfull h, Removal.run,
    if_neg (by simpa using hfull)]
  exact Tree.prune_remove_eq_cut ht hfull hnode (.inl rfl)

/-- Where something of the node is left, to replace it by that is a removal, and pruning does
nothing. -/
theorem removal_of_replaced {t t' node left : Tree} {full : Path} (hfull : full ≠ [])
    (hnode : t.get? full = some node) {value : String}
    (hleft : Removal.deed (some value) node = some left) (hfilled : left.isEmpty = false)
    (h : t.replace? left full = some t') :
    t'.prune full = (Removal.mk full (some value)).run t := by
  have hsame : t.cut (Removal.deed (some value)) full = t.cut (fun _ => some left) full := by
    refine Tree.cut_congr fun found hfound => ?_
    rw [← Option.some.inj (hnode.symm.trans hfound)]
    exact hleft
  have hcut := (Tree.prune_replace_eq_cut hfilled h).1
  rw [Removal.run, if_neg (by simpa using hfull), hsame, hcut]
  rfl

/-- Taking a value out of a leaf is a removal. -/
theorem Admits.removal_of_withoutValue? {schema : Schema} {t : Tree} (ht : schema.Admits t)
    {full : Path} {place : Place} (hLeads : schema.rootPlace.Leads full place)
    (hLeaf : place.isLeaf = true) (value : String) :
    ((t.withoutValue? full value).map fun t' => t'.prune full).getD t =
      -- by what stands at the leaf: nothing, something else, the one value, or several
      (Removal.mk full (some value)).run t := by
  have hOrderly := ht.orderly
  have hfull := ne_nil_of_isLeaf hLeads hLeaf
  rw [Tree.withoutValue?]
  cases hnode : t.get? full with
  | none =>
    rw [Removal.run_eq_self hOrderly fun node hfound => absurd (hnode.symm.trans hfound) (by simp)]
    rfl
  | some node =>
    -- the value need not be there, and then nothing is taken out
    have hself : Removal.deed (some value) node = some node →
        (Removal.mk full (some value)).run t = t := by
      intro hstays
      refine Removal.run_eq_self hOrderly fun found hfound => ?_
      rw [← Option.some.inj (hnode.symm.trans hfound)]
      exact hstays
    cases node with
    | subtree children => exact (hself rfl).symm
    | scalar stored =>
      dsimp only
      by_cases hstored : stored = value
      · rw [if_pos hstored, removal_of_without? hOrderly (.inl rfl)]
        exact Removal.run_congr hnode (by simp [Removal.deed, hstored])
      · rw [if_neg hstored, hself (by simp [Removal.deed, hstored])]
        rfl
    | list stored =>
      dsimp only
      by_cases hstored : stored.contains value = true
      · obtain ⟨t', ht'⟩ := Tree.replace?_isSome (.list (stored.erase value)) hnode
        rw [if_pos hstored, ht', Option.map_some, Option.getD_some]
        by_cases hlast : stored.erase value = []
        · exact removal_of_replaced_empty hOrderly hfull hnode (by simp [Removal.deed, hlast])
            (by simp [Tree.isEmpty, hlast]) ht'
        · exact removal_of_replaced hfull hnode (by simp [Removal.deed, hlast])
            (by simp [Tree.isEmpty, hlast]) ht'
      · have habsent : stored.erase value = stored := List.erase_of_not_mem (by simpa using hstored)
        -- a list that conforms has values, so that it stays
        have hne : stored ≠ [] := by
          obtain ⟨place', hplace', hfits⟩ := ht full _ hnode
          cases hfits with
          | values _ _ _ hne _ => exact hne
        rw [if_neg hstored, hself (by simp [Removal.deed, habsent, hne])]
        rfl

end Schema

/-- A delete asks the schema what to take out, and takes it out. -/
theorem Session.delete_eq_removal {s : Session} {schema : Schema} (hs : schema.Admits s.edit)
    (path : Path) (typed? : Option String) :
    s.delete schema path typed? =
      (schema.removalAt (s.absolute path) typed?).map fun r => { s with edit := r.run s.edit } := by
  have hOrderly := hs.orderly
  rw [Session.delete, Schema.removalAt]
  cases hplace : schema.resolve (s.absolute path) with
  | error e => rfl
  | ok place =>
    dsimp only [Except.map]
    have hedit : ((deleted? s.edit place (s.absolute path) (typed?.map unquote)).map
          fun edit => edit.prune (s.absolute path)).getD s.edit =
        (place.removal (s.absolute path) typed?).run s.edit := by
      cases typed? with
      | none => exact Schema.removal_of_without? hOrderly (.inl rfl)
      | some typed =>
        rw [Option.map_some, Session.deleted?, Schema.Place.removal]
        by_cases hLeaf : place.isLeaf = true
        · rw [if_pos hLeaf, if_pos hLeaf]
          exact hs.removal_of_withoutValue? (Schema.resolve_eq_ok_iff.mp hplace) hLeaf _
        · rw [if_neg hLeaf, if_neg hLeaf]
          exact Schema.removal_of_without? hOrderly (.inr List.dropLast_concat.symm)
    -- where there is nothing to delete the session stays as it is
    rw [← hedit]
    cases deleted? s.edit place (s.absolute path) (typed?.map unquote) <;> rfl

end RouterConfig
