import RouterConfig.Proofs.Tree.Parting

/-!
# RouterConfig — a change, position by position

Seen from one position, every other one is above it, below it, or on a path that parts from the way
to it. A change of the tree at that position is given by what it leaves on these three sides, and
nothing is left open by that: trees that agree on all three are equal. Main results:

* `Tree.eq_of_surroundings` — trees are equal that agree at a position, above it and beside it;
* `Tree.written_of_update?`, `Tree.Written.unique` — an update, position by position;
* `Tree.cut_isSome_iff` — when a cut leaves anything of the tree that it starts from;
* `Tree.cleared_of_cut`, `Tree.Cleared.unique` — a cut, position by position.
-/

namespace RouterConfig

/-! ## Positions seen from one another -/

namespace Path

/-- A position above another is where a name further leads down to it. -/
theorem exists_name_of_above {q p : Path} (hq : q <+: p) (hne : q ≠ p) :
    ∃ name rest, p = q ++ name :: rest := by
  obtain ⟨below, rfl⟩ := hq
  cases below with
  | nil => exact absurd (by simp) hne
  | cons name rest => exact ⟨name, rest, rfl⟩

/-- Paths that begin alike part where their ends do. -/
theorem parts_append_iff {p q r : Path} : (p ++ q).Parts (p ++ r) ↔ q.Parts r := by
  rw [parts_iff, parts_iff, List.prefix_append_right_inj, List.prefix_append_right_inj]

end Path

namespace Tree

variable {deed : Tree → Option Tree} {t u t' : Tree} {p q : Path}

/-- Where something stands below a position, a subtree stands at it. -/
theorem subtree_of_get?_below {name : String} {rest : Path} {node : Tree}
    (h : t.get? (q ++ name :: rest) = some node) :
    ∃ children, t.get? q = some (.subtree children) := by
  rw [get?_append] at h
  obtain ⟨above, habove, hbelow⟩ := Option.bind_eq_some_iff.mp h
  obtain ⟨children, -, rfl, -⟩ := child_of_get?_cons hbelow
  exact ⟨children, habove⟩

theorem get?_single (children : Children) (name : String) :
    (Tree.subtree children).get? [name] = Keyed.get? children name := by
  rw [get?_cons_subtree]
  cases Keyed.get? children name <;> rfl

/-! ## Agreement around a position -/

/-- A node without what stands below it. -/
def bare : Tree → Tree
  | subtree _ => empty
  | node => node

/-- Trees are equal that agree at a position, beside it and, but for what stands below, above it. -/
theorem eq_of_surroundings (ht : t.Orderly) (hu : u.Orderly) (hat : t.get? p = u.get? p)
    (hbeside : ∀ q : Path, q.Parts p → t.get? q = u.get? q)
    (habove : ∀ q, q <+: p → q ≠ p → (t.get? q).map bare = (u.get? q).map bare) : t = u := by
  -- down the path: name by name the two trees are the same, and at its end as well
  induction p generalizing t u with
  | nil => exact Option.some.inj hat
  | cons name rest ih =>
    have hroot : t.bare = u.bare := Option.some.inj (habove [] List.nil_prefix (by simp))
    cases t with
    | scalar v => cases u <;> simp_all [bare, empty]
    | list vs => cases u <;> simp_all [bare, empty]
    | subtree cs =>
      obtain ⟨ds, rfl⟩ : ∃ ds, u = .subtree ds := by cases u <;> simp_all [bare, empty]
      refine congrArg Tree.subtree (Keyed.ext ht.children hu.children fun key => ?_)
      -- what stands beside the path is the same in both
      by_cases hkey : name = key
      · subst hkey
        -- what stands under the name of the path is a child in both trees, or in none
        have hsame : (Keyed.get? cs name).isSome = (Keyed.get? ds name).isSome := by
          rw [← get?_single, ← get?_single]
          cases rest with
          | nil => rw [hat]
          | cons next rest =>
            have h := congrArg Option.isSome (habove [name] ⟨next :: rest, rfl⟩ (by simp))
            simpa using h
        cases hc : Keyed.get? cs name with
        | none =>
          cases hd : Keyed.get? ds name with
          | none => rfl
          | some d => simp [hc, hd] at hsame
        | some c =>
          cases hd : Keyed.get? ds name with
          | none => simp [hc, hd] at hsame
          | some d =>
            have hbelow : ∀ r, (Tree.subtree cs).get? (name :: r) = c.get? r ∧
                (Tree.subtree ds).get? (name :: r) = d.get? r := fun r =>
              ⟨get?_cons_of_get? hc r, get?_cons_of_get? hd r⟩
            refine congrArg some (ih (ht.child hc) (hu.child hd) ?_ ?_ ?_)
            · rw [← (hbelow rest).1, ← (hbelow rest).2, hat]
            · intro q hq
              rw [← (hbelow q).1, ← (hbelow q).2, hbeside _ (.further hq)]
            · intro q hq hne
              rw [← (hbelow q).1, ← (hbelow q).2]
              exact habove _ (List.cons_prefix_cons.mpr ⟨rfl, hq⟩) (by simpa using hne)
      · have h := hbeside [key] (.here (Ne.symm hkey))
        rwa [get?_single, get?_single] at h

/-! ## Updates, position by position -/

/-- A tree that has been changed to hold a node at a position. The way there is free, with nodes
made where there were none, and all beside it is as it was. -/
structure Written (t : Tree) (target : Path) (node t' : Tree) : Prop where
  here : t'.get? target = some node
  way : ∀ q, q <+: target → q ≠ target → ∃ children, t'.get? q = some (.subtree children)
  beside : ∀ q : Path, q.Parts target → t'.get? q = t.get? q

/-- An update writes what its deed makes of the node that it finds. -/
theorem written_of_update? {make : Option Tree → Option Tree}
    (h : update? make (some t) p = some t') :
    ∃ node, make (t.get? p) = some node ∧ t.Written p node t' := by
  obtain ⟨node, hmade, hnode⟩ := get?_update?_self h
  refine ⟨node, hmade, hnode, ?_, fun q hparts => get?_update?_of_parts hparts h⟩
  intro q hq hne
  obtain ⟨name, rest, rfl⟩ := Path.exists_name_of_above hq hne
  exact subtree_of_get?_below hnode

/-- Nothing is left open by what is written where. -/
theorem Written.unique {node : Tree} (h : t.Written p node u) (h' : t.Written p node t')
    (hu : u.Orderly) (ht' : t'.Orderly) : u = t' := by
  refine eq_of_surroundings hu ht' (h.here.trans h'.here.symm) ?_ ?_
  · intro q hq
    rw [h.beside q hq, h'.beside q hq]
  · intro q hq hne
    obtain ⟨cs, hcs⟩ := h.way q hq hne
    obtain ⟨ds, hds⟩ := h'.way q hq hne
    rw [hcs, hds]
    rfl

/-! ## Cuts, position by position -/

/-- Where nothing is left of the node, and nothing stands beside it, a cut leaves nothing. -/
theorem cut_eq_none (ht : t.Orderly) {node : Tree} (hnode : t.get? p = some node)
    (hgone : deed node = none) (hbeside : ∀ q : Path, q.Parts p → t.get? q = none) :
    t.cut deed p = none := by
  induction t, p, hnode using found_induction with
  | here => rwa [cut_nil]
  | through children name rest child hchild _ ih =>
    have hbelow : child.cut deed rest = none := by
      refine ih (ht.child hchild) fun q hparts => ?_
      rw [← get?_cons_of_get? hchild]
      exact hbeside _ (.further hparts)
    -- the child was the only one, as every other would stand beside the way
    have halone : Keyed.erase children name = [] := by
      refine Keyed.ext (Keyed.erase_ordered ht.children name) List.Pairwise.nil fun key => ?_
      by_cases hkey : name = key
      · rw [← hkey, Keyed.get?_erase_self ht.children]
        rfl
      · rw [Keyed.get?_erase_of_ne _ hkey, ← get?_single, hbeside [key] (.here (Ne.symm hkey))]
        rfl
    rw [cut_cons_of_get? hchild, hbelow, Keyed.assign, halone]
    rfl

/-- A cut leaves something of a tree in which it finds its node if something of that node is left,
or if anything stands beside it. -/
theorem cut_isSome_iff (ht : t.Orderly) {node : Tree} (hnode : t.get? p = some node) :
    (t.cut deed p).isSome = true ↔
      (deed node).isSome = true ∨ ∃ q : Path, q.Parts p ∧ (t.get? q).isSome = true := by
  constructor
  · intro hleft
    refine Classical.byContradiction fun hnothing => ?_
    obtain ⟨hgone, hbeside⟩ := not_or.mp hnothing
    have hcut : t.cut deed p = none := by
      refine cut_eq_none ht hnode (by simpa using hgone) fun q hparts => ?_
      cases hq : t.get? q with
      | none => rfl
      | some other => exact absurd ⟨q, hparts, by rw [hq]; rfl⟩ hbeside
    rw [hcut] at hleft
    exact absurd hleft (by simp)
  · rintro (hleft | ⟨q, hparts, hq⟩)
    · -- what is left of the node is found at the end of the way
      have hfound : ((t.cut deed p).bind fun left => left.get? p) = (t.get? p).bind deed :=
        get?_cut_self ht
      rw [hnode, Option.bind_some] at hfound
      cases hcut : t.cut deed p with
      | some left => rfl
      | none =>
        rw [hcut, Option.bind_none] at hfound
        rw [← hfound] at hleft
        exact hleft
    · obtain ⟨other, hother⟩ := Option.isSome_iff_exists.mp hq
      obtain ⟨left, hleft⟩ := cut_isSome_of_parts hparts hother deed
      rw [hleft]
      rfl

/-- A tree of which something has been taken out at a position, so that no more than `left?` is
there. A node above it has gone with it if nothing else was left below, and is not empty otherwise;
the root stays, and all beside the way is as it was. -/
structure Cleared (t : Tree) (target : Path) (left? : Option Tree) (t' : Tree) : Prop where
  root : t'.isSubtree = true
  here : t'.get? target = left?
  beside : ∀ q : Path, q.Parts target → t'.get? q = t.get? q
  stays_iff : ∀ q, q <+: target → q ≠ target → q ≠ [] →
    ((t'.get? q).isSome = true ↔
      left?.isSome = true ∨ ∃ p : Path, q <+: p ∧ p.Parts target ∧ (t.get? p).isSome = true)
  filled : ∀ q node, q <+: target → q ≠ target → q ≠ [] → t'.get? q = some node →
    node.isEmpty = false

/-- A cut clears its position of all but what its deed leaves. -/
theorem cleared_of_cut (ht : t.Orderly) (hp : p ≠ []) {node : Tree} (hnode : t.get? p = some node) :
    t.Cleared p (deed node) ((t.cut deed p).getD empty) := by
  obtain ⟨first, others, hfirst⟩ := List.exists_cons_of_ne_nil hp
  obtain ⟨children, hroot⟩ : ∃ children, t = .subtree children := by
    have hbelow : t.get? ([] ++ first :: others) = some node := by rw [← hfirst]; exact hnode
    obtain ⟨children, hchildren⟩ := subtree_of_get?_below hbelow
    exact ⟨children, Option.some.inj hchildren⟩
  -- below the root it makes no difference whether the root is put back when it is gone
  have hfound : ∀ q, q ≠ [] →
      ((t.cut deed p).getD empty).get? q = (t.cut deed p).bind fun left => left.get? q := by
    intro q hq
    cases t.cut deed p with
    | some left => rfl
    | none =>
      obtain ⟨name, rest, rfl⟩ := List.exists_cons_of_ne_nil hq
      rfl
  -- above its position a cut is one of the node there
  have habove : ∀ q, q <+: p → q ≠ p → q ≠ [] → ∃ name rest above, p = q ++ name :: rest ∧
      above.Orderly ∧ t.get? q = some above ∧ above.get? (name :: rest) = some node ∧
      ((t.cut deed p).getD empty).get? q = above.cut deed (name :: rest) := by
    intro q hq hne hnil
    obtain ⟨name, rest, rfl⟩ := Path.exists_name_of_above hq hne
    have hway := hnode
    rw [get?_append] at hway
    obtain ⟨above, hget, hbelow⟩ := Option.bind_eq_some_iff.mp hway
    have hOrderly : above.Orderly := fun path cs hcs =>
      ht (q ++ path) cs (by rw [get?_append, hget]; exact hcs)
    refine ⟨name, rest, above, rfl, hOrderly, hget, hbelow, ?_⟩
    rw [hfound q hnil, cut_append, get?_cut_self ht, hget, Option.bind_some]
  -- the tree that a cut leaves, seen at the node, beside it, above it and at the root
  refine ⟨?_, ?_, ?_, ?_, ?_⟩
  · cases hcut : t.cut deed p with
    | none => rfl
    | some left =>
      rw [hfirst] at hcut
      rw [Option.getD_some, isSubtree_of_cut hcut, hroot]
      rfl
  · rw [hfound p hp, get?_cut_self ht, hnode, Option.bind_some]
  · intro q hparts
    rw [hfound q hparts.ne_nil]
    exact get?_cut_of_parts hparts ht deed
  · intro q hq hne hnil
    obtain ⟨name, rest, above, rfl, hOrderly, hget, hbelow, hcut⟩ := habove q hq hne hnil
    rw [hcut, cut_isSome_iff hOrderly hbelow]
    refine or_congr_right ⟨?_, ?_⟩
    · rintro ⟨r, hparts, hr⟩
      exact ⟨q ++ r, List.prefix_append q r, Path.parts_append_iff.mpr hparts,
        by rwa [get?_append, hget]⟩
    · rintro ⟨_, ⟨r, rfl⟩, hparts, hr⟩
      refine ⟨r, Path.parts_append_iff.mp hparts, ?_⟩
      rwa [get?_append, hget] at hr
  · intro q left hq hne hnil hleft
    obtain ⟨name, rest, above, -, -, -, hbelow, hcut⟩ := habove q hq hne hnil
    exact not_isEmpty_of_cut hbelow (hcut.symm.trans hleft)

/-- What stays above a position that has been cleared is a subtree. -/
theorem Cleared.way {left? : Option Tree} (h : t.Cleared p left? t') (hq : q <+: p) (hne : q ≠ p)
    (hnil : q ≠ []) {node : Tree} (hnode : t'.get? q = some node) :
    ∃ children, node = .subtree children := by
  have hstays : (t'.get? q).isSome = true := by rw [hnode]; rfl
  -- something is found further down, be it at the position or beside it
  obtain ⟨name, rest, below, hbelow⟩ :
      ∃ name rest below, t'.get? (q ++ name :: rest) = some below := by
    rcases (h.stays_iff q hq hne hnil).mp hstays with hleft | ⟨r, hqr, hparts, hr⟩
    · obtain ⟨left, hleft⟩ := Option.isSome_iff_exists.mp hleft
      obtain ⟨name, rest, rfl⟩ := Path.exists_name_of_above hq hne
      exact ⟨name, rest, left, h.here.trans hleft⟩
    · obtain ⟨other, hother⟩ := Option.isSome_iff_exists.mp hr
      have hqr' : q ≠ r := by
        rintro rfl
        exact (Path.parts_iff.mp hparts).1 hq
      obtain ⟨name, rest, rfl⟩ := Path.exists_name_of_above hqr hqr'
      exact ⟨name, rest, other, (h.beside _ hparts).trans hother⟩
  obtain ⟨children, hchildren⟩ := subtree_of_get?_below hbelow
  exact ⟨children, Option.some.inj (hnode.symm.trans hchildren)⟩

/-- Nothing is left open by what is cleared of which node. -/
theorem Cleared.unique {left? : Option Tree} (h : t.Cleared p left? u) (h' : t.Cleared p left? t')
    (hu : u.Orderly) (ht' : t'.Orderly) : u = t' := by
  refine eq_of_surroundings hu ht' (h.here.trans h'.here.symm) ?_ ?_
  · intro q hq
    rw [h.beside q hq, h'.beside q hq]
  · intro q hq hne
    -- above the position it is settled which nodes stay, and they are subtrees in both trees
    by_cases hnil : q = []
    · subst hnil
      have hroot : ∀ {x : Tree}, x.isSubtree = true → (x.get? []).map bare = some empty := by
        intro x hx
        cases x <;> simp_all [isSubtree, get?, bare]
      rw [hroot h.root, hroot h'.root]
    · have hsame := (h.stays_iff q hq hne hnil).trans (h'.stays_iff q hq hne hnil).symm
      cases hget : u.get? q with
      | none =>
        cases hget' : t'.get? q with
        | none => rfl
        | some node => simp [hget, hget'] at hsame
      | some node =>
        cases hget' : t'.get? q with
        | none => simp [hget, hget'] at hsame
        | some node' =>
          obtain ⟨cs, rfl⟩ := h.way hq hne hnil hget
          obtain ⟨ds, rfl⟩ := h'.way hq hne hnil hget'
          rfl

end Tree

end RouterConfig
