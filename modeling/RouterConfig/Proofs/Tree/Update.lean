import RouterConfig.Proofs.Keyed.Lookup
import RouterConfig.Session.Edit

/-!
# RouterConfig — one update for every edit

All that is ever written into a tree is written at one position, and depends on nothing but what is
there already. `Tree.update?` follows a path, makes empty subtrees on the way, and puts at its end
what a function makes of the node that it finds. The edits of a tree are updates, so that what holds
of updates is proved once. Main results:

* `Tree.update?_append` — an update may be followed in two parts;
* `Tree.update?_update?` — two updates at one position are one;
* `Tree.alter?_eq_update?`, `Tree.alter?_entry`, `Tree.replace?_eq_update?` — altering children
  and replacing a node are updates;
* `Tree.prune_replace_empty` — an empty node that is pruned might as well have been taken out.
-/

namespace RouterConfig.Tree

/-- Puts what `deed` makes of the node at `path` in its place, making empty subtrees where the path
leads nowhere yet. Nothing comes of it where a scalar or a list stands on the path, or where `deed`
declines. -/
def update? (deed : Option Tree → Option Tree) (node? : Option Tree) : Path → Option Tree
  | [] => deed node?
  | name :: rest =>
    match node?.getD empty with
    | .subtree children =>
      (update? deed (Keyed.get? children name) rest).map fun child =>
        .subtree (Keyed.insert children name child)
    | _ => none

/-- What altering children makes of the node that has them. -/
def alteredNode? (change : Children → Option Children) (node? : Option Tree) : Option Tree :=
  match node?.getD empty with
  | .subtree children => (change children).map .subtree
  | _ => none

/-! ## Following a path -/

theorem update?_nil (deed : Option Tree → Option Tree) (node? : Option Tree) :
    update? deed node? [] = deed node? := rfl

theorem update?_cons_none (deed : Option Tree → Option Tree) (name : String) (rest : Path) :
    update? deed none (name :: rest) =
      (update? deed none rest).map fun child => .subtree [(name, child)] := rfl

theorem update?_cons_subtree (deed : Option Tree → Option Tree) (children : Children)
    (name : String) (rest : Path) :
    update? deed (some (.subtree children)) (name :: rest) =
      (update? deed (Keyed.get? children name) rest).map fun child =>
        .subtree (Keyed.insert children name child) := rfl

/-- An update at a path of two parts is an update by the second part of the node at the first. -/
theorem update?_append (deed : Option Tree → Option Tree) (node? : Option Tree) (p q : Path) :
    update? deed node? (p ++ q) = update? (fun found? => update? deed found? q) node? p := by
  induction p generalizing node? with
  | nil => rfl
  | cons name rest ih =>
    rw [List.cons_append, update?, update?]
    cases node?.getD empty with
    | scalar _ => rfl
    | list _ => rfl
    | subtree children => simp only [ih]

/-- Two updates at one position are one, which makes of a node what the second makes of what the
first has made of it. -/
theorem update?_update? (first second : Option Tree → Option Tree) (node? : Option Tree)
    (path : Path) :
    ((update? first node? path).bind fun t => update? second (some t) path) =
      update? (fun found? => (first found?).bind fun t => second (some t)) node? path := by
  -- on the path; at its end the two updates are made one after the other
  induction path generalizing node? with
  | nil => rfl
  | cons name rest ih =>
    rw [update?, update?]
    cases node?.getD empty with
    | scalar _ => rfl
    | list _ => rfl
    | subtree children =>
      dsimp only
      rw [← ih]
      cases update? first (Keyed.get? children name) rest with
      | none => rfl
      | some child =>
        simp only [Option.map_some, Option.bind_some, update?_cons_subtree,
          Keyed.get?_insert_self, Keyed.insert_insert_self]

/-! ## Edits as updates -/

/-- Altering what is there at a path is updating it, with an empty subtree where nothing is. -/
theorem alter?_eq_update? (change : Children → Option Children) (t : Tree) (path : Path) :
    t.alter? change path = update? (alteredNode? change) (some t) path := by
  induction path generalizing t with
  | nil => cases t <;> rfl
  | cons name rest ih =>
    cases t with
    | scalar _ => rfl
    | list _ => rfl
    | subtree children =>
      rw [alter?, update?_cons_subtree, ih]
      -- where nothing stands, altering starts from the empty subtree, as updating does
      cases hchild : Keyed.get? children name with
      | some child => rfl
      | none =>
        rw [Option.getD_none]
        cases rest <;> rfl

/-- Altering one entry of the children at `path` is an update one step further. -/
theorem alter?_entry (deed : Option Tree → Option Tree) (t : Tree) (path : Path) (name : String) :
    (t.alter? (fun cs => (deed (Keyed.get? cs name)).map (Keyed.insert cs name)) path) =
      update? deed (some t) (path ++ [name]) := by
  rw [alter?_eq_update?, update?_append]
  congr 1
  funext node?
  rw [alteredNode?, update?]
  cases node?.getD empty with
  | scalar _ => rfl
  | list _ => rfl
  | subtree children =>
    show ((deed (Keyed.get? children name)).map (Keyed.insert children name)).map Tree.subtree = _
    cases hdeed : deed (Keyed.get? children name) <;> simp [update?_nil, hdeed]

/-- Replacing a node is an update that declines where nothing stands. -/
theorem replace?_eq_update? (t node : Tree) (path : Path) :
    t.replace? node path = update? (fun found? => found?.map fun _ => node) (some t) path := by
  induction path generalizing t with
  | nil => rfl
  | cons name rest ih =>
    cases t with
    | scalar _ => rfl
    | list _ => rfl
    | subtree children =>
      rw [replace?, update?_cons_subtree]
      cases Keyed.get? children name with
      | some child => rw [← ih]
      | none =>
        -- where nothing stands there is nothing to replace, however far the path goes on
        have hnone : ∀ p, update? (fun found? => found?.map fun _ => node) none p = none := by
          intro p
          induction p with
          | nil => rfl
          | cons next p ih => rw [update?_cons_none, ih]; rfl
        rw [hnone]
        rfl

/-! ## Taking out -/

/-- An empty node that is pruned might as well have been taken out. -/
theorem prune_replace_empty {t t' node : Tree} {path : Path}
    (hOrdered : ∀ p children, t.get? p = some (.subtree children) → Keyed.Ordered children)
    (hEmpty : node.isEmpty = true) (hPath : path ≠ []) (h : t.replace? node path = some t') :
    t'.prune path = (t.remove path).prune path := by
  -- on the path: the emptied node is taken out, and so is what it leaves empty
  induction path generalizing t t' with
  | nil => exact absurd rfl hPath
  | cons name rest ih =>
    cases t with
    | scalar _ => simp [replace?] at h
    | list _ => simp [replace?] at h
    | subtree children =>
      have hChildren : Keyed.Ordered children := hOrdered [] children rfl
      rw [replace?] at h
      cases hget : Keyed.get? children name with
      | none => simp [hget] at h
      | some child =>
        simp only [hget, Option.map_eq_some_iff] at h
        obtain ⟨child', hchild', rfl⟩ := h
        -- the node itself is emptied and goes, or it is the child that may go
        cases rest with
        | nil =>
          rw [replace?, Option.some.injEq] at hchild'
          subst hchild'
          have hnone : Keyed.get? (Keyed.erase children name) name = none :=
            Keyed.get?_erase_self hChildren name
          simp [prune, remove, hEmpty, hnone, Keyed.erase_insert_self hChildren]
        | cons next rest =>
          have hOrderedChild : ∀ p cs, child.get? p = some (.subtree cs) → Keyed.Ordered cs :=
            fun p cs hp => hOrdered (name :: p) cs (by rw [get?, hget]; exact hp)
          have hprune := ih hOrderedChild (by simp) hchild'
          have hremove : (Tree.subtree children).remove (name :: next :: rest) =
              .subtree (Keyed.insert children name (child.remove (next :: rest))) := by
            rw [remove, hget]
          rw [hremove, prune, prune, Keyed.get?_insert_self, Keyed.get?_insert_self]
          simp only [hprune, Keyed.erase_insert_self hChildren, Keyed.insert_insert_self]

end RouterConfig.Tree
