import RouterConfig.Proofs.Tree.Parting
import RouterConfig.Session.InPlace

/-!
# RouterConfig — following a path in place

While a path is followed down, missing nodes come into being; below one that was missing nothing can
stand in the way. Where the way is blocked in the end, all of it has therefore been there before,
and the tree is what it was. The same holds of an act at the end of the way that declines only on
account of what it finds. Main results:

* `Tree.descend_unchanged` — where nothing comes of it, a descent leaves no trace;
* `Tree.alter?_eq_descend` — where something comes of it, it is what alters the tree;
* `Tree.Orderly.alter?`, `Tree.Orderly.remove`, `Tree.Orderly.prune` — no edit puts names out of
  order.
-/

namespace RouterConfig.Tree

variable {α : Type} {act : Children → Children × α} {t : Tree} {p : Path}

/-! ## Names in order -/

/-- A value has nothing below it to be out of order. -/
theorem orderly_of_value (h : t.isSubtree = false) : t.Orderly := by
  intro path children hget
  cases path with
  | nil =>
    obtain rfl : t = .subtree children := Option.some.inj hget
    exact absurd h (by simp [isSubtree])
  | cons name rest =>
    rw [get?_cons_of_value h] at hget
    exact absurd hget (by simp)

/-- A subtree is in order if its names are, and its children are. -/
theorem orderly_subtree {children : Children} (hOrdered : Keyed.Ordered children)
    (hchildren : ∀ name child, Keyed.get? children name = some child → child.Orderly) :
    (Tree.subtree children).Orderly := by
  intro path below hget
  cases path with
  | nil =>
    obtain rfl : children = below := Tree.subtree.inj (Option.some.inj hget)
    exact hOrdered
  | cons name rest =>
    rw [get?_cons_subtree] at hget
    obtain ⟨child, hchild, hbelow⟩ := Option.bind_eq_some_iff.mp hget
    exact hchildren name child hchild rest below hbelow

theorem orderly_empty : empty.Orderly :=
  orderly_subtree List.Pairwise.nil fun _ _ hchild => absurd hchild (by simp)

/-- Orderly children may be put under any name, and any may be taken out. -/
theorem Orderly.assign {children : Children} (h : (Tree.subtree children).Orderly) (name : String)
    (child? : Option Tree) (hchild : ∀ child, child? = some child → child.Orderly) :
    (Tree.subtree (Keyed.assign children name child?)).Orderly := by
  refine orderly_subtree (Keyed.assign_ordered h.children name child?) fun key child hkey => ?_
  by_cases hname : name = key
  · rw [← hname, Keyed.get?_assign_self h.children] at hkey
    exact hchild child hkey
  · rw [Keyed.get?_assign_of_ne _ _ hname] at hkey
    exact h.child hkey

theorem Orderly.insert {children : Children} (h : (Tree.subtree children).Orderly) (name : String)
    {child : Tree} (hchild : child.Orderly) :
    (Tree.subtree (Keyed.insert children name child)).Orderly :=
  h.assign name (some child) fun _ heq => Option.some.inj heq ▸ hchild

theorem Orderly.erase {children : Children} (h : (Tree.subtree children).Orderly) (name : String) :
    (Tree.subtree (Keyed.erase children name)).Orderly :=
  h.assign name none fun _ heq => absurd heq (by simp)

/-- Also the subtree that is made where a child is missing is orderly. -/
theorem Orderly.child_getD {children : Children} (h : (Tree.subtree children).Orderly)
    (name : String) : ((Keyed.get? children name).getD empty).Orderly :=
  orderly_getD fun _ hchild => h.child hchild

/-- Altering a subtree somewhere below keeps the tree in order, if the change keeps that subtree
so. -/
theorem Orderly.alter? (ht : t.Orderly) {change : Children → Option Children}
    (hchange : ∀ children children', (Tree.subtree children).Orderly →
      change children = some children' → (Tree.subtree children').Orderly)
    {t' : Tree} (h : t.alter? change p = some t') : t'.Orderly := by
  -- on the path, whose last step is taken by the change that is given
  induction p generalizing t t' with
  | nil =>
    cases t with
    | scalar _ => exact absurd h (by simp [Tree.alter?])
    | list _ => exact absurd h (by simp [Tree.alter?])
    | subtree children =>
      obtain ⟨children', hchildren', rfl⟩ := Option.map_eq_some_iff.mp h
      exact hchange children children' ht hchildren'
  | cons name rest ih =>
    cases t with
    | scalar _ => exact absurd h (by simp [Tree.alter?])
    | list _ => exact absurd h (by simp [Tree.alter?])
    | subtree children =>
      obtain ⟨child', hchild', rfl⟩ := Option.map_eq_some_iff.mp h
      exact ht.insert name (ih (ht.child_getD name) hchild')

/-- Nothing is removed from below a value. -/
theorem remove_of_value (h : t.isSubtree = false) (p : Path) : t.remove p = t := by
  cases p with
  | nil => rfl
  | cons name rest =>
    cases t with
    | scalar _ => cases rest <;> rfl
    | list _ => cases rest <;> rfl
    | subtree _ => exact absurd h (by simp [isSubtree])

/-- Removing something keeps the tree in order. -/
theorem Orderly.remove (ht : t.Orderly) (p : Path) : (t.remove p).Orderly := by
  induction p generalizing t with
  | nil => exact ht
  | cons name rest ih =>
    rcases isSubtree_cases t with hvalue | ⟨children, rfl⟩
    · rwa [remove_of_value hvalue]
    · cases rest with
      | nil => exact ht.erase name
      | cons next rest =>
        rw [Tree.remove]
        cases hchild : Keyed.get? children name with
        | none => exact ht
        | some child => exact ht.insert name (ih (ht.child hchild))

/-- Pruning along a path keeps the tree in order. -/
theorem Orderly.prune (ht : t.Orderly) (p : Path) : (t.prune p).Orderly := by
  -- by how far the path can be followed
  induction t, p using follow_induction with
  | here t => exact ht
  | value t name rest hvalue =>
    cases t with
    | scalar _ => exact ht
    | list _ => exact ht
    | subtree _ => exact absurd hvalue (by simp [isSubtree])
  | missing children name rest hchild =>
    rw [Tree.prune, hchild]
    exact ht
  | through children name rest child hchild ih =>
    rw [Tree.prune, hchild]
    dsimp only
    -- a child that is emptied is taken out, and any other is put back as it was pruned
    split
    · exact ht.erase name
    · exact ht.insert name (ih (ht.child hchild))

/-- Replacing a node by one in order keeps the tree in order. -/
theorem Orderly.replace? (ht : t.Orderly) {node t' : Tree} (hnode : node.Orderly)
    (h : t.replace? node p = some t') : t'.Orderly := by
  induction p generalizing t t' with
  | nil =>
    obtain rfl : node = t' := Option.some.inj h
    exact hnode
  | cons name rest ih =>
    cases t with
    | scalar _ => exact absurd h (by simp [Tree.replace?])
    | list _ => exact absurd h (by simp [Tree.replace?])
    | subtree children =>
      rw [Tree.replace?] at h
      cases hchild : Keyed.get? children name with
      | none => simp [hchild] at h
      | some child =>
        rw [hchild] at h
        obtain ⟨child', hchild', rfl⟩ := Option.map_eq_some_iff.mp h
        exact ht.insert name (ih (ht.child hchild) hchild')

/-! ## What nothing comes of -/

/-- From an empty subtree on every position can be reached, and nothing is there. -/
theorem descend_empty (act : Children → Children × α) (p : Path) :
    (empty.descend act p).2 = some (act []).2 := by
  induction p with
  | nil => rfl
  | cons name rest ih => exact ih

/-- A descent leaves the tree as it is if the way is blocked, and also if the act at its end
declines, provided that an act which declines keeps what it finds and does not decline where
nothing is. -/
theorem descend_unchanged (Declines : α → Prop) (ht : t.Orderly)
    (hkeeps : ∀ children, Keyed.Ordered children → Declines (act children).2 →
      (act children).1 = children)
    (hmade : ¬ Declines (act []).2)
    (h : ∀ answer, (t.descend act p).2 = some answer → Declines answer) :
    (t.descend act p).1 = t := by
  induction p generalizing t with
  | nil =>
    cases t with
    | scalar _ => rfl
    | list _ => rfl
    | subtree children =>
      exact congrArg Tree.subtree (hkeeps children ht.children (h _ rfl))
  | cons name rest ih =>
    cases t with
    | scalar _ => rfl
    | list _ => rfl
    | subtree children =>
      rw [descend] at h ⊢
      cases hchild : Keyed.get? children name with
      | none =>
        -- below a node that is made the end is reached, and there is nothing to decline
        rw [hchild] at h
        exact absurd (h _ (descend_empty act rest)) hmade
      | some child =>
        rw [hchild] at h
        have hsame : (child.descend act rest).1 = child := ih (ht.child hchild) h
        rw [Option.getD_some, hsame, Keyed.insert_of_get? ht.children hchild]

/-- An act that declines also where nothing is leaves what was made on the way. -/
example : (empty.descend (fun children => (children, false)) ["interface", "eth0"]).1 =
    .subtree [("interface", .subtree [("eth0", .subtree [])])] := rfl

/-- Where the way is blocked, nothing has been made on it. -/
theorem descend_of_blocked (ht : t.Orderly) (h : (t.descend act p).2 = none) :
    (t.descend act p).1 = t := by
  refine descend_unchanged (fun _ => False) ht (fun _ _ hno => hno.elim) (fun hno => hno) ?_
  intro answer hanswer
  exact absurd (h.symm.trans hanswer) (by simp)

/-! ## What something comes of -/

/-- A change that is an act which may decline alters a tree as the act does on its way. -/
theorem alter?_eq_descend (act : Children → Children × α) (accepts : α → Bool)
    {change : Children → Option Children} (hchange : ∀ children, change children =
      if accepts (act children).2 then some (act children).1 else none) (t : Tree) (p : Path) :
    t.alter? change p =
      if (t.descend act p).2.any accepts then some (t.descend act p).1 else none := by
  -- both walk the same path and stop at the same values
  induction p generalizing t with
  | nil =>
    cases t with
    | scalar _ => rfl
    | list _ => rfl
    | subtree children =>
      rw [alter?, hchange]
      cases haccepts : accepts (act children).2 <;> simp [descend, haccepts]
  | cons name rest ih =>
    cases t with
    | scalar _ => rfl
    | list _ => rfl
    | subtree children =>
      rw [alter?, ih, descend]
      dsimp only
      split <;> rfl

/-- A change that never declines is made wherever its position can be reached. -/
theorem alter?_some_eq_descend (change : Children → Children) (t : Tree) (p : Path) :
    t.alter? (fun children => some (change children)) p =
      (t.descend (fun children => (change children, ())) p).2.map fun _ =>
        (t.descend (fun children => (change children, ())) p).1 := by
  have halter : t.alter? (fun children => some (change children)) p = _ :=
    alter?_eq_descend (fun children => (change children, ())) (fun _ => true) (fun _ => rfl) t p
  rw [halter]
  cases (t.descend (fun children => (change children, ())) p).2 <;> rfl

/-- A subtree can be made sure of where a descent reaches, whatever is done at its end. -/
theorem ensureSubtree?_isSome (act : Children → Children × α) (t : Tree) (p : Path) :
    (t.ensureSubtree? p).isSome = (t.descend act p).2.isSome := by
  have hensure : t.ensureSubtree? p = _ := alter?_some_eq_descend id t p
  rw [hensure, Option.isSome_map]
  exact descend_reaches (fun children => (id children, ())) act t p

/-! ## One value more -/

/-- Where it is not a list that stands there, the name keeps what it had. -/
theorem pushEntry_of_declined {name value : String} {children : Children}
    (hOrdered : Keyed.Ordered children) (h : (pushEntry name value children).2 = false) :
    (pushEntry name value children).1 = children := by
  rw [pushEntry] at h ⊢
  cases hentry : Keyed.get? children name with
  | none => simp [hentry] at h
  | some entry =>
    have hput : Keyed.insert children name entry = children :=
      Keyed.insert_of_get? hOrdered hentry
    rw [hentry] at h
    cases entry with
    | list values => simp at h
    | scalar _ => exact hput
    | subtree _ => exact hput

/-- To push a value is to append it to the list that is there, or to none. -/
theorem appended?_eq_pushEntry (name value : String) (children : Children) :
    (appended? (Keyed.get? children name) value).map (Keyed.insert children name) =
      if (pushEntry name value children).2 then some (pushEntry name value children).1
      else none := by
  -- the list is made where it is missing, and pushed to where it stands
  rw [pushEntry]
  cases Keyed.get? children name with
  | none =>
    show some (Keyed.insert children name (.list [value])) =
      some (Keyed.insert (Keyed.insert children name (.list [])) name (.list ([] ++ [value])))
    rw [Keyed.insert_insert_self, List.nil_append]
  | some entry =>
    cases entry with
    | scalar _ => rfl
    | subtree _ => rfl
    | list values =>
      show some (Keyed.insert children name (.list (values ++ [value]))) =
        some (Keyed.insert (Keyed.insert children name (.list values)) name
          (.list (values ++ [value])))
      rw [Keyed.insert_insert_self]

/-- Where no value is pushed, be it for the way or for what stands at its end, the tree stays. -/
theorem descend_pushEntry_unchanged (ht : t.Orderly) (name value : String)
    (h : (t.descend (pushEntry name value) p).2 ≠ some true) :
    (t.descend (pushEntry name value) p).1 = t := by
  refine descend_unchanged (fun pushed => pushed = false) ht
    (fun children hOrdered hdeclined => pushEntry_of_declined hOrdered hdeclined)
    (by simp [pushEntry]) ?_
  intro pushed hanswer
  cases pushed with
  | false => rfl
  | true => exact absurd hanswer h

/-- A value that is added to a leaf leaves a leaf. -/
theorem isSubtree_of_appended? {stored? : Option Tree} {value : String} {entry : Tree}
    (h : appended? stored? value = some entry) : entry.isSubtree = false := by
  cases stored? with
  | none =>
    obtain rfl : Tree.list [value] = entry := Option.some.inj h
    rfl
  | some stored =>
    cases stored with
    | list values =>
      obtain rfl : Tree.list (values ++ [value]) = entry := Option.some.inj h
      rfl
    | scalar _ => exact absurd h (by simp [appended?])
    | subtree _ => exact absurd h (by simp [appended?])

/-! ## Taking out -/

/-- Where there is nothing to take out, taking it out changes nothing. -/
theorem remove_of_get?_eq_none (ht : t.Orderly) (h : t.get? p = none) : t.remove p = t := by
  -- what is missing stays missing, so nothing is taken out
  induction t, p using follow_induction with
  | here t => rfl
  | value t name rest hvalue => exact remove_of_value hvalue _
  | missing children name rest hchild =>
    cases rest with
    | nil => exact congrArg Tree.subtree (Keyed.erase_of_get?_eq_none hchild)
    | cons next rest => rw [Tree.remove, hchild]
  | through children name rest child hchild ih =>
    rw [get?_cons_of_get? hchild] at h
    cases rest with
    | nil => exact absurd h (by simp [get?])
    | cons next rest =>
      rw [Tree.remove, hchild]
      dsimp only
      rw [ih (ht.child hchild) h, Keyed.insert_of_get? ht.children hchild]

/-- Taking out in place leaves what comes of taking out, or the tree itself where nothing does. -/
theorem takeNode_eq (ht : t.Orderly) (p : Path) :
    t.takeNode p = ((t.without? p).getD t, (t.without? p).isSome) := by
  rw [takeNode, without?]
  cases hremoved : t.removed? p with
  | some node => rfl
  | none =>
    have hsame : t.remove p = t := by
      by_cases hp : p = []
      · rw [hp]
        rfl
      · rw [removed?, if_neg (by simpa using hp)] at hremoved
        exact remove_of_get?_eq_none ht hremoved
    rw [hsame]
    rfl

/-- What taking a value out answers and leaves is what removing it finds and leaves. -/
theorem takeValue_eq (ht : t.Orderly) (p : Path) (value : String) :
    t.takeValue p value =
      ((t.withoutValue? p value).getD t, (t.withoutValue? p value).isSome) := by
  rw [takeValue, withoutValue?]
  cases hnode : t.get? p with
  | none => rfl
  | some node =>
    cases node with
    | subtree _ => rfl
    | scalar stored =>
      -- a value that is stored alone goes with its leaf, one of several goes alone
      dsimp only
      by_cases hstored : stored = value
      · rw [if_pos hstored, if_pos hstored]
        exact takeNode_eq ht p
      · rw [if_neg hstored, if_neg hstored]
        rfl
    | list stored =>
      dsimp only
      by_cases hstored : stored.contains value = true
      · obtain ⟨t', ht'⟩ := replace?_isSome (.list (stored.erase value)) hnode
        rw [if_pos hstored, if_pos hstored, ht']
        rfl
      · rw [if_neg hstored, if_neg hstored]
        rfl

theorem Orderly.without? (ht : t.Orderly) {t' : Tree} (h : t.without? p = some t') :
    t'.Orderly := by
  obtain ⟨removed, -, rfl⟩ := Option.map_eq_some_iff.mp h
  exact ht.remove p

/-- Taking a value out keeps the tree in order. -/
theorem Orderly.withoutValue? (ht : t.Orderly) {value : String} {t' : Tree}
    (h : t.withoutValue? p value = some t') : t'.Orderly := by
  rw [Tree.withoutValue?] at h
  split at h
  · split at h
    · exact ht.without? h
    · exact absurd h (by simp)
  · split at h
    · exact ht.replace? (orderly_of_value rfl) h
    · exact absurd h (by simp)
  · exact absurd h (by simp)

end RouterConfig.Tree
