import RouterConfig.Proofs.Session.Writing
import RouterConfig.Tree.Flatten

/-!
# RouterConfig — rebuilding a tree from its entries

Each entry of a tree stands for one write, and the writes of all entries, done one after the other
where nothing is, build the tree again. The writes below a position are writes of their own, moved
down to it, so that a subtree is built child by child. Main results:

* `Tree.entries_eq` — the entries of a tree are the words of its writes;
* `Tree.mem_writes` — a write of a tree builds the node at its position, or a part of it;
* `Tree.rebuild_writes` — the writes of a tree build it again.
-/

namespace RouterConfig

/-! ## Entries and writes -/

/-- The words of a write: the names on its path, then its value. -/
def Write.entry (w : Write) : Path :=
  match w.deed with
  | .node => w.path
  | .value v => if v.isEmpty then w.path else w.path ++ [v]
  | .entry v => w.path ++ [v]

/-- The write moved down to a position. -/
def Write.below (path : Path) (w : Write) : Write := ⟨path ++ w.path, w.deed⟩

/-- What writes make of a node, one after the other. -/
def rebuild : List Write → Option Tree → Option Tree
  | [], node? => node?
  | w :: ws, node? => (Tree.update? w.deed.on node? w.path).bind fun t => rebuild ws (some t)

namespace Tree

mutual

/-- The writes that build a node at `path`, in the order of its entries. -/
def writes (path : Path) : Tree → List Write
  | .scalar value => [⟨path, .value value⟩]
  | .list values => values.map fun value => ⟨path, .entry value⟩
  | .subtree [] => [⟨path, .node⟩]
  | .subtree (child :: rest) => childWrites path (child :: rest)

/-- The writes that build all children, in the order of their names. -/
def childWrites (path : Path) : List (String × Tree) → List Write
  | [] => []
  | (name, child) :: rest => child.writes (path ++ [name]) ++ childWrites path rest

end

mutual

/-- The entries of a node below the root are the words of its writes. -/
theorem entries_eq_below : (t : Tree) → (path : Path) → path ≠ [] →
    t.entries path = (t.writes path).map Write.entry
  | .scalar value, path, _ => rfl
  | .list values, path, _ => by
    rw [entries, writes, List.map_map]
    rfl
  | .subtree [], path, hpath => by
    rw [entries, writes, if_neg (by simpa using hpath)]
    rfl
  | .subtree (child :: rest), path, _ => by
    rw [entries, writes]
    exact childEntries_eq (child :: rest) path

theorem childEntries_eq : (children : List (String × Tree)) → (path : Path) →
    childEntries path children = (childWrites path children).map Write.entry
  | [], path => rfl
  | (name, child) :: rest, path => by
    rw [childEntries, childWrites, List.map_append,
      entries_eq_below child (path ++ [name]) (by simp), childEntries_eq rest path]

end

/-- The entries of a configuration in which something is set are the words of its writes. -/
theorem entries_eq {children : Children} (hne : children ≠ []) :
    (Tree.subtree children).entries [] =
      ((Tree.subtree children).writes []).map Write.entry := by
  cases children with
  | nil => exact absurd rfl hne
  | cons child rest =>
    rw [entries, writes]
    exact childEntries_eq (child :: rest) []

/-! ## Neat trees -/

/-- Each name stands once, in order, and no list is without values. -/
structure Neat (t : Tree) : Prop where
  ordered : ∀ path children, t.get? path = some (.subtree children) → Keyed.Ordered children
  noEmptyList : ∀ path, t.get? path ≠ some (.list [])

theorem get?_child {children : Children} (hOrdered : Keyed.Ordered children) {name : String}
    {child : Tree} (hmem : (name, child) ∈ children) (path : Path) :
    (Tree.subtree children).get? (name :: path) = child.get? path := by
  rw [get?, (Keyed.mem_iff_get? hOrdered).mp hmem]

/-- A child of a neat tree is neat. -/
theorem Neat.child {children : Children} (h : (Tree.subtree children).Neat) {name : String}
    {child : Tree} (hmem : (name, child) ∈ children) : child.Neat := by
  have hOrdered : Keyed.Ordered children := h.ordered [] children rfl
  constructor
  · intro path grandchildren hget
    exact h.ordered (name :: path) grandchildren ((get?_child hOrdered hmem path).trans hget)
  · intro path hget
    exact h.noEmptyList (name :: path) ((get?_child hOrdered hmem path).trans hget)

end Tree

/-! ## What the writes are about -/

/-- A deed builds a node, or a part of it. -/
inductive Deed.Builds : Deed → Tree → Prop where
  | node : Builds .node (.subtree [])
  | value (value : String) : Builds (.value value) (.scalar value)
  | entry {value : String} {values : List String} :
    value ∈ values → Builds (.entry value) (.list values)

namespace Tree

mutual

/-- A write of a tree builds the node at its position, or a part of it. -/
theorem mem_writes : (t : Tree) → (path : Path) → t.Neat → (w : Write) → w ∈ t.writes path →
    ∃ rest node, w.path = path ++ rest ∧ t.get? rest = some node ∧ w.deed.Builds node
  | .scalar value, path, _, w, hw => by
    rw [writes] at hw
    obtain rfl := List.mem_singleton.mp hw
    exact ⟨[], .scalar value, (List.append_nil path).symm, rfl, .value value⟩
  | .list values, path, _, w, hw => by
    rw [writes] at hw
    obtain ⟨value, hvalue, rfl⟩ := List.mem_map.mp hw
    exact ⟨[], .list values, (List.append_nil path).symm, rfl, .entry hvalue⟩
  | .subtree [], path, _, w, hw => by
    rw [writes] at hw
    obtain rfl := List.mem_singleton.mp hw
    exact ⟨[], .subtree [], (List.append_nil path).symm, rfl, .node⟩
  | .subtree (child :: rest), path, hNeat, w, hw => by
    rw [writes] at hw
    obtain ⟨name, t, rest', node, hmem, hpath, hget, hbuilds⟩ :=
      mem_childWrites (child :: rest) path (fun entry hentry => hNeat.child hentry) w hw
    refine ⟨name :: rest', node, hpath, ?_, hbuilds⟩
    exact (get?_child (hNeat.ordered [] _ rfl) hmem rest').trans hget

/-- What is written for the children is written for one of them, and builds what stands there. -/
theorem mem_childWrites : (children : List (String × Tree)) → (path : Path) →
    (∀ entry ∈ children, entry.2.Neat) → (w : Write) → w ∈ childWrites path children →
    ∃ name child rest node, (name, child) ∈ children ∧ w.path = path ++ name :: rest ∧
      child.get? rest = some node ∧ w.deed.Builds node
  | [], path, _, w, hw => absurd hw List.not_mem_nil
  | (name, child) :: others, path, hNeat, w, hw => by
    rw [childWrites] at hw
    rcases List.mem_append.mp hw with hw | hw
    · obtain ⟨rest, node, hpath, hget, hbuilds⟩ := mem_writes child (path ++ [name])
        (hNeat (name, child) (List.mem_cons_self ..)) w hw
      rw [List.append_assoc] at hpath
      exact ⟨name, child, rest, node, List.mem_cons_self .., hpath, hget, hbuilds⟩
    · obtain ⟨name', child', rest, node, hmem, hfound⟩ := mem_childWrites others path
        (fun entry hentry => hNeat entry (List.mem_cons_of_mem _ hentry)) w hw
      exact ⟨name', child', rest, node, List.mem_cons_of_mem _ hmem, hfound⟩

end

/-! ## Moving writes down -/

mutual

/-- The writes below a position are writes at the root, moved down. -/
theorem writes_append : (t : Tree) → (path rest : Path) →
    t.writes (path ++ rest) = (t.writes rest).map (Write.below path)
  | .scalar value, path, rest => rfl
  | .list values, path, rest => by
    rw [writes, writes, List.map_map]
    rfl
  | .subtree [], path, rest => rfl
  | .subtree (child :: others), path, rest => by
    rw [writes, writes]
    exact childWrites_append (child :: others) path rest

theorem childWrites_append : (children : List (String × Tree)) → (path rest : Path) →
    childWrites (path ++ rest) children = (childWrites rest children).map (Write.below path)
  | [], path, rest => rfl
  | (name, child) :: others, path, rest => by
    rw [childWrites, childWrites, List.map_append, List.append_assoc,
      writes_append child path (rest ++ [name]), childWrites_append others path rest]

end

/-- Every neat tree takes a write to build. -/
theorem writes_ne_nil : (t : Tree) → (path : Path) → t.Neat → t.writes path ≠ []
  | .scalar value, path, _ => by simp [writes]
  | .list values, path, hNeat => by
    intro hnil
    rw [writes, List.map_eq_nil_iff] at hnil
    exact hNeat.noEmptyList [] (congrArg (some ∘ Tree.list) hnil)
  | .subtree [], path, _ => by simp [writes]
  | .subtree ((name, child) :: rest), path, hNeat => by
    intro hnil
    rw [writes, childWrites] at hnil
    exact writes_ne_nil child (path ++ [name]) (hNeat.child (List.mem_cons_self ..))
      (List.append_eq_nil_iff.mp hnil).1

end Tree

/-! ## Rebuilding -/

/-- Further writes go on from the tree that the first ones make. -/
theorem rebuild_append {ws : List Write} {node? : Option Tree} {t : Tree}
    (h : rebuild ws node? = some t) (ws' : List Write) :
    rebuild (ws ++ ws') node? = rebuild ws' (some t) := by
  induction ws generalizing node? with
  | nil =>
    have hnode : node? = some t := h
    rw [hnode]
    rfl
  | cons w ws ih =>
    rw [rebuild] at h
    obtain ⟨u, hu, hrest⟩ := Option.bind_eq_some_iff.mp h
    rw [List.cons_append, rebuild, hu, Option.bind_some]
    exact ih hrest

/-- Writes moved down to a position make of the node there what the writes make of a node. -/
theorem rebuild_below {ws : List Write} (hne : ws ≠ []) (path : Path) (node? : Option Tree) :
    rebuild (ws.map (Write.below path)) node? = Tree.update? (rebuild ws) node? path := by
  induction ws generalizing node? with
  | nil => exact absurd rfl hne
  | cons w ws ih =>
    have hfirst : Tree.update? (w.below path).deed.on node? (w.below path).path =
        Tree.update? (fun found? => Tree.update? w.deed.on found? w.path) node? path :=
      Tree.update?_append w.deed.on node? path w.path
    rw [List.map_cons, rebuild, hfirst]
    -- a single write is an update, and several ones are two updates, by induction
    cases ws with
    | nil =>
      have hlast : rebuild [w] = fun found? => Tree.update? w.deed.on found? w.path := by
        funext found?
        rw [rebuild]
        cases Tree.update? w.deed.on found? w.path <;> rfl
      rw [hlast]
      cases Tree.update? (fun found? => Tree.update? w.deed.on found? w.path) node? path <;> rfl
    | cons w' ws =>
      have hrest : (fun t => rebuild ((w' :: ws).map (Write.below path)) (some t)) =
          fun t => Tree.update? (rebuild (w' :: ws)) (some t) path :=
        funext fun t => ih (by simp) (some t)
      rw [hrest]
      exact Tree.update?_update? _ (rebuild (w' :: ws)) node? path

namespace Tree

/-- Values that come one by one make a list. -/
theorem rebuild_entries (stored values : List String) :
    rebuild (values.map fun value => ⟨[], .entry value⟩) (some (.list stored)) =
      some (.list (stored ++ values)) := by
  induction values generalizing stored with
  | nil => rw [List.append_nil]; rfl
  | cons value rest ih =>
    have hrest := ih (stored ++ [value])
    rw [List.append_assoc] at hrest
    exact hrest

mutual

/-- The writes of a neat tree build it again where nothing is. -/
theorem rebuild_writes : (t : Tree) → t.Neat → rebuild (t.writes []) none = some t
  | .scalar value, _ => rfl
  | .list [], hNeat => absurd rfl (hNeat.noEmptyList [])
  | .list (value :: rest), _ => rebuild_entries [value] rest
  | .subtree [], _ => rfl
  | .subtree (child :: rest), hNeat => by
    rw [writes]
    exact rebuild_childWrites (child :: rest) [] (by simp) (hNeat.ordered [] _ rfl)
      (fun entry hentry => hNeat.child hentry) none rfl

/-- The writes of children build them after those that are there already. -/
theorem rebuild_childWrites : (children : List (String × Tree)) → (before : Children) →
    children ≠ [] → Keyed.Ordered (before ++ children) → (∀ entry ∈ children, entry.2.Neat) →
    (node? : Option Tree) → node?.getD empty = .subtree before →
    rebuild (childWrites [] children) node? = some (.subtree (before ++ children))
  | [], before, hne, _, _, node?, _ => absurd rfl hne
  | (name, child) :: rest, before, _, hOrdered, hNeat, node?, hnode => by
    have hlast : ∀ entry ∈ before, entry.1 < name := fun entry hentry =>
      (List.pairwise_append.mp hOrdered).2.2 entry hentry (name, child) (List.mem_cons_self ..)
    have habsent : Keyed.get? before name = none := by
      refine Keyed.get?_eq_none_of_forall_ne fun entry hentry heq => ?_
      exact String.lt_irrefl name (heq ▸ hlast entry hentry)
    have hchild : child.Neat := hNeat (name, child) (List.mem_cons_self ..)
    -- the child is new, and its name is after the names of all others
    have hfirst : rebuild (child.writes [name]) node? =
        some (.subtree (before ++ [(name, child)])) := by
      have hmoved : child.writes [name] = (child.writes []).map (Write.below [name]) :=
        writes_append child [name] []
      rw [hmoved, rebuild_below (writes_ne_nil child [] hchild), update?, hnode]
      dsimp only
      rw [update?_nil, habsent, rebuild_writes child hchild, Option.map_some,
        Keyed.insert_of_forall_lt hlast]
    rw [childWrites, List.nil_append, rebuild_append hfirst]
    cases rest with
    | nil => rfl
    | cons next rest =>
      -- the others come after those that are there by now
      have happend : before ++ (name, child) :: next :: rest =
          (before ++ [(name, child)]) ++ next :: rest := by simp
      rw [happend]
      exact rebuild_childWrites (next :: rest) (before ++ [(name, child)]) (by simp)
        (happend ▸ hOrdered) (fun entry hentry => hNeat entry (List.mem_cons_of_mem _ hentry))
        (some (.subtree (before ++ [(name, child)]))) rfl

end

end Tree

end RouterConfig
