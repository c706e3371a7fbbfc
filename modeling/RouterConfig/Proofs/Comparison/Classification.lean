import Mathlib.Data.List.Basic
import RouterConfig.Proofs.Commit.Candidates
import RouterConfig.Proofs.Tree.Filling
import RouterConfig.Session.Read

/-!
# RouterConfig — what falls into which class

Below a position that is no leaf, both sides of a comparison have children, none where nothing
stands. A class takes its names from one side, by whether they stand on the other one too, and its
nodes from the same side: from the running one for what is to delete, from the edited one for all
else. Main results:

* `Comparison.nodesUnder_filter` — looking up the names of a class picks the entries of its side;
* `Comparison.classified` — the members of each class, and that no name is repeated or left out;
* `Comparison.Classified.eq_iff` — the sides are equal if no name is on one side only and the nodes
  of all others are equal;
* `Session.classifies` — all of this, for what is below a position of a session.
-/

namespace RouterConfig

/-! ## Both sides of a position -/

/-- The children of the node at `path`; there are none where nothing stands. -/
def Tree.childrenAt (t : Tree) (path : Path) : Children := ((t.get? path).bind children?).getD []

namespace Schema.Admits

variable {schema : Schema} {t : Tree} {path : Path} {place : Place}

/-- What a conforming configuration holds at a position that is no leaf conforms there, be it
nothing. -/
theorem conforms_subtreeAt (ht : schema.Admits t) (hPlace : schema.resolve path = .ok place)
    (hLeaf : place.isLeaf = false) : place.Conforms (t.subtreeAt path) := by
  rw [Tree.subtreeAt]
  -- below a position where nothing stands the tree is taken for an empty subtree
  cases hget : t.get? path with
  | none => exact Schema.Place.conforms_empty hLeaf
  | some node =>
    intro below found hfound
    have hwhole : t.get? (path ++ below) = some found := by
      rw [Tree.get?_append, hget]
      exact hfound
    obtain ⟨last, hLeads, hfits⟩ := ht _ found hwhole
    -- the place of the position is met on the way to what stands below it
    obtain ⟨place', hplace', hbelow⟩ := Place.leads_append_iff.mp hLeads
    obtain rfl := hplace'.unique (resolve_eq_ok_iff.mp hPlace)
    exact ⟨last, hbelow, hfits⟩

/-- A conforming configuration holds a subtree, or nothing, at a position that is no leaf. -/
theorem subtreeAt_eq (ht : schema.Admits t) (hPlace : schema.resolve path = .ok place)
    (hLeaf : place.isLeaf = false) :
    t.subtreeAt path = .subtree (t.childrenAt path) ∧ Keyed.Ordered (t.childrenAt path) := by
  obtain ⟨children, hchildren, hOrdered⟩ :=
    (ht.conforms_subtreeAt hPlace hLeaf).fits.isSubtree hLeaf
  have hat : t.childrenAt path = children := by
    rw [Tree.subtreeAt] at hchildren
    rw [Tree.childrenAt]
    -- nothing there is an empty subtree, and by conformance nothing else than a subtree is there
    cases hget : t.get? path with
    | none =>
      rw [hget] at hchildren
      exact Tree.subtree.inj hchildren
    | some node =>
      rw [hget] at hchildren
      obtain rfl : node = .subtree children := hchildren
      rfl
  rw [hat]
  exact ⟨hchildren, hOrdered⟩

end Schema.Admits

/-! ## Classes, by their names -/

namespace Class

variable {edited running : Children} {name : String}

/-- The side from which a class takes its names and nodes. -/
def side (edited running : Children) : Class → Children
  | .delete => running
  | .merge | .add | .stable => edited

/-- Whether a name is in a class, by the names on both sides. -/
def Holds (edited running : Children) (name : String) : Class → Prop
  | .merge => name ∈ Keyed.keys edited
  | .delete => name ∈ Keyed.keys running ∧ name ∉ Keyed.keys edited
  | .add => name ∈ Keyed.keys edited ∧ name ∉ Keyed.keys running
  | .stable => name ∈ Keyed.keys edited ∧ name ∈ Keyed.keys running

/-- Whether a class takes a name of its side. -/
def takes (edited running : Children) : Class → String → Bool
  | .merge, _ => true
  | .delete, name => !(Keyed.keys edited).contains name
  | .add, name => !(Keyed.keys running).contains name
  | .stable, name => (Keyed.keys running).contains name

theorem names_eq (edited running : Children) (c : Class) :
    Classes.names (Keyed.keys edited) (Keyed.keys running) c =
      (Keyed.keys (c.side edited running)).filter (c.takes edited running) := by
  cases c with
  | merge => exact (List.filter_eq_self.mpr fun _ _ => rfl).symm
  | delete | add | stable => rfl

theorem mem_keys_filter_takes (c : Class) :
    name ∈ (Keyed.keys (c.side edited running)).filter (c.takes edited running) ↔
      c.Holds edited running name := by
  cases c <;> simp [side, takes, Holds]

theorem side_ordered (hEdited : Keyed.Ordered edited) (hRunning : Keyed.Ordered running)
    (c : Class) : Keyed.Ordered (c.side edited running) := by
  cases c <;> assumption

end Class

namespace Keyed

variable {α : Type}

/-- Looking up some of the names of an ordered map picks their entries. -/
theorem filterMap_get? {m : Keyed α} (h : Ordered m) (p : String → Bool) :
    ((keys m).filter p).filterMap (fun name => (get? m name).map (name, ·)) =
      m.filter fun entry => p entry.1 := by
  rw [← keys_filter, keys, List.filterMap_map]
  refine (List.filterMap_congr fun entry hentry => ?_).trans List.filterMap_some
  rw [Function.comp_apply, (mem_iff_get? h).mp (List.mem_of_mem_filter hentry)]
  rfl

theorem ordered_filter {m : Keyed α} (h : Ordered m) (p : String × α → Bool) :
    Ordered (m.filter p) :=
  List.Pairwise.filter p h

end Keyed

/-! ## The members of a class -/

namespace Comparison

variable {edited running defaults : Children} {request : Request} {classes : Classes}

theorem nodesUnder_filter {children : Children} (h : Keyed.Ordered children) (p : String → Bool) :
    nodesUnder ((Keyed.keys children).filter p) (.subtree children) =
      children.filter fun entry => p entry.1 := by
  rw [nodesUnder, Keyed.filterMap_get? h, Keyed.ofList_of_ordered (Keyed.ordered_filter h _)]

/-- The nodes of a class are the entries of its side that it takes; those to merge are filled. -/
theorem nodes_eq (hEdited : Keyed.Ordered edited) (hRunning : Keyed.Ordered running) (c : Class) :
    nodes c (Classes.names (Keyed.keys edited) (Keyed.keys running) c) (.subtree edited)
        (.subtree running) defaults =
      if c = .merge then Tree.overlayChildren edited defaults
      else (c.side edited running).filter fun entry => c.takes edited running entry.1 := by
  have hside : (if c = .delete then Tree.subtree running else .subtree edited) =
      .subtree (c.side edited running) := by cases c <;> rfl
  rw [nodes, hside, Class.names_eq, nodesUnder_filter (Class.side_ordered hEdited hRunning c)]
  split
  · subst c
    exact congrArg (Tree.overlayChildren · defaults) (List.filter_eq_self.mpr fun _ _ => rfl)
  · rfl

/-- The members of a class that is not filled: its names, or the entries of its side. -/
inductive Told (edited running : Children) (c : Class) : Members → Prop where
  | names {list : List String} : list.Pairwise (· < ·) →
    (∀ name, name ∈ list ↔ c.Holds edited running name) → Told edited running c (.names list)
  | nodes {children : Children} : Keyed.Ordered children →
    (∀ name, name ∈ Keyed.keys children ↔ c.Holds edited running name) →
    (∀ name ∈ Keyed.keys children,
      Keyed.get? children name = Keyed.get? (c.side edited running) name) →
    Told edited running c (.nodes children)

namespace Told

variable {c : Class} {members : Members}

theorem mem_keys_iff (h : Told edited running c members) {name : String} :
    name ∈ members.keys ↔ c.Holds edited running name := by
  cases h with
  | names _ hmem => exact hmem name
  | nodes _ hmem _ => exact hmem name

theorem keys_pairwise (h : Told edited running c members) : members.keys.Pairwise (· < ·) := by
  cases h with
  | names hpairwise _ => exact hpairwise
  | nodes hOrdered _ _ => exact Keyed.keys_pairwise hOrdered

end Told

/-- The entries that a class takes from its side are its members. -/
theorem told_filter (hEdited : Keyed.Ordered edited) (hRunning : Keyed.Ordered running)
    (c : Class) : Told edited running c
      (.nodes ((c.side edited running).filter fun entry => c.takes edited running entry.1)) := by
  refine .nodes (Keyed.ordered_filter (Class.side_ordered hEdited hRunning c) _) (fun name => ?_)
    fun name hname => ?_
  · rw [Keyed.keys_filter, Class.mem_keys_filter_takes]
  · rw [Keyed.keys_filter] at hname
    rw [Keyed.get?_filter, if_pos (List.mem_filter.mp hname).2]

theorem told_names (hEdited : Keyed.Ordered edited) (hRunning : Keyed.Ordered running)
    (c : Class) : Told edited running c
      (.names (Classes.names (Keyed.keys edited) (Keyed.keys running) c)) := by
  rw [Class.names_eq]
  exact .names ((Keyed.keys_pairwise (Class.side_ordered hEdited hRunning c)).filter _)
    fun name => Class.mem_keys_filter_takes c

/-! ## All classes -/

/-- The nodes of a class are asked for, and filled from the defaults. -/
def Request.Fills (request : Request) (c : Class) : Prop :=
  c = .merge ∧ c ∈ request.expanded ∧ request.withDefaults = true

/-- The members of the classes below a position at which the two sides have these children. -/
structure Classified (edited running defaults : Children) (request : Request)
    (classes : Classes) : Prop where
  /-- A class holds bare names unless it is asked for with its nodes. -/
  bare : ∀ c, c ∉ request.expanded → ∃ list, classes.get c = .names list
  expanded : ∀ c ∈ request.expanded, ∃ children, classes.get c = .nodes children
  /-- Each name stands once, in order, and each node is that of its side. -/
  told : ∀ c, ¬ request.Fills c → Told edited running c (classes.get c)
  /-- The nodes to merge are the edited side, if no defaults are asked for. -/
  plain : .merge ∈ request.expanded → request.withDefaults = false →
    classes.get .merge = .nodes edited
  /-- With defaults, all of the edited side is still there, and as it was where there is none. -/
  filled : request.Fills .merge →
    ∃ children, classes.get .merge = .nodes children ∧ Keyed.Ordered children ∧
      (∀ name, name ∈ Keyed.keys children ↔
        name ∈ Keyed.keys edited ∨ name ∈ Keyed.keys defaults) ∧
      ∀ name ∉ Keyed.keys defaults, Keyed.get? children name = Keyed.get? edited name
  /-- Each name of a side is in one of two classes. -/
  editedParts :
    ((classes.get .add).keys ++ (classes.get .stable).keys).Perm (Keyed.keys edited)
  runningParts :
    ((classes.get .delete).keys ++ (classes.get .stable).keys).Perm (Keyed.keys running)

/-- What a class answers with, where no name is changed: its nodes if it was asked for with them,
and else their names. -/
theorem get_classes {comparison : Comparison} (hRename : comparison.rename = id)
    (hEdited : Keyed.Ordered edited) (hRunning : Keyed.Ordered running) (c : Class) :
    (comparison.classes request (.subtree edited) (.subtree running) defaults).get c =
      if c ∈ request.expanded then
        .nodes (if c = .merge then
            Tree.overlayChildren edited (if request.withDefaults then defaults else [])
          else (c.side edited running).filter fun entry => c.takes edited running entry.1)
      else .names (Classes.names (Keyed.keys edited) (Keyed.keys running) c) := by
  rw [classes, Classes.get_ofMembers, hRename, ← nodes_eq hEdited hRunning]
  simp only [List.contains_iff_mem, Tree.keys, id]

/-- Two lists in order without a name in common part a third one that holds the names of both. -/
theorem perm_of_parts {some others all : List String} (hsome : some.Pairwise (· < ·))
    (hothers : others.Pairwise (· < ·)) (hall : all.Pairwise (· < ·))
    (hmem : ∀ name, name ∈ all ↔ name ∈ some ∨ name ∈ others)
    (hapart : ∀ name ∈ some, name ∉ others) : (some ++ others).Perm all := by
  have hnodup : ∀ list : List String, list.Pairwise (· < ·) → list.Nodup := by
    intro list h
    refine h.imp fun {a b} hlt heq => ?_
    rw [heq] at hlt
    exact String.lt_irrefl b hlt
  refine (List.perm_ext_iff_of_nodup ?_ (hnodup all hall)).mpr fun name => ?_
  · exact List.nodup_append.mpr ⟨hnodup some hsome, hnodup others hothers,
      fun name hname other hother heq => hapart name hname (heq ▸ hother)⟩
  · rw [List.mem_append, hmem]

/-- A class that is not filled is determined by which names the two sides have. -/
theorem told_classes {comparison : Comparison} (hRename : comparison.rename = id)
    (hEdited : Keyed.Ordered edited) (hRunning : Keyed.Ordered running) {c : Class}
    (hFills : ¬ request.Fills c) :
    Told edited running c
      ((comparison.classes request (.subtree edited) (.subtree running) defaults).get c) := by
  rw [get_classes hRename hEdited hRunning]
  by_cases hexpanded : c ∈ request.expanded
  · rw [if_pos hexpanded]
    by_cases hmerge : c = .merge
    · -- nothing is filled, so that the members are the edited side as it stands
      have hplain : request.withDefaults = false := by
        simpa [Request.Fills, hmerge, hmerge ▸ hexpanded] using hFills
      subst hmerge
      rw [if_pos rfl, hplain]
      exact .nodes hEdited (fun name => Iff.rfl) fun name _ => rfl
    · rw [if_neg hmerge]
      exact told_filter hEdited hRunning c
  · rw [if_neg hexpanded]
    exact told_names hEdited hRunning c

/-- Filling the children of the edited side gives them the names of the defaults, and leaves alone
what has no default. -/
theorem names_overlayChildren (edited defaults : Children) :
    (∀ name, name ∈ Keyed.keys (Tree.overlayChildren edited defaults) ↔
      name ∈ Keyed.keys edited ∨ name ∈ Keyed.keys defaults) ∧
    ∀ name ∉ Keyed.keys defaults,
      Keyed.get? (Tree.overlayChildren edited defaults) name = Keyed.get? edited name := by
  refine ⟨fun name => ?_, fun name hname => ?_⟩
  · rw [← Keyed.isSome_get?_iff, ← Keyed.isSome_get?_iff, ← Keyed.isSome_get?_iff,
      Tree.isSome_get?_overlayChildren, Bool.or_eq_true]
  · rw [← Keyed.isSome_get?_iff, Option.not_isSome_iff_eq_none] at hname
    exact Tree.get?_overlayChildren_of_absent edited hname

/-- The classes below a position, by the children of the two sides. -/
theorem classified {comparison : Comparison} (hRename : comparison.rename = id)
    (hEdited : Keyed.Ordered edited) (hRunning : Keyed.Ordered running) :
    Classified edited running defaults request
      (comparison.classes request (.subtree edited) (.subtree running) defaults) := by
  have hget (c : Class) :
      (comparison.classes request (.subtree edited) (.subtree running) defaults).get c = _ :=
    get_classes hRename hEdited hRunning c
  have htold (c : Class) (hFills : ¬ request.Fills c) : Told edited running c
      ((comparison.classes request (.subtree edited) (.subtree running) defaults).get c) :=
    told_classes hRename hEdited hRunning hFills
  -- the three classes by which the names of both sides are parted are never filled
  have hstable := htold .stable fun h => by simp [Request.Fills] at h
  have hadd := htold .add fun h => by simp [Request.Fills] at h
  have hdelete := htold .delete fun h => by simp [Request.Fills] at h
  constructor
  case bare => exact fun c hc => ⟨_, (hget c).trans (if_neg hc)⟩
  case expanded => exact fun c hc => ⟨_, (hget c).trans (if_pos hc)⟩
  case told => exact htold
  case plain =>
    intro hmerge hplain
    rw [hget, if_pos hmerge, if_pos rfl, hplain]
    rfl
  case filled =>
    rintro ⟨-, hmerge, hfilled⟩
    refine ⟨Tree.overlayChildren edited defaults, ?_, Tree.overlayChildren_ordered hEdited _,
      names_overlayChildren edited defaults⟩
    rw [hget, if_pos hmerge, if_pos rfl, if_pos hfilled]
  -- each edited name is added or stable, and none is both
  case editedParts =>
    refine perm_of_parts hadd.keys_pairwise hstable.keys_pairwise
      (Keyed.keys_pairwise hEdited) (fun name => ?_) fun name hname hboth => ?_
    · rw [hadd.mem_keys_iff, hstable.mem_keys_iff, Class.Holds, Class.Holds]
      by_cases name ∈ Keyed.keys running <;> simp [*]
    · exact (hadd.mem_keys_iff.mp hname).2 (hstable.mem_keys_iff.mp hboth).2
  -- each running name is deleted or stable, and none is both
  case runningParts =>
    refine perm_of_parts hdelete.keys_pairwise hstable.keys_pairwise
      (Keyed.keys_pairwise hRunning) (fun name => ?_) fun name hname hboth => ?_
    · rw [hdelete.mem_keys_iff, hstable.mem_keys_iff, Class.Holds, Class.Holds]
      by_cases name ∈ Keyed.keys edited <;> simp [*]
    · exact (hdelete.mem_keys_iff.mp hname).2 (hstable.mem_keys_iff.mp hboth).1

/-- No class but that to merge is filled. -/
theorem Classified.told_of_ne (h : Classified edited running defaults request classes) {c : Class}
    (hc : c ≠ .merge) : Told edited running c (classes.get c) :=
  h.told c fun hFills => hc hFills.1

/-- The sides are equal if no name is on one side only and all other names have equal nodes. -/
theorem Classified.eq_iff (h : Classified edited running defaults request classes)
    (hEdited : Keyed.Ordered edited) (hRunning : Keyed.Ordered running) :
    edited = running ↔ (classes.get .add).keys = [] ∧ (classes.get .delete).keys = [] ∧
      ∀ name ∈ (classes.get .stable).keys,
        Keyed.get? edited name = Keyed.get? running name := by
  simp only [List.eq_nil_iff_forall_not_mem, (h.told_of_ne (c := .add) nofun).mem_keys_iff,
    (h.told_of_ne (c := .delete) nofun).mem_keys_iff,
    (h.told_of_ne (c := .stable) nofun).mem_keys_iff, Class.Holds]
  -- both sides have the same names with nothing below that differs if the classes say so
  constructor
  · rintro rfl
    exact ⟨fun name hname => hname.2 hname.1, fun name hname => hname.2 hname.1, fun _ _ => rfl⟩
  · rintro ⟨hadd, hdelete, hstable⟩
    refine Keyed.ext hEdited hRunning fun name => ?_
    by_cases hname : name ∈ Keyed.keys edited
    · exact hstable name ⟨hname, not_not.mp fun hnot => hadd name ⟨hname, hnot⟩⟩
    · have hnot : name ∉ Keyed.keys running := fun hrunning => hdelete name ⟨hrunning, hname⟩
      rw [← Keyed.isSome_get?_iff, Option.not_isSome_iff_eq_none] at hname hnot
      rw [hname, hnot]

end Comparison

/-! ## Below a position of a session -/

namespace Session

/-- A comparison below a position that is no leaf is one of the nodes that stand there. -/
theorem comparison_below {s : Session} {schema : Schema} {running : Tree} {path : Path}
    {place : Schema.Place} (hPlace : schema.resolve (s.absolute path) = .ok place)
    (hLeaf : place.isLeaf = false) (request : Comparison.Request) :
    (s.comparison schema running).below request path =
      .ok ((s.comparison schema running).classes request (s.edit.subtreeAt (s.absolute path))
        (running.subtreeAt (s.absolute path)) (schema.defaults (s.absolute path))) := by
  have hfull : (s.comparison schema running).level ++ path = s.absolute path := rfl
  have hschema : (s.comparison schema running).schema = schema := rfl
  rw [Comparison.below, hfull, hschema, hPlace]
  simp only [hLeaf, Bool.false_eq_true, if_false]
  rfl

/-- The classes of the names below a position of a session. -/
structure Classifies (s : Session) (schema : Schema) (running : Tree) (path : Path) : Prop where
  /-- Whatever is asked for is answered. -/
  told : ∀ request : Comparison.Request, ∃ classes,
    (s.comparison schema running).below request path = .ok classes ∧
      Comparison.Classified (s.edit.childrenAt (s.absolute path))
        (running.childrenAt (s.absolute path)) (schema.defaults (s.absolute path)) request classes
  /-- The members of a class depend on whether its nodes are asked for, for those to merge on the
  defaults, and on nothing else that is asked for. -/
  apart : ∀ (first second : Comparison.Request) (classes classes' : Classes) (c : Class),
    (s.comparison schema running).below first path = .ok classes →
    (s.comparison schema running).below second path = .ok classes' →
    (c ∈ first.expanded ↔ c ∈ second.expanded) →
    (c = .merge → first.withDefaults = second.withDefaults) → classes.get c = classes'.get c
  /-- Nothing has changed if no name is to add or to delete and all others have equal nodes. -/
  unchanged_iff : ∀ (request : Comparison.Request) (classes : Classes),
    (s.comparison schema running).below request path = .ok classes →
    (s.changed running path = false ↔
      (classes.get .add).keys = [] ∧ (classes.get .delete).keys = [] ∧
        ∀ name ∈ (classes.get .stable).keys,
          Keyed.get? (s.edit.childrenAt (s.absolute path)) name =
            Keyed.get? (running.childrenAt (s.absolute path)) name)

/-- Below a declared position that is no leaf, each name of the two sides is classified by the sides
on which it stands. -/
theorem classifies {s : Session} {schema : Schema} {running : Tree} {path : Path}
    {place : Schema.Place} (hEdit : schema.Admits s.edit) (hRunning : schema.Admits running)
    (hPlace : schema.resolve (s.absolute path) = .ok place) (hLeaf : place.isLeaf = false) :
    s.Classifies schema running path := by
  obtain ⟨hedited, hEditOrdered⟩ := hEdit.subtreeAt_eq hPlace hLeaf
  obtain ⟨hrunning, hRunningOrdered⟩ := hRunning.subtreeAt_eq hPlace hLeaf
  -- a comparison at the cursor answers with the classes of the two subtrees there
  have hbelow : ∀ request, (s.comparison schema running).below request path =
      .ok ((s.comparison schema running).classes request
        (.subtree (s.edit.childrenAt (s.absolute path)))
        (.subtree (running.childrenAt (s.absolute path))) (schema.defaults (s.absolute path))) := by
    intro request
    rw [comparison_below hPlace hLeaf, hedited, hrunning]
  have hclassified (request : Comparison.Request) : Comparison.Classified
      (s.edit.childrenAt (s.absolute path)) (running.childrenAt (s.absolute path))
      (schema.defaults (s.absolute path)) request
      ((s.comparison schema running).classes request _ _ _) :=
    Comparison.classified rfl hEditOrdered hRunningOrdered
  refine ⟨fun request => ⟨_, hbelow request, hclassified request⟩, ?_, ?_⟩
  · -- two requests that agree on a class get the same members of it
    intro first second classes classes' c hfirst hsecond hexpanded hdefaults
    rw [hbelow, Except.ok.injEq] at hfirst hsecond
    rw [← hfirst, ← hsecond, Comparison.get_classes rfl hEditOrdered hRunningOrdered,
      Comparison.get_classes rfl hEditOrdered hRunningOrdered]
    by_cases hmerge : c = .merge
    · simp only [hexpanded, hdefaults hmerge]
    · simp only [hexpanded, if_neg hmerge]
  · intro request classes hclasses
    rw [hbelow, Except.ok.injEq] at hclasses
    rw [changed_eq_false_iff, hedited, hrunning, Tree.subtree.injEq, ← hclasses]
    exact (hclassified request).eq_iff hEditOrdered hRunningOrdered

/-- Of three instances one has gone, one has come and one has stayed; the node of the one that has
gone is that of the running side. -/
theorem classifies_instances :
    let s := Sample.changed.session "c"
    let running := Sample.changed.store.running
    (Sample.schema.Admits s.edit ∧ Sample.schema.Admits running ∧
      ∃ place, Sample.schema.resolve (s.absolute ["interface"]) = .ok place ∧
        place.isLeaf = false) ∧
    s.Classifies Sample.schema running ["interface"] ∧
    (s.comparison Sample.schema running).below ⟨[.delete], false⟩ ["interface"] =
      .ok ⟨.names ["eth0", "eth2"], .nodes [("eth1", .subtree [])], .names ["eth2"],
        .names ["eth0"]⟩ := by
  intro s running
  have hSound : Sample.changed.Sound Sample.schema :=
    (Sample.reachable (Sample.steps ++ Sample.changes)).sound Sample.compiled
  have hEdit : Sample.schema.Admits s.edit := (hSound.session "c").edit
  have hRunning : Sample.schema.Admits running := hSound.store.running
  have hPlace : ∃ place, Sample.schema.resolve (s.absolute ["interface"]) = .ok place ∧
      place.isLeaf = false := ⟨_, rfl, rfl⟩
  obtain ⟨place, hplace, hLeaf⟩ := hPlace
  exact ⟨⟨hEdit, hRunning, place, hplace, hLeaf⟩, classifies hEdit hRunning hplace hLeaf, rfl⟩

end Session

end RouterConfig
