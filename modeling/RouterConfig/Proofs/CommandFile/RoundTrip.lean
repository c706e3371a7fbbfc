import RouterConfig.Proofs.CommandFile.Lines
import RouterConfig.Proofs.CommandFile.Saved
import RouterConfig.Proofs.Host.Conformance
import RouterConfig.Proofs.Tree.Rebuilding

/-!
# RouterConfig — loading what was saved

An entry of a configuration does not say whether its last word is a value or a name, nor what kind
of node its path names; the schema does. Where a configuration conforms, the set that the line of an
entry asks for is the very write that the entry stands for, and so loading a saved configuration
where nothing is configured builds it again. Main results:

* `Schema.writeAt_entry` — the words of an entry ask for the write that the entry stands for;
* `loadLines_entries` — loading the lines of entries does their writes;
* `load_commandLines` — a configuration is built again from its command lines;
* `Host.Reachable.load_saved` — a saved configuration loads as it was.
-/

namespace RouterConfig

variable {World Dict : Type}

/-! ## Telling entries -/

/-- A configuration that a command file can tell: names are plain words, and values are on one
line. -/
structure Tree.Writable (t : Tree) : Prop where
  names : ∀ path node, t.get? path = some node → ∀ name ∈ path, Plain name
  value : ∀ path value, t.get? path = some (.scalar value) → '\n' ∉ value.toList
  values : ∀ path values, t.get? path = some (.list values) →
    ∀ value ∈ values, '\n' ∉ value.toList

namespace Tree

/-- Nothing is named below a leaf. -/
theorem writable_leaf {t : Tree} (hLeaf : t.isSubtree = false)
    (h : ∀ value ∈ t.values, '\n' ∉ value.toList) : t.Writable := by
  -- nothing lies below a leaf, so the only path that leads anywhere is the empty one
  have hroot : ∀ path node, t.get? path = some node → path = [] ∧ t = node := by
    intro path node hget
    cases path with
    | nil => exact ⟨rfl, Option.some.inj hget⟩
    | cons name rest =>
      cases t with
      | subtree children => exact absurd hLeaf (by simp [isSubtree])
      | scalar value => exact absurd hget (by simp [get?])
      | list values => exact absurd hget (by simp [get?])
  refine ⟨fun path node hget => ?_, fun path value hget => ?_, fun path values hget => ?_⟩
  · rw [(hroot path node hget).1]
    exact fun name hname => absurd hname List.not_mem_nil
  · rw [(hroot path _ hget).2] at h
    exact h value (List.mem_singleton.mpr rfl)
  · rw [(hroot path _ hget).2] at h
    exact h

/-- A subtree can be written out if its names are plain and its children can be written out. -/
theorem writable_subtree {children : Children}
    (h : ∀ entry ∈ children, Plain entry.1 ∧ entry.2.Writable) :
    (subtree children).Writable := by
  -- every path but the empty one passes a child, whose own names and values are good
  have hbelow : ∀ name rest node, (subtree children).get? (name :: rest) = some node →
      Plain name ∧ ∃ child : Tree, child.Writable ∧ child.get? rest = some node := by
    intro name rest node hget
    rw [get?] at hget
    cases hchild : Keyed.get? children name with
    | none => simp [hchild] at hget
    | some child =>
      rw [hchild] at hget
      obtain ⟨hname, hWritable⟩ := h (name, child) (Keyed.mem_of_get? hchild)
      exact ⟨hname, child, hWritable, hget⟩
  refine ⟨fun path node hget => ?_, fun path v hget => ?_, fun path vs hget => ?_⟩
  · cases path with
    | nil => simp
    | cons name rest =>
      obtain ⟨hname, child, hWritable, hrest⟩ := hbelow name rest node hget
      exact List.forall_mem_cons.mpr ⟨hname, hWritable.names rest node hrest⟩
  · cases path with
    | nil => exact absurd hget (by simp [get?])
    | cons name rest =>
      obtain ⟨-, child, hWritable, hrest⟩ := hbelow name rest _ hget
      exact hWritable.value rest v hrest
  · cases path with
    | nil => exact absurd hget (by simp [get?])
    | cons name rest =>
      obtain ⟨-, child, hWritable, hrest⟩ := hbelow name rest _ hget
      exact hWritable.values rest vs hrest

end Tree

/-- A set of some words asks for a write. -/
structure Write.AskedBack (schema : Schema) (w : Write) : Prop where
  tellable : ∀ word ∈ w.entry, Tellable word
  asked : ∃ path last, w.entry = path ++ [last] ∧ (∀ name ∈ path, Plain name) ∧
    schema.writeAt path (quote last) = .ok w

namespace Schema

/-- A set with a value written as a word goes by where its path leads. -/
theorem writeAt_quote {schema : Schema} {path : Path} {place : Place} {value : String}
    (hLeads : schema.rootPlace.Leads path place) (hquotes : holdsBothQuotes value = false) :
    schema.writeAt path (quote value) =
      if place.isLeaf then place.node.leafWrite path value
      else if place.isTag then instanceWrite path value
      else place.node.childWrite path value := by
  have hresolve : schema.resolve path = .ok place := resolve_eq_ok_iff.mpr hLeads
  unfold writeAt
  dsimp only
  rw [unquote_quote hquotes, hquotes, if_neg (by simp), hresolve]

/-- A value for a leaf that takes it is written there. -/
theorem leafWrite_of_takes {leaf : Node} {path : Path} {value : String}
    (htakes : leaf.Takes value) (hless : leaf.valueless = false) :
    leaf.leafWrite path value =
      .ok ⟨path, if leaf.multi then .entry value else .value value⟩ := by
  rw [Node.leafWrite, htakes.valid]
  cases leaf.multi with
  | true => rfl
  | false =>
    rw [hless]
    rfl

/-- A node that holds no value, and that fits where its path leads, is made by the set of its name
at its parent. -/
theorem writeAt_name {schema : Schema} {path : Path} {name : String} {target : Place} {deed : Deed}
    (hLeads : schema.rootPlace.Leads (path ++ [name]) target) (hname : Plain name)
    (hdeed : target.isLeaf = false ∧ deed = .node ∨
      target.isLeaf = true ∧ target.node.valueless = true ∧ deed = .value "") :
    schema.writeAt path (quote name) = .ok ⟨path ++ [name], deed⟩ := by
  obtain ⟨parent, hparent, henter⟩ := Place.leads_snoc_iff.mp hLeads
  have hParentLeaf := Place.not_isLeaf_of_enter henter
  rw [writeAt_quote hparent (holdsBothQuotes_of_plain hname), hParentLeaf, if_neg (by simp)]
  -- whether the last name is an instance's or a child's decides how it is read
  by_cases hTag : parent.isTag = true
  · -- an instance is no leaf
    rw [Place.enter_of_isTag hTag, Except.ok.injEq] at henter
    subst henter
    have hnode : deed = .node := by
      rcases hdeed with ⟨-, hnode⟩ | ⟨hLeaf, -⟩
      · exact hnode
      · exact absurd hLeaf (by simp [Place.isLeaf])
    have hempty : ¬ name.isEmpty = true := fun hempty => hname.1 (String.isEmpty_iff.mp hempty)
    rw [if_pos hTag, instanceWrite, if_neg hempty, hnode]
  · obtain ⟨child, hchild, rfl⟩ :=
      (Place.enter_eq_ok_iff_of_not_isTag (by simpa using hTag) hParentLeaf).mp henter
    rw [if_neg hTag, Node.childWrite, hchild]
    dsimp only
    -- an internal node is made by its name, and so is a leaf that takes no value
    rcases hdeed with ⟨hLeaf, hdeed⟩ | ⟨hLeaf, hless, hdeed⟩
    · have hChildLeaf : child.isLeaf = false := hLeaf
      rw [hChildLeaf, if_pos (by simp), hdeed]
    · have hChildLeaf : child.isLeaf = true := hLeaf
      have hChildLess : child.valueless = true := hless
      rw [hChildLeaf, hChildLess, if_neg (by simp), if_neg (by simp), hdeed]

/-- The last word of an entry is the name of a node without a value. -/
private theorem askedBack_name {schema : Schema} {w : Write} {target : Place} (hpath : w.path ≠ [])
    (hLeads : schema.rootPlace.Leads w.path target) (hNames : ∀ name ∈ w.path, Plain name)
    (hdeed : target.isLeaf = false ∧ w.deed = .node ∨
      target.isLeaf = true ∧ target.node.valueless = true ∧ w.deed = .value "")
    (hentry : w.entry = w.path) : w.AskedBack schema := by
  obtain ⟨parent, name, hsnoc⟩ : ∃ parent name, w.path = parent ++ [name] :=
    ⟨_, _, (List.dropLast_concat_getLast hpath).symm⟩
  refine ⟨fun word hword => tellable_of_plain (hNames word (hentry ▸ hword)), parent, name,
    hentry.trans hsnoc, fun n hn => hNames n (by simp [hsnoc, hn]), ?_⟩
  have hasked := writeAt_name (hsnoc ▸ hLeads) (hNames name (by simp [hsnoc])) hdeed
  rw [hasked, ← hsnoc]

/-- The last word of an entry is a value of the leaf that the others name. -/
private theorem askedBack_value {schema : Schema} {w : Write} {target : Place} {value : String}
    (hLeads : schema.rootPlace.Leads w.path target) (hNames : ∀ name ∈ w.path, Plain name)
    (hLeaf : target.isLeaf = true) (hless : target.node.valueless = false)
    (htakes : target.node.Takes value) (hfeed : '\n' ∉ value.toList)
    (hdeed : w.deed = if target.node.multi then .entry value else .value value)
    (hentry : w.entry = w.path ++ [value]) : w.AskedBack schema := by
  refine ⟨?_, w.path, value, hentry, hNames, ?_⟩
  · rw [hentry]
    intro word hword
    rcases List.mem_append.mp hword with hword | hword
    · exact tellable_of_plain (hNames word hword)
    · rw [List.mem_singleton.mp hword]
      exact ⟨htakes.quotable, hfeed⟩
  · rw [writeAt_quote hLeads htakes.quotable, hLeaf, if_pos rfl, leafWrite_of_takes htakes hless,
      ← hdeed]

/-- The words of an entry ask for the write that the entry stands for. -/
theorem writeAt_entry {schema : Schema} {w : Write} {target : Place} (hpath : w.path ≠ [])
    (hLeads : schema.rootPlace.Leads w.path target) (hSuits : Suits target w.deed)
    (hNames : ∀ name ∈ w.path, Plain name)
    (hfeed : ∀ value, w.deed = .value value ∨ w.deed = .entry value → '\n' ∉ value.toList) :
    w.AskedBack schema := by
  obtain ⟨path, deed⟩ := w
  cases hSuits with
  | node hLeaf => exact askedBack_name hpath hLeads hNames (.inl ⟨hLeaf, rfl⟩) rfl
  | @value v hfits =>
    cases hfits with
    -- an entry ends with the value, unless the value is empty
    | presence hLeaf _ hless =>
      exact askedBack_name hpath hLeads hNames (.inr ⟨hLeaf, hless, rfl⟩) rfl
    | value hLeaf hMulti hless htakes =>
      have hnonempty : ¬ v.isEmpty = true := fun hempty =>
        htakes.nonempty (String.isEmpty_iff.mp hempty)
      exact askedBack_value hLeads hNames hLeaf hless htakes (hfeed v (.inl rfl))
        (by rw [hMulti]; rfl) (if_neg hnonempty)
  | @entry v hLeaf hMulti hless htakes =>
    exact askedBack_value hLeads hNames hLeaf hless htakes (hfeed v (.inr rfl))
      (by rw [hMulti]; rfl) rfl

theorem Admits.neat {schema : Schema} {t : Tree} (h : schema.Admits t) : t.Neat := by
  refine ⟨fun path children hget => Place.Conforms.ordered h hget, fun path hget => ?_⟩
  obtain ⟨place, -, hfits⟩ := h path _ hget
  cases hfits with
  | values _ _ _ hne _ => exact hne rfl

/-- What builds a node that fits a place suits the place. -/
theorem Place.Fits.suits {place : Place} {node : Tree} {deed : Deed} (hfits : place.Fits node)
    (hbuilds : deed.Builds node) : Suits place deed := by
  cases hbuilds with
  | node =>
    cases hfits with
    | subtree hLeaf _ => exact .node hLeaf
  | value v => exact .value hfits
  | entry hmem =>
    cases hfits with
    | values hLeaf hMulti hless _ hvalues => exact .entry hLeaf hMulti hless (hvalues _ hmem)

/-- Each write of a configuration that conforms is asked for by its entry. -/
theorem Admits.askedBack {schema : Schema} {t : Tree} (h : schema.Admits t) (hWritable : t.Writable)
    (hne : t ≠ Tree.empty) {w : Write} (hw : w ∈ t.writes []) : w.AskedBack schema := by
  obtain ⟨rest, node, hpath, hget, hbuilds⟩ := Tree.mem_writes t [] h.neat w hw
  rw [List.nil_append] at hpath
  -- what is written at a path is what the tree holds there, and that fits the place the path leads
  -- to
  rw [← hpath] at hget
  obtain ⟨place, hLeads, hfits⟩ := h w.path node hget
  have hSuits := hfits.suits hbuilds
  refine writeAt_entry ?_ hLeads hSuits (hWritable.names w.path node hget) ?_
  · -- the root is a subtree, and it has children
    intro hnil
    rw [hnil] at hget hLeads
    obtain rfl := Option.some.inj hget
    obtain rfl := Place.leads_nil_iff.mp hLeads
    obtain ⟨children, rfl, -⟩ := hfits.isSubtree rfl
    generalize w.deed = deed at hbuilds
    cases hbuilds with
    | node => exact hne rfl
  · -- a value or an entry of a list is what the leaf holds, and that can be quoted
    intro value hdeed
    rcases hdeed with hdeed | hdeed
    · rw [hdeed] at hbuilds
      cases hbuilds with
      | value => exact hWritable.value w.path value hget
    · rw [hdeed] at hbuilds
      cases hbuilds with
      | entry hmem => exact hWritable.values w.path _ hget value hmem

end Schema

/-! ## Loading entries -/

/-- A set of the words of an entry does the write that the entry stands for. -/
theorem setWords_entry {schema : Schema} {w : Write} (hAsked : w.AskedBack schema) {s : Session}
    (hlevel : s.level = []) {edit : Tree} (hrun : w.run? s.edit = some edit) :
    s.setWords schema (w.entry.map quote) = .ok { s with edit := edit } := by
  obtain ⟨-, path, last, hentry, hNames, hwrite⟩ := hAsked
  have hpath : path.map quote = path :=
    (List.map_congr_left fun name hname => quote_of_plain (hNames name hname)).trans (List.map_id _)
  have habsolute : s.absolute path = path := by rw [Session.absolute, hlevel, List.nil_append]
  rw [hentry, List.map_append, List.map_singleton, Session.setWords, List.getLast?_concat,
    List.dropLast_concat, hpath]
  dsimp only
  rw [Session.set_eq_write, habsolute, hwrite]
  show s.write w = _
  rw [Session.write, hrun]

/-- Loading the lines of entries does their writes. -/
theorem loadLines_entries {store : Store World Dict} {ws : List Write}
    (hAsked : ∀ w ∈ ws, w.AskedBack store.schema) {s : Session} (hlevel : s.level = []) {t : Tree}
    (hrebuild : rebuild ws (some s.edit) = some t) (number : Nat) :
    loadLines number ((ws.map Write.entry).map entryLine) store s =
      ⟨.ok ⟨ws.length, [], []⟩, store, { s with edit := t }, []⟩ := by
  induction ws generalizing s number with
  | nil =>
    obtain rfl := Option.some.inj hrebuild
    rfl
  | cons w ws ih =>
    rw [rebuild] at hrebuild
    obtain ⟨edit, hrun, hrest⟩ := Option.bind_eq_some_iff.mp hrebuild
    have hw := hAsked w (List.mem_cons_self ..)
    have houtcome : lineOutcome store.schema s number (entryLine w.entry) =
        .applied { s with edit := edit } := by
      unfold lineOutcome
      rw [ofText_entryLine hw.tellable]
      exact editOutcome_eq_applied_iff.mpr (setWords_entry hw hlevel hrun)
    -- the others find the session with this write done
    have hothers := ih (fun w' hw' => hAsked w' (List.mem_cons_of_mem _ hw'))
      (s := { s with edit := edit }) hlevel hrest (number + 1)
    rw [List.map_cons, List.map_cons, loadLines_cons, houtcome, goOn, hothers]
    rfl

/-- The words of the entries of a configuration can be written as lines. -/
theorem Schema.Admits.told {schema : Schema} {t : Tree} (h : schema.Admits t)
    (hWritable : t.Writable) :
    ∀ entry ∈ t.entries [], entry ≠ [] ∧ ∀ word ∈ entry, Tellable word := by
  intro entry hentry
  by_cases hne : t = Tree.empty
  · -- nothing is said of an empty root
    rw [hne] at hentry
    exact absurd hentry List.not_mem_nil
  · obtain ⟨children, rfl, -⟩ := (Schema.Place.Conforms.fits h).isSubtree rfl
    rw [Tree.entries_eq fun hnil => hne (congrArg Tree.subtree hnil)] at hentry
    obtain ⟨w, hw, rfl⟩ := List.mem_map.mp hentry
    obtain ⟨htellable, path, last, hsnoc, -⟩ := h.askedBack hWritable hne hw
    exact ⟨by rw [hsnoc]; simp, htellable⟩

/-- The lines of the entries of a configuration that conforms, and that a command file can tell,
build it again where nothing is configured. -/
theorem loadLines_told {store : Store World Dict} {t : Tree} (h : store.schema.Admits t)
    (hWritable : t.Writable) (number : Nat) :
    loadLines number ((t.entries []).map entryLine) store ⟨Tree.empty, []⟩ =
      ⟨.ok ⟨(t.entries []).length, [], []⟩, store, ⟨t, []⟩, []⟩ := by
  -- an empty tree has no lines at all
  by_cases hne : t = Tree.empty
  · rw [hne]
    rfl
  · obtain ⟨children, rfl, -⟩ := (Schema.Place.Conforms.fits h).isSubtree rfl
    have hchildren : children ≠ [] := fun hnil => hne (congrArg Tree.subtree hnil)
    have hentries := Tree.entries_eq hchildren
    have hAsked : ∀ w ∈ (Tree.subtree children).writes [], w.AskedBack store.schema :=
      fun w hw => h.askedBack hWritable hne hw
    -- the lines, carried out in order, rebuild the tree from nothing
    have hrebuild : rebuild ((Tree.subtree children).writes []) (some Tree.empty) =
        some (.subtree children) := by
      have hOrdered := h.neat.ordered [] children rfl
      cases children with
      | nil => exact absurd rfl hchildren
      | cons child rest =>
        rw [Tree.writes]
        exact Tree.rebuild_childWrites (child :: rest) [] hchildren hOrdered
          (fun entry hentry => h.neat.child hentry) (some Tree.empty) rfl
    rw [hentries, loadLines_entries hAsked rfl hrebuild, List.length_map]

theorem Store.openSession_of_empty {store : Store World Dict} (h : store.running = Tree.empty) :
    store.openSession = ⟨Tree.empty, []⟩ := by
  rw [Store.openSession, h]
  rfl

/-- A configuration that conforms and that a command file can tell is built again by loading its
command lines, where nothing is configured. -/
theorem load_commandLines {store : Store World Dict} {t : Tree} (h : store.schema.Admits t)
    (hWritable : t.Writable) (hrunning : store.running = Tree.empty) :
    load store store.openSession (commandLines [] (some t)) =
      ⟨.ok ⟨(t.entries []).length, [], []⟩, store, ⟨t, []⟩, []⟩ := by
  rw [load, textLines_commandLines (h.told hWritable), Store.openSession_of_empty hrunning,
    loadLines_told h hWritable]

/-- And so it is by loading what is saved of it. -/
theorem load_savedText {store : Store World Dict} {t : Tree} (h : store.schema.Admits t)
    (hWritable : t.Writable) (hrunning : store.running = Tree.empty) :
    load store store.openSession (savedText t) =
      ⟨.ok ⟨(t.entries []).length, [], []⟩, store, ⟨t, []⟩, []⟩ := by
  have hheader : lineOutcome store.schema ⟨Tree.empty, []⟩ 1 savedHeader = .nothing := by
    unfold lineOutcome
    rw [ofText_savedHeader]
  rw [load, textLines_savedText (h.told hWritable), Store.openSession_of_empty hrunning,
    loadLines_cons, hheader, goOn, loadLines_told h hWritable]

namespace Host

/-- What runs on a host that comes from an empty configuration, and can be written as a command
file, is saved in a file that loads without a line skipped: in a new session of any store of the
schema where nothing is configured, one set is done for each entry, nothing else happens, and the
session has the configuration that was saved. -/
theorem Reachable.load_saved {World' Dict' : Type} {schema : Schema}
    (hSchema : schema.Compiled) {h : Host World Dict} (hReach : h.Reachable schema)
    (hWritable : h.store.running.Writable) {store : Store World' Dict'}
    (hdeclared : store.schema = schema) (hrunning : store.running = Tree.empty) :
    load store store.openSession (savedText h.store.running) =
      ⟨.ok ⟨(h.store.running.entries []).length, [], []⟩, store, ⟨h.store.running, []⟩, []⟩ := by
  have hAdmits : store.schema.Admits h.store.running := by
    rw [hdeclared]
    exact (hReach.sound hSchema).store.running
  exact RouterConfig.load_savedText hAdmits hWritable hrunning

end Host

/-- The sample configuration can be written out, with blanks and a quote in its values. -/
theorem Sample.configured_writable : Sample.configured.Writable := by
  -- the sample's leaves are good by inspection of their values, and its subtrees child by child
  have hvalues : ∀ values : List String, (∀ value ∈ values, '\n' ∉ value.toList) →
      (Tree.list values).Writable := fun values h => Tree.writable_leaf (t := .list values) rfl h
  have hvalue : ∀ value : String, '\n' ∉ value.toList → (Tree.scalar value).Writable :=
    fun value h => Tree.writable_leaf (t := .scalar value) rfl fun v hv =>
      List.mem_singleton.mp hv ▸ h
  have heth0 : (Tree.subtree
      [("address", .list ["10.0.0.1", "10.0.0.1"]), ("disabled", .scalar "")]).Writable := by
    refine Tree.writable_subtree ?_
    simp only [List.forall_mem_cons]
    exact ⟨⟨by decide, hvalues _ (by decide)⟩, ⟨by decide, hvalue _ (by decide)⟩, by simp⟩
  have hinterface : (Tree.subtree
      [("eth0", .subtree [("address", .list ["10.0.0.1", "10.0.0.1"]), ("disabled", .scalar "")]),
        ("eth1", .subtree [])]).Writable := by
    refine Tree.writable_subtree ?_
    simp only [List.forall_mem_cons]
    exact ⟨⟨by decide, heth0⟩, ⟨by decide, Tree.writable_subtree (by simp)⟩, by simp⟩
  have hsystem : (Tree.subtree [("name", .scalar "rack 4's router")]).Writable := by
    refine Tree.writable_subtree ?_
    simp only [List.forall_mem_cons]
    exact ⟨⟨by decide, hvalue _ (by decide)⟩, by simp⟩
  refine Tree.writable_subtree ?_
  simp only [List.forall_mem_cons]
  exact ⟨⟨by decide, hinterface⟩, ⟨by decide, hsystem⟩, by simp⟩

namespace Host

/-- Values with blanks and a quote, a value that stands twice, a leaf without a value and an empty
instance are loaded as they were saved. -/
theorem load_saved_sample :
    (Sample.schema.Compiled ∧ (Sample.host.run Sample.steps).Reachable Sample.schema ∧
      Sample.configured.Writable) ∧
    savedText Sample.configured =
      "# routecfg-config-version: 0\n" ++
      "set interface eth0 address 10.0.0.1\n" ++
      "set interface eth0 address 10.0.0.1\n" ++
      "set interface eth0 disabled\n" ++
      "set interface eth1\n" ++
      "set system name \"rack 4's router\"\n" ∧
    load Sample.host.store Sample.host.store.openSession (savedText Sample.configured) =
      ⟨.ok ⟨5, [], []⟩, Sample.host.store, ⟨Sample.configured, []⟩, []⟩ := by
  have hReach := Sample.reachable Sample.steps
  exact ⟨⟨Sample.compiled, hReach, Sample.configured_writable⟩, by decide +kernel,
    Reachable.load_saved Sample.compiled hReach Sample.configured_writable rfl rfl⟩

end Host

end RouterConfig
