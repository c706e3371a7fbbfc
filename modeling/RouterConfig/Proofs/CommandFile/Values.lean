import RouterConfig.Proofs.CommandFile.RoundTrip
import RouterConfig.Proofs.Commit.Interleaving
import RouterConfig.Proofs.Session.Effects
import RouterConfig.Proofs.Text.Lines

/-!
# RouterConfig — which values command lines bring back

A value comes out of a command file in one piece of one of its lines, or not at all. Now a set takes
every value that can be quoted, whether or not it is on one line, and so what a set has stored is
brought back by its command lines if and only if there is no line feed in it. Main results:

* `Session.Sound.stores_of_set`, `Session.Sound.stores_of_delete` — an edit stores nothing but what
  was stored or typed;
* `load_stores` — a load stores nothing but what was stored or stands on one of its lines;
* `Session.set_written_back` — which values that are set come back.
-/

namespace RouterConfig

variable {World Dict : Type}

/-! ## Values in a tree -/

namespace Tree

variable {t t' node : Tree} {p : Path} {value : String}

/-- Whether some leaf of the tree holds a value. -/
def Stores (t : Tree) (value : String) : Prop :=
  ∃ path leaf, t.get? path = some leaf ∧ leaf.isSubtree = false ∧ value ∈ leaf.values

/-- A leaf stores its own values. -/
theorem stores_iff_of_value (ht : t.isSubtree = false) : t.Stores value ↔ value ∈ t.values := by
  refine ⟨?_, fun h => ⟨[], t, rfl, ht, h⟩⟩
  rintro ⟨path, leaf, hget, -, hvalue⟩
  cases path with
  | nil => exact Option.some.inj hget ▸ hvalue
  | cons name rest =>
    rw [get?_cons_of_value ht] at hget
    exact absurd hget (by simp)

/-- The empty tree stores nothing. -/
theorem not_stores_empty : ¬ Tree.empty.Stores value := by
  rintro ⟨path, leaf, hget, hLeaf, -⟩
  cases path with
  | nil =>
    rw [← Option.some.inj hget] at hLeaf
    exact absurd hLeaf (by simp [empty, isSubtree])
  | cons name rest => exact absurd hget (by simp [empty, get?, Keyed.get?])

theorem Stores.of_get? (hnode : t.get? p = some node) (h : node.Stores value) : t.Stores value := by
  obtain ⟨path, leaf, hget, hleaf⟩ := h
  exact ⟨p ++ path, leaf, by rw [get?_append, hnode, Option.bind_some, hget], hleaf⟩

/-- A value that is stored in a tree which has been changed at a position alone was stored before,
or is stored at the position now. -/
theorem Stores.of_changed (h : t'.Stores value)
    (hway : ∀ q above, q <+: p → q ≠ p → t'.get? q = some above → above.isSubtree = true)
    (hbeside : ∀ q : Path, q.Parts p → t'.get? q = t.get? q) :
    t.Stores value ∨ ∃ node, t'.get? p = some node ∧ node.Stores value := by
  -- the leaf may be below what has changed, above it, or beside it
  obtain ⟨q, leaf, hget, hLeaf, hvalue⟩ := h
  by_cases hbelow : p <+: q
  · right
    obtain ⟨rest, rfl⟩ := hbelow
    rw [get?_append] at hget
    obtain ⟨node, hnode, hrest⟩ := Option.bind_eq_some_iff.mp hget
    exact ⟨node, hnode, rest, leaf, hrest, hLeaf, hvalue⟩
  by_cases habove : q <+: p
  · -- what stands above the position is no leaf
    have hsubtree := hway q leaf habove (fun heq => hbelow (heq ▸ List.prefix_rfl)) hget
    exact absurd hsubtree (by simp [hLeaf])
  · left
    rw [hbeside q (Path.parts_iff.mpr ⟨habove, hbelow⟩)] at hget
    exact ⟨q, leaf, hget, hLeaf, hvalue⟩

/-- A tree that has been written to stores the values it had, or those of the node that was
written. -/
theorem Written.stores (h : t.Written p node t') (hstored : t'.Stores value) :
    t.Stores value ∨ node.Stores value := by
  refine (hstored.of_changed ?_ h.beside).imp_right ?_
  · intro q above hq hne habove
    obtain ⟨children, hchildren⟩ := h.way q hq hne
    rw [Option.some.inj (habove.symm.trans hchildren)]
    rfl
  · rintro ⟨found, hfound, hstores⟩
    exact Option.some.inj (hfound.symm.trans h.here) ▸ hstores

/-- A tree that something was taken out of stores values it had, or those of what was left in its
place. -/
theorem Cleared.stores {left? : Option Tree} (h : t.Cleared p left? t')
    (hstored : t'.Stores value) :
    t.Stores value ∨ ∃ left, left? = some left ∧ left.Stores value := by
  refine (hstored.of_changed ?_ h.beside).imp_right ?_
  · intro q above hq hne habove
    by_cases hroot : q = []
    · rw [hroot] at habove
      exact Option.some.inj habove ▸ h.root
    · obtain ⟨children, rfl⟩ := h.way hq hne hroot habove
      rfl
  · rintro ⟨found, hfound, hstores⟩
    exact ⟨found, h.here.symm.trans hfound, hstores⟩

end Tree

/-! ## Values that edits store -/

/-- What is put somewhere holds nothing but what was stored before, the value, or nothing. -/
theorem Schema.Place.Puts.stores {place : Place} {full target : Path} {v value : String}
    {t node : Tree} (h : place.Puts full v t target node) (hstored : node.Stores value) :
    t.Stores value ∨ value.toList <:+: v.toList := by
  -- an instance or an internal node is made from what is there, so it brings no value
  have hmade : ∀ path, (t.subtreeAt path).Stores value → t.Stores value := by
    intro path hpath
    rw [Tree.subtreeAt] at hpath
    cases hget : t.get? path with
    | none => exact absurd (hget ▸ hpath) Tree.not_stores_empty
    | some found => exact .of_get? hget (by simpa [hget] using hpath)
  have hscalar : ∀ stored, (Tree.scalar stored).Stores value → value = stored := fun stored hs =>
    List.mem_singleton.mp ((Tree.stores_iff_of_value rfl).mp hs)
  have hlist : ∀ values, (Tree.list values).Stores value → value ∈ values := fun values hs =>
    (Tree.stores_iff_of_value rfl).mp hs
  -- by what is put: nothing, the value itself, or the value after those that were there
  cases h with
  | value =>
    right
    rw [hscalar _ hstored]
  | presence =>
    right
    rw [hscalar _ hstored]
    exact List.nil_infix
  | further _ _ _ hget =>
    -- the value comes after those that were there
    rcases List.mem_append.mp (hlist _ hstored) with hbefore | hlast
    · exact .inl (.of_get? hget ((Tree.stores_iff_of_value rfl).mpr hbefore))
    · right
      rw [List.mem_singleton.mp hlast]
  | first =>
    right
    rw [List.mem_singleton.mp (hlist _ hstored)]
  | named => exact .inl (hmade _ hstored)
  | inner => exact .inl (hmade _ hstored)
  | present =>
    right
    rw [hscalar _ hstored]
    exact List.nil_infix

/-- What a removal leaves of a node stores values that the node had. -/
theorem Removal.Leaves.stores {value? : Option String} {node left : Tree} {value : String}
    (h : Leaves value? node (some left)) (hstored : left.Stores value) : node.Stores value := by
  generalize hleft : some left = left? at h
  cases h with
  | nothing => exact absurd hleft (by simp)
  | single => exact absurd hleft (by simp)
  | last => exact absurd hleft (by simp)
  | @others taken before after _ _ =>
    rw [Option.some.inj hleft] at hstored
    have hmem : value ∈ before ++ after := (Tree.stores_iff_of_value rfl).mp hstored
    refine (Tree.stores_iff_of_value rfl).mpr ?_
    show value ∈ before ++ taken :: after
    rcases List.mem_append.mp hmem with hbefore | hafter
    · exact List.mem_append_left _ hbefore
    · exact List.mem_append_right _ (List.mem_cons_of_mem _ hafter)

namespace Session.Sound

variable {schema : Schema} {s s' : Session} {value : String}

/-- What a set that succeeds has put where: the place that its path leads to has accepted the value,
and says so. -/
theorem puts_of_set (h : s.Sound schema) (hSchema : schema.Compiled) {path : Path} {typed : String}
    (hset : s.set schema path typed = .ok s') :
    ∃ place target node, schema.resolve (s.absolute path) = .ok place ∧
      place.Accepts (unquote typed) ∧
      place.Puts (s.absolute path) (unquote typed) s.edit target node ∧
      s.edit.Written target node s'.edit := by
  obtain ⟨w, hw, hrun⟩ := h.write_of_set hSchema hset
  obtain ⟨node, hnode, hwritten⟩ := Tree.written_of_update? hrun
  obtain ⟨place, hplace, hputs⟩ := Schema.puts_of_writeAt hSchema hw hnode
  obtain ⟨-, other, hother, haccepts⟩ := Schema.writeAt_exists_iff.mp ⟨w, hw⟩
  obtain rfl : place = other := Except.ok.inj (hplace.symm.trans hother)
  exact ⟨place, w.path, node, hplace, haccepts, hputs, hwritten⟩

/-- What is stored after a set was stored before, or stands in what was typed. -/
theorem stores_of_set (h : s.Sound schema) (hSchema : schema.Compiled) {path : Path}
    {typed : String} (hset : s.set schema path typed = .ok s') (hstored : s'.edit.Stores value) :
    s.edit.Stores value ∨ value.toList <:+: typed.toList := by
  obtain ⟨place, target, node, -, -, hputs, hwritten⟩ := h.puts_of_set hSchema hset
  rcases hwritten.stores hstored with hbefore | hput
  · exact .inl hbefore
  · exact (hputs.stores hput).imp_right fun hpiece => hpiece.trans (infix_unquote typed)

/-- A delete that succeeds has changed nothing, or has cleared a position at which something stood
of all but what it leaves. -/
theorem cleared_of_delete (h : s.Sound schema) {path : Path} {typed? : Option String}
    (hdelete : s.delete schema path typed? = .ok s') : s'.edit = s.edit ∨
      ∃ target value? node left?, s.edit.get? target = some node ∧
        Removal.Leaves value? node left? ∧ s.edit.Cleared target left? s'.edit := by
  rw [Session.delete_eq_removal h.edit] at hdelete
  obtain ⟨r, hr, rfl⟩ := map_eq_ok hdelete
  obtain ⟨place, hplace, rfl⟩ := map_eq_ok hr
  by_cases hmisses : (place.removal (s.absolute path) typed?).Misses s.edit
  · exact .inl (Removal.run_of_misses h.edit hmisses)
  · obtain ⟨node, left?, hnode, hleaves, hcleared⟩ := Removal.cleared_of_run h.edit hplace hmisses
    exact .inr ⟨_, _, node, left?, hnode, hleaves, hcleared⟩

/-- What is stored after a delete was stored before. -/
theorem stores_of_delete (h : s.Sound schema) {path : Path} {typed? : Option String}
    (hdelete : s.delete schema path typed? = .ok s') (hstored : s'.edit.Stores value) :
    s.edit.Stores value := by
  rcases h.cleared_of_delete hdelete with hsame | ⟨_, _, node, left?, hnode, hleaves, hcleared⟩
  · exact hsame ▸ hstored
  · rcases hcleared.stores hstored with hbefore | ⟨left, rfl, hleft⟩
    · exact hbefore
    · exact .of_get? hnode (hleaves.stores hleft)

/-- What `set` stores with its words in a line was stored before or is a piece of one of the
words. -/
theorem stores_of_setWords (h : s.Sound schema) (hSchema : schema.Compiled) {words : List String}
    (hset : s.setWords schema words = .ok s') (hstored : s'.edit.Stores value) :
    s.edit.Stores value ∨ ∃ word ∈ words, value.toList <:+: word.toList := by
  rw [Session.setWords] at hset
  cases hlast : words.getLast? with
  | none => simp [hlast] at hset
  | some typed =>
    rw [hlast] at hset
    exact (h.stores_of_set hSchema hset hstored).imp_right fun hpiece =>
      ⟨typed, List.mem_of_getLast? hlast, hpiece⟩

/-- What is stored when words have been deleted was stored before. -/
theorem stores_of_deleteWords (h : s.Sound schema) {words : List String}
    (hdelete : s.deleteWords schema words = .ok s') (hstored : s'.edit.Stores value) :
    s.edit.Stores value := by
  simp only [Session.deleteWords] at hdelete
  split at hdelete
  · exact h.stores_of_delete hdelete hstored
  · exact h.stores_of_delete hdelete hstored

end Session.Sound

/-! ## Values that lines store -/

/-- The words of a `set` in a file are those of its line, quotes kept. -/
theorem quotedWords_of_ofText_set {line : String} {words : List String}
    (h : FileCommand.ofText line = .set words) : quotedWords (trim line) = "set" :: words := by
  simp only [FileCommand.ofText] at h
  split at h
  · exact absurd h (by simp)
  · unfold FileCommand.ofWords at h
    split at h <;> simp_all

/-- What is stored after a line has been applied was stored before, or stands on the line. -/
theorem lineOutcome_stores {schema : Schema} (hSchema : schema.Compiled) {s s' : Session}
    (hs : s.Sound schema) {number : Nat} {line : String}
    (h : lineOutcome schema s number line = .applied s') {value : String}
    (hstored : s'.edit.Stores value) : s.edit.Stores value ∨ value.toList <:+: line.toList := by
  unfold lineOutcome at h
  cases hcommand : FileCommand.ofText line with
  | set words =>
    rw [hcommand] at h
    refine (hs.stores_of_setWords hSchema (editOutcome_eq_applied_iff.mp h) hstored).imp_right ?_
    rintro ⟨word, hword, hpiece⟩
    have hmem : word ∈ quotedWords (trim line) := by
      rw [quotedWords_of_ofText_set hcommand]
      exact List.mem_cons_of_mem _ hword
    -- the stored value is a piece of a word, and a word is a piece of the line
    calc value.toList <:+: word.toList := hpiece
      _ <:+: (trim line).toList := infix_of_mem_quotedWords hmem
      _ <:+: line.toList := infix_trim line
  | delete words =>
    rw [hcommand] at h
    exact .inl (hs.stores_of_deleteWords (editOutcome_eq_applied_iff.mp h) hstored)
  | nothing => simp [hcommand] at h
  | commit => simp [hcommand] at h
  | unknown => simp [hcommand] at h

/-- A commit leaves the session as it is if modules read only. -/
theorem Store.commit_of_readsOnly {store : Store World Dict}
    (hReads : ∀ owner m, Keyed.get? store.modules owner = some m → m.ReadsOnly)
    (session : Session) : (store.commit session false).session = session := by
  have hedit := (covers_select hReads session).2
  rw [Store.commit_session]
  show Session.mk (store.select session).session.edit session.level = session
  rw [hedit]

/-- What a load of lines keeps, from a store and a session on: schema and modules are the same, and
what the session stores it has stored at first, or stands in one piece on one of the lines. -/
structure LoadedFrom (lines : List String) (store : Store World Dict) (session : Session)
    (now : Store World Dict) (s : Session) : Prop where
  declared : now.schema = store.schema
  modules : now.modules = store.modules
  sound : s.Sound store.schema
  stored : ∀ value, s.edit.Stores value →
    session.edit.Stores value ∨ ∃ line ∈ lines, value.toList <:+: line.toList

namespace LoadedFrom

variable {lines : List String} {store now : Store World Dict} {session s s' : Session}

/-- A line that is applied leads on from what has been loaded, one more line of the file. -/
theorem applied (h : LoadedFrom lines store session now s) (hSchema : store.schema.Compiled)
    {line : String} (hline : line ∈ lines) {number : Nat}
    (houtcome : lineOutcome now.schema s number line = .applied s') :
    LoadedFrom lines store session now s' := by
  rw [h.declared] at houtcome
  have hedit : Session.Edit store.schema Tree.empty s s' := lineOutcome_applied_edit houtcome
  have hsound := h.sound.step hSchema store.schema.admits_empty hedit
  refine ⟨h.declared, h.modules, hsound, fun value hstored => ?_⟩
  rcases lineOutcome_stores hSchema h.sound houtcome hstored with hbefore | hpiece
  · exact h.stored value hbefore
  · exact .inr ⟨line, hline, hpiece⟩

theorem commit (h : LoadedFrom lines store session now s)
    (hReads : ∀ owner m, Keyed.get? store.modules owner = some m → m.ReadsOnly) :
    LoadedFrom lines store session (now.commit s false).store (now.commit s false).session := by
  have hsetup := now.commit_sameSetup s false
  rw [Store.commit_of_readsOnly (h.modules ▸ hReads) s]
  exact ⟨hsetup.schema.trans h.declared, hsetup.modules.trans h.modules, h.sound, h.stored⟩

end LoadedFrom

/-- What is stored after a load was stored before, or stands in one piece on a line of the text. -/
theorem load_stores {store : Store World Dict} (hSchema : store.schema.Compiled)
    (hReads : ∀ owner m, Keyed.get? store.modules owner = some m → m.ReadsOnly)
    {session : Session} (hs : session.Sound store.schema) {text value : String}
    (h : (load store session text).session.edit.Stores value) :
    session.edit.Stores value ∨ ∃ line ∈ textLines text, value.toList <:+: line.toList := by
  have hstart : LoadedFrom (textLines text) store session store session :=
    ⟨rfl, rfl, hs, fun _ => .inl⟩
  have hloaded : LoadedFrom (textLines text) store session (load store session text).store
      (load store session text).session :=
    loadLines_keeps_of_lines
      (fun _ hline _ _ _ _ hnow houtcome => hnow.applied hSchema hline houtcome)
      (fun _ _ hnow => hnow.commit hReads) hstart
  exact hloaded.stored value h

/-! ## Values that come back -/

namespace Session

variable {schema : Schema} {path : Path} {place : Schema.Place} {typed : String} {s : Session}

/-- A leaf that is set where nothing is configured holds the value alone. -/
theorem written_of_set_leaf (hSchema : schema.Compiled) (hplace : schema.resolve path = .ok place)
    (hLeaf : place.isLeaf = true)
    (hset : (Session.ofRunning Tree.empty).set schema path typed = .ok s) :
    ∃ leaf, Tree.empty.Written path leaf s.edit ∧ leaf.isSubtree = false ∧
      leaf.values = [unquote typed] := by
  have hSound : (Session.ofRunning Tree.empty).Sound schema := sound_ofRunning schema.admits_empty
  obtain ⟨found, target, node, hfound, haccepts, hputs, hwritten⟩ := hSound.puts_of_set hSchema hset
  have habsolute : (Session.ofRunning Tree.empty).absolute path = path := List.nil_append path
  rw [habsolute] at hfound hputs
  obtain rfl : place = found := Except.ok.inj (hplace.symm.trans hfound)
  cases hputs with
  | value => exact ⟨_, hwritten, rfl, rfl⟩
  | first => exact ⟨_, hwritten, rfl, rfl⟩
  | presence _ hless =>
    -- a leaf that takes no value accepts the empty one only
    have hfault := (Schema.Place.accepts_leaf_iff hLeaf).mp haccepts
    have hempty : unquote typed = "" := by
      refine Classical.byContradiction fun hne => ?_
      simp [Schema.Node.valueFault?, hless, hne] at hfault
    exact ⟨_, hwritten, rfl, by rw [hempty]; rfl⟩
  | further _ _ _ hget =>
    have hfull := Schema.ne_nil_of_isLeaf (Schema.resolve_eq_ok_iff.mp hplace) hLeaf
    obtain ⟨name, rest, rfl⟩ := List.exists_cons_of_ne_nil hfull
    exact absurd hget (by simp [ofRunning, Tree.empty, Tree.get?, Keyed.get?])
  | named hTag => exact absurd hLeaf (by simp [Schema.Place.not_isLeaf_of_isTag hTag])
  | inner hnot => exact absurd hLeaf (by simp [hnot])
  | present hnot => exact absurd hLeaf (by simp [hnot])

/-- A leaf alone can be written as a command file if its path consists of plain words and its values
are on one line. -/
theorem writable_of_written {leaf t : Tree} (h : Tree.empty.Written path leaf t)
    (hNames : ∀ name ∈ path, Plain name) (hLeaf : leaf.isSubtree = false)
    (hvalues : ∀ value ∈ leaf.values, '\n' ∉ value.toList) : t.Writable := by
  -- a tree written from nothing stores the new leaf's values and no others
  have hstored : ∀ value, t.Stores value → '\n' ∉ value.toList := by
    intro value hvalue
    rcases h.stores hvalue with hempty | hvalue
    · exact absurd hempty Tree.not_stores_empty
    · exact hvalues value ((Tree.stores_iff_of_value hLeaf).mp hvalue)
  refine ⟨fun q node hget name hname => ?_, fun q value hget => ?_,
    fun q values hget value hvalue => ?_⟩
  · -- nothing stands below the leaf, and nothing beside it
    by_cases habove : q <+: path
    · exact hNames name (habove.subset hname)
    by_cases hbelow : path <+: q
    · obtain ⟨rest, rfl⟩ := hbelow
      rw [Tree.get?_append, h.here, Option.bind_some] at hget
      cases rest with
      | nil => exact absurd (by simp) habove
      | cons next rest =>
        rw [Tree.get?_cons_of_value hLeaf] at hget
        exact absurd hget (by simp)
    · rw [h.beside q (Path.parts_iff.mpr ⟨habove, hbelow⟩)] at hget
      obtain ⟨first, others, rfl⟩ := List.exists_cons_of_ne_nil (List.ne_nil_of_mem hname)
      exact absurd hget (by simp [Tree.empty, Tree.get?, Keyed.get?])
  · exact hstored value ⟨q, _, hget, rfl, List.mem_singleton_self _⟩
  · exact hstored value ⟨q, _, hget, rfl, hvalue⟩

/-- Which values that are set come back from the command lines of the session, for a leaf that plain
words lead to and that is set where nothing is configured. In a new session of any store of the
schema where nothing is configured, the lines build the same configuration, without a line skipped
and with nothing else happening, if there is no line feed in the value. If there is one, they do not
build it, whatever modules there are, as long as these read only. -/
theorem set_written_back (hSchema : schema.Compiled) (hplace : schema.resolve path = .ok place)
    (hLeaf : place.isLeaf = true) (hNames : ∀ name ∈ path, Plain name)
    (hset : (Session.ofRunning Tree.empty).set schema path typed = .ok s)
    {store : Store World Dict} (hdeclared : store.schema = schema)
    (hrunning : store.running = Tree.empty) :
    ('\n' ∉ (unquote typed).toList →
      load store store.openSession (commandLines [] (some s.edit)) =
        ⟨.ok ⟨(s.edit.entries []).length, [], []⟩, store, s, []⟩) ∧
    ('\n' ∈ (unquote typed).toList →
      (∀ owner m, Keyed.get? store.modules owner = some m → m.ReadsOnly) →
      (load store store.openSession (commandLines [] (some s.edit))).session.edit ≠ s.edit) := by
  have hSound : (Session.ofRunning Tree.empty).Sound schema := sound_ofRunning schema.admits_empty
  obtain ⟨leaf, hwritten, hnode, hvalues⟩ := written_of_set_leaf hSchema hplace hLeaf hset
  have hopened : store.openSession = ⟨Tree.empty, []⟩ := Store.openSession_of_empty hrunning
  constructor
  · -- without a line feed the file that is written reads back as the same tree
    intro hfeed
    have hAdmits : store.schema.Admits s.edit := hdeclared ▸ (hSound.set hSchema hset).edit
    have hWritable : s.edit.Writable := by
      refine writable_of_written hwritten hNames hnode fun value hvalue => ?_
      rw [hvalues] at hvalue
      rwa [List.mem_singleton.mp hvalue]
    have hsession : s = ⟨s.edit, []⟩ := by
      have hlevel : s.level = [] := set_level hset
      rw [← hlevel]
    rw [load_commandLines hAdmits hWritable hrunning, ← hsession]
  · -- with one, no line of the file can hold the value, whatever else is loaded
    intro hfeed hReads hedit
    have hstored : s.edit.Stores (unquote typed) :=
      ⟨path, leaf, hwritten.here, hnode, hvalues ▸ List.mem_singleton_self _⟩
    rw [← hedit] at hstored
    -- nothing was stored before, so one line would have to hold all of the value
    have hopen : store.openSession.Sound store.schema := by
      rw [hopened, hdeclared]
      exact hSound
    have htold := load_stores (hdeclared ▸ hSchema) hReads hopen hstored
    rcases htold with hbefore | ⟨line, hline, hpiece⟩
    · rw [hopened] at hbefore
      exact Tree.not_stores_empty hbefore
    · exact no_lineFeed_of_mem_textLines hline (hpiece.subset hfeed)

/-- A value with a carriage return and a vertical tab comes back, and one with a line feed does
not. -/
theorem set_written_back_without_line_feed :
    let path := ["system", "name"]
    let store := Sample.readers.store
    let returned : Session := ⟨.subtree [("system", .subtree
      [("name", .scalar "rack 4's\rrouter\x0b")])], []⟩
    let fed : Session := ⟨.subtree [("system", .subtree
      [("name", .scalar "core\nedge")])], []⟩
    (Sample.schema.Compiled ∧ (∃ place, Sample.schema.resolve path = .ok place ∧
        place.isLeaf = true) ∧ (∀ name ∈ path, Plain name) ∧ store.schema = Sample.schema ∧
      store.running = Tree.empty ∧
      ∀ owner m, Keyed.get? store.modules owner = some m → m.ReadsOnly) ∧
    ((Session.ofRunning Tree.empty).set Sample.schema path "rack 4's\rrouter\x0b" = .ok returned ∧
      load store store.openSession (commandLines [] (some returned.edit)) =
        ⟨.ok ⟨1, [], []⟩, store, returned, []⟩) ∧
    (Session.ofRunning Tree.empty).set Sample.schema path "core\nedge" = .ok fed ∧
      (load store store.openSession (commandLines [] (some fed.edit))).session.edit ≠ fed.edit := by
  intro path store returned fed
  have hNames : ∀ name ∈ path, Plain name := by decide
  have hreturned : (Session.ofRunning Tree.empty).set Sample.schema path "rack 4's\rrouter\x0b" =
      .ok returned := by decide +kernel
  have hfed : (Session.ofRunning Tree.empty).set Sample.schema path "core\nedge" = .ok fed := by
    decide +kernel
  -- the same request once for each of the two values
  obtain ⟨hback, -⟩ := @set_written_back _ _ _ _ _ _ _ Sample.compiled rfl rfl hNames hreturned
    store rfl rfl
  obtain ⟨-, hlost⟩ := @set_written_back _ _ _ _ _ _ _ Sample.compiled rfl rfl hNames hfed
    store rfl rfl
  exact ⟨⟨Sample.compiled, ⟨_, rfl, rfl⟩, hNames, rfl, rfl, Sample.readers_readsOnly⟩,
    ⟨hreturned, hback (by decide)⟩, hfed, hlost (by decide) Sample.readers_readsOnly⟩

/-- A value with a line feed is set, but written as a line that reading cuts in two: the first half
sets what stands before the line feed, and the second half is no command. -/
theorem set_beyond_line :
    let path := ["system", "name"]
    let store := Sample.readers.store
    let fed : Session := ⟨.subtree [("system", .subtree [("name", .scalar "core\nedge")])], []⟩
    (Sample.schema.Compiled ∧ Sample.schema.isLeaf path = true ∧ (∀ name ∈ path, Plain name) ∧
      store.schema = Sample.schema ∧ store.running = Tree.empty) ∧
    (Session.ofRunning Tree.empty).set Sample.schema path "core\nedge" = .ok fed ∧
      commandLines [] (some fed.edit) = "set system name 'core\nedge'\n" ∧
      (load store store.openSession (commandLines [] (some fed.edit))).result =
        .error (.commandFile 2 "invalid line \"edge'\"") ∧
      (load store store.openSession (commandLines [] (some fed.edit))).session.edit =
        .subtree [("system", .subtree [("name", .scalar "core")])] := by
  intro path store fed
  exact ⟨⟨Sample.compiled, rfl, by decide, rfl, rfl⟩, by decide +kernel⟩

end Session

end RouterConfig
