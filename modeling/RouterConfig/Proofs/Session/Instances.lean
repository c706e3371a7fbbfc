import RouterConfig.Proofs.Session.Commuting

/-!
# RouterConfig — which instance a typed word names

At the end of a command line a word names an instance by what is left of it without its quotes; in
front of other words, and where an instance is deleted, it names the instance that is called exactly
like it. Main results:

* `Session.set_instance`, `Session.set_within_instance`, `Session.delete_instance` — which instance
  a word names, by where it stands;
* `Session.names_one_instance_iff` — it names one and the same wherever it stands if and only if it
  is not quoted.
-/

namespace RouterConfig.Session

variable {schema : Schema} {s s' : Session} {tag : Path} {word : String}

/-! ## Sets and the positions they write to -/

/-- What a set does to a sound session: it writes at one position. -/
theorem Sound.set_eq_ok (hs : s.Sound schema) (hSchema : schema.Compiled) {path : Path}
    {typed : String} (h : s.set schema path typed = .ok s') :
    ∃ w : Write, w.path = schema.targetAt (s.absolute path) (some typed) ∧
      w.run? s.edit = some s'.edit := by
  obtain ⟨w, hw, hrun⟩ := hs.write_of_set hSchema h
  exact ⟨w, Schema.path_of_writeAt hw, hrun⟩

/-- Instances of different names stand at positions that part, with all that is below them. -/
theorem parts_of_ne {name other : String} (h : name ≠ other) (tag rest rest' : Path) :
    (tag ++ name :: rest).Parts (tag ++ other :: rest') := by
  induction tag with
  | nil => exact .here h
  | cons first tag ih => exact .further ih

/-- A tag node is no leaf. -/
theorem isLeaf_of_isTag (hTag : schema.isTag tag = true) : schema.isLeaf tag = false := by
  rw [Schema.isTag] at hTag
  rw [Schema.isLeaf]
  cases hnode : schema.declared? tag with
  | none => rfl
  | some node =>
    have hkind : node.kind = .tag := by simpa [hnode, Schema.Node.isTag] using hTag
    simp [Schema.Node.isLeaf, hkind]

theorem absolute_of_root (hroot : s.level = []) (path : Path) : s.absolute path = path := by
  rw [absolute, hroot]
  rfl

/-! ## Which instance a word names -/

/-- The last word of a set names an instance without its quotes. -/
theorem set_instance (hSchema : schema.Compiled) (hs : s.Sound schema) (hroot : s.level = [])
    (hTag : schema.isTag tag = true)
    (hset : s.setWords schema (tag ++ [word]) = .ok s') :
    (s'.edit.get? (tag ++ [unquote word])).isSome = true ∧
      ∀ name, name ≠ unquote word → s'.edit.get? (tag ++ [name]) = s.edit.get? (tag ++ [name]) := by
  rw [setWords, List.getLast?_concat, List.dropLast_concat] at hset
  obtain ⟨w, hpath, hrun⟩ := hs.set_eq_ok hSchema hset
  rw [absolute_of_root hroot, Schema.targetAt, isLeaf_of_isTag hTag, if_neg (by simp)] at hpath
  rw [Write.run?, hpath] at hrun
  constructor
  · obtain ⟨made, -, hmade⟩ := Tree.get?_update?_self hrun
    rw [hmade]
    rfl
  · intro name hname
    exact Tree.get?_update?_of_parts (parts_of_ne hname tag [] []) hrun

/-- A word in front of others names the instance that is called exactly like it. -/
theorem set_within_instance (hSchema : schema.Compiled) (hs : s.Sound schema) (hroot : s.level = [])
    {rest : List String} (hrest : rest ≠ [])
    (hset : s.setWords schema (tag ++ word :: rest) = .ok s') :
    (s'.edit.get? (tag ++ [word])).isSome = true ∧
      ∀ name, name ≠ word → s'.edit.get? (tag ++ [name]) = s.edit.get? (tag ++ [name]) := by
  obtain ⟨init, last, rfl⟩ : ∃ init last, rest = init ++ [last] :=
    ⟨_, _, (List.dropLast_concat_getLast hrest).symm⟩
  have hwords : tag ++ word :: (init ++ [last]) = (tag ++ word :: init) ++ [last] := by simp
  rw [hwords, setWords, List.getLast?_concat, List.dropLast_concat] at hset
  obtain ⟨w, hpath, hrun⟩ := hs.set_eq_ok hSchema hset
  -- the last word may be a value or one name more, but the way leads through the instance
  obtain ⟨below, hbelow⟩ : ∃ below, w.path = tag ++ word :: below := by
    rw [hpath, absolute_of_root hroot, Schema.targetAt]
    split
    · exact ⟨init, rfl⟩
    · exact ⟨init ++ [unquote last], by simp⟩
  rw [Write.run?, hbelow] at hrun
  constructor
  · have hway : tag ++ word :: below = (tag ++ [word]) ++ below := by simp
    rw [hway] at hrun
    obtain ⟨node, hnode⟩ := Tree.get?_of_update?_append hrun
    rw [hnode]
    rfl
  · intro name hname
    exact Tree.get?_update?_of_parts (parts_of_ne hname tag [] below) hrun

/-- Any word names an instance of a tag node. -/
theorem resolve_instance (hTag : schema.isTag tag = true) (word : String) :
    ∃ place, schema.resolve (tag ++ [word]) = .ok place := by
  rw [Schema.isTag, Option.any_eq_true] at hTag
  obtain ⟨node, hnode, hkind⟩ := hTag
  have hLeads := Schema.declared?_eq_some_iff.mp hnode
  have hplace : (Schema.Place.declared node).isTag = true := hkind
  have henter := Schema.Place.enter_of_isTag hplace word
  exact ⟨_, Schema.resolve_eq_ok_iff.mpr (Schema.Place.leads_snoc_iff.mpr ⟨_, hLeads, henter⟩)⟩

/-- A delete of an instance takes out the one that is called exactly like its last word. -/
theorem delete_instance (hs : s.Sound schema) (hroot : s.level = [])
    (hTag : schema.isTag tag = true) :
    ∃ s', s.deleteWords schema (tag ++ [word]) = .ok s' ∧
      s'.edit.get? (tag ++ [word]) = none ∧
      ∀ name, name ≠ word → s'.edit.get? (tag ++ [name]) = s.edit.get? (tag ++ [name]) := by
  obtain ⟨place, hplace⟩ := resolve_instance hTag word
  have hOrderly := hs.edit.orderly
  -- a tag node is no leaf, so that all words together are the position
  have hdelete : s.deleteWords schema (tag ++ [word]) =
      .ok { s with edit := (Removal.mk (tag ++ [word]) none).run s.edit } := by
    unfold deleteWords
    dsimp only
    rw [List.dropLast_concat, absolute_of_root hroot, isLeaf_of_isTag hTag, if_neg (by simp),
      delete_eq_removal hs.edit, absolute_of_root hroot, Schema.removalAt, hplace]
    rfl
  have hfound : ∀ name, ((Removal.mk (tag ++ [word]) none).run s.edit).get? (tag ++ [name]) =
      (s.edit.cut (Removal.deed none) (tag ++ [word])).bind fun left => left.get? (tag ++ [name]) :=
    fun name => Removal.get?_run (by simp) (by simp) s.edit
  refine ⟨_, hdelete, ?_, fun name hname => ?_⟩
  · rw [hfound, Tree.get?_cut_self hOrderly]
    cases s.edit.get? (tag ++ [word]) <;> rfl
  · rw [hfound]
    exact Tree.get?_cut_of_parts (parts_of_ne hname tag [] []) hOrderly _

/-! ## One and the same instance -/

/-- Whether a word, in front of others and where an instance is deleted, names the instance of the
given name: whatever is set inside of it is set there and nowhere else among the instances, and
nothing of it is left once it is deleted. -/
def Names (schema : Schema) (tag : Path) (word name : String) (s : Session) : Prop :=
  (∀ rest s', rest ≠ [] → s.setWords schema (tag ++ word :: rest) = .ok s' →
    (s'.edit.get? (tag ++ [name])).isSome = true ∧
      ∀ other, other ≠ name → s'.edit.get? (tag ++ [other]) = s.edit.get? (tag ++ [other])) ∧
  ∃ s', s.deleteWords schema (tag ++ [word]) = .ok s' ∧ s'.edit.get? (tag ++ [name]) = none

/-- A word names the instance that is called exactly like it. -/
theorem names_itself (hSchema : schema.Compiled) (hs : s.Sound schema) (hroot : s.level = [])
    (hTag : schema.isTag tag = true) : s.Names schema tag word word := by
  refine ⟨fun rest s' hrest hset => set_within_instance hSchema hs hroot hrest hset, ?_⟩
  obtain ⟨s', hdelete, hgone, -⟩ := delete_instance hs hroot hTag
  exact ⟨s', hdelete, hgone⟩

/-- Where an instance has been set by a word at the end of a line, the instance is there, and no
other one has changed. In every session at the root, the same word in front of others, or where an
instance is deleted, names the instance that is called exactly like the word. So the two are one in
all sessions at the root if and only if the word has no quotes to lose. -/
theorem names_one_instance_iff (hSchema : schema.Compiled) (hs : s.Reachable schema)
    (hroot : s.level = []) (hTag : schema.isTag tag = true)
    (hset : s.setWords schema (tag ++ [word]) = .ok s') :
    ((s'.edit.get? (tag ++ [unquote word])).isSome = true ∧
      ∀ name, name ≠ unquote word →
        s'.edit.get? (tag ++ [name]) = s.edit.get? (tag ++ [name])) ∧
    (∀ t : Session, t.Reachable schema → t.level = [] → t.Names schema tag word word) ∧
    ((∀ t : Session, t.Reachable schema → t.level = [] →
        t.Names schema tag word (unquote word)) ↔ unquote word = word) := by
  have hSound := hs.sound hSchema
  have hmade := set_instance hSchema hSound hroot hTag hset
  -- an instance that is set under its own name is deleted under it
  have hitself : ∀ t : Session, t.Reachable schema → t.level = [] →
      t.Names schema tag word word := fun t ht hlevel =>
    names_itself hSchema (ht.sound hSchema) hlevel hTag
  refine ⟨hmade, hitself, fun hnames => ?_, fun hword => ?_⟩
  · -- otherwise deleting would leave the instance there that has just been set
    refine Classical.byContradiction fun hquoted => ?_
    have hReach := hs.setWords hset
    -- the request that sets the instance is a request of the session, so the state is reachable too
    have hlevel : s'.level = [] := by
      rw [setWords, List.getLast?_concat] at hset
      rw [set_level hset, hroot]
    obtain ⟨left, hdelete, hgone⟩ := (hnames s' hReach hlevel).2
    obtain ⟨left', hdelete', -, hothers⟩ := delete_instance (hReach.sound hSchema) hlevel hTag
    obtain rfl := Except.ok.inj (hdelete.symm.trans hdelete')
    rw [hothers _ hquoted] at hgone
    rw [hgone] at hmade
    exact absurd hmade.1 (by simp)
  · rw [hword]
    exact hitself

/-- A bare word names one instance wherever it stands. -/
theorem names_one_instance_of_bare :
    let start := Sample.host.session "a"
    let made : Session := ⟨.subtree [("interface", .subtree [("eth0", .subtree [])])], []⟩
    (Sample.schema.Compiled ∧ start.Reachable Sample.schema ∧ start.level = [] ∧
      Sample.schema.isTag ["interface"] = true ∧
      start.setWords Sample.schema (["interface"] ++ ["eth0"]) = .ok made) ∧
    ∀ t : Session, t.Reachable Sample.schema → t.level = [] →
      t.Names Sample.schema ["interface"] "eth0" (unquote "eth0") := by
  intro start made
  have hReach : start.Reachable Sample.schema :=
    ⟨Unit, Unit, Sample.host, "a", Sample.reachable [], .refl⟩
  have hTag : Sample.schema.isTag ["interface"] = true := by decide
  have hset : start.setWords Sample.schema (["interface"] ++ ["eth0"]) = .ok made := rfl
  exact ⟨⟨Sample.compiled, hReach, rfl, hTag, hset⟩,
    (names_one_instance_iff Sample.compiled hReach rfl hTag hset).2.2.mpr (by decide)⟩

/-- A quoted word names two: it makes an instance at the end of a line and another one in front of
an address, and deleting by it leaves the first. -/
theorem quoted_word_names_two :
    let word := "'up link'"
    let made : Session := ⟨.subtree [("interface", .subtree [("up link", .subtree [])])], []⟩
    let within : Session := ⟨.subtree [("interface", .subtree
      [("'up link'", .subtree [("address", .list ["10.0.0.1"])]), ("up link", .subtree [])])], []⟩
    quotedWords "interface 'up link'" = ["interface", word] ∧
      (Sample.host.session "a").setWords Sample.schema ["interface", word] = .ok made ∧
      made.setWords Sample.schema ["interface", word, "address", "10.0.0.1"] = .ok within ∧
      within.deleteWords Sample.schema ["interface", word] = .ok made := by
  intro word made within
  have hok : ∀ (result : Except Error Session) s, result.toOption = some s → result = .ok s := by
    intro result s h
    cases result with
    | error cause => exact absurd h (by simp [Except.toOption])
    | ok made => exact congrArg Except.ok (Option.some.inj h)
  exact ⟨by decide, hok _ _ (by decide +kernel), hok _ _ (by decide +kernel),
    hok _ _ (by decide +kernel)⟩

end RouterConfig.Session
