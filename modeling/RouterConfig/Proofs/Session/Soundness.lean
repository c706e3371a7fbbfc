import RouterConfig.Proofs.Session.Writing

/-!
# RouterConfig — sound sessions

A session is sound for a schema if its configuration conforms and its cursor is at a declared place.
Whatever is done to a sound session leaves it sound. What is stored in it never stands in the way of
an edit, so that the outcome of an edit is a matter of the schema, the cursor and the arguments
alone. Main results:

* `Session.Sound.edits` — a session stays sound, however it is edited;
* `Session.Sound.set_outcome`, `Session.delete_outcome` — whether an edit succeeds, and what it
  fails with, does not depend on what is stored, so that two sessions with one cursor agree on it
  (`Session.Sound.set_agree`, `Session.delete_agree`);
* `Schema.refusal_of_writeAt` — what the schema refuses to write it refuses for the sake of the path
  or of the value, and so no failure of a set blames what is stored
  (`Session.Sound.blamesStored_of_set`).
-/

namespace RouterConfig

/-! ## Failures that blame what is stored -/

/-- Whether it is what stands in the tree that is at fault. -/
def PathFault.blamesStored : PathFault → Bool
  | valueOnPath | notAList | valueAtRoot => true
  | _ => false

/-- Whether it is what stands in the tree that is at fault. -/
def Error.blamesStored : Error → Bool
  | .path _ fault => fault.blamesStored
  | _ => false

/-- The refusal of a path or of a value, for the sake of the schema alone. -/
def Error.Refusal (e : Error) : Prop :=
  ∃ path fault, e = .path path fault ∧ fault.blamesStored = false

namespace Error

theorem refusal_path {path : Path} {fault : PathFault} (h : fault.blamesStored = false) :
    (Error.path path fault).Refusal :=
  ⟨path, fault, rfl, h⟩

theorem Refusal.blamesStored {e : Error} (h : e.Refusal) : e.blamesStored = false := by
  obtain ⟨path, fault, rfl, hfault⟩ := h
  exact hfault

end Error

namespace Schema

/-- A step that fails blames what it asks for, and not what is stored. -/
theorem Place.blamesStored_of_enter {place : Place} {name : String} {fault : PathFault}
    (h : place.enter name = .error fault) : fault.blamesStored = false := by
  rw [enter] at h
  split at h
  · exact absurd h (by simp)
  · split at h
    · cases h
      rfl
    · cases hchild : place.node.child? name with
      | some child => simp [hchild] at h
      | none =>
        rw [hchild] at h
        cases h
        rfl

/-- A path that cannot be followed is refused for itself. -/
theorem Place.refusal_of_follow {place : Place} {walked path : Path} {e : Error}
    (h : place.follow walked path = .error e) : e.Refusal := by
  induction path generalizing place walked with
  | nil => exact absurd h (by simp [follow])
  | cons name rest ih =>
    rw [follow] at h
    cases henter : place.enter name with
    | ok next =>
      rw [henter] at h
      exact ih h
    | error fault =>
      rw [henter] at h
      cases h
      exact Error.refusal_path (blamesStored_of_enter henter)

/-- A fault that is found with a value blames the value, and not what is stored. -/
theorem Node.blamesStored_of_valueFault? {leaf : Node} {value : String} {fault : PathFault}
    (h : leaf.valueFault? value = some fault) : fault.blamesStored = false := by
  -- by the order of the tests; each fault names the leaf it was found at
  rw [valueFault?] at h
  split at h
  · cases h
    rfl
  · split at h
    · cases h
      rfl
    · cases hc : leaf.constraint? with
      | none => simp [hc] at h
      | some c =>
        rw [hc] at h
        dsimp only at h
        split at h
        · exact absurd h (by simp)
        · cases h
          rfl

/-- What a leaf fails with is a refusal of its value. -/
theorem Node.refusal_of_leafWrite {leaf : Node} {full : Path} {value : String} {e : Error}
    (h : leaf.leafWrite full value = .error e) : e.Refusal := by
  rw [leafWrite] at h
  cases hfault : leaf.valueFault? value with
  | some fault =>
    rw [hfault] at h
    cases h
    exact Error.refusal_path (blamesStored_of_valueFault? hfault)
  | none =>
    rw [hfault] at h
    dsimp only at h
    split at h <;> exact absurd h (by simp)

/-- What an instance fails with is a refusal of its name. -/
theorem refusal_of_instanceWrite {full : Path} {name : String} {e : Error}
    (h : instanceWrite full name = .error e) : e.Refusal := by
  rw [instanceWrite] at h
  split at h
  · cases h
    exact Error.refusal_path rfl
  · exact absurd h (by simp)

/-- What a child fails with is a refusal of its name. -/
theorem Node.refusal_of_childWrite {node : Node} {full : Path} {name : String} {e : Error}
    (h : node.childWrite full name = .error e) : e.Refusal := by
  -- a name that is not declared, or a leaf that would need a value
  rw [childWrite] at h
  cases hchild : node.child? name with
  | none =>
    rw [hchild] at h
    cases h
    exact Error.refusal_path rfl
  | some child =>
    rw [hchild] at h
    dsimp only at h
    split at h
    · exact absurd h (by simp)
    · split at h
      · cases h
        exact Error.refusal_path rfl
      · exact absurd h (by simp)

/-- What the schema refuses to write it refuses for the sake of the path or of the value. -/
theorem refusal_of_writeAt {schema : Schema} {full : Path} {typed : String} {e : Error}
    (h : schema.writeAt full typed = .error e) : e.Refusal := by
  -- by the order of the tests: the quotes, the path, and then the place
  rw [writeAt] at h
  split at h
  · cases h
    exact Error.refusal_path rfl
  cases hplace : schema.resolve full with
  | error cause =>
    rw [hplace] at h
    cases h
    exact Place.refusal_of_follow hplace
  | ok place =>
    rw [hplace] at h
    dsimp only at h
    split at h
    · exact Node.refusal_of_leafWrite h
    split at h
    · exact refusal_of_instanceWrite h
    · exact Node.refusal_of_childWrite h

end Schema

namespace Session

/-! ## Edits -/

/-- What is done to a session in one go, next to `running`, where it succeeds. -/
inductive Edit (schema : Schema) (running : Tree) (s : Session) : Session → Prop where
  | set {s' : Session} (path : Path) (typed : String) :
    s.set schema path typed = .ok s' → Edit schema running s s'
  | setWords {s' : Session} (words : List String) :
    s.setWords schema words = .ok s' → Edit schema running s s'
  | delete {s' : Session} (path : Path) (typed? : Option String) :
    s.delete schema path typed? = .ok s' → Edit schema running s s'
  | deleteWords {s' : Session} (words : List String) :
    s.deleteWords schema words = .ok s' → Edit schema running s s'
  | setLevel {s' : Session} (path : Path) :
    s.setLevel schema path = .ok s' → Edit schema running s s'
  | resetLevel : Edit schema running s s.resetLevel
  | discard : Edit schema running s (s.discard running)

/-- Any number of edits, one after the other. -/
inductive Edits (schema : Schema) (running : Tree) (s : Session) : Session → Prop where
  | refl : Edits schema running s s
  | tail {t u : Session} : Edits schema running s t → Edit schema running t u →
    Edits schema running s u

/-! ## Soundness -/

/-- A session whose configuration conforms and whose cursor is at a declared place. -/
structure Sound (schema : Schema) (s : Session) : Prop where
  edit : schema.Admits s.edit
  cursor : schema.declares s.level = true

theorem sound_ofRunning {schema : Schema} {running : Tree} (h : schema.Admits running) :
    (ofRunning running).Sound schema :=
  ⟨h, schema.declares_nil⟩

/-- A delete succeeds where its path leads to a place, whatever is stored. -/
theorem delete_outcome (s : Session) (schema : Schema) (path : Path) (typed? : Option String) :
    (s.delete schema path typed?).map (fun _ => ()) =
      (schema.resolve (s.absolute path)).map fun _ => () := by
  rw [delete]
  cases schema.resolve (s.absolute path) with
  | error e => rfl
  | ok place =>
    dsimp only
    cases deleted? s.edit place (s.absolute path) (typed?.map unquote) <;> rfl

/-- What stands in two sessions makes no difference to whether a delete succeeds. -/
theorem delete_agree {s s' : Session} (hlevel : s.level = s'.level) (schema : Schema) (path : Path)
    (typed? : Option String) :
    (s.delete schema path typed?).map (fun _ => ()) =
      (s'.delete schema path typed?).map fun _ => () := by
  rw [delete_outcome, delete_outcome, absolute, absolute, hlevel]

/-- What words delete depends on the cursor and the schema, and not on what is stored. -/
theorem deleteWords_agree {s s' : Session} (hlevel : s.level = s'.level) (schema : Schema)
    (words : List String) :
    (s.deleteWords schema words).map (fun _ => ()) =
      (s'.deleteWords schema words).map fun _ => () := by
  -- whether the last word is a value is for the schema to say, at the same place in both
  have hpath : s.absolute words.dropLast = s'.absolute words.dropLast := by
    rw [absolute, absolute, hlevel]
  unfold deleteWords
  dsimp only
  rw [hpath]
  by_cases hLeaf :
      (!words.dropLast.isEmpty && schema.isLeaf (s'.absolute words.dropLast)) = true
  · rw [if_pos hLeaf, if_pos hLeaf]
    exact delete_agree hlevel schema _ _
  · rw [if_neg hLeaf, if_neg hLeaf]
    exact delete_agree hlevel schema _ _

/-- A delete is refused for the sake of its path. -/
theorem refusal_of_delete {s : Session} {schema : Schema} {path : Path} {typed? : Option String}
    {e : Error} (he : s.delete schema path typed? = .error e) : e.Refusal := by
  have houtcome := s.delete_outcome schema path typed?
  rw [he] at houtcome
  cases hplace : schema.resolve (s.absolute path) with
  | ok place => simp [hplace, Except.map] at houtcome
  | error cause =>
    rw [hplace] at houtcome
    obtain rfl := Except.error.inj houtcome
    exact Schema.Place.refusal_of_follow hplace

theorem refusal_of_deleteWords {s : Session} {schema : Schema} {words : List String} {e : Error}
    (he : s.deleteWords schema words = .error e) : e.Refusal := by
  simp only [deleteWords] at he
  split at he <;> exact refusal_of_delete he

/-- A cursor that cannot be moved is refused for its path. -/
theorem refusal_of_setLevel {s : Session} {schema : Schema} {path : Path} {e : Error}
    (he : s.setLevel schema path = .error e) : e.Refusal := by
  rw [setLevel] at he
  cases hplace : schema.resolve path with
  | ok place => simp [hplace, Except.map] at he
  | error cause =>
    rw [hplace] at he
    obtain rfl := Except.error.inj he
    exact Schema.Place.refusal_of_follow hplace

namespace Sound

variable {schema : Schema} {running : Tree} {s s' : Session}

/-- Where all conforms, what the schema asks for is written. -/
theorem write_exists (h : s.Sound schema) (hSchema : schema.Compiled) {full : Path} {typed : String}
    {w : Write} (hw : schema.writeAt full typed = .ok w) :
    ∃ edit, s.write w = .ok { s with edit := edit } ∧ w.run? s.edit = some edit ∧
      schema.Admits edit := by
  obtain ⟨target, hLeads, hSuits⟩ := Schema.suits_of_writeAt hSchema hw
  obtain ⟨edit, hrun, hAdmits⟩ := h.edit.write hLeads hSuits
  refine ⟨edit, ?_, hrun, hAdmits⟩
  rw [write, hrun]

/-- A set that succeeds has written what the schema asks for. -/
theorem write_of_set (h : s.Sound schema) (hSchema : schema.Compiled) {path : Path}
    {typed : String} (hset : s.set schema path typed = .ok s') :
    ∃ w, schema.writeAt (s.absolute path) typed = .ok w ∧ w.run? s.edit = some s'.edit := by
  rw [set_eq_write] at hset
  cases hw : schema.writeAt (s.absolute path) typed with
  | error cause => simp [hw, Except.bind] at hset
  | ok w =>
    obtain ⟨edit, hwrite, hrun, -⟩ := h.write_exists hSchema hw
    rw [hw, Except.bind, hwrite, Except.ok.injEq] at hset
    exact ⟨w, rfl, hset ▸ hrun⟩

/-- Whether a set succeeds, and what it fails with, is for the schema to say. -/
theorem set_outcome (h : s.Sound schema) (hSchema : schema.Compiled) (path : Path)
    (typed : String) :
    (s.set schema path typed).map (fun _ => ()) =
      (schema.writeAt (s.absolute path) typed).map fun _ => () := by
  rw [set_eq_write]
  cases hw : schema.writeAt (s.absolute path) typed with
  | error e => rfl
  | ok w =>
    -- what the schema asks for can be written, so the write adds no failure
    obtain ⟨edit, hwrite, -⟩ := h.write_exists hSchema hw
    simp only [Except.bind, hwrite, Except.map]

/-- No failure of a set blames what is stored. -/
theorem blamesStored_of_set (h : s.Sound schema) (hSchema : schema.Compiled) {path : Path}
    {typed : String} {e : Error} (he : s.set schema path typed = .error e) :
    e.blamesStored = false := by
  have houtcome := h.set_outcome hSchema path typed
  rw [he] at houtcome
  cases hw : schema.writeAt (s.absolute path) typed with
  | ok w => simp [hw, Except.map] at houtcome
  | error cause =>
    rw [hw] at houtcome
    simp only [Except.map, Except.error.injEq] at houtcome
    exact houtcome ▸ (Schema.refusal_of_writeAt hw).blamesStored

/-- What stands in two sessions makes no difference to whether a set succeeds. -/
theorem set_agree (h : s.Sound schema) (h' : s'.Sound schema) (hSchema : schema.Compiled)
    (hlevel : s.level = s'.level) (path : Path) (typed : String) :
    (s.set schema path typed).map (fun _ => ()) = (s'.set schema path typed).map fun _ => () := by
  rw [h.set_outcome hSchema, h'.set_outcome hSchema, absolute, absolute, hlevel]

/-- What `set` answers depends on the cursor and the schema, and not on what is stored. -/
theorem setWords_agree (h : s.Sound schema) (h' : s'.Sound schema) (hSchema : schema.Compiled)
    (hlevel : s.level = s'.level) (words : List String) :
    (s.setWords schema words).map (fun _ => ()) = (s'.setWords schema words).map fun _ => () := by
  rw [setWords, setWords, hlevel]
  cases words.getLast? with
  | none => rfl
  | some typed => exact h.set_agree h' hSchema hlevel _ _

/-- What `set` fails with blames the words, and not what is stored. -/
theorem blamesStored_of_setWords (h : s.Sound schema) (hSchema : schema.Compiled)
    {words : List String} {e : Error} (he : s.setWords schema words = .error e) :
    e.blamesStored = false := by
  rw [setWords] at he
  cases hlast : words.getLast? with
  | none =>
    rw [hlast] at he
    cases he
    rfl
  | some typed =>
    rw [hlast] at he
    exact h.blamesStored_of_set hSchema he

/-- A `set` that succeeds keeps the session sound. -/
theorem set (h : s.Sound schema) (hSchema : schema.Compiled) {path : Path} {typed : String}
    (hset : s.set schema path typed = .ok s') : s'.Sound schema := by
  rw [set_eq_write] at hset
  cases hw : schema.writeAt (s.absolute path) typed with
  | error e => simp [hw, Except.bind] at hset
  | ok w =>
    obtain ⟨edit, hwrite, -, hAdmits⟩ := h.write_exists hSchema hw
    simp only [hw, Except.bind, hwrite, Except.ok.injEq] at hset
    exact hset ▸ ⟨hAdmits, h.cursor⟩

/-- A deletion that succeeds keeps the session sound. -/
theorem delete (h : s.Sound schema) {path : Path} {typed? : Option String}
    (hdelete : s.delete schema path typed? = .ok s') : s'.Sound schema := by
  rw [Session.delete] at hdelete
  cases hplace : schema.resolve (s.absolute path) with
  | error e => simp [hplace] at hdelete
  | ok place =>
    rw [hplace] at hdelete
    dsimp only at hdelete
    cases hdeleted : deleted? s.edit place (s.absolute path) (typed?.map unquote) with
    | none =>
      rw [hdeleted, Except.ok.injEq] at hdelete
      exact hdelete ▸ h
    | some edit =>
      rw [hdeleted, Except.ok.injEq] at hdelete
      exact hdelete ▸ ⟨h.edit.deleted (Schema.resolve_eq_ok_iff.mp hplace) hdeleted, h.cursor⟩

/-- Moving the cursor keeps the session sound, since it moves to a place that is declared. -/
theorem setLevel (h : s.Sound schema) {path : Path} (hlevel : s.setLevel schema path = .ok s') :
    s'.Sound schema := by
  rw [Session.setLevel] at hlevel
  cases hplace : schema.resolve path with
  | error e => simp [hplace, Except.map] at hlevel
  | ok place =>
    simp only [hplace, Except.map, Except.ok.injEq] at hlevel
    exact hlevel ▸ ⟨h.edit, Schema.declares_iff.mpr ⟨place, Schema.resolve_eq_ok_iff.mp hplace⟩⟩

theorem atLevel (h : s.Sound schema) {level : Path} (hlevel : schema.declares level = true) :
    ({ s with level := level } : Session).Sound schema :=
  ⟨h.edit, hlevel⟩

/-- Whatever is done to a sound session in one go leaves it sound. -/
theorem step (h : s.Sound schema) (hSchema : schema.Compiled) (hRunning : schema.Admits running)
    (hedit : Edit schema running s s') : s'.Sound schema := by
  cases hedit with
  | set path typed hset => exact h.set hSchema hset
  | setWords words hset =>
    rw [Session.setWords] at hset
    cases hlast : words.getLast? with
    | none => simp [hlast] at hset
    | some typed =>
      rw [hlast] at hset
      exact h.set hSchema hset
  | delete path typed? hdelete => exact h.delete hdelete
  | deleteWords words hdelete =>
    simp only [Session.deleteWords] at hdelete
    split at hdelete <;> exact h.delete hdelete
  | setLevel path hlevel => exact h.setLevel hlevel
  | resetLevel => exact h.atLevel schema.declares_nil
  -- what is running conforms too
  | discard => exact sound_ofRunning hRunning

/-- A session stays sound, however it is edited. -/
theorem edits (h : s.Sound schema) (hSchema : schema.Compiled) (hRunning : schema.Admits running)
    (hedits : Edits schema running s s') : s'.Sound schema := by
  induction hedits with
  | refl => exact h
  | tail _ hedit ih => exact ih.step hSchema hRunning hedit

end Sound

end Session

end RouterConfig
