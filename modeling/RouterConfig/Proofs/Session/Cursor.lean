import RouterConfig.Proofs.Host.Conformance

/-!
# RouterConfig — the cursor as a prefix

A path given at the cursor stands for the cursor with the path after it: what an edit makes of a
session, and what is read of it, is what the longer path says at the root. Words to delete are the
exception. The last of them is a value if the others name a leaf, but where there are no others, the
leaf at which the cursor stands is not asked for. Main results:

* `Session.set_at_root`, `Session.delete_at_root` — edits of a path, at the cursor and at the root;
* `Session.deleteWords_past_leaf` — a single word to delete, with the cursor at a leaf;
* `Session.cursor_prefixes` — what holds of all operations, and the one case apart.
-/

namespace RouterConfig

namespace Schema

/-- A leaf is declared as one, and is no instance. -/
theorem isLeaf_eq_true_iff {schema : Schema} {path : Path} :
    schema.isLeaf path = true ↔
      ∃ place, schema.resolve path = .ok place ∧ place.isLeaf = true := by
  rw [isLeaf, declared?]
  cases schema.resolve path with
  | error cause => simp
  | ok place => cases place <;> simp [Place.isLeaf]

theorem isLeaf_nil (schema : Schema) : schema.isLeaf [] = false := rfl

/-- No path leads past a leaf. -/
theorem resolve_past_leaf {schema : Schema} {path : Path} (h : schema.isLeaf path = true)
    (word : String) :
    schema.resolve (path ++ [word]) = .error (.path (path ++ [word]) .pastLeaf) := by
  obtain ⟨place, hplace, hLeaf⟩ := isLeaf_eq_true_iff.mp h
  have hTag : place.isTag = false := by
    cases hkind : place.isTag with
    | false => rfl
    | true => exact absurd hLeaf (by simp [Place.not_isLeaf_of_isTag hkind])
  have henter : place.enter word = .error .pastLeaf := by
    rw [Place.enter, hTag, hLeaf]
    rfl
  have hroot : (Place.declared schema.rootNode).follow [] path = .ok place := hplace
  rw [resolve, Place.follow_append, hroot]
  show place.follow ([] ++ path) [word] = _
  rw [Place.follow, henter]
  rfl

end Schema

namespace Session

variable {s : Session} {schema : Schema}

/-! ## Edits of a path -/

@[simp] theorem resetLevel_edit (s : Session) : s.resetLevel.edit = s.edit := rfl

theorem makeNode_at_root (s : Session) (full : Path) :
    s.resetLevel.makeNode full = (s.makeNode full).map resetLevel := by
  rw [makeNode, makeNode, resetLevel_edit]
  cases s.edit.ensureSubtree? full <;> rfl

/-- Storing a value does not look at the cursor. -/
theorem storeValue_at_root (s : Session) (full : Path) (value : String) :
    s.resetLevel.storeValue full value = (s.storeValue full value).map resetLevel := by
  rw [storeValue, storeValue, resetLevel_edit]
  cases full.getLast? with
  | none => rfl
  | some name =>
    dsimp only
    split <;> rfl

/-- Adding a value to a leaf does not look at the cursor. -/
theorem addValue_at_root (s : Session) (full : Path) (value : String) :
    s.resetLevel.addValue full value = (s.addValue full value).map resetLevel := by
  rw [addValue, addValue, resetLevel_edit]
  cases full.getLast? with
  | none => rfl
  | some name =>
    dsimp only
    split
    · rfl
    · split <;> rfl

/-- Writing to a leaf does not look at the cursor. -/
theorem setLeaf_at_root (s : Session) (leaf : Schema.Node) (full : Path) (value : String) :
    s.resetLevel.setLeaf leaf full value = (s.setLeaf leaf full value).map resetLevel := by
  rw [setLeaf, setLeaf]
  cases leaf.valueFault? value with
  | some fault => rfl
  | none =>
    dsimp only
    split
    · exact addValue_at_root s full value
    · exact storeValue_at_root s full _

theorem setInstance_at_root (s : Session) (full : Path) (name : String) :
    s.resetLevel.setInstance full name = (s.setInstance full name).map resetLevel := by
  rw [setInstance, setInstance]
  split
  · rfl
  · exact makeNode_at_root s _

/-- Writing to a child does not look at the cursor. -/
theorem setChild_at_root (s : Session) (node : Schema.Node) (full : Path) (name : String) :
    s.resetLevel.setChild node full name = (s.setChild node full name).map resetLevel := by
  rw [setChild, setChild]
  cases node.child? name with
  | none => rfl
  | some child =>
    dsimp only
    split
    · exact makeNode_at_root s _
    · split
      · rfl
      · exact storeValue_at_root s _ ""

/-- What a set makes of a session is, but for the cursor, what it makes of it at the root. -/
theorem set_at_root (s : Session) (schema : Schema) (path : Path) (typed : String) :
    s.resetLevel.set schema (s.absolute path) typed = (s.set schema path typed).map resetLevel := by
  rw [set, set, absolute_resetLevel]
  split
  · rfl
  cases schema.resolve (s.absolute path) with
  | error cause => rfl
  | ok place =>
    dsimp only
    split
    · exact setLeaf_at_root s place.node _ _
    · split
      · exact setInstance_at_root s _ _
      · exact setChild_at_root s place.node _ _

/-- What a delete makes of a session is, but for the cursor, what it makes of it at the root. -/
theorem delete_at_root (s : Session) (schema : Schema) (path : Path) (typed? : Option String) :
    s.resetLevel.delete schema (s.absolute path) typed? =
      (s.delete schema path typed?).map resetLevel := by
  rw [delete, delete, absolute_resetLevel]
  cases schema.resolve (s.absolute path) with
  | error cause => rfl
  | ok place =>
    dsimp only
    rw [resetLevel_edit]
    cases deleted? s.edit place (s.absolute path) (typed?.map unquote) <;> rfl

/-! ## Edits given as words -/

theorem setWords_at_root (s : Session) (schema : Schema) (path : Path) (last : String) :
    s.resetLevel.setWords schema (s.absolute (path ++ [last])) =
      (s.setWords schema (path ++ [last])).map resetLevel := by
  rw [absolute_append, setWords, setWords, List.getLast?_concat, List.getLast?_concat,
    List.dropLast_concat, List.dropLast_concat]
  exact set_at_root s schema path last

/-- A word to delete at a leaf, given from the root: it is a value. -/
theorem deleteWords_of_leaf (hLeaf : schema.isLeaf s.level = true) (word : String) :
    s.resetLevel.deleteWords schema (s.absolute [word]) =
      s.resetLevel.delete schema s.level (some word) := by
  -- the root is no leaf, so that there are words in front of the last one
  have hlevel : s.level ≠ [] := by
    intro hroot
    rw [hroot, Schema.isLeaf_nil] at hLeaf
    exact absurd hLeaf (by simp)
  unfold deleteWords
  dsimp only
  rw [absolute, List.dropLast_concat, List.getLast?_concat, absolute_resetLevel, hLeaf,
    if_pos (by simpa using hlevel)]

/-- A single word to delete, with the cursor at a leaf: it is taken for a name below the leaf, where
nothing is declared. -/
theorem deleteWords_past_leaf (hLeaf : schema.isLeaf s.level = true) (word : String) :
    s.deleteWords schema [word] = .error (.path (s.level ++ [word]) .pastLeaf) := by
  unfold deleteWords
  -- no word is left in front of it, and the cursor is not looked at
  rw [if_neg (by simp), delete, absolute, Schema.resolve_past_leaf hLeaf]

/-- A word to delete at a leaf succeeds, given from the root. -/
theorem deleteWords_of_leaf_ok (hLeaf : schema.isLeaf s.level = true) (word : String) :
    ∃ left, s.resetLevel.deleteWords schema (s.absolute [word]) = .ok left := by
  obtain ⟨place, hplace, -⟩ := Schema.isLeaf_eq_true_iff.mp hLeaf
  rw [deleteWords_of_leaf hLeaf, delete, absolute_resetLevel, hplace]
  dsimp only
  cases deleted? s.resetLevel.edit place s.level ((some word).map unquote) with
  | none => exact ⟨_, rfl⟩
  | some edit => exact ⟨_, rfl⟩

/-- Words to delete make of a session what they make of it at the root, unless the cursor is at a
leaf and there is one word only. -/
theorem deleteWords_at_root_iff (s : Session) (schema : Schema) (path : Path) (last : String) :
    s.resetLevel.deleteWords schema (s.absolute (path ++ [last])) =
        (s.deleteWords schema (path ++ [last])).map resetLevel ↔
      ¬ (schema.isLeaf s.level = true ∧ path = []) := by
  constructor
  · -- at a leaf the last word is a value for the cursor, and a path for the root
    rintro hsame ⟨hLeaf, rfl⟩
    obtain ⟨left, hleft⟩ := deleteWords_of_leaf_ok hLeaf last
    rw [List.nil_append, hleft, deleteWords_past_leaf hLeaf] at hsame
    exact absurd hsame (by simp [Except.map])
  · intro hnot
    -- whether the last word is a value is asked of the same path in both
    have hvalue : (!(s.absolute path).isEmpty && schema.isLeaf (s.absolute path)) =
        (!path.isEmpty && schema.isLeaf (s.absolute path)) := by
      cases path with
      | cons name rest => simp [absolute]
      | nil =>
        have hLeaf : schema.isLeaf s.level = false := by
          cases hkind : schema.isLeaf s.level with
          | false => rfl
          | true => exact absurd ⟨hkind, rfl⟩ hnot
        simp [absolute, hLeaf]
    have hroot := delete_at_root s schema
    unfold deleteWords
    dsimp only
    rw [absolute_append, List.dropLast_concat, List.dropLast_concat, List.getLast?_concat,
      List.getLast?_concat, absolute_resetLevel, hvalue]
    -- the words ask for the same removal in both sessions
    by_cases hLeaf : (!path.isEmpty && schema.isLeaf (s.absolute path)) = true
    · rw [if_pos hLeaf, if_pos hLeaf]
      exact hroot path (some last)
    · have hfull := hroot (path ++ [last]) none
      rw [if_neg hLeaf, if_neg hLeaf]
      rwa [absolute_append] at hfull

/-! ## Reading -/

/-- All that can be read of a session at a path. -/
structure View where
  isSet : Bool
  children : List String
  value? : Option String
  values : List String
  subtree : Tree
  json : String
  changed : Bool
  annotated : String
  commands : String
  deriving DecidableEq

/-- What can be read of a session at `path`, next to `running`. -/
def view (s : Session) (schema : Schema) (running : Tree) (effective : Bool) (path : Path) :
    View where
  isSet := s.isSet running effective path
  children := s.children running effective path
  value? := s.value? running effective path
  values := s.values running effective path
  subtree := s.subtreeAt running effective path
  json := s.json running effective path
  changed := s.changed running path
  annotated := s.annotated schema running path
  commands := s.commands running path

theorem view_at_root (s : Session) (schema : Schema) (running : Tree) (effective : Bool)
    (path : Path) :
    s.resetLevel.view schema running effective (s.absolute path) =
      s.view schema running effective path := rfl

/-! ## All operations -/

/-- The cursor is a prefix: whatever is done or read at it is done or read at the root with the
cursor before the path, and ends with the same session but for the cursor, or fails for the same
reason. Words to delete are the exception if and only if the cursor is at a leaf and there is one
word only: it is refused at the cursor, and taken for a value of the leaf at the root. -/
theorem cursor_prefixes (s : Session) (schema : Schema) :
    (∀ path typed, s.resetLevel.set schema (s.absolute path) typed =
      (s.set schema path typed).map resetLevel) ∧
    (∀ path typed?, s.resetLevel.delete schema (s.absolute path) typed? =
      (s.delete schema path typed?).map resetLevel) ∧
    (∀ path last, s.resetLevel.setWords schema (s.absolute (path ++ [last])) =
      (s.setWords schema (path ++ [last])).map resetLevel) ∧
    (∀ path last, s.resetLevel.deleteWords schema (s.absolute (path ++ [last])) =
        (s.deleteWords schema (path ++ [last])).map resetLevel ↔
      ¬ (schema.isLeaf s.level = true ∧ path = [])) ∧
    (∀ last, schema.isLeaf s.level = true →
      s.deleteWords schema [last] = .error (.path (s.level ++ [last]) .pastLeaf) ∧
        ∃ left, s.resetLevel.delete schema s.level (some last) = .ok left ∧
          s.resetLevel.deleteWords schema (s.absolute [last]) = .ok left) ∧
    ∀ running effective path, s.resetLevel.view schema running effective (s.absolute path) =
      s.view schema running effective path := by
  refine ⟨set_at_root s schema, delete_at_root s schema, setWords_at_root s schema,
    deleteWords_at_root_iff s schema, fun last hLeaf => ?_, view_at_root s schema⟩
  obtain ⟨left, hleft⟩ := deleteWords_of_leaf_ok hLeaf last
  exact ⟨deleteWords_past_leaf hLeaf last, left, (deleteWords_of_leaf hLeaf last).symm.trans hleft,
    hleft⟩

end Session

namespace Sample

/-- Moves the cursor to the name of the system, and sets the name by a word. -/
def naming : List (String × Operation) :=
  [("a", .setLevel ["system", "name"]), ("a", .setWords ["core"])]

end Sample

/-- With the cursor at the name of the system, the name can be set by a word, but not deleted by the
same word; from the root it can. -/
theorem Session.word_at_leaf_not_deleted :
    let s := (Sample.host.run Sample.naming).session "a"
    (Sample.schema.Compiled ∧ s.Reachable Sample.schema ∧
      Sample.schema.declares s.level = true) ∧
    s = ⟨.subtree [("system", .subtree [("name", .scalar "core")])], ["system", "name"]⟩ ∧
    s.deleteWords Sample.schema ["core"] =
      .error (.path ["system", "name", "core"] .pastLeaf) ∧
    s.resetLevel.deleteWords Sample.schema (s.level ++ ["core"]) = .ok ⟨Tree.empty, []⟩ := by
  intro s
  have hReach : s.Reachable Sample.schema :=
    ⟨Unit, Unit, _, "a", Sample.reachable Sample.naming, .refl⟩
  exact ⟨⟨Sample.compiled, hReach, rfl⟩, rfl, rfl, rfl⟩

end RouterConfig
