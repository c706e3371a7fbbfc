import RouterConfig.Cli.Staging
import RouterConfig.Proofs.Host.Conformance
import RouterConfig.Proofs.Session.Deleting
import RouterConfig.Proofs.Text.Lines

/-!
# RouterConfig — what clearing leaves of a configuration

A session is cleared name by name: each name at the top is read as a path, and what stands at that
path is deleted. A name that is a word is a path of one name, its own. Any other name is read as a
path to somewhere else, so that what stands under it stays, and where that path is not declared the
clearing fails. Main results:

* `Path.isWord_iff` — words are the names that are not empty and have no blanks;
* `Removal.clears_runAll` — what removals at such paths leave, name by name;
* `clearedSession_eq_ok_iff` — when clearing succeeds, and what it leaves;
* `clearedSession_eq_empty_iff` — it leaves nothing if and only if all names are words.
-/

namespace RouterConfig

/-! ## Names that are words -/

/-- The words that a text is split into are not empty and hold no blank. -/
theorem mem_blankWords {text word : String} (h : word ∈ blankWords text) :
    word ≠ "" ∧ ∀ c ∈ word.toList, isBlank c = false := by
  rw [blankWords, nonemptyTexts, List.mem_map] at h
  obtain ⟨piece, hpiece, rfl⟩ := h
  rw [List.mem_filter] at hpiece
  obtain ⟨hmem, hfilled⟩ := hpiece
  rw [String.toList_ofList]
  refine ⟨fun hempty => ?_, mem_cutAt hmem⟩
  have hnil : piece = [] := by simpa using congrArg String.toList hempty
  simp [hnil] at hfilled

/-- A text without blanks is one word. -/
theorem blankWords_of_clear {word : String} (hne : word ≠ "")
    (h : ∀ c ∈ word.toList, isBlank c = false) : blankWords word = [word] := by
  have hpieces : cutAt isBlank word.toList = [word.toList] := cutAt_eq_single h
  have hfilled : word.toList.isEmpty = false := by
    rw [List.isEmpty_eq_false_iff, Ne, String.toList_eq_nil_iff]
    exact hne
  simp [blankWords, nonemptyTexts, hpieces, hfilled]

namespace Path

/-- Whether a name is a word: read as a path it leads to itself. -/
def isWord (name : String) : Bool := ofText name = [name]

theorem ofText_of_isWord {name : String} (h : isWord name = true) : ofText name = [name] :=
  of_decide_eq_true h

/-- A name is a single word if and only if it is not empty and holds no blank. -/
theorem isWord_iff {name : String} :
    isWord name = true ↔ name ≠ "" ∧ ∀ c ∈ name.toList, isBlank c = false := by
  constructor
  · intro h
    have hmem : name ∈ blankWords name := by
      rw [show blankWords name = [name] from ofText_of_isWord h]
      exact List.mem_singleton_self name
    exact mem_blankWords hmem
  · rintro ⟨hne, hclear⟩
    exact decide_eq_true (blankWords_of_clear hne hclear)

/-- Whatever is read as a path leads through words. -/
theorem isWord_of_mem_ofText {text name : String} (h : name ∈ ofText text) : isWord name = true :=
  isWord_iff.mpr (mem_blankWords h)

end Path

/-! ## Removals at names that are read as paths -/

/-- A configuration without what stands under words. -/
def Tree.beyondWords : Tree → Tree
  | .subtree children => .subtree (children.filter fun entry => !Path.isWord entry.1)
  | t => t

namespace Removal

/-- A removal at or below a name assigns something to that name, if only nothing. -/
theorem run_subtree {children : Children} (hOrdered : Keyed.Ordered children) (name : String)
    (rest : Path) (value? : Option String) :
    (Removal.mk (name :: rest) value?).run (.subtree children) =
      .subtree (Keyed.assign children name
        ((Keyed.get? children name).bind fun child => child.cut (deed value?) rest)) := by
  rw [run, if_neg (by simp)]
  by_cases hne : children = []
  · rw [hne]
    rfl
  · dsimp only
    rw [Tree.cut_cons_of_ne_nil hOrdered hne, Tree.filled?_getD]

/-- What is left of children when names are read as paths and what stands there is taken out. -/
structure Clears (tops : List String) (children left : Children) : Prop where
  ordered : Keyed.Ordered left
  /-- What stands under names that are no words stays. -/
  kept : ∀ name, Path.isWord name = false → Keyed.get? left name = Keyed.get? children name
  /-- Nothing is left under words that are among the names, or where nothing stood before. -/
  gone : ∀ name, Path.isWord name = true → name ∈ tops ∨ Keyed.get? children name = none →
    Keyed.get? left name = none

/-- To clear several names is to clear the first of them and then the others. -/
theorem Clears.cons {top : String} {tops : List String} {children next left : Children}
    (hfirst : Clears [top] children next) (hrest : Clears tops next left) :
    Clears (top :: tops) children left := by
  refine ⟨hrest.ordered, fun name hno => ?_, fun name hword hgone => ?_⟩
  · rw [hrest.kept name hno, hfirst.kept name hno]
  · -- what is gone once stays away
    refine hrest.gone name hword ?_
    rcases hgone with hmem | habsent
    · rcases List.mem_cons.mp hmem with rfl | hlater
      · exact .inr (hfirst.gone name hword (.inl (List.mem_singleton_self name)))
      · exact .inl hlater
    · exact .inr (hfirst.gone name hword (.inr habsent))

/-- What one removal leaves. The first name of its path is a word, whatever the name that is read as
a path, so that no other names lose anything. -/
theorem clears_run {children : Children} (hOrdered : Keyed.Ordered children) (top : String) :
    ∃ left, (Removal.mk (Path.ofText top) none).run (.subtree children) = .subtree left ∧
      Clears [top] children left := by
  -- the only word that clears a name of one word is that name itself
  have hself : ∀ name ∈ [top], Path.isWord name = true → Path.ofText top = [name] := by
    intro name hmem hword
    obtain rfl := List.mem_singleton.mp hmem
    exact Path.ofText_of_isWord hword
  cases hpath : Path.ofText top with
  | nil =>
    -- nothing can be removed at the root
    refine ⟨children, rfl, hOrdered, fun _ _ => rfl, fun name hword hgone => ?_⟩
    refine hgone.resolve_left fun hmem => ?_
    exact absurd (hpath.symm.trans (hself name hmem hword)) (by simp)
  | cons first rest =>
    have hfirst : Path.isWord first = true :=
      Path.isWord_of_mem_ofText (hpath ▸ List.mem_cons_self ..)
    -- one request clears what stands at the first word, and leaves the other names alone
    refine ⟨_, run_subtree hOrdered first rest none, Keyed.assign_ordered hOrdered _ _, ?_, ?_⟩
    · intro name hno
      have hne : first ≠ name := by
        rintro rfl
        exact absurd hfirst (by simp [hno])
      exact Keyed.get?_assign_of_ne _ _ hne
    · intro name hword hgone
      by_cases hname : first = name
      · rw [hname, Keyed.get?_assign_self hOrdered]
        rcases hgone with hmem | habsent
        · -- the word is its own path, so all that stands there goes
          have hwhole := hpath.symm.trans (hself name hmem hword)
          rw [List.cons.injEq] at hwhole
          rw [hwhole.2]
          cases Keyed.get? children name with
          | none => rfl
          | some child =>
            rw [Option.bind_some, Tree.cut_nil]
            rfl
        · rw [habsent]
          rfl
      · rw [Keyed.get?_assign_of_ne _ _ hname]
        refine hgone.resolve_left fun hmem => ?_
        have hwhole := hpath.symm.trans (hself name hmem hword)
        rw [List.cons.injEq] at hwhole
        exact hname hwhole.1

/-- What is left when names are read as paths and what stands there is taken out. -/
def runAll (tops : List String) (t : Tree) : Tree :=
  tops.foldl (fun t top => (Removal.mk (Path.ofText top) none).run t) t

/-- Clearing any list of names leaves a subtree that they have been cleared from. -/
theorem clears_runAll {children : Children} (hOrdered : Keyed.Ordered children)
    (tops : List String) :
    ∃ left, runAll tops (.subtree children) = .subtree left ∧ Clears tops children left := by
  induction tops generalizing children with
  | nil =>
    refine ⟨children, rfl, hOrdered, fun _ _ => rfl, fun _ _ hgone => ?_⟩
    exact hgone.resolve_left List.not_mem_nil
  | cons top tops ih =>
    obtain ⟨next, hnext, hfirst⟩ := clears_run hOrdered top
    obtain ⟨left, hleft, hrest⟩ := ih hfirst.ordered
    refine ⟨left, ?_, hfirst.cons hrest⟩
    rw [← hleft, ← hnext]
    rfl

/-- With all names taken out, what is left is what stands under those that are no words. -/
theorem runAll_keys {children : Children} (hOrdered : Keyed.Ordered children) :
    runAll (Keyed.keys children) (.subtree children) = (Tree.subtree children).beyondWords := by
  obtain ⟨left, hleft, hclears⟩ := clears_runAll hOrdered (Keyed.keys children)
  rw [hleft, Tree.beyondWords]
  congr 1
  refine Keyed.ext hclears.ordered (hOrdered.filter _) fun name => ?_
  rw [Keyed.get?_filter children fun name => !Path.isWord name]
  cases hword : Path.isWord name with
  | false => exact hclears.kept name hword
  | true =>
    refine hclears.gone name hword ?_
    -- a name is among the keys, or nothing stands under it
    cases hchild : Keyed.get? children name with
    | none => exact .inr rfl
    | some child => exact .inl (Keyed.isSome_get?_iff.mp (by rw [hchild]; rfl))

end Removal

/-! ## Deletes, one after the other -/

namespace Session

variable {schema : Schema} {s : Session}

/-- Deletes at the root succeed if and only if each of them does on its own, and each of them is a
removal. -/
theorem foldlM_delete_eq_ok_iff (hs : s.Sound schema) (hroot : s.level = []) {tops : List String}
    {s' : Session} :
    tops.foldlM (fun s top => s.delete schema (Path.ofText top) none) s = .ok s' ↔
      (∀ top ∈ tops, schema.declares (Path.ofText top) = true) ∧
        s' = { s with edit := Removal.runAll tops s.edit } := by
  -- on the names to clear, each of which takes the session one removal further
  induction tops generalizing s with
  | nil =>
    rw [List.foldlM_nil]
    constructor
    · intro h
      exact ⟨fun _ hmem => absurd hmem List.not_mem_nil, (Except.ok.inj h).symm⟩
    · rintro ⟨-, rfl⟩
      rfl
  | cons top tops ih =>
    -- with the cursor at the root a name is asked for as it is written
    have hpath : s.absolute (Path.ofText top) = Path.ofText top := by
      rw [absolute, hroot, List.nil_append]
    have hremoval := delete_eq_removal hs.edit (Path.ofText top) none
    rw [hpath, Schema.removalAt] at hremoval
    rw [List.foldlM_cons, List.forall_mem_cons]
    -- the first name decides whether the loop goes on at all
    cases hplace : schema.resolve (Path.ofText top) with
    | error e =>
      have hundeclared : schema.declares (Path.ofText top) = false := by
        rw [Schema.declares, hplace]
        rfl
      rw [hplace] at hremoval
      rw [hremoval, hundeclared]
      simp [bind, Except.bind, Except.map]
    | ok place =>
      have hdeclared : schema.declares (Path.ofText top) = true := by
        rw [Schema.declares, hplace]
        rfl
      have hdelete : s.delete schema (Path.ofText top) none =
          .ok { s with edit := (Removal.mk (Path.ofText top) none).run s.edit } := by
        rw [hremoval, hplace]
        rfl
      rw [hdelete, hdeclared, eq_self_iff_true, true_and]
      exact ih (hs.delete hdelete) hroot

/-- Deletes that do not all succeed fail with what one of their paths fails with. -/
theorem foldlM_delete_eq_error {tops : List String} {e : Error} (hroot : s.level = [])
    (h : tops.foldlM (fun s top => s.delete schema (Path.ofText top) none) s = .error e) :
    ∃ top ∈ tops, schema.resolve (Path.ofText top) = .error e := by
  -- on the names: the first that is refused is the one that is reported
  induction tops generalizing s with
  | nil => exact absurd h (by simp [pure, Except.pure])
  | cons top tops ih =>
    have houtcome := s.delete_outcome schema (Path.ofText top) none
    rw [absolute, hroot, List.nil_append] at houtcome
    rw [List.foldlM_cons] at h
    cases hdelete : s.delete schema (Path.ofText top) none with
    | error cause =>
      rw [hdelete] at h houtcome
      obtain rfl : cause = e := Except.error.inj h
      exact ⟨top, List.mem_cons_self .., map_eq_error houtcome.symm⟩
    | ok next =>
      rw [hdelete] at h
      obtain ⟨other, hmem, hother⟩ := ih ((delete_level hdelete).trans hroot) h
      exact ⟨other, List.mem_cons_of_mem _ hmem, hother⟩

end Session

/-! ## Clearing -/

section Clearing

variable {World Dict : Type} {schema : Schema} {store : Store World Dict}

/-- Clearing succeeds if and only if every name, read as a path, leads to a declared place. It
leaves what stands under the names that are no words. -/
theorem clearedSession_eq_ok_iff (h : store.Sound schema) {s : Session} :
    clearedSession store = .ok s ↔
      (∀ top ∈ store.running.keys, schema.declares (Path.ofText top) = true) ∧
        s = Session.ofRunning store.running.beyondWords := by
  obtain ⟨children, hrunning, hOrdered⟩ := h.running.fits.isSubtree rfl
  have hleft : Removal.runAll store.running.keys store.running = store.running.beyondWords := by
    rw [hrunning]
    exact Removal.runAll_keys hOrdered
  have hopen : store.openSession.Sound schema := Session.sound_ofRunning h.running
  rw [clearedSession, h.declared, Session.foldlM_delete_eq_ok_iff hopen rfl, ← hleft]
  rfl

/-- Clearing fails with what is wrong with a name that is read as a path. -/
theorem clearedSession_eq_error (h : store.schema = schema) {e : Error}
    (he : clearedSession store = .error e) :
    ∃ top ∈ store.running.keys, schema.resolve (Path.ofText top) = .error e := by
  rw [clearedSession, h] at he
  exact Session.foldlM_delete_eq_error rfl he

/-- Clearing leaves nothing if and only if all names are words. -/
theorem clearedSession_eq_empty_iff (h : store.Sound schema) :
    clearedSession store = .ok (Session.ofRunning Tree.empty) ↔
      ∀ top ∈ store.running.keys, Path.isWord top = true := by
  obtain ⟨children, hrunning, hOrdered⟩ := h.running.fits.isSubtree rfl
  have hempty : Session.ofRunning Tree.empty = Session.ofRunning store.running.beyondWords ↔
      ∀ top ∈ store.running.keys, Path.isWord top = true := by
    rw [hrunning, Tree.beyondWords, Session.ofRunning, Session.ofRunning, Session.mk.injEq,
      Tree.empty, Tree.subtree.injEq, eq_comm (a := ([] : Children)), List.filter_eq_nil_iff]
    simp [Tree.keys, Keyed.keys]
  rw [clearedSession_eq_ok_iff h, hempty, and_iff_right_iff_imp]
  -- a word leads to where its own name stands, which conforms
  intro hwords top htop
  rw [Path.ofText_of_isWord (hwords top htop)]
  rw [hrunning] at htop
  obtain ⟨child, hchild⟩ := Option.isSome_iff_exists.mp (Keyed.isSome_get?_iff.mpr htop)
  have hstands : store.running.get? [top] = some child := by
    rw [hrunning, Tree.get?_cons_of_get? hchild]
    rfl
  obtain ⟨place, hLeads, -⟩ := h.running [top] child hstands
  exact Schema.declares_iff.mpr ⟨place, hLeads⟩

end Clearing

end RouterConfig
