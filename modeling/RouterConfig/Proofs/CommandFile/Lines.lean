import RouterConfig.CommandFile.Load
import RouterConfig.Proofs.Session.Soundness

/-!
# RouterConfig — what one line of a command file does

What a line does is a matter of the schema, the session and the line; only a line that commits
reads and changes the store. A load does the lines one after the other. Main results:

* `loadLines_cons` — the first line does what it does, and the others follow;
* `lineOutcome_applied_edit` — a line that is applied edits the session;
* `loadLines_keeps_of_lines`, `loadLines_keeps` — what lines that are applied and commits keep, a
  load keeps, and so it does with what edits and commits keep;
* `loadLines_failures` — a load fails with nothing that its lines do not fail with;
* `loadLines_commits` — a load reports its commits, in their order.
-/

namespace RouterConfig

variable {World Dict : Type}

/-! ## One line -/

/-- What a line of a command file comes to. -/
inductive LineOutcome where
  | nothing
  | applied (session : Session)
  | skipped (cause : Error)
  | commit
  | stopped (cause : Error)

/-- What an edit that a line asks for comes to. -/
def editOutcome : Except Error Session → LineOutcome
  | .ok edited => .applied edited
  | .error cause => if cause.isRejection then .skipped cause else .stopped cause

/-- What the line of a number comes to in a session. -/
def lineOutcome (schema : Schema) (session : Session) (number : Nat) (line : String) :
    LineOutcome :=
  match FileCommand.ofText line with
  | .nothing => .nothing
  | .set words => editOutcome (session.setWords schema words)
  | .delete words => editOutcome (session.deleteWords schema words)
  | .commit => .commit
  | .unknown => .stopped (.commandFile number ("invalid line \"" ++ trimEnd line ++ "\""))

/-- The notices that a line that commits leaves in the journal. -/
def commitNotices (number : Nat) (done : Committed World Dict) : List (Event Dict) :=
  if done.report.succeeded then [] else [.notice (.commitLineFailed number)]

/-- Goes on with the lines that follow one with that outcome. -/
def goOn (number : Nat) (line : String) (store : Store World Dict) (session : Session)
    (rest : Store World Dict → Session → Loaded World Dict) : LineOutcome → Loaded World Dict
  | .nothing => rest store session
  | .applied edited => (rest store edited).countApplied
  | .skipped cause =>
    ((rest store session).noteSkipped number cause).after
      [.notice (.lineSkipped number (trim line) cause)]
  | .commit =>
    let done := store.commit session false
    ((rest done.store done.session).noteCommit done.report.succeeded).after
      (done.journal ++ commitNotices number done)
  | .stopped cause => ⟨.error cause, store, session, []⟩

/-- After an edit that has been made, refused or failed, loading goes on with the outcome of the
line. -/
private theorem continueAfterEdit_eq (number : Nat) (line : String) (store : Store World Dict)
    (session : Session) (rest : Store World Dict → Session → Loaded World Dict)
    (edited : Except Error Session) :
    continueAfterEdit store session number line edited (rest store) =
      goOn number line store session rest (editOutcome edited) := by
  cases edited with
  | ok edited => rfl
  | error cause =>
    rw [continueAfterEdit, editOutcome]
    by_cases hRejection : cause.isRejection = true
    · rw [if_pos hRejection, if_pos hRejection]
      rfl
    · rw [if_neg hRejection, if_neg hRejection]
      rfl

/-- The first line does what it comes to, and the others follow. -/
theorem loadLines_cons (number : Nat) (line : String) (lines : List String)
    (store : Store World Dict) (session : Session) :
    loadLines number (line :: lines) store session =
      goOn number line store session (loadLines (number + 1) lines)
        (lineOutcome store.schema session number line) := by
  unfold loadLines lineOutcome
  cases FileCommand.ofText line with
  | nothing => rfl
  | set words => exact continueAfterEdit_eq ..
  | delete words => exact continueAfterEdit_eq ..
  | commit => rfl
  | unknown => rfl

/-- A line is applied if and only if its edit succeeds, and with the session that the edit gives. -/
theorem editOutcome_eq_applied_iff {result : Except Error Session} {session : Session} :
    editOutcome result = .applied session ↔ result = .ok session := by
  cases result with
  | ok edited => simp [editOutcome]
  | error cause =>
    rw [editOutcome]
    split <;> simp

/-- A line is skipped or stops the load with the error of its edit. -/
theorem eq_error_of_editOutcome {result : Except Error Session} {cause : Error}
    (h : editOutcome result = .skipped cause ∨ editOutcome result = .stopped cause) :
    result = .error cause := by
  cases result with
  | ok edited => simp [editOutcome] at h
  | error e =>
    rw [editOutcome] at h
    by_cases hRejection : e.isRejection = true
    · rw [if_pos hRejection] at h
      simpa using h
    · rw [if_neg hRejection] at h
      simpa using h

/-- A line that is applied edits the session. -/
theorem lineOutcome_applied_edit {schema : Schema} {running : Tree} {s s' : Session} {number : Nat}
    {line : String} (h : lineOutcome schema s number line = .applied s') :
    Session.Edit schema running s s' := by
  unfold lineOutcome at h
  cases hcommand : FileCommand.ofText line with
  | set words =>
    rw [hcommand] at h
    exact .setWords words (editOutcome_eq_applied_iff.mp h)
  | delete words =>
    rw [hcommand] at h
    exact .deleteWords words (editOutcome_eq_applied_iff.mp h)
  | nothing => simp [hcommand] at h
  | commit => simp [hcommand] at h
  | unknown => simp [hcommand] at h

/-- What a line fails with where all conforms does not blame what is stored. -/
theorem lineOutcome_blamesStored {schema : Schema} {s : Session} (h : s.Sound schema)
    (hSchema : schema.Compiled) {number : Nat} {line : String} {cause : Error}
    (hcause : lineOutcome schema s number line = .skipped cause ∨
      lineOutcome schema s number line = .stopped cause) : cause.blamesStored = false := by
  unfold lineOutcome at hcause
  -- the words are requests of the session, and a request blames only what is stored
  cases hcommand : FileCommand.ofText line with
  | set words =>
    rw [hcommand] at hcause
    exact h.blamesStored_of_setWords hSchema (eq_error_of_editOutcome hcause)
  | delete words =>
    rw [hcommand] at hcause
    exact (Session.refusal_of_deleteWords (eq_error_of_editOutcome hcause)).blamesStored
  | unknown =>
    rw [hcommand] at hcause
    rcases hcause with hskipped | hstopped
    · exact absurd hskipped (by simp)
    · obtain rfl := LineOutcome.stopped.inj hstopped
      rfl
  | nothing => simp [hcommand] at hcause
  | commit => simp [hcommand] at hcause

/-! ## All lines -/

/-- What lines that are applied and commits keep of a store and a session, a load keeps. -/
theorem loadLines_keeps_of_lines {I : Store World Dict → Session → Prop} {lines : List String}
    (hLine : ∀ line ∈ lines, ∀ store s number s', I store s →
      lineOutcome store.schema s number line = .applied s' → I store s')
    (hCommit : ∀ store s, I store s →
      I (store.commit s false).store (store.commit s false).session)
    {number : Nat} {store : Store World Dict} {session : Session} (h : I store session) :
    I (loadLines number lines store session).store
      (loadLines number lines store session).session := by
  induction lines generalizing number store session with
  | nil => exact h
  | cons line lines ih =>
    have hrest := @ih fun line' hline' => hLine line' (List.mem_cons_of_mem _ hline')
    rw [loadLines_cons]
    cases houtcome : lineOutcome store.schema session number line with
    | nothing => exact hrest h
    -- only the outcome of the line says what the lines after it start from
    | applied edited => exact hrest (hLine line (List.mem_cons_self ..) _ _ _ _ h houtcome)
    | skipped cause => exact hrest h
    | commit => exact hrest (hCommit store session h)
    | stopped cause => exact h

/-- What edits and commits keep of a store and a session, a load keeps. -/
theorem loadLines_keeps {I : Store World Dict → Session → Prop}
    (hEdit : ∀ store s s', I store s → Session.Edit store.schema store.running s s' → I store s')
    (hCommit : ∀ store s, I store s →
      I (store.commit s false).store (store.commit s false).session)
    {number : Nat} {lines : List String} {store : Store World Dict} {session : Session}
    (h : I store session) :
    I (loadLines number lines store session).store
      (loadLines number lines store session).session :=
  loadLines_keeps_of_lines
    (fun _ _ store s _ s' h houtcome => hEdit store s s' h (lineOutcome_applied_edit houtcome))
    hCommit h

/-- What a load skips a line for, or fails with, is what one of its lines is skipped or stopped
for. -/
theorem loadLines_failures {I : Store World Dict → Session → Prop} {P : Error → Prop}
    (hEdit : ∀ store s s', I store s → Session.Edit store.schema store.running s s' → I store s')
    (hCommit : ∀ store s, I store s →
      I (store.commit s false).store (store.commit s false).session)
    (hCause : ∀ store s number line cause, I store s →
      lineOutcome store.schema s number line = .skipped cause ∨
        lineOutcome store.schema s number line = .stopped cause → P cause)
    (number : Nat) {lines : List String} {store : Store World Dict} {session : Session}
    (h : I store session) :
    (∀ e, (loadLines number lines store session).result = .error e → P e) ∧
      ∀ summary, (loadLines number lines store session).result = .ok summary →
        ∀ entry ∈ summary.skipped, P entry.2 := by
  -- on the lines; what the result says of the first line is added to what it says of the rest
  induction lines generalizing number store session with
  | nil =>
    refine ⟨fun e he => absurd he nofun, fun summary hsummary => ?_⟩
    obtain rfl := Except.ok.inj hsummary
    exact fun entry hentry => absurd hentry (by simp [LoadSummary.empty])
  | cons line lines ih =>
    rw [loadLines_cons]
    cases houtcome : lineOutcome store.schema session number line with
    | nothing => exact ih (number + 1) h
    | applied edited =>
      obtain ⟨hfails, hskips⟩ := ih (number + 1)
        (hEdit store session edited h (lineOutcome_applied_edit houtcome))
      refine ⟨fun e he => hfails e (map_eq_error he), fun summary hsummary => ?_⟩
      obtain ⟨rest, hrest, rfl⟩ := map_eq_ok hsummary
      exact hskips rest hrest
    | skipped cause =>
      obtain ⟨hfails, hskips⟩ := ih (number + 1) h
      refine ⟨fun e he => hfails e (map_eq_error he), fun summary hsummary entry hentry => ?_⟩
      obtain ⟨rest, hrest, rfl⟩ := map_eq_ok hsummary
      -- either this line is skipped, or one of those that follow
      rcases List.mem_cons.mp hentry with rfl | hentry
      · exact hCause store session number line cause h (.inl houtcome)
      · exact hskips rest hrest entry hentry
    | commit =>
      obtain ⟨hfails, hskips⟩ := ih (number + 1) (hCommit store session h)
      refine ⟨fun e he => hfails e (map_eq_error he), fun summary hsummary => ?_⟩
      obtain ⟨rest, hrest, rfl⟩ := map_eq_ok hsummary
      -- a commit skips nothing and fails nothing of its own
      exact hskips rest hrest
    -- only here does the result name an error, and it is that of the line itself
    | stopped cause =>
      refine ⟨fun e he => ?_, fun summary hsummary => absurd hsummary (by simp [goOn])⟩
      rw [goOn, Except.error.injEq] at he
      exact he ▸ hCause store session number line cause h (.inr houtcome)

/-! ## The commits of a load -/

/-- A commit that is asked for: of a session, on a store. -/
structure CommitCall (World Dict : Type) where
  store : Store World Dict
  session : Session
  inMemory : Bool

/-- The commit, and what it leaves behind. -/
def CommitCall.done (c : CommitCall World Dict) : Committed World Dict :=
  c.store.commit c.session c.inMemory

/-- The commits that lines ask for, in their order. -/
def lineCommits (number : Nat) :
    List String → Store World Dict → Session → List (CommitCall World Dict)
  | [], _, _ => []
  | line :: lines, store, session =>
    match lineOutcome store.schema session number line with
    | .nothing => lineCommits (number + 1) lines store session
    | .applied edited => lineCommits (number + 1) lines store edited
    | .skipped _ => lineCommits (number + 1) lines store session
    | .commit =>
      let call : CommitCall World Dict := ⟨store, session, false⟩
      call :: lineCommits (number + 1) lines call.done.store call.done.session
    | .stopped _ => []

/-- One commit after the other takes a store to another: each finds the store as the one before it
has left it, and nothing else changes the store. -/
inductive Store.Through : Store World Dict → List (CommitCall World Dict) → Store World Dict → Prop
  where
  | nil (store : Store World Dict) : Through store [] store
  | cons {store last : Store World Dict} {c : CommitCall World Dict}
      {rest : List (CommitCall World Dict)} :
    c.store = store → Through c.done.store rest last → Through store (c :: rest) last

namespace Store

theorem Through.append {store middle last : Store World Dict}
    {calls calls' : List (CommitCall World Dict)} (h : store.Through calls middle)
    (h' : middle.Through calls' last) : store.Through (calls ++ calls') last := by
  induction h with
  | nil => exact h'
  | cons hstore _ ih => exact .cons hstore (ih h')

end Store

/-- A load changes the store by its commits alone. -/
theorem loadLines_through (number : Nat) (lines : List String) (store : Store World Dict)
    (session : Session) :
    store.Through (lineCommits number lines store session)
      (loadLines number lines store session).store := by
  induction lines generalizing number store session with
  | nil => exact .nil store
  | cons line lines ih =>
    rw [loadLines_cons]
    unfold lineCommits
    cases lineOutcome store.schema session number line with
    | nothing => exact ih _ _ _
    | applied edited => exact ih _ _ _
    | skipped cause => exact ih _ _ _
    -- the lines that follow find the store as this commit has left it
    | commit => exact .cons rfl (ih _ _ _)
    | stopped cause => exact .nil store

/-- A load that comes to its end reports whether each of its commits succeeded. -/
theorem loadLines_commits {number : Nat} {lines : List String} {store : Store World Dict}
    {session : Session} {summary : LoadSummary}
    (h : (loadLines number lines store session).result = .ok summary) :
    summary.commits =
      (lineCommits number lines store session).map fun c => c.done.report.succeeded := by
  -- on the lines; every outcome but a commit hands the list on as it is
  induction lines generalizing number store session summary with
  | nil =>
    obtain rfl := Except.ok.inj h
    rfl
  | cons line lines ih =>
    rw [loadLines_cons] at h
    unfold lineCommits
    cases houtcome : lineOutcome store.schema session number line with
    | nothing =>
      rw [houtcome] at h
      exact ih h
    | applied edited =>
      rw [houtcome] at h
      obtain ⟨rest, hrest, rfl⟩ := map_eq_ok h
      have hcommits := ih hrest
      exact hcommits
    | skipped cause =>
      rw [houtcome] at h
      obtain ⟨rest, hrest, rfl⟩ := map_eq_ok h
      have hcommits := ih hrest
      exact hcommits
    | commit =>
      rw [houtcome] at h
      obtain ⟨rest, hrest, rfl⟩ := map_eq_ok h
      have hcommits := ih hrest
      exact congrArg ((store.commit session false).report.succeeded :: ·) hcommits
    | stopped cause =>
      rw [houtcome] at h
      exact absurd h (by simp [goOn])

end RouterConfig
