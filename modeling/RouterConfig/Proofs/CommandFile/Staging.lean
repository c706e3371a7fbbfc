import RouterConfig.Cli.Commands
import RouterConfig.Proofs.Commit.Outcome
import RouterConfig.Proofs.CommandFile.Lines
import RouterConfig.Proofs.Host.Run
import RouterConfig.Proofs.Text.Lines

/-!
# RouterConfig — what staging says of a file

A staged file is loaded without its lines that commit. On a store without modules these lines change
nothing that other lines depend on, so staging does and skips the same lines as loading the whole
file. It counts only the lines that are left, though: what it says of a line, it says under a lower
number as soon as a line that commits stands before it. Main results:

* `stage_eq_loadLines` — staging does just the lines that do not commit;
* `eq_unknown_of_stopped` — nothing but an unknown command stops a load;
* `loadLines_ends_iff` — what a load starts from makes no difference to whether it is stopped;
* `loadLines_stands` — what staging and loading have in common, line by line;
* `stage_renumbers` — staging says what loading says, under the numbers that lines have among those
  that are left.
-/

namespace RouterConfig

variable {World Dict : Type}

/-! ## The lines that are left -/

/-- Two lines that are trimmed to the same text have the same outcome. -/
theorem lineOutcome_congr {line line' : String} (h : SameTrimmed line line') (schema : Schema)
    (session : Session) (number : Nat) :
    lineOutcome schema session number line = lineOutcome schema session number line' := by
  have hcommand : FileCommand.ofText line = FileCommand.ofText line' := by
    rw [FileCommand.ofText, FileCommand.ofText, h.both]
  unfold lineOutcome
  rw [hcommand, h.atEnd]

/-- Two lines that are trimmed to the same text make loading go on alike. -/
theorem goOn_congr {line line' : String} (h : SameTrimmed line line') (number : Nat)
    (store : Store World Dict) (session : Session)
    (rest : Store World Dict → Session → Loaded World Dict) (outcome : LineOutcome) :
    goOn number line store session rest outcome = goOn number line' store session rest outcome := by
  cases outcome with
  | skipped cause => rw [goOn, goOn, h.both]
  | _ => rfl

/-- Blanks at the ends of lines make no difference. -/
theorem loadLines_congr {lines lines' : List String} (h : List.Forall₂ SameTrimmed lines lines')
    (number : Nat) (store : Store World Dict) (session : Session) :
    loadLines number lines store session = loadLines number lines' store session := by
  induction h generalizing number store session with
  | nil => rfl
  | cons hline _ ih =>
    have hrest : loadLines (number + 1) _ = loadLines (number + 1) _ :=
      funext fun store : Store World Dict => funext (ih (number + 1) store)
    rw [loadLines_cons, loadLines_cons, lineOutcome_congr hline, goOn_congr hline, hrest]

/-- Nor do empty lines at the end. -/
theorem loadLines_append_empty {last : List String} (hlast : ∀ line ∈ last, line = "")
    (number : Nat) (lines : List String) (store : Store World Dict) (session : Session) :
    loadLines number (lines ++ last) store session = loadLines number lines store session := by
  induction lines generalizing number store session with
  | nil =>
    induction last generalizing number with
    | nil => rfl
    | cons line last ih =>
      obtain rfl := hlast line (List.mem_cons_self ..)
      have hnothing : lineOutcome store.schema session number "" = .nothing := rfl
      rw [List.nil_append, loadLines_cons, hnothing]
      -- nothing is done and nothing is said, so its number does not show
      exact ih (fun line hline => hlast line (List.mem_cons_of_mem _ hline)) (number + 1)
  | cons line lines ih =>
    have hrest : loadLines (number + 1) (lines ++ last) = loadLines (number + 1) lines :=
      funext fun store : Store World Dict => funext (ih (number + 1) store)
    rw [List.cons_append, loadLines_cons, loadLines_cons, hrest]

/-- The lines that staging leaves. -/
def keptLines (lines : List String) : List String := lines.filter fun line =>
  !FileCommand.isCommit line

/-- Staging does just the lines that do not commit. -/
theorem stage_eq_loadLines (store : Store World Dict) (session : Session) (text : String) :
    stage store session text = loadLines 1 (keptLines (textLines text)) store session := by
  have hclear : ∀ line ∈ keptLines (textLines text), '\n' ∉ line.toList := fun line hline =>
    no_lineFeed_of_mem_textLines (List.mem_of_mem_filter hline)
  -- the lines that are left are joined and cut once more
  obtain ⟨last, hsame, hlast⟩ := textLines_intercalate hclear
  rw [stage, load, stagedText, ← loadLines_append_empty hlast]
  exact loadLines_congr hsame 1 store session

/-! ## What stops a load -/

/-- What is refused is skipped. -/
theorem Error.Refusal.isRejection {e : Error} (h : e.Refusal) : e.isRejection = true := by
  obtain ⟨path, fault, rfl, -⟩ := h
  rfl

namespace Session

/-- A write that is refused is refused by a rejection. -/
theorem isRejection_of_write {s : Session} {w : Write} {e : Error} (h : s.write w = .error e) :
    e.isRejection = true := by
  unfold write at h
  split at h
  · exact absurd h (by simp)
  rw [← Except.error.inj h]
  unfold Write.fault
  split
  · rfl
  · rfl
  · split <;> rfl

/-- What `set` fails with is a rejection, so a line of a file that holds it is skipped. -/
theorem isRejection_of_set {s : Session} {schema : Schema} {path : Path} {typed : String}
    {e : Error} (h : s.set schema path typed = .error e) : e.isRejection = true := by
  rw [set_eq_write] at h
  cases hwrite : schema.writeAt (s.absolute path) typed with
  | error cause =>
    rw [hwrite] at h
    rw [← Except.error.inj h]
    exact (Schema.refusal_of_writeAt hwrite).isRejection
  | ok w =>
    rw [hwrite] at h
    exact isRejection_of_write h

/-- The same holds of `set` with its words in a line. -/
theorem isRejection_of_setWords {s : Session} {schema : Schema} {words : List String} {e : Error}
    (h : s.setWords schema words = .error e) : e.isRejection = true := by
  unfold setWords at h
  split at h
  · rw [← Except.error.inj h]
    rfl
  · exact isRejection_of_set h

end Session

/-- Nothing but an unknown command stops a load: what the schema has against a line is never more
than a reason to skip it. -/
theorem eq_unknown_of_stopped {schema : Schema} {session : Session} {number : Nat} {line : String}
    {cause : Error} (h : lineOutcome schema session number line = .stopped cause) :
    FileCommand.ofText line = .unknown ∧
      cause = .commandFile number ("invalid line \"" ++ trimEnd line ++ "\"") := by
  -- a refused request is a rejection, which skips the line and does not stop the load
  have hedit : ∀ result : Except Error Session,
      (∀ e, result = .error e → e.isRejection = true) → editOutcome result ≠ .stopped cause := by
    intro result hresult
    cases result with
    | ok edited => simp [editOutcome]
    | error e => simp [editOutcome, hresult e rfl]
  unfold lineOutcome at h
  cases hcommand : FileCommand.ofText line with
  | nothing => simp [hcommand] at h
  | set words =>
    rw [hcommand] at h
    exact absurd h (hedit _ fun e => Session.isRejection_of_setWords)
  | delete words =>
    rw [hcommand] at h
    exact absurd h (hedit _ fun e he => (Session.refusal_of_deleteWords he).isRejection)
  | commit => simp [hcommand] at h
  -- only an unknown command stops, and then with the text of its own line
  | unknown =>
    rw [hcommand] at h
    exact ⟨rfl, (LineOutcome.stopped.inj h).symm⟩

/-- A load comes to its end if and only if no line is an unknown command, whatever it starts
from. -/
theorem loadLines_ends_iff {number : Nat} {lines : List String} {store : Store World Dict}
    {session : Session} :
    (∃ summary, (loadLines number lines store session).result = .ok summary) ↔
      ∀ line ∈ lines, FileCommand.ofText line ≠ .unknown := by
  induction lines generalizing number store session with
  | nil => exact ⟨fun _ => by simp, fun _ => ⟨.empty, rfl⟩⟩
  | cons line lines ih =>
    -- what a line adds to the summary does not change whether there is one
    have hmap : ∀ (rest : Except Error LoadSummary) (f : LoadSummary → LoadSummary),
        (∃ summary, rest.map f = .ok summary) ↔ ∃ summary, rest = .ok summary := by
      intro rest f
      cases rest with
      | ok summary => simp [Except.map]
      | error cause => simp [Except.map]
    have hknown : (∀ cause, lineOutcome store.schema session number line ≠ .stopped cause) →
        FileCommand.ofText line ≠ .unknown := by
      intro hgoes hcommand
      unfold lineOutcome at hgoes
      rw [hcommand] at hgoes
      exact hgoes _ rfl
    rw [loadLines_cons, List.forall_mem_cons]
    -- a line that does not stop the load is known, and the others go on from what it leaves
    cases houtcome : lineOutcome store.schema session number line with
    | stopped cause =>
      have hcommand := (eq_unknown_of_stopped houtcome).1
      exact iff_of_false (by simp [goOn]) fun h => h.1 hcommand
    | nothing => exact ih.trans (and_iff_right (hknown (by simp [houtcome]))).symm
    | applied edited | skipped cause | commit =>
      exact (hmap _ _).trans (ih.trans (and_iff_right (hknown (by simp [houtcome]))).symm)

/-- The number of a line only shows where it stops a load. -/
theorem lineOutcome_number {schema : Schema} {session : Session} {number : Nat} {line : String}
    {outcome : LineOutcome} (h : lineOutcome schema session number line = outcome)
    (hgoes : ∀ cause, outcome ≠ .stopped cause) (other : Nat) :
    lineOutcome schema session other line = outcome := by
  unfold lineOutcome at h ⊢
  cases hcommand : FileCommand.ofText line with
  | unknown =>
    rw [hcommand] at h
    exact absurd h.symm (hgoes _)
  | _ => simpa only [hcommand] using h

/-! ## Commits without modules -/

/-- Without modules a commit has no tasks, so it is promoted and leaves the session alone. -/
theorem Store.commit_of_no_modules {store : Store World Dict} (h : store.modules = [])
    (session : Session) :
    (store.commit session false).session = session ∧
      (store.commit session false).report.succeeded = true := by
  have hselect : (store.select session).tasks = [] ∧
      (store.select session).session = session.resetLevel := by
    -- no owner has a module, so no path is a candidate
    -- with no candidates there are no tasks, and the session loses its cursor all the same
    have hnone : RouterConfig.candidates store.schema store.modules store.running
        session.resetLevel = [] := by
      rw [RouterConfig.candidates, h, List.flatMap_eq_nil_iff]
      intro owned _
      unfold candidatesOf
      split
      · rfl
      · rfl
    unfold Store.select RouterConfig.select
    dsimp only
    rw [hnone]
    exact ⟨rfl, rfl⟩
  -- without tasks no phase has anything to fail with
  have hfanOut : ∀ phase world, (fanOut phase store.executor
      ([] : List (Task World Dict)) world).failures = [] := by
    intro phase world
    unfold fanOut
    simp [phaseFailures, pending]
  have hverified : (store.verified session).failures = [] := by
    rw [Store.verified, hselect.1]
    rfl
  have hgenerated : (store.generated session).failures = [] := by
    rw [Store.generated, hselect.1]
    exact hfanOut _ _
  have happlied : (store.applied session).failures = [] := by
    rw [Store.applied, hselect.1]
    exact hfanOut _ _
  refine ⟨?_, ?_⟩
  · -- every phase is passed, and the session is the one the selection left
    rw [Store.commit_session, hselect.2]
    rfl
  · rw [Store.commit, if_neg (by simp)]
    dsimp only
    rw [Store.runPhases_of_applied hverified hgenerated happlied]
    rfl

/-! ## Staging and loading, line by line -/

/-- The numbers of lines when `number` is the first, compared with their numbers among those that
are left when `left` is the first of these. -/
def Renumbers (renumber : Nat → Nat) (number left : Nat) (lines : List String) : Prop :=
  ∀ i (hi : i < lines.length), FileCommand.isCommit lines[i] = false →
    renumber (number + i) = left + (keptLines (lines.take i)).length

namespace Renumbers

variable {renumber : Nat → Nat} {number left : Nat} {line : String} {lines : List String}

/-- A commit in front uses up a number among the loaded lines, and none among the staged ones. -/
theorem of_commit (h : Renumbers renumber number left (line :: lines))
    (hcommit : FileCommand.isCommit line = true) : Renumbers renumber (number + 1) left lines := by
  intro i hi hline
  have hnumber := h (i + 1) (by simpa using hi) (by simpa using hline)
  have hskip : keptLines ((line :: lines).take (i + 1)) = keptLines (lines.take i) := by
    simp [keptLines, hcommit]
  rw [← hskip, ← hnumber, Nat.add_right_comm, Nat.add_assoc]

/-- A line that staging keeps has the next number in both, and so have the lines behind it. -/
theorem of_kept (h : Renumbers renumber number left (line :: lines))
    (hcommit : FileCommand.isCommit line = false) :
    renumber number = left ∧ Renumbers renumber (number + 1) (left + 1) lines := by
  refine ⟨by simpa [keptLines] using h 0 (by simp) hcommit, fun i hi hline => ?_⟩
  have hnumber := h (i + 1) (by simpa using hi) (by simpa using hline)
  have hone : (keptLines ((line :: lines).take (i + 1))).length =
      (keptLines (lines.take i)).length + 1 := by
    simp [keptLines, hcommit]
  rw [hone] at hnumber
  rw [Nat.add_right_comm, Nat.add_assoc, hnumber]
  omega

end Renumbers

/-- What staging says of a file, compared with what loading says of it. -/
structure Stands (renumber : Nat → Nat) (loaded staged : Loaded World Dict) : Prop where
  session : staged.session = loaded.session
  done : ∀ summary, loaded.result = .ok summary → staged.result =
    .ok ⟨summary.applied, summary.skipped.map fun entry => (renumber entry.1, entry.2), []⟩
  stopped : ∀ cause, loaded.result = .error cause → ∃ number reason,
    cause = .commandFile number reason ∧
      staged.result = .error (.commandFile (renumber number) reason)

namespace Stands

variable {renumber : Nat → Nat} {loaded staged : Loaded World Dict}

/-- Both loads count a line that is applied. -/
theorem countApplied (h : Stands renumber loaded staged) :
    Stands renumber loaded.countApplied staged.countApplied := by
  refine ⟨h.session, fun summary hsummary => ?_, fun cause hcause => ?_⟩
  · obtain ⟨rest, hrest, rfl⟩ := map_eq_ok hsummary
    rw [Loaded.countApplied, h.done rest hrest]
    rfl
  · obtain ⟨number, reason, rfl, hstaged⟩ := h.stopped cause (map_eq_error hcause)
    refine ⟨number, reason, rfl, ?_⟩
    rw [Loaded.countApplied, hstaged]
    rfl

/-- Both loads note a line that is skipped, each under its own number. -/
theorem noteSkipped (h : Stands renumber loaded staged) (number : Nat) (cause : Error)
    (journal journal' : List (Event Dict)) :
    Stands renumber ((loaded.noteSkipped number cause).after journal)
      ((staged.noteSkipped (renumber number) cause).after journal') := by
  refine ⟨h.session, fun summary hsummary => ?_, fun cause' hcause => ?_⟩
  · obtain ⟨rest, hrest, rfl⟩ := map_eq_ok hsummary
    rw [Loaded.after, Loaded.noteSkipped, h.done rest hrest]
    rfl
  · obtain ⟨number', reason, rfl, hstaged⟩ := h.stopped cause' (map_eq_error hcause)
    refine ⟨number', reason, rfl, ?_⟩
    rw [Loaded.after, Loaded.noteSkipped, hstaged]
    rfl

/-- A commit is noted by the one load only; staging has no line for it. -/
theorem noteCommit (h : Stands renumber loaded staged) (succeeded : Bool)
    (journal : List (Event Dict)) :
    Stands renumber ((loaded.noteCommit succeeded).after journal) staged := by
  refine ⟨h.session, fun summary hsummary => ?_, fun cause hcause => ?_⟩
  · obtain ⟨rest, hrest, rfl⟩ := map_eq_ok hsummary
    exact h.done rest hrest
  · exact h.stopped cause (map_eq_error hcause)

end Stands

/-- Loading is at the line `number` of the file, and staging at the line `left` of those that it
leaves. -/
theorem loadLines_stands {store staging : Store World Dict} (hmodules : store.modules = [])
    (hschema : staging.schema = store.schema) {renumber : Nat → Nat} {number left : Nat}
    {lines : List String} (h : Renumbers renumber number left lines) (session : Session) :
    Stands renumber (loadLines number lines store session)
      (loadLines left (keptLines lines) staging session) := by
  -- on the lines, with the numbering of the kept ones changed as lines are left out
  induction lines generalizing store session number left with
  | nil =>
    refine ⟨rfl, fun summary hsummary => ?_, fun cause hcause => ?_⟩
    · obtain rfl := Except.ok.inj hsummary
      rfl
    · have hend : (loadLines number [] store session).result = .ok .empty := rfl
      exact absurd (hend.symm.trans hcause) (by simp)
  | cons line lines ih =>
    rw [loadLines_cons]
    cases hcommit : FileCommand.isCommit line with
    | true =>
      -- staging leaves the line out, and loading goes on with the same session
      have hkept : keptLines (line :: lines) = keptLines lines := by simp [keptLines, hcommit]
      have houtcome : lineOutcome store.schema session number line = .commit := by
        unfold lineOutcome
        rw [FileCommand.isCommit_iff.mp hcommit]
      have hsetup := store.commit_sameSetup session false
      have hrest := ih (hsetup.modules.trans hmodules) (hschema.trans hsetup.schema.symm)
        (h.of_commit hcommit) session
      rw [hkept, houtcome, goOn, (Store.commit_of_no_modules hmodules session).1]
      exact hrest.noteCommit _ _
    | false =>
      -- both come to the same on the line, under their own numbers
      obtain ⟨rfl, hnumbers⟩ := h.of_kept hcommit
      have hrest := ih hmodules hschema hnumbers
      have hkept : keptLines (line :: lines) = line :: keptLines lines := by
        simp [keptLines, hcommit]
      rw [hkept, loadLines_cons, hschema]
      cases houtcome : lineOutcome store.schema session number line with
      | nothing =>
        rw [lineOutcome_number houtcome (by simp)]
        exact hrest session
      | applied edited =>
        rw [lineOutcome_number houtcome (by simp)]
        exact (hrest edited).countApplied
      | skipped cause =>
        rw [lineOutcome_number houtcome (by simp)]
        exact (hrest session).noteSkipped number cause _ _
      | commit =>
        -- staging would have left the line out
        have hcommand : FileCommand.ofText line = .commit := by
          unfold lineOutcome editOutcome at houtcome
          grind
        exact absurd (FileCommand.isCommit_iff.mpr hcommand) (by simp [hcommit])
      | stopped cause =>
        obtain ⟨hcommand, rfl⟩ := eq_unknown_of_stopped houtcome
        -- the text of the line is the same, the number in front of it is not
        have hleft : lineOutcome store.schema session (renumber number) line = .stopped
            (.commandFile (renumber number) ("invalid line \"" ++ trimEnd line ++ "\"")) := by
          unfold lineOutcome
          rw [hcommand]
        rw [hleft]
        exact ⟨rfl, fun summary hsummary => absurd hsummary (by simp [goOn]),
          fun cause hcause => ⟨number, _, (Except.error.inj hcause).symm, rfl⟩⟩

/-! ## The numbers of a file -/

/-- The number of a line among those that staging leaves of a file. -/
def stagedNumber (text : String) (number : Nat) : Nat :=
  (keptLines ((textLines text).take number)).length

/-- Staging keeps a line that is no commit behind those it keeps in front of it. -/
theorem length_keptLines_take_succ {lines : List String} {i : Nat} (hi : i < lines.length)
    (hline : FileCommand.isCommit lines[i] = false) :
    (keptLines (lines.take (i + 1))).length = (keptLines (lines.take i)).length + 1 := by
  have hlast : keptLines [lines[i]] = [lines[i]] := by simp [keptLines, hline]
  have hsplit : keptLines (lines.take i ++ [lines[i]]) =
      keptLines (lines.take i) ++ keptLines [lines[i]] := List.filter_append ..
  rw [List.take_succ_eq_append_getElem hi, hsplit, hlast, List.length_append]
  rfl

theorem renumbers_stagedNumber (text : String) :
    Renumbers (stagedNumber text) 1 1 (textLines text) := by
  intro i hi hline
  show (keptLines ((textLines text).take (1 + i))).length = _
  rw [Nat.add_comm 1 i, length_keptLines_take_succ hi hline]
  exact Nat.add_comm ..

/-- A line keeps its number if and only if no line up to it commits. -/
theorem stagedNumber_eq_self_iff {text : String} {number : Nat}
    (h : number ≤ (textLines text).length) : stagedNumber text number = number ↔
      ∀ line ∈ (textLines text).take number, FileCommand.isCommit line = false := by
  have hlength : ((textLines text).take number).length = number := by
    rw [List.length_take]
    omega
  have hiff := List.length_filter_eq_length_iff (p := fun line => !FileCommand.isCommit line)
    (l := (textLines text).take number)
  rw [hlength] at hiff
  simpa [stagedNumber, keptLines] using hiff

/-- The line that stands at a number, the first at 1, and what it came to in some session. -/
def StandsAt (schema : Schema) (text : String) (number : Nat) (outcome : LineOutcome) : Prop :=
  ∃ line session, 1 ≤ number ∧ (textLines text)[number - 1]? = some line ∧
    lineOutcome schema session number line = outcome

/-- The line that stands at a number among lines of which the first one is at `first`, and what it
came to in some session. -/
def StandsFrom (schema : Schema) (first : Nat) (lines : List String) (number : Nat)
    (outcome : LineOutcome) : Prop :=
  ∃ i line session, number = first + i ∧ lines[i]? = some line ∧
    lineOutcome schema session number line = outcome

theorem StandsFrom.next {schema : Schema} {first number : Nat} {line : String}
    {lines : List String} {outcome : LineOutcome}
    (h : StandsFrom schema (first + 1) lines number outcome) :
    StandsFrom schema first (line :: lines) number outcome := by
  obtain ⟨i, other, session, rfl, hline, houtcome⟩ := h
  exact ⟨i + 1, other, session, by omega, by simpa using hline, houtcome⟩

/-- Each number that a load names is that of a line which came to what the load says of it. -/
structure NamesLines (stands : Nat → LineOutcome → Prop) (loaded : Loaded World Dict) : Prop where
  skips : ∀ summary, loaded.result = .ok summary → ∀ entry ∈ summary.skipped,
    stands entry.1 (.skipped entry.2)
  stops : ∀ number reason, loaded.result = .error (.commandFile number reason) →
    stands number (.stopped (.commandFile number reason))

namespace NamesLines

variable {stands : Nat → LineOutcome → Prop} {loaded : Loaded World Dict}

theorem imp {stands' : Nat → LineOutcome → Prop} (h : NamesLines stands loaded)
    (himp : ∀ number outcome, stands number outcome → stands' number outcome) :
    NamesLines stands' loaded :=
  ⟨fun summary hsummary entry hentry => himp _ _ (h.skips summary hsummary entry hentry),
    fun number reason hstop => himp _ _ (h.stops number reason hstop)⟩

theorem countApplied (h : NamesLines stands loaded) : NamesLines stands loaded.countApplied := by
  refine ⟨fun summary hsummary => ?_, fun number reason hstop =>
    h.stops number reason (map_eq_error hstop)⟩
  obtain ⟨rest, hrest, rfl⟩ := map_eq_ok hsummary
  exact h.skips rest hrest

/-- The number of a skipped line is that of a line, so noting it keeps every number one. -/
theorem noteSkipped (h : NamesLines stands loaded) {number : Nat} {cause : Error}
    (hstands : stands number (.skipped cause)) (journal : List (Event Dict)) :
    NamesLines stands ((loaded.noteSkipped number cause).after journal) := by
  refine ⟨fun summary hsummary => ?_, fun number reason hstop =>
    h.stops number reason (map_eq_error hstop)⟩
  obtain ⟨rest, hrest, rfl⟩ := map_eq_ok hsummary
  exact List.forall_mem_cons.mpr ⟨hstands, h.skips rest hrest⟩

theorem noteCommit (h : NamesLines stands loaded) (succeeded : Bool) (journal : List (Event Dict)) :
    NamesLines stands ((loaded.noteCommit succeeded).after journal) := by
  refine ⟨fun summary hsummary => ?_, fun number reason hstop =>
    h.stops number reason (map_eq_error hstop)⟩
  obtain ⟨rest, hrest, rfl⟩ := map_eq_ok hsummary
  exact h.skips rest hrest

end NamesLines

/-- Every number that the result of a load names is that of a line with the outcome in question. -/
theorem loadLines_numbers (number : Nat) (lines : List String) (store : Store World Dict)
    (session : Session) :
    NamesLines (StandsFrom store.schema number lines) (loadLines number lines store session) := by
  -- on the lines: what names a line later on names it from here as well
  induction lines generalizing number store session with
  | nil =>
    refine ⟨fun summary hsummary entry hentry => ?_, fun other reason hstop => ?_⟩
    · obtain rfl := Except.ok.inj hsummary
      exact absurd hentry (by simp [LoadSummary.empty])
    · have hend : (loadLines number [] store session).result = .ok .empty := rfl
      exact absurd (hend.symm.trans hstop) (by simp)
  | cons line lines ih =>
    have hlater : ∀ (store' : Store World Dict) session', store'.schema = store.schema →
        NamesLines (StandsFrom store.schema number (line :: lines))
          (loadLines (number + 1) lines store' session') := by
      intro store' session' hschema
      exact (ih (number + 1) store' session').imp fun _ _ hstands => (hschema ▸ hstands).next
    rw [loadLines_cons]
    cases houtcome : lineOutcome store.schema session number line with
    | nothing => exact hlater store session rfl
    | applied edited => exact (hlater store edited rfl).countApplied
    | skipped cause =>
      exact (hlater store session rfl).noteSkipped ⟨0, line, session, rfl, rfl, houtcome⟩ _
    | commit =>
      have hschema := (store.commit_sameSetup session false).schema
      exact (hlater _ _ hschema).noteCommit _ _
    | stopped cause =>
      refine ⟨fun summary hsummary => absurd hsummary (by simp [goOn]), ?_⟩
      intro other reason hstop
      -- a stop names the line it stops at, and there are none before it
      obtain rfl : cause = .commandFile other reason := Except.error.inj hstop
      obtain rfl : other = number := by
        have hcause := (eq_unknown_of_stopped houtcome).2
        rw [Error.commandFile.injEq] at hcause
        exact hcause.1
      exact ⟨0, line, session, rfl, rfl, houtcome⟩

/-- On a store without modules, staging a file comes to the same as loading it, and says the same of
the same lines. Loading names each line by where it stands in the file; staging names it by where it
stands among the lines that do not commit, which is the same if and only if none before it does. -/
theorem stage_renumbers {store : Store World Dict} (hmodules : store.modules = [])
    (session : Session) (text : String) :
    Stands (stagedNumber text) (load store session text) (stage store session text) ∧
    (∀ summary, (load store session text).result = .ok summary → ∀ entry ∈ summary.skipped,
      StandsAt store.schema text entry.1 (.skipped entry.2) ∧
      (stagedNumber text entry.1 = entry.1 ↔
        ∀ line ∈ (textLines text).take entry.1, FileCommand.isCommit line = false)) ∧
    ∀ number reason, (load store session text).result = .error (.commandFile number reason) →
      StandsAt store.schema text number (.stopped (.commandFile number reason)) ∧
      (stagedNumber text number = number ↔
        ∀ line ∈ (textLines text).take number, FileCommand.isCommit line = false) := by
  -- first that every number in the result is that of a line, then that staging keeps the line
  obtain ⟨hskips, hstops⟩ := loadLines_numbers 1 (textLines text) store session
  have hstands := loadLines_stands hmodules rfl (renumbers_stagedNumber text) session
  rw [← stage_eq_loadLines] at hstands
  have hplace : ∀ {number : Nat} {outcome : LineOutcome}, (∃ i line s, number = 1 + i ∧
      (textLines text)[i]? = some line ∧ lineOutcome store.schema s number line = outcome) →
      StandsAt store.schema text number outcome ∧ (stagedNumber text number = number ↔
        ∀ line ∈ (textLines text).take number, FileCommand.isCommit line = false) := by
    -- a line's number stays exactly if no commit comes before it in the text
    rintro number outcome ⟨i, line, s, rfl, hline, houtcome⟩
    have hinside : i < (textLines text).length := (List.getElem?_eq_some_iff.mp hline).1
    refine ⟨⟨line, s, by omega, ?_, houtcome⟩, stagedNumber_eq_self_iff (by omega)⟩
    rw [Nat.add_sub_cancel_left]
    exact hline
  refine ⟨hstands, ?skips, ?stops⟩
  case skips =>
    intro summary hsummary entry hentry
    exact hplace (hskips summary hsummary entry hentry)
  case stops =>
    intro number reason hstop
    exact hplace (hstops number reason hstop)

/-- Without a line that commits in front of it, a line that is skipped keeps its number. -/
theorem stage_renumbers_nothing :
    let store := Cli.newStore Sample.schema {}
    let text := "set system name r1\nset system bogus 1\ncommit\n"
    store.modules = [] ∧ (load store store.openSession text).result =
        .ok ⟨1, [(2, .path ["system", "bogus"] .undeclared)], [true]⟩ ∧
      (stage store store.openSession text).result =
        .ok ⟨1, [(2, .path ["system", "bogus"] .undeclared)], []⟩ := by
  intro store text
  have hload : (load store store.openSession text).result =
      .ok ⟨1, [(2, .path ["system", "bogus"] .undeclared)], [true]⟩ := by decide +kernel
  obtain ⟨hstands, hskips, -⟩ := @stage_renumbers _ _ store rfl store.openSession text
  have hbefore : ∀ line ∈ (textLines text).take 2, FileCommand.isCommit line = false := by
    decide +kernel
  have hsame : stagedNumber text 2 = 2 :=
    (hskips _ hload _ (List.mem_singleton_self _)).2.mpr hbefore
  -- the only number in the result is the second line's, and no commit comes before that
  have hstaged := hstands.done _ hload
  simp only [List.map_singleton, hsame] at hstaged
  exact ⟨rfl, hload, hstaged⟩

/-- Behind a line that commits, a line that is skipped and one that stops the load are reported
under the number of the line before. -/
theorem stage_loses_count :
    let store := Cli.newStore Sample.schema {}
    let rejected := "set system name r1\ncommit\nset system bogus 1\n"
    let unknown := "set system name r1\ncommit\nrename system\n"
    let reason := "invalid line \"rename system\""
    ((load store store.openSession rejected).result =
        .ok ⟨1, [(3, .path ["system", "bogus"] .undeclared)], [true]⟩ ∧
      (stage store store.openSession rejected).result =
        .ok ⟨1, [(2, .path ["system", "bogus"] .undeclared)], []⟩) ∧
    (load store store.openSession unknown).result = .error (.commandFile 3 reason) ∧
      (stage store store.openSession unknown).result = .error (.commandFile 2 reason) := by
  decide +kernel

end RouterConfig
