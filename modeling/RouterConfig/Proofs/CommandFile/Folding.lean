import RouterConfig.Proofs.CommandFile.Staging
import RouterConfig.Proofs.Text.Parts

/-!
# RouterConfig — loading a text in parts

A load carries nothing from one line to the next but the store and the session. So two texts that
are loaded one after the other do what they do as one text, only that the lines of the second are
counted with other numbers; lines that did nothing may as well not be there; and what stops a load
comes after all that the lines before it do. Main results:

* `loadLines_append` — lines behind other lines go on where these have come to their end;
* `loadLines_below` — lines that stand further down do the same;
* `loadLines_leaveOut` — lines that did nothing may be left out;
* `loadLines_before_stop` — a load that fails leaves what the lines before it leave;
* `load_in_parts` — all of this for texts.
-/

namespace RouterConfig

variable {World Dict : Type}

/-! ## Lines further down -/

/-- The same error where the lines stand below `count` others. -/
def Error.below (count : Nat) : Error → Error
  | .commandFile line reason => .commandFile (line + count) reason
  | e => e

/-- The same notice where the lines stand below `count` others. -/
def Notice.below (count : Nat) : Notice → Notice
  | .commitLineFailed line => .commitLineFailed (line + count)
  | .lineSkipped line text failure => .lineSkipped (line + count) text failure
  | notice => notice

/-- The same event where the lines stand below `count` others. -/
def Event.below (count : Nat) : Event Dict → Event Dict
  | .call c => .call c
  | .notice n => .notice (n.below count)

/-- The same summary where the lines stand below `count` others. -/
def LoadSummary.below (count : Nat) (s : LoadSummary) : LoadSummary :=
  { s with skipped := s.skipped.map fun entry => (entry.1 + count, entry.2) }

/-- The same load where the lines stand below `count` others. -/
def Loaded.below (count : Nat) (l : Loaded World Dict) : Loaded World Dict :=
  { l with
    result := (l.result.map (LoadSummary.below count)).mapError (Error.below count)
    journal := l.journal.map (Event.below count) }

namespace Loaded

variable (count : Nat) (l : Loaded World Dict)

theorem below_countApplied : l.countApplied.below count = (l.below count).countApplied := by
  unfold countApplied below
  cases l.result <;> rfl

theorem below_noteSkipped (number : Nat) (cause : Error) :
    (l.noteSkipped number cause).below count =
      (l.below count).noteSkipped (number + count) cause := by
  unfold noteSkipped below
  cases l.result <;> rfl

theorem below_noteCommit (succeeded : Bool) :
    (l.noteCommit succeeded).below count = (l.below count).noteCommit succeeded := by
  unfold noteCommit below
  cases l.result <;> rfl

theorem below_after (journal : List (Event Dict)) : (l.after journal).below count =
    (l.below count).after (journal.map (Event.below count)) := by
  unfold after below
  rw [List.map_append]

end Loaded

/-! ### Commits name no lines -/

/-- A journal in which no line is named by its number. -/
structure Unnumbered (journal : List (Event Dict)) : Prop where
  below : ∀ count, journal.map (Event.below count) = journal

namespace Unnumbered

variable {journal journal' : List (Event Dict)}

theorem nil : Unnumbered ([] : List (Event Dict)) := ⟨fun _ => rfl⟩

theorem cons_call (c : Call Dict) (h : Unnumbered journal) : Unnumbered (.call c :: journal) :=
  ⟨fun count => congrArg (Event.call c :: ·) (h.below count)⟩

theorem append (h : Unnumbered journal) (h' : Unnumbered journal') :
    Unnumbered (journal ++ journal') :=
  ⟨fun count => by rw [List.map_append, h.below count, h'.below count]⟩

theorem of_notices {notices : List Notice}
    (h : ∀ notice ∈ notices, ∀ count, notice.below count = notice) :
    Unnumbered (notices.map (.notice : Notice → Event Dict)) := by
  refine ⟨fun count => ?_⟩
  rw [List.map_map]
  exact List.map_congr_left fun notice hmem => congrArg Event.notice (h notice hmem count)

theorem cons_notice {notice : Notice} (hnotice : ∀ count, notice.below count = notice)
    (h : Unnumbered journal) : Unnumbered (.notice notice :: journal) := by
  have hfirst : Unnumbered ([notice].map (.notice : Notice → Event Dict)) :=
    of_notices (by simpa using hnotice)
  exact hfirst.append h

end Unnumbered

/-- The notices about candidates do not depend on the line of the commit that gives them. -/
theorem unnumbered_candidateNotices (schema : Schema) (modules : Modules World Dict)
    (running : Tree) (session : Session) : Unnumbered
      ((candidateNotices schema modules running session).map (.notice : Notice → Event Dict)) := by
  refine .of_notices fun notice hmem count => ?_
  rcases List.mem_append.mp hmem with hmem | hmem
  · obtain ⟨entry, -, rfl⟩ := List.mem_map.mp hmem
    rfl
  · obtain ⟨owned, -, howned⟩ := List.mem_filterMap.mp hmem
    unfold ownerNotice? at howned
    split at howned
    · rw [← Option.some.inj howned]
      rfl
    · exact absurd howned (by simp)

/-- The entries made while the modules are asked for their dicts do not depend on it. -/
theorem unnumbered_collect (schema : Schema) (running : Tree) (cs : List (Candidate World Dict))
    (session : Session) (world : World) :
    Unnumbered (collect schema running cs session world).journal := by
  induction cs generalizing session world with
  | nil => exact .nil
  | cons c rest ih =>
    rw [collect]
    dsimp only
    split
    · exact .cons_call _ (ih _ _)
    · -- that a task is dropped is told without a line
      exact .cons_call _ (.cons_notice (fun _ => rfl) (ih _ _))

/-- The entries made while the tasks are verified do not depend on it. -/
theorem unnumbered_verifyAll (tasks : List (Task World Dict)) (world : World) :
    Unnumbered (verifyAll tasks world).journal := by
  induction tasks generalizing world with
  | nil => exact .nil
  | cons task rest ih =>
    rw [verifyAll]
    dsimp only
    split
    · exact .cons_call _ (ih _)
    · exact .cons_call _ (.cons_notice (fun _ => rfl) (ih _))

/-- The entries of a fan-out, its calls and the notice of its watchdog, do not depend on it. -/
theorem unnumbered_fanOut (phase : Phase) (executor : Executor World)
    (tasks : List (Task World Dict)) (world : World) :
    Unnumbered (fanOut phase executor tasks world).journal := by
  refine .append ⟨fun count => ?_⟩ ⟨fun count => ?_⟩
  · rw [List.map_filterMap]
    refine List.filterMap_congr fun position _ => ?_
    rw [startCall?]
    cases tasks[position]? <;> rfl
  · cases (executor phase (tasks.map fun task => task.job phase) world).watchdog? <;> rfl

theorem unnumbered_abortNotices (phase : Phase) (failures : List Error) :
    Unnumbered (Store.abortNotices phase failures : List (Event Dict)) := by
  refine .append ⟨fun count => ?_⟩ ⟨fun count => rfl⟩
  rw [List.map_map]
  rfl

/-- Nothing that a commit puts into the journal depends on the line that it stands on. -/
theorem Store.unnumbered_commit (store : Store World Dict) (session : Session) (inMemory : Bool) :
    Unnumbered (store.commit session inMemory).journal := by
  have hselect : Unnumbered (store.select session).journal :=
    (unnumbered_candidateNotices ..).append (unnumbered_collect ..)
  have hverified : Unnumbered (store.verified session).journal := unnumbered_verifyAll ..
  have hbefore : Unnumbered (store.journalBefore session) :=
    (hselect.append hverified).append (unnumbered_fanOut ..)
  have happlied : Unnumbered (store.applied session).journal := unnumbered_fanOut ..
  -- by how far the commit gets: each exit adds its notices to what stands before it
  have hruns : Unnumbered (store.runPhases session).journal := by
    by_cases hunverified : (store.verified session).failures = []
    · by_cases hungenerated : (store.generated session).failures = []
      · by_cases hunapplied : (store.applied session).failures = []
        · rw [runPhases_of_applied hunverified hungenerated hunapplied]
          exact hbefore.append happlied
        · rw [runPhases_of_unapplied hunverified hungenerated hunapplied]
          exact (hbefore.append happlied).append (unnumbered_abortNotices ..)
      · rw [runPhases_of_ungenerated hunverified hungenerated]
        exact hbefore.append (unnumbered_abortNotices ..)
    · rw [runPhases_of_unverified hunverified]
      exact (hselect.append hverified).append (unnumbered_abortNotices ..)
  rw [commit]
  split
  · exact .nil
  · exact hruns

/-- Lines that stand below others do what they do at the top, and are counted with their own
numbers. -/
theorem loadLines_below (count number : Nat) (lines : List String) (store : Store World Dict)
    (session : Session) : loadLines (number + count) lines store session =
      (loadLines number lines store session).below count := by
  -- the two runs are the same line by line; only what bears the line's number can tell them apart
  induction lines generalizing number store session with
  | nil => rfl
  | cons line lines ih =>
    have hnext : ∀ (store : Store World Dict) (session : Session),
        loadLines (number + count + 1) lines store session =
          (loadLines (number + 1) lines store session).below count := by
      intro store session
      rw [Nat.add_right_comm]
      exact ih (number + 1) store session
    -- a blank line and an edit say nothing of their number
    rw [loadLines_cons, loadLines_cons]
    cases houtcome : lineOutcome store.schema session number line with
    | nothing =>
      rw [lineOutcome_number houtcome (by simp)]
      exact hnext store session
    | applied edited =>
      rw [lineOutcome_number houtcome (by simp), goOn, goOn, hnext, Loaded.below_countApplied]
    | skipped cause =>
      rw [lineOutcome_number houtcome (by simp), goOn, goOn, hnext, Loaded.below_after,
        Loaded.below_noteSkipped]
      rfl
    | commit =>
      -- the notices of a commit that failed carry the number, and nothing else that it logs does
      have hnotices : commitNotices (number + count) (store.commit session false) =
          (commitNotices number (store.commit session false)).map (Event.below count) := by
        unfold commitNotices
        split <;> rfl
      rw [lineOutcome_number houtcome (by simp), goOn, goOn, hnext, Loaded.below_after,
        Loaded.below_noteCommit, List.map_append,
        (store.unnumbered_commit session false).below count, hnotices]
    | stopped cause =>
      -- the error that stops a load is the one place where the result itself names the line
      obtain ⟨hcommand, rfl⟩ := eq_unknown_of_stopped houtcome
      rw [lineOutcome, hcommand]
      rfl

/-! ## Lines behind other lines -/

/-- What two loads come to, one after the other. -/
def LoadSummary.append (s t : LoadSummary) : LoadSummary :=
  ⟨s.applied + t.applied, s.skipped ++ t.skipped, s.commits ++ t.commits⟩

theorem LoadSummary.append_skipped (s t : LoadSummary) : (s.append t).skipped.map Prod.fst =
    s.skipped.map Prod.fst ++ t.skipped.map Prod.fst :=
  List.map_append

/-- Goes on where a load has come to its end; one that fails has the last word. -/
def Loaded.followedBy (l : Loaded World Dict)
    (next : Store World Dict → Session → Loaded World Dict) : Loaded World Dict :=
  match l.result with
  | .error _ => l
  | .ok summary =>
    let after := next l.store l.session
    ⟨after.result.map summary.append, after.store, after.session, l.journal ++ after.journal⟩

namespace Loaded

variable (l : Loaded World Dict) (next : Store World Dict → Session → Loaded World Dict)

theorem followedBy_of_ok {l : Loaded World Dict} {summary : LoadSummary}
    (h : l.result = .ok summary) : l.followedBy next =
      ⟨(next l.store l.session).result.map summary.append, (next l.store l.session).store,
        (next l.store l.session).session, l.journal ++ (next l.store l.session).journal⟩ := by
  rw [followedBy, h]

theorem followedBy_of_error {l : Loaded World Dict} {failure : Error}
    (h : l.result = .error failure) : l.followedBy next = l := by
  rw [followedBy, h]

/-- Both loads have come to their end if the second has, and their summaries make up one. -/
theorem followedBy_eq_ok {total : LoadSummary} (h : (l.followedBy next).result = .ok total) :
    ∃ before last, l.result = .ok before ∧ (next l.store l.session).result = .ok last ∧
      before.append last = total := by
  cases hbefore : l.result with
  | error failure =>
    rw [followedBy_of_error next hbefore, hbefore] at h
    exact absurd h (by simp)
  | ok before =>
    rw [followedBy_of_ok next hbefore] at h
    obtain ⟨last, hlast, htotal⟩ := map_eq_ok h
    exact ⟨before, last, rfl, hlast, htotal⟩

/-- What is noted of the first line may as well be noted in the end. -/
theorem followedBy_map {f : LoadSummary → LoadSummary}
    (hf : ∀ s t : LoadSummary, (f s).append t = f (s.append t)) :
    Loaded.followedBy { l with result := l.result.map f } next =
      { l.followedBy next with result := (l.followedBy next).result.map f } := by
  cases hresult : l.result with
  | error cause =>
    rw [followedBy_of_error next hresult, hresult]
    rfl
  | ok summary =>
    have hnoted : ({ l with result := .ok (f summary) } : Loaded World Dict).result =
        .ok (f summary) := rfl
    rw [followedBy_of_ok next hresult, Except.map, followedBy_of_ok next hnoted]
    dsimp only
    cases (next l.store l.session).result with
    | error cause => rfl
    | ok rest => rw [Except.map, Except.map, Except.map, hf]

theorem followedBy_countApplied :
    l.countApplied.followedBy next = (l.followedBy next).countApplied :=
  followedBy_map l next fun s t => by simp [LoadSummary.append, Nat.add_right_comm]

theorem followedBy_noteSkipped (number : Nat) (cause : Error) :
    (l.noteSkipped number cause).followedBy next =
      (l.followedBy next).noteSkipped number cause :=
  followedBy_map l next fun _ _ => rfl

theorem followedBy_noteCommit (succeeded : Bool) :
    (l.noteCommit succeeded).followedBy next = (l.followedBy next).noteCommit succeeded :=
  followedBy_map l next fun _ _ => rfl

/-- What was journaled in front of the first part stays in front of both parts. -/
theorem followedBy_after (journal : List (Event Dict)) :
    (l.after journal).followedBy next = (l.followedBy next).after journal := by
  unfold followedBy after
  dsimp only
  cases hresult : l.result with
  | error cause => rw [hresult]
  | ok summary => rw [List.append_assoc]

end Loaded

theorem loadLines_nil (number : Nat) (store : Store World Dict) (session : Session) :
    loadLines number [] store session = ⟨.ok .empty, store, session, []⟩ := rfl

/-- Lines behind other lines go on where these have come to their end. -/
theorem loadLines_append (number : Nat) (lines lines' : List String) (store : Store World Dict)
    (session : Session) : loadLines number (lines ++ lines') store session =
      (loadLines number lines store session).followedBy
        (loadLines (number + lines.length) lines') := by
  -- on the first part, whose lines are the ones executed first
  induction lines generalizing number store session with
  | nil =>
    -- nothing has been done that would have to be added
    have hempty : LoadSummary.empty.append = id := by
      funext summary
      simp [LoadSummary.append, LoadSummary.empty]
    rw [List.nil_append, loadLines_nil, Loaded.followedBy]
    dsimp only
    rw [hempty, List.length_nil, Nat.add_zero, List.nil_append]
    cases hresult : (loadLines number lines' store session).result with
    | error cause => rw [Except.map, ← hresult]
    | ok summary => rw [Except.map, id, ← hresult]
  | cons line lines ih =>
    have hnext : ∀ (store : Store World Dict) (session : Session),
        loadLines (number + 1) (lines ++ lines') store session =
          (loadLines (number + 1) lines store session).followedBy
            (loadLines (number + (line :: lines).length) lines') := by
      intro store session
      rw [ih (number + 1) store session, List.length_cons, Nat.add_right_comm, Nat.add_assoc]
    rw [List.cons_append, loadLines_cons, loadLines_cons]
    -- the line's outcome is the same on both sides, so it is enough to move it past `followedBy`
    cases lineOutcome store.schema session number line with
    | nothing => exact hnext store session
    | applied edited => rw [goOn, goOn, hnext, Loaded.followedBy_countApplied]
    | skipped cause =>
      rw [goOn, goOn, hnext, Loaded.followedBy_after, Loaded.followedBy_noteSkipped]
    | commit => rw [goOn, goOn, hnext, Loaded.followedBy_after, Loaded.followedBy_noteCommit]
    | stopped cause => rfl

/-! ## The numbers of skipped lines -/

/-- One line is all that a load of it may skip. -/
theorem skipped_of_line {number : Nat} {line : String} {store : Store World Dict}
    {session : Session} {summary : LoadSummary}
    (h : (loadLines number [line] store session).result = .ok summary) :
    summary.skipped = [] ∨ ∃ cause, summary.skipped = [(number, cause)] := by
  rw [loadLines_cons] at h
  cases houtcome : lineOutcome store.schema session number line with
  | skipped cause =>
    rw [houtcome] at h
    obtain rfl := Except.ok.inj h
    exact .inr ⟨cause, rfl⟩
  | stopped cause =>
    rw [houtcome] at h
    exact absurd h (by simp [goOn])
  | _ =>
    rw [houtcome] at h
    obtain rfl := Except.ok.inj h
    exact .inl rfl

/-- The lines that are skipped are listed in their order, each once. -/
theorem loadLines_skipped_order {number : Nat} {lines : List String} {store : Store World Dict}
    {session : Session} {summary : LoadSummary}
    (h : (loadLines number lines store session).result = .ok summary) :
    (∀ skipped ∈ summary.skipped.map Prod.fst, skipped < number + lines.length) ∧
      (summary.skipped.map Prod.fst).Pairwise (· < ·) := by
  induction lines using List.reverseRecOn generalizing summary with
  | nil =>
    obtain rfl := Except.ok.inj h
    exact ⟨by simp [LoadSummary.empty], .nil⟩
  | append_singleton front line ih =>
    -- the last line may be skipped, and all that is skipped before it has a lower number
    rw [loadLines_append] at h
    obtain ⟨before, last, hfront, hlast, rfl⟩ := Loaded.followedBy_eq_ok _ _ h
    obtain ⟨hbounds, horder⟩ := ih hfront
    rw [LoadSummary.append_skipped, List.length_append, List.length_singleton]
    rcases skipped_of_line hlast with hnone | ⟨cause, hone⟩
    · rw [hnone, List.map_nil, List.append_nil]
      exact ⟨fun skipped hmem => Nat.lt_succ_of_lt (hbounds skipped hmem), horder⟩
    · rw [hone, List.map_singleton]
      refine ⟨fun skipped hmem => ?_, List.pairwise_append.mpr
        ⟨horder, List.pairwise_singleton _ _, fun skipped hmem _ hlast => ?_⟩⟩
      · rcases List.mem_append.mp hmem with hmem | hmem
        · exact Nat.lt_succ_of_lt (hbounds skipped hmem)
        · rw [List.mem_singleton.mp hmem]
          exact Nat.lt_succ_self _
      · rw [List.mem_singleton.mp hlast]
        exact hbounds skipped hmem

/-! ## Lines that did nothing -/

/-- A blank line, or a comment. -/
def IsRemark (line : String) : Prop := trim line = "" ∨ (trim line).toList.head? = some '#'

theorem IsRemark.ofText {line : String} (h : IsRemark line) :
    FileCommand.ofText line = .nothing := by
  rcases h with hblank | hcomment
  · rw [FileCommand.ofText, hblank]
    rfl
  · exact FileCommand.ofText_comment hcomment

/-- Two loads that do the same, but for the lines that they skip. -/
structure SameButSkips (loaded loaded' : Loaded World Dict) : Prop where
  store : loaded'.store = loaded.store
  session : loaded'.session = loaded.session
  calls : calls loaded'.journal = calls loaded.journal
  result : ∀ summary, loaded.result = .ok summary →
    ∃ skipped, loaded'.result = .ok { summary with skipped := skipped }

/-- What two loads that come to their end do, they do with the same behind them. -/
theorem SameButSkips.followedBy {l l' : Loaded World Dict}
    {next next' : Store World Dict → Session → Loaded World Dict} (h : SameButSkips l l')
    {summary : LoadSummary} (hresult : l.result = .ok summary)
    (hnext : SameButSkips (next l.store l.session) (next' l.store l.session)) :
    SameButSkips (l.followedBy next) (l'.followedBy next') := by
  obtain ⟨skipped, hresult'⟩ := h.result summary hresult
  rw [Loaded.followedBy_of_ok _ hresult, Loaded.followedBy_of_ok _ hresult', h.store, h.session]
  refine ⟨hnext.store, hnext.session, ?_, fun total htotal => ?_⟩
  · dsimp only
    rw [calls_append, calls_append, h.calls, hnext.calls]
  · obtain ⟨rest, hrest, rfl⟩ := map_eq_ok htotal
    obtain ⟨others, hothers⟩ := hnext.result rest hrest
    exact ⟨skipped ++ others, by rw [hothers]; rfl⟩

/-- A line that does not stop a load does the same at any number. -/
theorem sameButSkips_line {number : Nat} {line : String} {store : Store World Dict}
    {session : Session} {summary : LoadSummary}
    (h : (loadLines number [line] store session).result = .ok summary) (left : Nat) :
    SameButSkips (loadLines number [line] store session) (loadLines left [line] store session) := by
  rw [loadLines_cons] at h ⊢
  rw [loadLines_cons]
  -- which line number it is matters to the outcome only through the cause of a stop, and there is
  -- none here
  cases houtcome : lineOutcome store.schema session number line with
  | stopped cause =>
    rw [houtcome] at h
    exact absurd h (by simp [goOn])
  | skipped cause =>
    rw [lineOutcome_number houtcome (by simp)]
    exact ⟨rfl, rfl, rfl, fun total htotal =>
      ⟨[(left, cause)], by rw [← Except.ok.inj htotal]; rfl⟩⟩
  | commit =>
    rw [lineOutcome_number houtcome (by simp)]
    refine ⟨rfl, rfl, ?_, fun total htotal => ⟨[], by rw [← Except.ok.inj htotal]; rfl⟩⟩
    -- only the number in the notice of a commit that failed may differ
    have hnotices : ∀ number, calls (commitNotices number (store.commit session false)) = [] := by
      intro number
      unfold commitNotices
      split <;> rfl
    rw [goOn, goOn, Loaded.after, Loaded.after, calls_append, calls_append, calls_append,
      calls_append, hnotices, hnotices]
    rfl
  | _ =>
    rw [lineOutcome_number houtcome (by simp)]
    exact ⟨rfl, rfl, rfl, fun total htotal => ⟨[], by rw [← Except.ok.inj htotal]; rfl⟩⟩

/-- A line that says nothing or is skipped does nothing. -/
theorem sameButSkips_nothing {number : Nat} {line : String} {store : Store World Dict}
    {session : Session} {summary : LoadSummary}
    (h : (loadLines number [line] store session).result = .ok summary)
    (hline : FileCommand.ofText line = .nothing ∨ number ∈ summary.skipped.map Prod.fst)
    (left : Nat) :
    SameButSkips (loadLines number [line] store session) (loadLines left [] store session) := by
  have hcommand : FileCommand.ofText line = .nothing →
      lineOutcome store.schema session number line = .nothing := by
    intro hnothing
    rw [lineOutcome, hnothing]
  rw [loadLines_cons] at h ⊢
  cases houtcome : lineOutcome store.schema session number line with
  | nothing =>
    exact ⟨rfl, rfl, rfl, fun total htotal => ⟨[], by rw [← Except.ok.inj htotal]; rfl⟩⟩
  | skipped cause =>
    exact ⟨rfl, rfl, rfl, fun total htotal => ⟨[], by rw [← Except.ok.inj htotal]; rfl⟩⟩
  | stopped cause =>
    rw [houtcome] at h
    exact absurd h (by simp [goOn])
  | _ =>
    -- no other line is skipped, or says nothing
    rw [houtcome] at h hcommand
    obtain rfl := Except.ok.inj h
    exact absurd (hline.imp_left hcommand) (by simp [LoadSummary.empty])

/-- Lines that say nothing and lines that are skipped may be left out of a load that comes to its
end. -/
theorem loadLines_leaveOut {drop : Nat → Bool} {number : Nat} {lines : List String}
    {store : Store World Dict} {session : Session} {summary : LoadSummary}
    (h : (loadLines number lines store session).result = .ok summary)
    (hdrop : ∀ i line, lines[i]? = some line → drop (number + i) = true →
      FileCommand.ofText line = .nothing ∨ number + i ∈ summary.skipped.map Prod.fst)
    (left : Nat) : SameButSkips (loadLines number lines store session)
      (loadLines left (leaveOut drop number lines) store session) := by
  -- from the back, so that the line that may go is the last and the numbers before it stay
  induction lines using List.reverseRecOn generalizing summary with
  | nil =>
    exact ⟨rfl, rfl, rfl, fun total htotal => ⟨[], by rw [← Except.ok.inj htotal]; rfl⟩⟩
  | append_singleton front line ih =>
    rw [loadLines_append] at h ⊢
    rw [leaveOut_append, loadLines_append]
    obtain ⟨before, last, hfront, hlast, rfl⟩ := Loaded.followedBy_eq_ok _ _ h
    rw [LoadSummary.append_skipped] at hdrop
    refine (ih hfront fun i other hi hnumber => ?_).followedBy hfront ?_
    · -- what is skipped before the last line is skipped there
      have hinside : i < front.length := (List.getElem?_eq_some_iff.mp hi).1
      refine (hdrop i other ((List.getElem?_append_left hinside).trans hi) hnumber).imp_right
        fun hmem => (List.mem_append.mp hmem).resolve_right fun hmem => ?_
      rcases skipped_of_line hlast with hnone | ⟨cause, hone⟩
      · simp [hnone] at hmem
      · rw [hone, List.map_singleton, List.mem_singleton] at hmem
        omega
    · rw [leaveOut]
      split
      next hnumber =>
        -- what is skipped at the last line has a number that no line before it has
        refine sameButSkips_nothing hlast ?_ _
        refine (hdrop front.length line (by simp) hnumber).imp_right fun hmem => ?_
        exact (List.mem_append.mp hmem).resolve_left fun hmem =>
          Nat.lt_irrefl _ ((loadLines_skipped_order hfront).1 _ hmem)
      next => exact sameButSkips_line hlast _

/-! ## Lines before the one that stops a load -/

/-- A load that fails has stopped at a line, and leaves just what the lines before that one
leave. -/
theorem loadLines_before_stop {number : Nat} {lines : List String} {store : Store World Dict}
    {session : Session} {failure : Error}
    (h : (loadLines number lines store session).result = .error failure) :
    ∃ before reason summary, failure = .commandFile (number + before) reason ∧
      before < lines.length ∧ loadLines number (lines.take before) store session =
        { loadLines number lines store session with result := .ok summary } := by
  -- from the back: either the front stopped already, or it is this line that stops
  induction lines using List.reverseRecOn with
  | nil => exact absurd h (by simp [loadLines_nil])
  | append_singleton front line ih =>
    rw [loadLines_append] at h ⊢
    rw [List.length_append]
    cases hfront : (loadLines number front store session).result with
    | error cause =>
      rw [Loaded.followedBy_of_error _ hfront] at h ⊢
      obtain ⟨before, reason, summary, hfailure, hbefore, hloaded⟩ := ih h
      refine ⟨before, reason, summary, hfailure, Nat.lt_succ_of_lt hbefore, ?_⟩
      rw [List.take_append_of_le_length (Nat.le_of_lt hbefore)]
      exact hloaded
    | ok summary =>
      -- then it is the last line that stops the load, and that line has done nothing
      rw [Loaded.followedBy_of_ok _ hfront] at h ⊢
      dsimp only at h
      have hlast := map_eq_error h
      rw [loadLines_cons] at hlast ⊢
      cases houtcome : lineOutcome (loadLines number front store session).store.schema
          (loadLines number front store session).session (number + front.length) line with
      | stopped cause =>
        rw [houtcome] at hlast
        obtain rfl : cause = failure := Except.error.inj hlast
        obtain ⟨-, rfl⟩ := eq_unknown_of_stopped houtcome
        refine ⟨front.length, _, summary, rfl, Nat.lt_succ_self _, ?_⟩
        rw [List.take_left, goOn, List.append_nil, ← hfront]
      | _ =>
        rw [houtcome] at hlast
        exact absurd hlast (by simp [goOn, loadLines_nil, Loaded.countApplied, Loaded.noteSkipped,
          Loaded.noteCommit, Loaded.after, Except.map])

/-! ## Texts -/

/-- Loading goes through the lines of a text one after the other:

* a text behind one that ends its lines goes on where that one has come to its end, with its lines
  told by the numbers that they have further down; where the first fails, that is all;
* the lines that are skipped are listed in their order, each once;
* blank lines, comments and lines that were skipped may be left out of a text that was loaded:
  the store, the session, the calls to modules, the commits and the number of lines that were done
  stay the same;
* a load that fails does so with the number of a line, and leaves what the lines before leave. -/
theorem load_in_parts (store : Store World Dict) (session : Session) :
    (∀ a b, EndsLine a → load store session (a ++ b) =
      (load store session a).followedBy fun store session =>
        (load store session b).below (textLines a).length) ∧
    (∀ text summary, (load store session text).result = .ok summary →
      (summary.skipped.map Prod.fst).Pairwise (· < ·)) ∧
    (∀ text summary drop, (load store session text).result = .ok summary →
      (∀ i line, (textLines text)[i]? = some line → drop (i + 1) = true →
        IsRemark line ∨ i + 1 ∈ summary.skipped.map Prod.fst) →
      SameButSkips (load store session text) (load store session (withoutLines drop text))) ∧
    ∀ text failure, (load store session text).result = .error failure →
      ∃ number reason summary, failure = .commandFile number reason ∧
        1 ≤ number ∧ number ≤ (textLines text).length ∧
        load store session (firstLines (number - 1) text) =
          { load store session text with result := .ok summary } := by
  refine ⟨?append, ?order, ?leaveOut, ?stop⟩
  case append =>
    intro a b hends
    rw [load, textLines_append hends, loadLines_append]
    congr 1
    funext store session
    exact loadLines_below ..
  case order => exact fun text summary hsummary => (loadLines_skipped_order hsummary).2
  case leaveOut =>
    intro text summary drop hsummary hdrop
    unfold load
    rw [textLines_withoutLines]
    refine loadLines_leaveOut hsummary (fun i line hline hnumber => ?_) 1
    rw [Nat.add_comm] at hnumber ⊢
    exact (hdrop i line hline hnumber).imp_left IsRemark.ofText
  -- the number counts from one, and the lines before it are the first `number - 1`
  case stop =>
    intro text failure hfailure
    obtain ⟨before, reason, summary, rfl, hbefore, hloaded⟩ := loadLines_before_stop hfailure
    refine ⟨1 + before, reason, summary, rfl, by omega, by omega, ?_⟩
    rw [load, textLines_firstLines, Nat.add_sub_cancel_left]
    exact hloaded

/-- A file in two parts: the commit of the first is promoted, that of the second fails, and then the
load fails. -/
theorem load_in_parts_until_unknown :
    let store := Sample.host.store
    let session := store.openSession
    let first := "set interface eth0\n# uplink\nset system bogus 1\ncommit\n"
    let second := "set system name r1\ncommit\nrename system\n"
    (EndsLine first ∧ load store session (first ++ second) =
      (load store session first).followedBy fun store session =>
        (load store session second).below 4) ∧
    ((load store session first).result =
        .ok ⟨1, [(3, .path ["system", "bogus"] .undeclared)], [true]⟩ ∧
      SameButSkips (load store session first)
        (load store session "set interface eth0\ncommit\n")) ∧
    (load store session (first ++ second)).result =
        .error (.commandFile 7 "invalid line \"rename system\"") ∧
      ∃ summary, load store session (firstLines 6 (first ++ second)) =
        { load store session (first ++ second) with result := .ok summary } := by
  intro store session first second
  obtain ⟨happend, -, hleaveOut, hstop⟩ := load_in_parts store session
  have hends : EndsLine first := by decide
  have hlines : textLines first =
      ["set interface eth0", "# uplink", "set system bogus 1", "commit"] := by decide
  have hparts := happend first second hends
  rw [hlines] at hparts
  have hfirst : (load store session first).result =
      .ok ⟨1, [(3, .path ["system", "bogus"] .undeclared)], [true]⟩ := by decide +kernel
  have hboth : (load store session (first ++ second)).result =
      .error (.commandFile 7 "invalid line \"rename system\"") := by decide +kernel
  -- the first text holds a comment and a line that is skipped, so that both may be left out
  refine ⟨⟨hends, hparts⟩, ⟨hfirst, ?_⟩, hboth, ?_⟩
  · have hkept : withoutLines (fun number => number = 2 ∨ number = 3) first =
        "set interface eth0\ncommit\n" := by decide
    rw [← hkept]
    refine hleaveOut first _ _ hfirst fun i line hline hdrop => ?_
    rcases of_decide_eq_true hdrop with hcomment | hskipped
    · -- the second line is a comment
      obtain rfl : i = 1 := by omega
      rw [hlines] at hline
      rw [← Option.some.inj hline]
      exact .inl (.inr (by decide))
    · exact .inr (by simp [hskipped])
  · obtain ⟨number, reason, summary, hfailure, -, -, hbefore⟩ := hstop _ _ hboth
    rw [Error.commandFile.injEq] at hfailure
    rw [← hfailure.1] at hbefore
    exact ⟨summary, hbefore⟩

end RouterConfig
