import RouterConfig.Proofs.Host.Run

/-!
# RouterConfig — conformance of all that is reachable

A host that starts with nothing configured, on a schema that compiles, never holds a configuration
that does not conform, and no cursor ever stands at an undeclared place: operations of any number of
sessions keep it so, and so do modules that edit the sessions they are shown. Main results:

* `Store.Sound.commit` — commits keep stores and sessions sound;
* `Host.Sound.perform` — so does every operation;
* `Host.Reachable.conforms` — what holds of every configuration, every cursor and every failure;
* `Session.Reachable.sound` — sessions stay sound, however they are come by.
-/

namespace RouterConfig

variable {World Dict : Type} {schema : Schema}

/-- A module that edits the session that it is shown, and does nothing else to it. -/
def Module.EditsOnly (m : Module World Dict) : Prop :=
  ∀ context world, Session.Edits context.schema context.running context.session
    (m.getConfig context world).session

/-! ## Stores -/

/-- A store of the schema whose running configuration conforms, with modules that edit only. -/
structure Store.Sound (schema : Schema) (store : Store World Dict) : Prop where
  declared : store.schema = schema
  modules : ∀ owner m, Keyed.get? store.modules owner = some m → m.EditsOnly
  running : schema.Admits store.running

namespace Store.Sound

variable {store : Store World Dict} {s : Session}

/-- Modules leave a session sound. -/
theorem select (h : store.Sound schema) (hSchema : schema.Compiled) (hs : s.Sound schema) :
    (store.select s).session.Sound schema := by
  refine select_session (fun s hs => hs.atLevel schema.declares_nil) ?_ hs
  intro owner m hm instanceName world s hs
  have hedits := h.modules owner m hm ⟨store.schema, store.running, instanceName, s⟩ world
  exact hs.edits hSchema h.running (h.declared ▸ hedits)

/-- A commit leaves store and session sound. -/
theorem commit (h : store.Sound schema) (hSchema : schema.Compiled) (hs : s.Sound schema)
    (inMemory : Bool) :
    (store.commit s inMemory).store.Sound schema ∧
      (store.commit s inMemory).session.Sound schema := by
  -- the session comes out as the selection left it, so it conforms as it did before
  have hsession : (store.commit s inMemory).session.Sound schema := by
    cases inMemory with
    | true => exact hs
    | false =>
      rw [commit_session]
      exact (h.select hSchema hs).atLevel hs.cursor
  have hsetup := store.commit_sameSetup s inMemory
  have hAtomic := store.commit_atomic s inMemory
  refine ⟨⟨hsetup.schema.trans h.declared, hsetup.modules ▸ h.modules, ?_⟩, hsession⟩
  -- what is running is either the session's tree or what it was
  cases hstate : (store.commit s inMemory).report.state with
  | promoted =>
    rw [(hAtomic.promoted hstate).2.1]
    exact hsession.edit
  | aborted phase =>
    rw [(hAtomic.aborted phase hstate).2]
    exact h.running

/-- A load leaves store and session sound, and blames no line on what is stored. -/
theorem load (h : store.Sound schema) (hSchema : schema.Compiled) (hs : s.Sound schema)
    (text : String) :
    ((RouterConfig.load store s text).store.Sound schema ∧
      (RouterConfig.load store s text).session.Sound schema) ∧
    (∀ e, (RouterConfig.load store s text).result = .error e → e.blamesStored = false) ∧
    ∀ summary, (RouterConfig.load store s text).result = .ok summary →
      ∀ entry ∈ summary.skipped, entry.2.blamesStored = false := by
  -- edits keep the session sound, commits both, and lines fail as edits do
  have hEdit : ∀ (store : Store World Dict) s s', store.Sound schema ∧ s.Sound schema →
      Session.Edit store.schema store.running s s' → store.Sound schema ∧ s'.Sound schema :=
    fun store s s' hboth hedit =>
      ⟨hboth.1, hboth.2.step hSchema hboth.1.running (hboth.1.declared ▸ hedit)⟩
  have hCommit : ∀ (store : Store World Dict) s, store.Sound schema ∧ s.Sound schema →
      (store.commit s false).store.Sound schema ∧ (store.commit s false).session.Sound schema :=
    fun store s hboth => hboth.1.commit hSchema hboth.2 false
  have hCause : ∀ (store : Store World Dict) s number line cause,
      store.Sound schema ∧ s.Sound schema →
      lineOutcome store.schema s number line = .skipped cause ∨
        lineOutcome store.schema s number line = .stopped cause → cause.blamesStored = false :=
    fun store s number line cause hboth houtcome =>
      lineOutcome_blamesStored (hboth.1.declared ▸ hboth.2) (hboth.1.declared ▸ hSchema) houtcome
  exact ⟨loadLines_keeps hEdit hCommit ⟨h, hs⟩,
    loadLines_failures (P := fun e => e.blamesStored = false) hEdit hCommit hCause 1 ⟨h, hs⟩⟩

end Store.Sound

/-! ## Hosts -/

/-- What is done to a session in one go: all but loads and commits. -/
def Operation.isEdit : Operation → Bool
  | load _ | commit _ => false
  | _ => true

namespace Host

/-- A host on which all is sound. -/
structure Sound (schema : Schema) (h : Host World Dict) : Prop where
  store : h.store.Sound schema
  sessions : ∀ name s, Keyed.get? h.sessions name = some s → s.Sound schema

/-- What an edit answers, in terms of its result. -/
theorem edited_answer (h : Host World Dict) (name : String) (result : Except Error Session) :
    (h.edited name result).answer = (result.map fun _ => ()).map fun _ => .nothing := by
  cases result <;> rfl

namespace Sound

variable {h : Host World Dict}

theorem session (hSound : h.Sound schema) (name : String) : (h.session name).Sound schema := by
  rw [Host.session]
  cases hget : Keyed.get? h.sessions name with
  | none => exact Session.sound_ofRunning hSound.store.running
  | some s => exact hSound.sessions name s hget

/-- A session that conforms may take the place of another. -/
theorem putSession (hSound : h.Sound schema) {name : String} {s : Session} (hs : s.Sound schema) :
    (h.putSession name s).Sound schema := by
  refine ⟨hSound.store, fun other s' hget => ?_⟩
  by_cases hname : name = other
  · rw [Host.putSession, ← hname, Keyed.get?_insert_self, Option.some.injEq] at hget
    exact hget ▸ hs
  · rw [get?_putSession_of_ne h s hname] at hget
    exact hSound.sessions other s' hget

/-- An operation that edits does what an edit does to its session. -/
theorem edited (hSound : h.Sound schema) (hSchema : schema.Compiled) {name : String}
    {result : Except Error Session}
    (hresult : ∀ s, result = .ok s →
      Session.Edit h.store.schema h.store.running (h.session name) s) :
    (h.edited name result).host.Sound schema := by
  cases result with
  | error cause => exact hSound
  | ok s =>
    have hedit := hresult s rfl
    rw [hSound.store.declared] at hedit
    exact hSound.putSession ((hSound.session name).step hSchema hSound.store.running hedit)

/-- Every operation leaves a host sound. -/
theorem perform (hSound : h.Sound schema) (hSchema : schema.Compiled) (name : String)
    (operation : Operation) : (h.perform name operation).host.Sound schema := by
  -- an operation edits the session, loads into it or commits it; each has its own lemma
  have hsession := hSound.session name
  cases operation with
  | openSession => exact hSound.putSession (Session.sound_ofRunning hSound.store.running)
  | set path typed => exact hSound.edited hSchema fun s hs => .set path typed hs
  | setWords words => exact hSound.edited hSchema fun s hs => .setWords words hs
  | delete path typed? => exact hSound.edited hSchema fun s hs => .delete path typed? hs
  | deleteWords words => exact hSound.edited hSchema fun s hs => .deleteWords words hs
  | setLevel path => exact hSound.edited hSchema fun s hs => .setLevel path hs
  | resetLevel => exact hSound.edited hSchema fun s hs => Except.ok.inj hs ▸ .resetLevel
  | discard => exact hSound.edited hSchema fun s hs => Except.ok.inj hs ▸ .discard
  | load text =>
    obtain ⟨⟨hstore, hs⟩, -⟩ := hSound.store.load hSchema hsession text
    exact putSession (h := { h with store := _ }) ⟨hstore, hSound.sessions⟩ hs
  | commit inMemory =>
    obtain ⟨hstore, hs⟩ := hSound.store.commit hSchema hsession inMemory
    exact putSession (h := { h with store := _ }) ⟨hstore, hSound.sessions⟩ hs

/-- No operation fails with what blames the things that are stored. -/
theorem blamesStored_of_perform (hSound : h.Sound schema) (hSchema : schema.Compiled)
    {name : String} {operation : Operation} {e : Error}
    (he : (h.perform name operation).answer = .error e) : e.blamesStored = false := by
  have hsession := hSound.session name
  -- the answer of an edit is an error only if its result is
  have hfails : ∀ result : Except Error Session, (h.edited name result).answer = .error e →
      result = .error e := by
    intro result hresult
    cases result with
    | ok s => exact absurd hresult (by simp [Host.edited])
    | error cause => exact congrArg Except.error (Except.error.inj hresult)
  rw [← hSound.store.declared] at hsession hSchema
  cases operation with
  | openSession => exact absurd (hfails _ he) (by simp)
  | set path typed => exact hsession.blamesStored_of_set hSchema (hfails _ he)
  | setWords words => exact hsession.blamesStored_of_setWords hSchema (hfails _ he)
  | delete path typed? => exact (Session.refusal_of_delete (hfails _ he)).blamesStored
  | deleteWords words => exact (Session.refusal_of_deleteWords (hfails _ he)).blamesStored
  | setLevel path => exact (Session.refusal_of_setLevel (hfails _ he)).blamesStored
  | resetLevel => exact absurd (hfails _ he) (by simp)
  | discard => exact absurd (hfails _ he) (by simp)
  -- a load fails with what its lines fail with
  | load text =>
    have hstore : h.store.Sound h.store.schema := hSound.store.declared.symm ▸ hSound.store
    rw [Host.perform] at he
    cases hresult : (RouterConfig.load h.store (h.session name) text).result with
    | ok summary => simp [hresult, Except.map] at he
    | error cause =>
      simp only [hresult, Except.map, Except.error.injEq] at he
      exact he ▸ (hstore.load hSchema hsession text).2.1 cause hresult
  | commit inMemory => exact absurd he (by simp [Host.perform])

/-- No line of a load is skipped for what blames the things that are stored. -/
theorem blamesStored_of_skipped (hSound : h.Sound schema) (hSchema : schema.Compiled)
    {name text : String} {summary : LoadSummary}
    (hanswer : (h.perform name (.load text)).answer = .ok (.summary summary)) :
    ∀ entry ∈ summary.skipped, entry.2.blamesStored = false := by
  rw [Host.perform] at hanswer
  cases hresult : (RouterConfig.load h.store (h.session name) text).result with
  | error cause => simp [hresult, Except.map] at hanswer
  | ok told =>
    simp only [hresult, Except.map, Except.ok.injEq, Answer.summary.injEq] at hanswer
    exact hanswer ▸ (hSound.store.load hSchema (hSound.session name) text).2.2 told hresult

/-- Two sessions with one cursor, on whatever hosts, are answered alike. -/
theorem answer_agree {h' : Host World Dict} (hSound : h.Sound schema) (hSound' : h'.Sound schema)
    (hSchema : schema.Compiled) {name name' : String}
    (hlevel : (h.session name).level = (h'.session name').level) {operation : Operation}
    (hedit : operation.isEdit = true) :
    (h.perform name operation).answer = (h'.perform name' operation).answer := by
  -- an edit looks at the schema, the cursor and its own arguments, which are the same in both
  have hsession := hSound.session name
  have hsession' := hSound'.session name'
  have hdeclared := hSound.store.declared
  have hdeclared' := hSound'.store.declared
  cases operation with
  | openSession => rfl
  | set path typed =>
    simp only [Host.perform, edited_answer, hdeclared, hdeclared']
    rw [hsession.set_agree hsession' hSchema hlevel]
  | setWords words =>
    simp only [Host.perform, edited_answer, hdeclared, hdeclared']
    rw [hsession.setWords_agree hsession' hSchema hlevel]
  | delete path typed? =>
    simp only [Host.perform, edited_answer, hdeclared, hdeclared']
    rw [Session.delete_agree hlevel]
  | deleteWords words =>
    simp only [Host.perform, edited_answer, hdeclared, hdeclared']
    rw [Session.deleteWords_agree hlevel]
  | setLevel path =>
    simp only [Host.perform, edited_answer, hdeclared, hdeclared', Session.setLevel]
    cases schema.resolve path <;> rfl
  | resetLevel => rfl
  | discard => rfl
  | load text => exact absurd hedit (by simp [Operation.isEdit])
  | commit inMemory => exact absurd hedit (by simp [Operation.isEdit])

end Sound

/-! ## What can be reached -/

/-- The hosts that come, by operations of any sessions in any order, from a store of the schema in
which nothing is configured and whose modules edit the sessions they are shown, at most. -/
inductive Reachable (schema : Schema) : Host World Dict → Prop where
  | start {store : Store World Dict} : store.schema = schema → store.running = Tree.empty →
    (∀ owner m, Keyed.get? store.modules owner = some m → m.EditsOnly) →
    Reachable schema ⟨store, []⟩
  | perform {h : Host World Dict} (name : String) (operation : Operation) :
    Reachable schema h → Reachable schema (h.perform name operation).host

/-- Everything that can be reached conforms: what is running, and every session. -/
theorem Reachable.sound (hSchema : schema.Compiled) {h : Host World Dict}
    (hReach : h.Reachable schema) : h.Sound schema := by
  induction hReach with
  | start hdeclared hrunning hmodules =>
    refine ⟨⟨hdeclared, hmodules, ?_⟩, fun _ _ hget => absurd hget (by simp)⟩
    rw [hrunning]
    exact schema.admits_empty
  | perform name operation _ ih => exact ih.perform hSchema name operation

theorem Reachable.run {h : Host World Dict} (hReach : h.Reachable schema)
    (steps : List (String × Operation)) : (h.run steps).Reachable schema :=
  run_keeps (fun _ name operation hReach => .perform name operation hReach) hReach steps

/-- On every host that comes from an empty configuration of a schema that compiles:

* the running configuration and that of every session have the shape that the schema gives them, and
  every cursor stands at a declared place, also while modules edit;
* no operation fails, and no line of a command file is skipped, for what is stored;
* whether an edit succeeds, and what it fails with, depends on the schema, the cursor and the
  arguments alone: any two sessions with one cursor are answered alike. -/
theorem Reachable.conforms (hSchema : schema.Compiled) {h : Host World Dict}
    (hReach : h.Reachable schema) :
    schema.Shapes h.store.running ∧
    (∀ name s, Session.Edits schema h.store.running (h.session name) s →
      schema.Shapes s.edit ∧ schema.declares s.level = true ∧
      ∀ words e, s.setWords schema words = .error e → e.blamesStored = false) ∧
    (∀ name operation e, (h.perform name operation).answer = .error e → e.blamesStored = false) ∧
    (∀ name text summary, (h.perform name (.load text)).answer = .ok (.summary summary) →
      ∀ entry ∈ summary.skipped, entry.2.blamesStored = false) ∧
    ∀ (h' : Host World Dict) (name name' : String) (operation : Operation), h'.Reachable schema →
      operation.isEdit = true → (h.session name).level = (h'.session name').level →
      (h.perform name operation).answer = (h'.perform name' operation).answer := by
  have hSound := hReach.sound hSchema
  refine ⟨hSound.store.running.shapes, ?_, ?_, ?_, ?_⟩
  · intro name s hedits
    have hs := (hSound.session name).edits hSchema hSound.store.running hedits
    exact ⟨hs.edit.shapes, hs.cursor, fun words e he => hs.blamesStored_of_setWords hSchema he⟩
  · intro name operation e he
    exact hSound.blamesStored_of_perform hSchema he
  · intro name text summary hanswer
    exact hSound.blamesStored_of_skipped hSchema hanswer
  · intro h' name name' operation hReach' hedit hlevel
    exact hSound.answer_agree (hReach'.sound hSchema) hSchema hlevel hedit

end Host

/-! ## Sessions -/

namespace Session

/-- The sessions that come by edits from those of hosts that can be reached. -/
def Reachable (schema : Schema) (s : Session) : Prop :=
  ∃ (World Dict : Type) (h : Host World Dict) (name : String), h.Reachable schema ∧
    Edits schema h.store.running (h.session name) s

/-- A session of a host on which nothing has been done. -/
theorem reachable_empty (schema : Schema) : (ofRunning Tree.empty).Reachable schema :=
  ⟨Unit, Unit, ⟨⟨schema, [], .sequential, false, Tree.empty, ()⟩, []⟩, "",
    .start rfl rfl fun _ _ hnone => absurd hnone (by simp), .refl⟩

theorem Reachable.sound (hSchema : schema.Compiled) {s : Session} (hs : s.Reachable schema) :
    s.Sound schema := by
  obtain ⟨World, Dict, h, name, hReach, hedits⟩ := hs
  have hSound := hReach.sound hSchema
  exact (hSound.session name).edits hSchema hSound.store.running hedits

theorem Reachable.set {s s' : Session} (hs : s.Reachable schema) {path : Path} {typed : String}
    (hset : s.set schema path typed = .ok s') : s'.Reachable schema := by
  obtain ⟨World, Dict, h, name, hReach, hedits⟩ := hs
  exact ⟨World, Dict, h, name, hReach, .tail hedits (.set path typed hset)⟩

/-- Editing leads to nothing but sessions that can be reached. -/
theorem Reachable.setWords {s s' : Session} (hs : s.Reachable schema) {words : List String}
    (hset : s.setWords schema words = .ok s') : s'.Reachable schema := by
  obtain ⟨World, Dict, h, name, hReach, hedits⟩ := hs
  exact ⟨World, Dict, h, name, hReach, .tail hedits (.setWords words hset)⟩

end Session

namespace Sample

theorem compiled : Sample.schema.Compiled := ⟨definitions, rfl⟩

/-- The sample modules edit their session through its requests alone. -/
theorem module_editsOnly (words : List String) (applied : Attempt Unit) :
    (module words applied).EditsOnly := by
  intro context world
  show Session.Edits _ _ _ ((context.session.setWords context.schema words).toOption.getD _)
  cases hset : context.session.setWords context.schema words with
  | ok s => exact .tail .refl (.setWords words hset)
  | error e => exact .refl

/-- The hosts that come from the small one are reachable. -/
theorem reachable (steps : List (String × Operation)) :
    (host.run steps).Reachable Sample.schema := by
  have hstart : host.store.schema = Sample.schema ∧ host.store.running = Tree.empty := ⟨rfl, rfl⟩
  refine Host.Reachable.run (h := host) (.start hstart.1 hstart.2 fun owner m hm => ?_) steps
  rcases List.mem_cons.mp (Keyed.mem_of_get? hm) with heq | hmem
  · rw [(Prod.mk.inj heq).2]
    exact module_editsOnly _ _
  · rw [(Prod.mk.inj (List.mem_singleton.mp hmem)).2]
    exact module_editsOnly _ _

end Sample

namespace Host

/-- A module has edited what is running, and it conforms. -/
theorem conforms_after_module_edit :
    (Sample.schema.Compiled ∧ (Sample.host.run Sample.steps).Reachable Sample.schema) ∧
      (Sample.host.run Sample.steps).store.running = Sample.configured ∧
      Sample.schema.Shapes Sample.configured := by
  have hReach := Sample.reachable Sample.steps
  exact ⟨⟨Sample.compiled, hReach⟩, rfl, (Reachable.conforms Sample.compiled hReach).1⟩

end Host

end RouterConfig
