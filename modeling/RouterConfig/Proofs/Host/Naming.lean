import RouterConfig.Proofs.Commit.Candidates
import RouterConfig.Proofs.Commit.Undisturbed
import RouterConfig.Proofs.Session.Naming

/-!
# RouterConfig — how an instance without a name is reached

No word of a command line is empty, so that loads make no instance without a name; what is running
comes from sessions. What is left are the operations that are given a path, and of these it is
exactly the ones that set something, or put the cursor, where the path leads through an instance
without a name. Main results:

* `Host.Named.perform_iff` — which operations leave all instances with a name;
* `Host.named_along_iff` — and which runs do;
* `Host.instances_named` — runs from an empty configuration, and the instances that modules are
  called for.
-/

namespace RouterConfig

variable {World Dict : Type} {schema : Schema}

/-- A module that edits the session that it is shown by paths which lead through no instance without
a name, unless it finds the cursor in one. -/
def Module.EditsNamed (m : Module World Dict) : Prop :=
  ∀ context world, Session.NamedEdits context.schema context.running context.session
    (m.getConfig context world).session

theorem Module.EditsNamed.editsOnly {m : Module World Dict} (h : m.EditsNamed) : m.EditsOnly :=
  fun context world => (h context world).edits

/-! ## Stores -/

/-- A store and a session on it in which every instance has a name and all else is sound, next to
modules that make no others. -/
structure Store.NamedWith (schema : Schema) (store : Store World Dict) (s : Session) : Prop where
  sound : store.Sound schema
  modules : ∀ owner m, Keyed.get? store.modules owner = some m → m.EditsNamed
  running : schema.Named store.running
  session : s.Sound schema
  named : s.Named schema

namespace Store.NamedWith

variable {store : Store World Dict} {s s' : Session}

/-- A selection keeps every stored instance named, as its modules edit by requests that spell
theirs. -/
theorem select (h : store.NamedWith schema s) (hSchema : schema.Compiled) :
    (store.select s).session.Named schema := by
  have hselect : (store.select s).session.Sound schema ∧ (store.select s).session.Named schema := by
    refine select_session (I := fun s => s.Sound schema ∧ s.Named schema) ?_ ?_
      ⟨h.session, h.named⟩
    · exact fun s hs => ⟨hs.1.atLevel schema.declares_nil, hs.2.resetLevel⟩
    · intro owner m hm instanceName world s hs
      have hedits : Session.NamedEdits schema store.running s
          (m.getConfig ⟨store.schema, store.running, instanceName, s⟩ world).session :=
        h.sound.declared ▸ h.modules owner m hm ⟨_, store.running, instanceName, s⟩ world
      exact ⟨hs.1.edits hSchema h.sound.running hedits.edits,
        hs.2.edits hs.1 hSchema h.sound.running h.running hedits⟩
  exact hselect.2

/-- A commit keeps every stored instance named, promoted or not. -/
theorem commit (h : store.NamedWith schema s) (hSchema : schema.Compiled) (inMemory : Bool) :
    (store.commit s inMemory).store.NamedWith schema (store.commit s inMemory).session := by
  have hsound := h.sound.commit hSchema h.session inMemory
  -- in memory nothing is asked of the modules; else the selection has kept the names
  have hnamed : (store.commit s inMemory).session.Named schema := by
    cases inMemory with
    | true => exact h.named
    | false =>
      rw [commit_session]
      exact ⟨(h.select hSchema).edit, h.named.cursor⟩
  have hsetup := store.commit_sameSetup s inMemory
  have hAtomic := store.commit_atomic s inMemory
  refine ⟨hsound.1, hsetup.modules ▸ h.modules, ?_, hsound.2, hnamed⟩
  cases hstate : (store.commit s inMemory).report.state with
  | promoted =>
    rw [(hAtomic.promoted hstate).2.1]
    exact hnamed.edit
  | aborted phase =>
    rw [(hAtomic.aborted phase hstate).2]
    exact h.running

/-- The words of a line are not empty, so that what a line does leaves all instances with a name. -/
theorem applied (h : store.NamedWith schema s) (hSchema : schema.Compiled) {number : Nat}
    {line : String} (houtcome : lineOutcome store.schema s number line = .applied s') :
    store.NamedWith schema s' := by
  rw [h.sound.declared] at houtcome
  have hsound : s'.Sound schema :=
    h.session.step hSchema h.sound.running (lineOutcome_applied_edit houtcome)
  refine ⟨h.sound, h.modules, h.running, hsound, ?_⟩
  unfold lineOutcome at houtcome
  -- a line's words come from the blanks of the text, so none of them is empty
  cases hcommand : FileCommand.ofText line with
  | set words =>
    rw [hcommand] at houtcome
    refine (h.named.setWords_iff h.session hSchema (editOutcome_eq_applied_iff.mp houtcome)).mpr
      (h.named.cursor.append fun hempty => ?_)
    have hmem : "" ∈ quotedWords (trim line) := by
      rw [quotedWords_of_ofText_set hcommand]
      exact List.mem_cons_of_mem _ (List.mem_of_mem_dropLast hempty)
    exact quotedWords_ne_empty hmem rfl
  | delete words =>
    rw [hcommand] at houtcome
    exact h.named.deleteWords h.session (editOutcome_eq_applied_iff.mp houtcome)
  | nothing => simp [hcommand] at houtcome
  | commit => simp [hcommand] at houtcome
  | unknown => simp [hcommand] at houtcome

theorem load (h : store.NamedWith schema s) (hSchema : schema.Compiled) (text : String) :
    (RouterConfig.load store s text).store.NamedWith schema
      (RouterConfig.load store s text).session :=
  loadLines_keeps_of_lines (fun _ _ _ _ _ _ hnow houtcome => hnow.applied hSchema houtcome)
    (fun _ _ hnow => hnow.commit hSchema false) h

end Store.NamedWith

/-- The modules are the same after commits, whatever becomes of these. -/
theorem Store.Through.modules_eq {store last : Store World Dict}
    {calls : List (CommitCall World Dict)} (h : store.Through calls last) :
    last.modules = store.modules := by
  induction h with
  | nil => rfl
  | @cons store last c rest hstore _ ih =>
    have hsetup := c.store.commit_sameSetup c.session c.inMemory
    rw [ih, ← hstore]
    exact hsetup.modules

/-! ## Operations -/

namespace Operation

/-- The path on which an operation sets something or to which it takes the cursor, seen from the
root. -/
def way (level : Path) : Operation → Path
  | .set path _ => level ++ path
  | .setWords words => level ++ words.dropLast
  | .setLevel path => path
  | _ => []

/-- Whether no segment of the path that an operation is given is empty. -/
def Spelled (operation : Operation) : Prop := "" ∉ operation.way []

/-- A path that is spelled where it is typed is spelled below a cursor that is. -/
theorem Spelled.spells {operation : Operation} (h : operation.Spelled) {level : Path}
    (hlevel : schema.Spells level) : schema.Spells (operation.way level) := by
  cases operation with
  | set path typed => exact hlevel.append h
  | setWords words => exact hlevel.append h
  | setLevel path => exact schema.spells_nil.append h
  | _ => exact schema.spells_nil

end Operation

namespace Host

variable {h : Host World Dict}

/-- A host on which every instance has a name, running or in a session, and no cursor stands in one
without. -/
structure Named (schema : Schema) (h : Host World Dict) : Prop where
  running : schema.Named h.store.running
  sessions : ∀ name, (h.session name).Named schema

/-- A host on which all is sound, with modules that make no instance without a name. -/
structure Careful (schema : Schema) (h : Host World Dict) : Prop where
  sound : h.Sound schema
  modules : ∀ owner m, Keyed.get? h.store.modules owner = some m → m.EditsNamed

/-- Whether an operation of a session leads, if it succeeds, through no instance without a name. -/
def Spells (schema : Schema) (h : Host World Dict) (name : String) (operation : Operation) : Prop :=
  ∀ answer, (h.perform name operation).answer = .ok answer →
    schema.Spells (operation.way (h.session name).level)

theorem Careful.perform (h' : h.Careful schema) (hSchema : schema.Compiled) (name : String)
    (operation : Operation) : (h.perform name operation).host.Careful schema := by
  have hmodules := (h.perform_through name operation).modules_eq
  exact ⟨h'.sound.perform hSchema name operation, hmodules ▸ h'.modules⟩

theorem Careful.run (h' : h.Careful schema) (hSchema : schema.Compiled)
    (steps : List (String × Operation)) : (h.run steps).Careful schema :=
  run_keeps (fun _ name operation hnow => hnow.perform hSchema name operation) h' steps

theorem session_putSession_of_ne (h : Host World Dict) {name other : String} (session : Session)
    (hne : name ≠ other) : (h.putSession name session).session other = h.session other := by
  rw [Host.session, get?_putSession_of_ne h session hne]
  rfl

namespace Named

/-- Putting a session back keeps the host named if and only if that session is. -/
theorem putSession_iff (hNamed : h.Named schema) {name : String} {s : Session} :
    (h.putSession name s).Named schema ↔ s.Named schema := by
  constructor
  · intro h'
    have hs := h'.sessions name
    rwa [session_putSession] at hs
  · intro hs
    refine ⟨hNamed.running, fun other => ?_⟩
    by_cases hname : name = other
    · rw [← hname, session_putSession]
      exact hs
    · rw [session_putSession_of_ne h s hname]
      exact hNamed.sessions other

/-- Sessions that are not open yet start from what is running. -/
theorem withStore (hNamed : h.Named schema) {store : Store World Dict}
    (hrunning : schema.Named store.running) :
    ({ h with store := store } : Host World Dict).Named schema := by
  refine ⟨hrunning, fun name => ?_⟩
  have hs := hNamed.sessions name
  rw [Host.session] at hs ⊢
  cases hopen : Keyed.get? h.sessions name with
  | none => exact Session.named_ofRunning hrunning
  | some s =>
    rw [hopen] at hs
    exact hs

/-- An edit leaves a host so if and only if it leaves its session so. -/
theorem edited_iff (hNamed : h.Named schema) {name : String} {result : Except Error Session}
    {way : Path} (hresult : ∀ s, result = .ok s → (s.Named schema ↔ schema.Spells way)) :
    (h.edited name result).host.Named schema ↔
      ∀ answer, (h.edited name result).answer = .ok answer → schema.Spells way := by
  cases result with
  | error cause => exact iff_of_true hNamed fun _ hanswer => absurd hanswer (by simp [edited])
  | ok s =>
    rw [edited, hNamed.putSession_iff, hresult s rfl]
    exact ⟨fun hway _ _ => hway, fun hway => hway .nothing rfl⟩

/-- An operation leaves all instances with a name if and only if it fails, or its path leads through
none without: no other operation makes one. -/
theorem perform_iff (hNamed : h.Named schema) (h' : h.Careful schema) (hSchema : schema.Compiled)
    (name : String) (operation : Operation) :
    (h.perform name operation).host.Named schema ↔ h.Spells schema name operation := by
  have hsession := h'.sound.session name
  have hnamed := hNamed.sessions name
  have hstore : h.store.NamedWith schema (h.session name) :=
    ⟨h'.sound.store, h'.modules, hNamed.running, hsession, hnamed⟩
  have hdeclared := h'.sound.store.declared
  -- the request says which path it is about, and it is the path that must be spelled
  unfold Host.Spells
  cases operation with
  | set path typed =>
    refine hNamed.edited_iff fun s hs => ?_
    rw [hdeclared] at hs
    exact hnamed.set_iff hsession hSchema hs
  | setWords words =>
    refine hNamed.edited_iff fun s hs => ?_
    rw [hdeclared] at hs
    exact hnamed.setWords_iff hsession hSchema hs
  | setLevel path =>
    refine hNamed.edited_iff fun s hs => ?_
    rw [hdeclared] at hs
    exact hnamed.setLevel_iff hs
  -- the others are about no path, which is to say about one through no instance at all
  | delete path typed? =>
    refine hNamed.edited_iff fun s hs => iff_of_true ?_ schema.spells_nil
    rw [hdeclared] at hs
    exact hnamed.delete hsession hs
  | deleteWords words =>
    refine hNamed.edited_iff fun s hs => iff_of_true ?_ schema.spells_nil
    rw [hdeclared] at hs
    exact hnamed.deleteWords hsession hs
  | openSession =>
    refine hNamed.edited_iff fun s hs => iff_of_true ?_ schema.spells_nil
    exact Except.ok.inj hs ▸ Session.named_ofRunning hNamed.running
  | resetLevel =>
    refine hNamed.edited_iff fun s hs => iff_of_true ?_ schema.spells_nil
    exact Except.ok.inj hs ▸ hnamed.resetLevel
  | discard =>
    refine hNamed.edited_iff fun s hs => iff_of_true ?_ schema.spells_nil
    exact Except.ok.inj hs ▸ Session.named_ofRunning hNamed.running
  | load text =>
    refine iff_of_true ?_ fun _ _ => schema.spells_nil
    have hloaded := hstore.load hSchema text
    exact (hNamed.withStore hloaded.running).putSession_iff.mpr hloaded.named
  | commit inMemory =>
    refine iff_of_true ?_ fun _ _ => schema.spells_nil
    have hdone := hstore.commit hSchema inMemory
    exact (hNamed.withStore hdone.running).putSession_iff.mpr hdone.named

end Named

/-! ## Runs -/

theorem run_append (h : Host World Dict) (before after : List (String × Operation)) :
    h.run (before ++ after) = (h.run before).run after := by
  induction before generalizing h with
  | nil => rfl
  | cons step rest ih => exact ih _

/-- All along a run every instance has a name if and only if no operation of it makes one
without. -/
theorem named_along_iff (hNamed : h.Named schema) (h' : h.Careful schema)
    (hSchema : schema.Compiled) (steps : List (String × Operation)) :
    (∀ before, before <+: steps → (h.run before).Named schema) ↔
      ∀ before name operation, before ++ [(name, operation)] <+: steps →
        (h.run before).Spells schema name operation := by
  -- one step keeps the names if and only if its request is spelled
  have hstep : ∀ before name operation, (h.run before).Named schema →
      ((h.run (before ++ [(name, operation)])).Named schema ↔
        (h.run before).Spells schema name operation) := by
    intro before name operation hbefore
    rw [run_append]
    exact hbefore.perform_iff (h'.run hSchema before) hSchema name operation
  constructor
  · intro hnamed before name operation hbefore
    have hearlier := hnamed before ((List.prefix_append ..).trans hbefore)
    exact (hstep before name operation hearlier).mp (hnamed _ hbefore)
  · -- from the back, since a request is judged by the state the requests before it have made
    intro hspells before hbefore
    induction before using List.reverseRecOn with
    | nil => exact hNamed
    | append_singleton before step ih =>
      have hearlier := ih ((List.prefix_append ..).trans hbefore)
      exact (hstep before step.1 step.2 hearlier).mpr (hspells before step.1 step.2 hbefore)

/-- Operations with no empty segment in their paths make no instance without a name. -/
theorem Named.run (hNamed : h.Named schema) (h' : h.Careful schema) (hSchema : schema.Compiled)
    {steps : List (String × Operation)} (hsteps : ∀ step ∈ steps, step.2.Spelled) :
    (h.run steps).Named schema := by
  induction steps generalizing h with
  | nil => exact hNamed
  | cons step rest ih =>
    have hspells : h.Spells schema step.1 step.2 := fun _ _ =>
      (hsteps step (List.mem_cons_self ..)).spells (hNamed.sessions step.1).cursor
    exact ih ((hNamed.perform_iff h' hSchema step.1 step.2).mpr hspells)
      (h'.perform hSchema step.1 step.2) fun step' hstep' =>
        hsteps step' (List.mem_cons_of_mem _ hstep')

end Host

/-! ## The instances that modules are called for -/

/-- Where every instance has a name, a module is called for one if and only if its owned position is
a tag node. -/
theorem Store.instance?_of_named {store : Store World Dict} {s : Session}
    (hSchema : store.schema.Orderly) (hs : s.Sound store.schema)
    (hRunning : store.schema.Admits store.running) (hNamed : s.Named store.schema)
    (hRunningNamed : store.schema.Named store.running) {c : Candidate World Dict}
    (hc : c ∈ store.candidates s) :
    (c.context store.schema store.running s.resetLevel).instance? = none ↔
      store.schema.isTag c.name.path = false := by
  have hedit : store.schema.Admits s.resetLevel.edit := hs.edit
  obtain ⟨⟨node, hnode, -, -, hinstance⟩, -⟩ :=
    (mem_candidates_iff hSchema hedit hRunning rfl).mp hc
  have hTag : store.schema.isTag c.name.path = node.isTag := by
    rw [Schema.isTag, hnode]
    rfl
  have htold : (c.context store.schema store.running s.resetLevel).instance? = none ↔
      c.name.instanceName = "" := TaskName.instance?_eq_none_iff c.name
  rw [hTag, htold]
  -- a tag node's candidate is an instance, which is named as both trees are
  cases hkind : node.isTag with
  | false =>
    rw [hkind, if_neg (by simp)] at hinstance
    exact iff_of_true hinstance rfl
  | true =>
    rw [hkind, if_pos rfl] at hinstance
    refine iff_of_false (fun hempty => ?_) (by simp)
    have hgone : s.resetLevel.edit.get? (c.name.path ++ [""]) = none :=
      hNamed.edit _ (hTag.trans hkind)
    rw [hempty, hgone, hRunningNamed _ (hTag.trans hkind)] at hinstance
    simp at hinstance

namespace Host

/-- With nothing configured on a store of an orderly schema, and modules that make no instance
without a name:

* all along a run every instance has a name, and every cursor stands in one that has, if and only if
  none of the operations that succeed is given a path through an instance without a name;
* this is so where no path that is given has an empty segment, whatever is loaded, deleted and
  committed;
* and where it is so a module is called for no instance if and only if it does not own a tag
node. -/
theorem instances_named (hSchema : schema.Orderly) {store : Store World Dict}
    (hdeclared : store.schema = schema) (hrunning : store.running = Tree.empty)
    (hmodules : ∀ owner m, Keyed.get? store.modules owner = some m → m.EditsNamed)
    (steps : List (String × Operation)) :
    let start : Host World Dict := ⟨store, []⟩
    let h := start.run steps
    ((∀ before, before <+: steps → (start.run before).Named schema) ↔
      ∀ before name operation, before ++ [(name, operation)] <+: steps →
        (start.run before).Spells schema name operation) ∧
    ((∀ step ∈ steps, step.2.Spelled) → h.Named schema) ∧
    (h.Named schema → ∀ name, ∀ c ∈ h.store.candidates (h.session name),
      (c.context schema h.store.running (h.session name).resetLevel).instance? = none ↔
        schema.isTag c.name.path = false) := by
  intro start h
  have hReach : start.Reachable schema :=
    .start hdeclared hrunning fun owner m hm => (hmodules owner m hm).editsOnly
  have hCareful : start.Careful schema := ⟨hReach.sound hSchema.compiled, hmodules⟩
  have hNamed : start.Named schema := by
    -- at the start no instance is stored, so each of them is named
    have hempty : schema.Named store.running := hrunning ▸ schema.named_empty
    exact ⟨hempty, fun _ => Session.named_ofRunning hempty⟩
  refine ⟨named_along_iff hNamed hCareful hSchema.compiled steps,
    hNamed.run hCareful hSchema.compiled, fun hAll name c hc => ?_⟩
  have hSound := (hCareful.run hSchema.compiled steps).sound
  have hschema : h.store.schema = schema := hSound.store.declared
  rw [← hschema] at hSchema hSound hAll ⊢
  exact Store.instance?_of_named hSchema (hSound.session name) hSound.store.running
    (hAll.sessions name) hAll.running hc

end Host

namespace Sample

/-- The sample modules spell the instances they edit. -/
theorem module_editsNamed {words : List String} (h : "" ∉ words.dropLast) (applied : Attempt Unit) :
    (module words applied).EditsNamed := by
  intro context world
  show Session.NamedEdits _ _ _ ((context.session.setWords context.schema words).toOption.getD _)
  cases hset : context.session.setWords context.schema words with
  | error e => exact .refl
  | ok s =>
    rw [Session.setWords] at hset
    cases hlast : words.getLast? with
    | none => simp [hlast] at hset
    | some typed =>
      rw [hlast] at hset
      exact .set words.dropLast typed .refl (fun hlevel => hlevel.append h) hset

end Sample

/-- One session has taken out an instance and made another one: all have names, and the module that
owns their tag node is called for each. -/
theorem Host.instances_named_of_changes :
    (Sample.schema.Orderly ∧ Sample.host.store.schema = Sample.schema ∧
      Sample.host.store.running = Tree.empty ∧
      ∀ step ∈ Sample.steps ++ Sample.changes, step.2.Spelled) ∧
    Sample.changed.Named Sample.schema ∧
    ∀ c ∈ Sample.changed.store.candidates (Sample.changed.session "c"),
      (c.context Sample.schema Sample.changed.store.running
        (Sample.changed.session "c").resetLevel).instance? = none ↔
        Sample.schema.isTag c.name.path = false := by
  -- the steps name their instances, and so do the modules that edit behind them
  have hspelled : ∀ step ∈ Sample.steps ++ Sample.changes, step.2.Spelled := by
    unfold Operation.Spelled
    decide
  have hmodules : ∀ owner m, Keyed.get? Sample.host.store.modules owner = some m →
      m.EditsNamed := by
    intro owner m hm
    rcases List.mem_cons.mp (Keyed.mem_of_get? hm) with heq | hmem
    · rw [(Prod.mk.inj heq).2]
      exact Sample.module_editsNamed (by decide) _
    · rw [(Prod.mk.inj (List.mem_singleton.mp hmem)).2]
      exact Sample.module_editsNamed (by decide) _
  obtain ⟨-, hnamed, htold⟩ := Host.instances_named Sample.orderly rfl rfl hmodules
    (Sample.steps ++ Sample.changes)
  exact ⟨⟨Sample.orderly, rfl, rfl, hspelled⟩, hnamed hspelled, htold (hnamed hspelled) "c"⟩

namespace Sample

/-- An address is set in an instance without a name. -/
def nameless : Operation := .set ["interface", "", "address"] "10.0.0.1"

end Sample

/-- At the tag node itself a set refuses the empty text for a name, but on the way to an address it
makes an instance of it. It stands in the session, and a commit makes it run; the module that owns
the tag node gets a task for it, which looks to the module like one that is about no instance. -/
theorem Host.instance_without_name :
    let h := Sample.host.run [("a", Sample.nameless)]
    (h.Reachable Sample.schema ∧ Sample.schema.isTag ["interface"] = true) ∧
    (Sample.host.perform "a" (.set ["interface"] "")).answer =
      .error (.path ["interface"] .unnamedInstance) ∧
    (Sample.host.perform "a" Sample.nameless).answer = .ok .nothing ∧
    ((h.session "a").edit.get? ["interface", ""]).isSome = true ∧
    ((h.run [("a", .commit true)]).store.running.get? ["interface", ""]).isSome = true ∧
    ∃ c ∈ h.store.candidates (h.session "a"), c.name = ⟨"net", ["interface"], ""⟩ ∧
      (c.context Sample.schema h.store.running (h.session "a").resetLevel).instance? = none := by
  intro h
  -- the instance without a name is asked for like the others
  have hnames : (h.store.candidates (h.session "a")).map Candidate.name =
      [⟨"net", ["interface"], ""⟩] := rfl
  have hmem : ⟨"net", ["interface"], ""⟩ ∈
      (h.store.candidates (h.session "a")).map Candidate.name := hnames ▸ List.mem_singleton.mpr rfl
  obtain ⟨c, hc, hname⟩ := List.mem_map.mp hmem
  refine ⟨⟨Sample.reachable _, by decide⟩, rfl, rfl, rfl, rfl, c, hc, hname, ?_⟩
  show c.name.instance? = none
  rw [hname]
  rfl

end RouterConfig
