import RouterConfig.Cli.Commands
import RouterConfig.Files.Disk

/-!
# RouterConfig — actions run on a disk

An action of the command line is run on a disk held in memory. Where all that an action does is to
look at files, the next one finds everything as it was; where it fails, nothing comes after it. Main
results:

* `Disk.run_bind` — scripts run one after the other;
* `Disk.act_bind_of_ok`, `Disk.act_bind_of_error` — so do actions;
* `Disk.act_loadFile`, `Disk.act_openStore` — what comes of files that can be read.
-/

namespace RouterConfig

namespace Disk

variable {α β : Type} {d : Disk}

/-! ## One after the other -/

/-- The same, with something printed before. -/
def Ran.after (r : Ran α) (printed : String) : Ran α := { r with printed := printed ++ r.printed }

/-- The second script finds the disk as the first one has left it. -/
theorem run_bind (d : Disk) (s : Script α) (f : α → Script β) :
    d.run (s.bind f) = ((d.run s).disk.run (f (d.run s).result)).after (d.run s).printed := by
  -- on the script: its steps are run in the same order whatever comes after them
  induction s generalizing d with
  | done result => simp [Script.bind, run, Ran.after]
  | read path next ih => exact ih _ d
  | probe path next ih => exact ih _ d
  | move source target next ih =>
    simp only [Script.bind, run]
    cases d.move source target with
    | ok moved => exact ih _ moved
    | error fault => exact ih _ d
  | write path text next ih =>
    simp only [Script.bind, run]
    cases d.write path text with
    | ok written => exact ih _ written
    | error fault => exact ih _ d
  | print text next ih => simp [Script.bind, run, ih, Ran.after, String.append_assoc]

/-- Runs an action. -/
def act (d : Disk) (action : Action α) : Ran (Except Failure α) := d.run action.run

/-- A run that tells something, or fails and tells nothing. -/
def telling (d : Disk) : Except Failure String → Ran (Except Failure Unit)
  | .ok text => ⟨.ok (), text, d⟩
  | .error failure => ⟨.error failure, "", d⟩

/-- After an action that only looks, the next one runs with what it has found. -/
theorem act_bind_of_ok {x : Action α} {a : α} (h : d.act x = ⟨.ok a, "", d⟩) (f : α → Action β) :
    d.act (x >>= f) = d.act (f a) := by
  have hbind : d.act (x >>= f) = d.run (x.run.bind (ExceptT.bindCont f)) := rfl
  have hrun : d.run x.run = ⟨.ok a, "", d⟩ := h
  rw [hbind, run_bind, hrun]
  simp [Ran.after, ExceptT.bindCont, act, ExceptT.run]

/-- After a failure nothing runs. -/
theorem act_bind_of_error {x : Action α} {failure : Failure}
    (h : d.act x = ⟨.error failure, "", d⟩) (f : α → Action β) :
    d.act (x >>= f) = ⟨.error failure, "", d⟩ := by
  have hbind : d.act (x >>= f) = d.run (x.run.bind (ExceptT.bindCont f)) := rfl
  have hrun : d.run x.run = ⟨.error failure, "", d⟩ := h
  rw [hbind, run_bind, hrun]
  rfl

/-! ## Single actions -/

theorem act_get_ok (a : α) : d.act (Action.get (.ok a)) = ⟨.ok a, "", d⟩ := rfl

theorem act_write (text : String) : d.act (Action.write text) = d.telling (.ok text) := by
  show Ran.mk (Except.ok ()) (text ++ "") d = _
  rw [String.append_empty]
  rfl

variable {file text : String}

theorem act_readFile (h : d.read file = .ok text) :
    d.act (Action.readFile file) = ⟨.ok (.ok text), "", d⟩ := by
  show Ran.mk (Except.ok ((d.read file).mapError Error.file)) "" d = _
  rw [h]
  rfl

/-- To load a file that can be read is to load its text. -/
theorem act_loadFile {World Dict : Type} (h : d.read file = .ok text) (store : Store World Dict)
    (session : Session) :
    d.act (ExceptT.lift (loadFile store session file)) =
      ⟨.ok (load store session text), "", d⟩ := by
  have hread : d.run (Script.readFile file) = ⟨.ok text, "", d⟩ := by
    show Ran.mk (d.read file) "" d = _
    rw [h]
  have hload : d.run (loadFile store session file) = ⟨load store session text, "", d⟩ := by
    rw [loadFile]
    show d.run ((Script.readFile file).bind _) = _
    rw [run_bind, hread]
    rfl
  have hlift : d.act (ExceptT.lift (loadFile store session file)) =
      d.run ((loadFile store session file).bind fun loaded => .done (.ok loaded)) := rfl
  rw [hlift, run_bind, hload]
  rfl

theorem act_readStaged (h : d.read file = .ok text) :
    d.act (Cli.readStaged file) = ⟨.ok text, "", d⟩ :=
  act_bind_of_ok (act_readFile h) _

/-- A store for a schema that can be read from the file that is named, and compiles. -/
theorem act_openStore {schemaFile? : Option String} {settings : Settings} {schema : Schema}
    (hfile : schemaFile?.or settings.schemaFile? = some file) (h : d.read file = .ok text)
    (hcompiles : Schema.ofYaml text = .ok schema) :
    d.act (Cli.openStore schemaFile? settings) = ⟨.ok (Cli.newStore schema settings), "", d⟩ := by
  have hschema : d.act (Cli.readSchema schemaFile? settings) = ⟨.ok schema, "", d⟩ := by
    rw [Cli.readSchema, hfile]
    show d.act (Action.readFile file >>= fun text? => _) = _
    rw [act_bind_of_ok (act_readFile h)]
    show d.act (Action.getWhile _ (Schema.ofYaml text)) = _
    rw [hcompiles]
    rfl
  rw [Cli.openStore, act_bind_of_ok hschema]
  rfl

end Disk

end RouterConfig
