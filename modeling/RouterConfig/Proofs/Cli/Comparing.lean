import RouterConfig.Proofs.Cli.Clearing
import RouterConfig.Proofs.Cli.Running
import RouterConfig.Proofs.CommandFile.Staging
import RouterConfig.Proofs.Schema.Owned

/-!
# RouterConfig — comparing what two command files produce

The command that compares two files makes what the first one produces the running configuration. It
stages the second one in a session of that configuration which it clears before. So it compares what
the two files produce on their own wherever clearing leaves nothing, which is to say wherever all
names at the top of the first configuration are words. Main results:

* `stage_agree` — what staging does depends on the schema and the session alone;
* `Cli.act_compareCommand` — what the command tells, step by step;
* `Cli.compares_files` — it compares just what the two files produce, where clearing leaves nothing.
-/

namespace RouterConfig

/-! ## Staging apart from the store -/

section Staging

variable {World Dict : Type} {store staging : Store World Dict}

/-- What staging leaves in a session depends on the schema and the session alone: nothing that is
running makes a difference. -/
theorem stage_agree (hmodules : store.modules = []) (hschema : staging.schema = store.schema)
    (session : Session) (text : String) :
    (stage staging session text).session = (stage store session text).session := by
  have hnumbers := renumbers_stagedNumber text
  have hown := loadLines_stands hmodules rfl hnumbers session
  have hother := loadLines_stands hmodules hschema hnumbers session
  -- both are what loading the whole file comes to
  rw [stage_eq_loadLines, stage_eq_loadLines, hown.session, hother.session]

/-- A text that can be staged at all can be staged in any session. -/
theorem stage_ends {session session' : Session} {text : String} {summary : LoadSummary}
    (h : (stage store session text).result = .ok summary) :
    ∃ summary', (stage staging session' text).result = .ok summary' := by
  rw [stage_eq_loadLines] at h ⊢
  exact loadLines_ends_iff.mpr (loadLines_ends_iff.mp ⟨summary, h⟩)

/-- A line that is applied leaves the cursor where it is. -/
theorem lineOutcome_level {schema : Schema} {s s' : Session} {number : Nat} {line : String}
    (h : lineOutcome schema s number line = .applied s') : s'.level = s.level := by
  unfold lineOutcome at h
  -- only a request edits the session, and no request moves its cursor
  cases hcommand : FileCommand.ofText line with
  | set words =>
    rw [hcommand] at h
    have hset := editOutcome_eq_applied_iff.mp h
    rw [Session.setWords] at hset
    split at hset
    · exact absurd hset (by simp)
    · exact Session.set_level hset
  | delete words =>
    rw [hcommand] at h
    have hdelete := editOutcome_eq_applied_iff.mp h
    rw [Session.deleteWords] at hdelete
    split at hdelete <;> exact Session.delete_level hdelete
  | nothing | commit | unknown =>
    rw [hcommand] at h
    exact absurd h (by simp)

theorem stage_level (store : Store World Dict) (session : Session) (text : String) :
    (stage store session text).session.level = session.level :=
  loadLines_keeps_of_lines (I := fun _ s => s.level = session.level)
    (fun _ _ _ _ _ _ hs houtcome => (lineOutcome_level houtcome).trans hs)
    (fun store s hs => (store.commit_level s false).trans hs) rfl

end Staging

/-! ## The command -/

namespace Cli

/-- What the command prints of two configurations, or what it fails with: how the names at a
position are classified, or the annotated text of what stands there. -/
def comparisonText (palette : Palette) (schema : Schema) (edited running : Tree) (path : Path)
    (summary withDefaults : Bool) : Except Failure String :=
  if summary then
    match (Comparison.ofTrees schema edited running).below ⟨Class.all, withDefaults⟩ path with
    | .ok classes =>
      .ok (String.join (Class.all.map fun c =>
        c.name ++ ": " ++ joinWords (classes.get c).keys ++ "\n"))
    | .error e => .error (.ofError e)
  else
    .ok (palette.paintLines
      (Annotated.render schema path (edited.get? path) (running.get? path)))

variable {d : Disk} {palette : Palette} {settings : Settings} {schemaFile? : Option String}
variable {base target baseText targetText : String} {path : Path} {summary withDefaults : Bool}
variable {store : CommandStore} {loaded staged : LoadSummary}

/-- What the command tells once both files are read: it compares the session in which the second is
staged with what is running. -/
theorem act_compareCommand (hstore : d.act (openStore schemaFile? settings) = ⟨.ok store, "", d⟩)
    (hbase : d.read base = .ok baseText) (htarget : d.read target = .ok targetText)
    (hloads : (load store store.openSession baseText).result = .ok loaded) {running : CommandStore}
    (hrunning : runningAfter (load store store.openSession baseText) = running) {cleared : Session}
    (hclears : clearedSession running = .ok cleared) (hroot : cleared.level = [])
    (hstages : (stage running cleared targetText).result = .ok staged) :
    d.act (compareCommand palette settings schemaFile? base target path summary withDefaults) =
      d.telling (comparisonText palette running.schema
        (stage running cleared targetText).session.edit running.running path summary
        withDefaults) := by
  have hlevel : (stage running cleared targetText).session.level = [] :=
    (stage_level running cleared targetText).trans hroot
  -- the command up to the comparison, one action after the other
  rw [compareCommand, Disk.act_bind_of_ok hstore, Disk.act_bind_of_ok (Disk.act_loadFile hbase ..),
    hloads, Disk.act_bind_of_ok (Disk.act_get_ok loaded)]
  dsimp only
  rw [hrunning, hclears, Disk.act_bind_of_ok (Disk.act_get_ok cleared),
    Disk.act_bind_of_ok (Disk.act_readStaged htarget), hstages,
    Disk.act_bind_of_ok (Disk.act_get_ok staged), comparisonText]
  -- the cursor is at the root, so that the position is the same for the session and its trees
  generalize (stage running cleared targetText).session = session at hlevel
  obtain ⟨edit, level⟩ := session
  obtain rfl : level = [] := hlevel
  cases summary with
  | true =>
    have hsame : (Session.mk edit []).comparison running.schema running.running =
        Comparison.ofTrees running.schema edit running.running := rfl
    rw [if_pos rfl, if_pos rfl, hsame]
    cases (Comparison.ofTrees running.schema edit running.running).below
        ⟨Class.all, withDefaults⟩ path with
    | ok classes =>
      rw [Disk.act_bind_of_ok (Disk.act_get_ok classes), Action.sayAll, Disk.act_write,
        List.map_map]
      rfl
    | error e => exact Disk.act_bind_of_error rfl _
  | false => exact Disk.act_write _

/-- Where the session cannot be cleared, the command fails before it reads the second file. -/
theorem act_compareCommand_of_uncleared
    (hstore : d.act (openStore schemaFile? settings) = ⟨.ok store, "", d⟩)
    (hbase : d.read base = .ok baseText)
    (hloads : (load store store.openSession baseText).result = .ok loaded) {e : Error}
    (hclears : clearedSession (runningAfter (load store store.openSession baseText)) = .error e) :
    d.act (compareCommand palette settings schemaFile? base target path summary withDefaults) =
      d.telling (.error (.ofError e)) := by
  rw [compareCommand, Disk.act_bind_of_ok hstore, Disk.act_bind_of_ok (Disk.act_loadFile hbase ..),
    hloads, Disk.act_bind_of_ok (Disk.act_get_ok loaded)]
  dsimp only
  rw [hclears]
  exact Disk.act_bind_of_error rfl _

/-! ## What is compared -/

theorem newStore_sound (schema : Schema) (settings : Settings) :
    (newStore schema settings).Sound schema :=
  ⟨rfl, fun _ _ hmodule => absurd hmodule (by simp [newStore]), schema.admits_empty⟩

/-- What the first file produces is running, and conforms. -/
theorem runningAfter_load {schema : Schema} (hSchema : schema.Compiled) (settings : Settings)
    (text : String) :
    let store := newStore schema settings
    let running := runningAfter (load store store.openSession text)
    running.Sound schema ∧ running.running = (load store store.openSession text).session.edit := by
  intro store running
  have hopen : store.openSession.Sound schema := Session.sound_ofRunning schema.admits_empty
  obtain ⟨⟨hstore, hsession⟩, -⟩ :=
    (newStore_sound schema settings).load hSchema hopen text
  exact ⟨(hstore.commit hSchema hsession true).1, rfl⟩

/-- Two command files are compared, of which neither holds an unknown command, under a schema that
is read from a file.

* What the first one produces is running.
* Where all names at the top of it are words, the session holds just what the second one produces
  when it is loaded into an empty session, and the command tells how the two compare.
* Just then the session is empty when the second one is staged in it.
* Otherwise what stands under the other names is still there, or the command fails because one of
  these names, read as a path, is not declared. -/
theorem compares_files {schema : Schema} {schemaFile schemaText : String}
    (hfile : schemaFile?.or settings.schemaFile? = some schemaFile)
    (hschema : d.read schemaFile = .ok schemaText)
    (hcompiles : Schema.ofYaml schemaText = .ok schema)
    (hbase : d.read base = .ok baseText) (htarget : d.read target = .ok targetText)
    (hloads : (load (newStore schema settings) (newStore schema settings).openSession
      baseText).result = .ok loaded)
    (hstages : (stage (newStore schema settings) (newStore schema settings).openSession
      targetText).result = .ok staged) :
    let store := newStore schema settings
    let current := (load store store.openSession baseText).session.edit
    let proposed := fun start => (stage store (Session.ofRunning start) targetText).session.edit
    let running := runningAfter (load store store.openSession baseText)
    let told := d.act
      (compareCommand palette settings schemaFile? base target path summary withDefaults)
    let telling := fun proposed => d.telling
      (comparisonText palette schema proposed current path summary withDefaults)
    running.running = current ∧
    ((∀ top ∈ current.keys, Path.isWord top = true) →
      (∃ cleared, clearedSession running = .ok cleared ∧
        (stage running cleared targetText).session.edit = proposed Tree.empty) ∧
      told = telling (proposed Tree.empty)) ∧
    (clearedSession running = .ok store.openSession ↔
      ∀ top ∈ current.keys, Path.isWord top = true) ∧
    ((∀ top ∈ current.keys, schema.declares (Path.ofText top) = true) →
      told = telling (proposed current.beyondWords)) ∧
    ((∃ top ∈ current.keys, schema.declares (Path.ofText top) = false) →
      ∃ top ∈ current.keys, ∃ e, schema.resolve (Path.ofText top) = .error e ∧
        told = d.telling (.error (.ofError e))) := by
  intro store current proposed running told telling
  have hRead : schema.Read := ⟨schemaText, hcompiles⟩
  have hstore : d.act (openStore schemaFile? settings) = ⟨.ok store, "", d⟩ :=
    Disk.act_openStore hfile hschema hcompiles
  obtain ⟨hSound, hrunning⟩ := runningAfter_load hRead.orderly.compiled settings baseText
  -- it makes no difference to staging that something is running
  have hsession : ∀ start, (stage running (Session.ofRunning start) targetText).session.edit =
      proposed start := fun start =>
    congrArg Session.edit (stage_agree rfl hSound.declared (Session.ofRunning start) targetText)
  have hends : ∀ start, ∃ summary,
      (stage running (Session.ofRunning start) targetText).result = .ok summary :=
    fun _ => stage_ends hstages
  have hclears := @clearedSession_eq_ok_iff _ _ schema running hSound
  -- once all names are declared, clearing leaves what stands beyond the words, and staging starts
  -- there
  have hleaves : (∀ top ∈ current.keys, schema.declares (Path.ofText top) = true) →
      told = telling (proposed current.beyondWords) := by
    intro hdeclared
    obtain ⟨_, hstaged⟩ := hends current.beyondWords
    have htold : told = d.telling (comparisonText palette running.schema
        (stage running (Session.ofRunning current.beyondWords) targetText).session.edit
        running.running path summary withDefaults) :=
      act_compareCommand hstore hbase htarget hloads rfl (hclears.mpr ⟨hdeclared, rfl⟩) rfl hstaged
    rw [htold, hSound.declared, hsession, hrunning]
  have hempty : clearedSession running = .ok store.openSession ↔
      ∀ top ∈ current.keys, Path.isWord top = true := clearedSession_eq_empty_iff hSound
  refine ⟨hrunning, ?words, hempty, hleaves, ?fails⟩
  case words =>
    intro hwords
    have hcleared := hempty.mpr hwords
    obtain ⟨hdeclared, hopen⟩ := hclears.mp hcleared
    have hnothing : current.beyondWords = Tree.empty := (congrArg Session.edit hopen).symm
    refine ⟨⟨store.openSession, hcleared, hsession Tree.empty⟩, ?_⟩
    rw [← hnothing]
    exact hleaves hdeclared
  -- a name that is not declared is refused before anything is compared
  case fails =>
    rintro ⟨top, htop, hundeclared⟩
    cases hcleared : clearedSession running with
    | ok cleared =>
      have hdeclared := (hclears.mp hcleared).1 top htop
      exact absurd hdeclared (by simp [hundeclared])
    | error e =>
      obtain ⟨other, hother, hresolve⟩ := clearedSession_eq_error hSound.declared hcleared
      exact ⟨other, hother, e, hresolve,
        act_compareCommand_of_uncleared hstore hbase hloads hcleared⟩

end Cli

/-! ## Names that are no words -/

namespace Sample

/-- Three names at the top, two of which have blanks. -/
def spacedText : String :=
  "system:\n  children:\n    name:\n      type: leaf\n" ++
    "'system ':\n  type: leaf\n  valueless: true\n" ++
    "'static routes':\n  type: leaf\n  valueless: true\n"

def spacedSchema : Schema := (Schema.ofYaml spacedText).toOption.getD ⟨[]⟩

theorem spaced_read : Schema.ofYaml spacedText = .ok spacedSchema := by
  have hreads : (Schema.ofYaml spacedText).toBool = true := by decide +kernel
  rw [spacedSchema]
  cases hschema : Schema.ofYaml spacedText with
  | ok schema => rfl
  | error e => simp [hschema, Except.toBool] at hreads

/-- A disk with that schema and two command files. -/
def disk (base target : String) : Disk where
  working := []
  entries := [(["schema"], .file spacedText), (["base"], .file base), (["target"], .file target)]

theorem disk_read (base target : String) :
    (disk base target).read "schema" = .ok spacedText ∧
      (disk base target).read "base" = .ok base ∧ (disk base target).read "target" = .ok target :=
  ⟨rfl, rfl, rfl⟩

end Sample

namespace Cli

/-- What stands under a word at the top of the first file is compared with what the second file
produces. -/
theorem compares_files_of_words :
    let base := "set system name r1\n"
    let target := "commit\nset system name r2\n"
    let store := newStore Sample.spacedSchema {}
    let current := (load store store.openSession base).session.edit
    let told := (Sample.disk base target).act
      (compareCommand ⟨false⟩ {} (some "schema") "base" "target" [] false true)
    (∀ top ∈ current.keys, Path.isWord top = true) ∧
      told = (Sample.disk base target).telling
        (.ok "system \x7b\n-  name r1\n+  name r2\n\x7d\n") := by
  intro base target store current told
  -- what both files load to and what is printed, by running them
  obtain ⟨hwords, hloads, hstages, htext⟩ : (∀ top ∈ current.keys, Path.isWord top = true) ∧
      (load store store.openSession base).result = .ok ⟨1, [], []⟩ ∧
      (stage store store.openSession target).result = .ok ⟨1, [], []⟩ ∧
      comparisonText ⟨false⟩ Sample.spacedSchema
        (stage store (Session.ofRunning Tree.empty) target).session.edit current [] false true =
          .ok "system \x7b\n-  name r1\n+  name r2\n\x7d\n" := by decide +kernel
  obtain ⟨hschema, hbase, htarget⟩ := Sample.disk_read base target
  obtain ⟨-, hcompared, -⟩ := @compares_files _ ⟨false⟩ {} (some "schema") "base" "target" _ _ []
    false true _ _ _ _ _ rfl hschema Sample.spaced_read hbase htarget hloads hstages
  exact ⟨hwords, (hcompared hwords).2.trans (congrArg (Sample.disk base target).telling htext)⟩

/-- A name that ends in a blank is read as the name without it. What stands there is not deleted, so
that it seems to be part of what the second file produces, and nothing tells that it goes. A name
with a blank inside is read as two names, and the command fails. -/
theorem spaced_name_not_cleared :
    let base := "set 'system '\nset system name r1\n"
    let target := "set system name r2\n"
    let store := newStore Sample.spacedSchema {}
    let running := runningAfter (load store store.openSession base)
    let proposed := (stage store store.openSession target).session.edit
    let told := fun base => (Sample.disk base target).act
      (compareCommand ⟨false⟩ {} (some "schema") "base" "target" [] false true)
    Schema.ofYaml Sample.spacedText = .ok Sample.spacedSchema ∧
      (load store store.openSession base).result = .ok ⟨2, [], []⟩ ∧
      (stage store store.openSession target).result = .ok ⟨1, [], []⟩ ∧
      (clearedSession running).map (fun cleared => (stage running cleared target).session.edit) ≠
        .ok proposed ∧
      (told base).printed = "system \x7b\n-  name r1\n+  name r2\n\x7d\nsystem \n" ∧
      comparisonText ⟨false⟩ Sample.spacedSchema proposed running.running [] false true =
        .ok "system \x7b\n-  name r1\n+  name r2\n\x7d\n-system \n" ∧
      (told "set 'static routes'\n").result =
        .error (.ofError (.path ["static"] .undeclared)) := by
  exact ⟨Sample.spaced_read, by decide +kernel⟩

end Cli

end RouterConfig
