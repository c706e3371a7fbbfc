import RouterConfig.Error
import RouterConfig.Settings.Entries

/-!
# RouterConfig — settings

Settings for the commit engine and for the command line. Every entry may be left out, none may come
twice, and no other entries are known. Main results:

* `Settings.timeout_pos_of_ofText` — commit phases get some time.
-/

namespace RouterConfig

/-- The settings (`Settings`), each with the value that holds unless a file gives another one. -/
structure Settings where
  /-- How many workers run commit tasks; none asks for one per processor. -/
  maxWorkers : Nat := 0
  /-- How many seconds a commit phase may take. Any positive number that a settings file can hold is
  read; whether a pool can wait so long is another matter (`Pool.timeout`). -/
  phaseTimeout : Nat := 300
  /-- The file with the schema. -/
  schemaFile? : Option String := none
  /-- The command file with the configuration. -/
  configFile? : Option String := none
  /-- Whether saving keeps the file that was there. -/
  keepsBackup : Bool := true
  deriving DecidableEq

namespace Settings

/-- Settings with one entry more. -/
def withEntry? (s : Settings) : (entry : String × Toml.Value) → Option Settings
  | ("max_workers", .number n) => if n < 0 then none else some { s with maxWorkers := n.toNat }
  | ("phase_timeout_secs", .number n) =>
    if n < 0 then none else some { s with phaseTimeout := n.toNat }
  | ("schema", .text file) => some { s with schemaFile? := some file }
  | ("config_file", .text file) => some { s with configFile? := some file }
  | ("backup", .flag b) => some { s with keepsBackup := b }
  | _ => none

/-- Settings with all the entries, unless one is unknown or comes twice. -/
def withEntries? (s : Settings) (entries : List (String × Toml.Value)) : Option Settings :=
  if (entries.map (·.1)).Nodup then entries.foldlM withEntry? s else none

/-- The settings that a file writes (`parse`). -/
def ofText (text : String) : Except Error Settings :=
  match (Toml.ofText? text).bind (withEntries? {}) with
  | none => .error (.unreadable .toml)
  | some s =>
    if s.phaseTimeout = 0 then .error (.settings "phase_timeout_secs must be greater than zero")
    else .ok s

theorem timeout_pos_of_ofText {text : String} {s : Settings} (h : ofText text = .ok s) :
    0 < s.phaseTimeout := by
  simp only [ofText] at h
  split at h
  · simp at h
  · split at h
    · simp at h
    · rename_i hne
      rw [← Except.ok.inj h]
      exact Nat.pos_of_ne_zero hne

end Settings

end RouterConfig
