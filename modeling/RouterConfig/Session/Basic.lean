import RouterConfig.Schema.Resolve
import RouterConfig.Tree.Edit

/-!
# RouterConfig — sessions

A session is one operator's copy of the running configuration and a cursor in it. Paths given to a
session start at the cursor. Main results:

* `Session.absolute_append` — a path may be given in two parts.
-/

namespace RouterConfig

/-- A working copy of the configuration, with a cursor (`Session`). -/
structure Session where
  /-- The configuration as edited. -/
  edit : Tree
  /-- The position at which given paths start. -/
  level : Path
  deriving DecidableEq

namespace Session

/-- The session that starts from `running`, at the root. -/
def ofRunning (running : Tree) : Session := ⟨running, []⟩

/-- A path given at the cursor, as seen from the root (`full_path`). -/
def absolute (s : Session) (path : Path) : Path := s.level ++ path

/-- The session with its cursor at `path`, which is seen from the root and must be declared
(`set_level`). -/
def setLevel (s : Session) (schema : Schema) (path : Path) : Except Error Session :=
  (schema.resolve path).map fun _ => { s with level := path }

/-- The session with its cursor at the root (`reset_level`). -/
def resetLevel (s : Session) : Session := { s with level := [] }

/-- The session as it would start from `running` now (`discard`). -/
def discard (_ : Session) (running : Tree) : Session := ofRunning running

theorem absolute_append (s : Session) (p q : Path) : s.absolute (p ++ q) = s.absolute p ++ q := by
  simp [absolute]

theorem absolute_resetLevel (s : Session) (p : Path) : s.resetLevel.absolute p = p := rfl

theorem setLevel_edit {s s' : Session} {schema : Schema} {path : Path}
    (h : s.setLevel schema path = .ok s') : s'.edit = s.edit := by
  simp only [setLevel] at h
  cases hr : schema.resolve path with
  | error e => simp [hr, Except.map] at h
  | ok place =>
    simp only [hr, Except.map, Except.ok.injEq] at h
    rw [← h]

end Session

end RouterConfig
