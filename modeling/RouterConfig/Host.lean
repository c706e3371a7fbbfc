import RouterConfig.CommandFile.Load

/-!
# RouterConfig — sessions on one store

A host is a store with the sessions that are open on it, by name. Every operation is one of one
session; only commits, and lines of command files that commit, change what the others share. Main
results:

* `Host.perform_other` — an operation of one session leaves the other sessions alone.
-/

namespace RouterConfig

variable {World Dict : Type}

/-- A store and the sessions that are open on it, by name. -/
structure Host (World Dict : Type) where
  store : Store World Dict
  sessions : Keyed Session

/-- A call to a session. -/
inductive Operation where
  | openSession
  | set (path : Path) (typed : String)
  | setWords (words : List String)
  | delete (path : Path) (typed? : Option String)
  | deleteWords (words : List String)
  | setLevel (path : Path)
  | resetLevel
  | discard
  | load (text : String)
  | commit (inMemory : Bool)
  deriving DecidableEq

/-- What a call to a session returns. -/
inductive Answer where
  | nothing
  | report (report : Report)
  | summary (summary : LoadSummary)
  deriving DecidableEq

/-- An operation and what it leaves behind. -/
structure Performed (World Dict : Type) where
  answer : Except Error Answer
  host : Host World Dict
  journal : List (Event Dict)

namespace Host

/-- The session of a name; a new one, if none is open. -/
def session (h : Host World Dict) (name : String) : Session :=
  (Keyed.get? h.sessions name).getD h.store.openSession

/-- The host with a session in the place of the one of that name. -/
def putSession (h : Host World Dict) (name : String) (session : Session) : Host World Dict :=
  { h with sessions := Keyed.insert h.sessions name session }

/-- An edit of a session, which leaves all as it was if it fails. -/
def edited (h : Host World Dict) (name : String) (result : Except Error Session) :
    Performed World Dict :=
  match result with
  | .ok session => ⟨.ok .nothing, h.putSession name session, []⟩
  | .error cause => ⟨.error cause, h, []⟩

/-- Performs an operation of the session of a name. -/
def perform (h : Host World Dict) (name : String) : Operation → Performed World Dict
  | .openSession => h.edited name (.ok h.store.openSession)
  | .set path typed => h.edited name ((h.session name).set h.store.schema path typed)
  | .setWords words => h.edited name ((h.session name).setWords h.store.schema words)
  | .delete path typed? => h.edited name ((h.session name).delete h.store.schema path typed?)
  | .deleteWords words => h.edited name ((h.session name).deleteWords h.store.schema words)
  | .setLevel path => h.edited name ((h.session name).setLevel h.store.schema path)
  | .resetLevel => h.edited name (.ok (h.session name).resetLevel)
  | .discard => h.edited name (.ok ((h.session name).discard h.store.running))
  | .load text =>
    -- A load that stops keeps what its lines have done, so that both outcomes take this way.
    let loaded := RouterConfig.load h.store (h.session name) text
    ⟨loaded.result.map .summary, { h with store := loaded.store }.putSession name loaded.session,
      loaded.journal⟩
  | .commit inMemory =>
    let done := h.store.commit (h.session name) inMemory
    ⟨.ok (.report done.report), { h with store := done.store }.putSession name done.session,
      done.journal⟩

theorem get?_putSession_of_ne (h : Host World Dict) {name other : String} (session : Session)
    (hne : name ≠ other) :
    Keyed.get? (h.putSession name session).sessions other = Keyed.get? h.sessions other :=
  Keyed.get?_insert_of_ne _ _ hne

theorem perform_other (h : Host World Dict) {name other : String} (hne : name ≠ other)
    (operation : Operation) :
    Keyed.get? (h.perform name operation).host.sessions other = Keyed.get? h.sessions other := by
  have hedited : ∀ result : Except Error Session,
      Keyed.get? (h.edited name result).host.sessions other = Keyed.get? h.sessions other := by
    intro result
    cases result with
    | ok session => exact get?_putSession_of_ne h session hne
    | error cause => rfl
  cases operation with
  | load text => exact get?_putSession_of_ne _ _ hne
  | commit inMemory => exact get?_putSession_of_ne _ _ hne
  | _ => exact hedited _

end Host

end RouterConfig
