import RouterConfig.Proofs.Host.Conformance
import RouterConfig.Proofs.Session.Deleting

/-!
# RouterConfig — independent edits commute

An edit makes missing nodes on the way to its position, or takes out nodes on the way that it leaves
empty, so that two edits may meet at nodes above both of their positions. What they leave does not
depend on their order all the same, if their positions are independent or if both of them delete.
Main results:

* `PathEdit.run_eq_change` — an edit is a change that schema and cursor decide on;
* `Change.comm` — changes commute at positions on paths that part;
* `Session.edits_commute` — what that means for the edits of a session.
-/

namespace RouterConfig

/-! ## Edits of a path -/

/-- A set or a delete. -/
inductive PathEdit where
  | set (path : Path) (typed : String)
  | delete (path : Path) (typed? : Option String)
  deriving DecidableEq

namespace PathEdit

/-- Whether the edit deletes. -/
def isDelete : PathEdit → Bool
  | set _ _ => false
  | delete _ _ => true

/-- What the edit makes of a session. -/
def run (e : PathEdit) (schema : Schema) (s : Session) : Except Error Session :=
  match e with
  | set path typed => s.set schema path typed
  | delete path typed? => s.delete schema path typed?

/-- Whether the edit succeeds, and what it fails with. -/
def outcome (e : PathEdit) (schema : Schema) (s : Session) : Except Error Unit :=
  (e.run schema s).map fun _ => ()

/-- The session after the edit, which is as it was if the edit fails. -/
def after (e : PathEdit) (schema : Schema) (s : Session) : Session :=
  (e.run schema s).toOption.getD s

/-- The position that the edit writes or removes: the leaf, the instance or the child. -/
def target (e : PathEdit) (schema : Schema) (s : Session) : Path :=
  match e with
  | set path typed => schema.targetAt (s.absolute path) (some typed)
  | delete path typed? => schema.targetAt (s.absolute path) typed?

end PathEdit

/-! ## Changes -/

/-- What an edit does to a configuration. -/
inductive Change where
  | write (w : Write)
  | removal (r : Removal)

namespace Change

/-- The position of the change. -/
def path : Change → Path
  | write w => w.path
  | removal r => r.path

/-- Whether the change takes something out. -/
def isRemoval : Change → Bool
  | write _ => false
  | removal _ => true

/-- The configuration after the change. -/
def on : Change → Tree → Tree
  | write w, t => (w.run? t).getD t
  | removal r, t => r.run t

/-- A change that suits the place that it is for. -/
def Fits (schema : Schema) : Change → Prop
  | write w => ∃ place, schema.rootPlace.Leads w.path place ∧ Schema.Suits place w.deed
  | removal _ => True

/-- Where all conforms nothing stands in the way of a write that suits its place. -/
theorem run?_of_fits {schema : Schema} {w : Write} (hw : (write w).Fits schema) {t : Tree}
    (ht : schema.Admits t) : w.run? t = some ((write w).on t) := by
  obtain ⟨place, hLeads, hSuits⟩ := hw
  obtain ⟨t', hrun, -⟩ := ht.write hLeads hSuits
  rw [on, hrun]
  rfl

theorem admits_write {schema : Schema} {w : Write} (hw : (write w).Fits schema) {t : Tree}
    (ht : schema.Admits t) : schema.Admits ((write w).on t) := by
  obtain ⟨place, hLeads, hSuits⟩ := hw
  obtain ⟨t', hrun, hAdmits⟩ := ht.write hLeads hSuits
  rw [on, hrun]
  exact hAdmits

/-- Two writes at paths that part may be made in either order. -/
theorem write_write_comm {schema : Schema} {w w' : Write} (hw : (write w).Fits schema)
    (hw' : (write w').Fits schema) {t : Tree} (ht : schema.Admits t)
    (hparts : w.path.Parts w'.path) :
    (write w').on ((write w).on t) = (write w).on ((write w').on t) := by
  -- all of the four writes succeed, also those that come second
  have hrun := run?_of_fits hw ht
  have hrun' := run?_of_fits hw' ht
  have hboth := run?_of_fits hw' (admits_write hw ht)
  have hboth' := run?_of_fits hw (admits_write hw' ht)
  have hcomm : ((w.run? t).bind fun made => w'.run? made) =
      (w'.run? t).bind fun made => w.run? made :=
    Tree.update?_comm hparts fun u hu => Option.some.inj hu ▸ ht.orderly
  rw [hrun, hrun', Option.bind_some, Option.bind_some, hboth, hboth'] at hcomm
  exact Option.some.inj hcomm

/-- A write and a removal at paths that part may be made in either order. -/
theorem write_removal_comm {schema : Schema} {w : Write} {r : Removal}
    (hw : (write w).Fits schema) {t : Tree} (ht : schema.Admits t)
    (hr : schema.Admits ((removal r).on t)) (hparts : w.path.Parts r.path) :
    (removal r).on ((write w).on t) = (write w).on ((removal r).on t) := by
  have hrun := run?_of_fits hw ht
  have hrun' := run?_of_fits hw hr
  -- the position is not the root, which no path parts from
  have hremoved : ∀ u, (removal r).on u =
      (u.cut (Removal.deed r.value?) r.path).getD Tree.empty := fun u =>
    if_neg (by simpa using hparts.symm.ne_nil)
  have hcomm : ((w.run? t).bind fun made => made.cut (Removal.deed r.value?) r.path) =
      Tree.update? w.deed.on (t.cut (Removal.deed r.value?) r.path) w.path :=
    Tree.cut_update?_comm hparts fun u hu => Option.some.inj hu ▸ ht.orderly
  -- the write makes what is missing again, also where the removal has left nothing at all
  have hmade : ((write w).on t).cut (Removal.deed r.value?) r.path =
      some ((write w).on ((removal r).on t)) := by
    rw [hrun, Option.bind_some, ← Tree.update?_getD hparts.ne_nil, ← hremoved] at hcomm
    exact hcomm.trans hrun'
  rw [hremoved, hmade]
  rfl

/-- Changes commute if their positions are on paths that part, or if both of them take something
out. -/
theorem comm {schema : Schema} {c c' : Change} (hc : c.Fits schema) (hc' : c'.Fits schema)
    {t : Tree} (ht : schema.Admits t) (hon : schema.Admits (c.on t))
    (hon' : schema.Admits (c'.on t))
    (h : c.path.Parts c'.path ∨ (c.isRemoval = true ∧ c'.isRemoval = true)) :
    c'.on (c.on t) = c.on (c'.on t) := by
  cases c with
  | removal r =>
    cases c' with
    | removal r' => exact Removal.run_comm r r' ht.orderly
    | write w' =>
      have hparts := h.resolve_right fun hboth => absurd hboth.2 (by simp [isRemoval])
      exact (write_removal_comm hc' ht hon hparts.symm).symm
  | write w =>
    have hparts := h.resolve_right fun hboth => absurd hboth.1 (by simp [isRemoval])
    cases c' with
    | removal r' => exact write_removal_comm hc ht hon' hparts
    | write w' => exact write_write_comm hc hc' ht hparts

end Change

/-! ## Edits as changes -/

namespace PathEdit

variable {schema : Schema} {s : Session}

/-- The change that an edit makes. It does not depend on what is stored. -/
def change (e : PathEdit) (schema : Schema) (level : Path) : Except Error Change :=
  match e with
  | set path typed => (schema.writeAt (level ++ path) typed).map .write
  | delete path typed? => (schema.removalAt (level ++ path) typed?).map .removal

/-- An edit asks schema and cursor for a change, and makes it. -/
theorem run_eq_change (hSchema : schema.Compiled) (hs : s.Sound schema) (e : PathEdit) :
    e.run schema s = (e.change schema s.level).map fun c => { s with edit := c.on s.edit } := by
  cases e with
  | set path typed =>
    rw [run, Session.set_eq_write, change, Session.absolute]
    cases hw : schema.writeAt (s.level ++ path) typed with
    | error cause => rfl
    | ok w =>
      obtain ⟨edit, hwrite, hrun, -⟩ := hs.write_exists hSchema hw
      rw [Except.bind, hwrite, Except.map, Except.map, Change.on, hrun]
      rfl
  | delete path typed? =>
    rw [run, Session.delete_eq_removal hs.edit, change, Session.absolute]
    cases schema.removalAt (s.level ++ path) typed? <;> rfl

/-- The change of an edit suits its place, is one at the target of the edit, and takes something out
if the edit deletes. -/
theorem fits_of_change (hSchema : schema.Compiled) {e : PathEdit} {c : Change}
    (h : e.change schema s.level = .ok c) :
    c.Fits schema ∧ c.path = e.target schema s ∧ c.isRemoval = e.isDelete := by
  cases e with
  | set path typed =>
    obtain ⟨w, hw, rfl⟩ := map_eq_ok h
    exact ⟨Schema.suits_of_writeAt hSchema hw, Schema.path_of_writeAt hw, rfl⟩
  | delete path typed? =>
    obtain ⟨r, hr, rfl⟩ := map_eq_ok h
    exact ⟨trivial, Schema.path_of_removalAt hr, rfl⟩

theorem sound_of_run (hSchema : schema.Compiled) (hs : s.Sound schema) {e : PathEdit}
    {s' : Session} (h : e.run schema s = .ok s') : s'.Sound schema := by
  cases e with
  | set path typed => exact hs.set hSchema h
  | delete path typed? => exact hs.delete h

theorem after_of_change (hSchema : schema.Compiled) (hs : s.Sound schema) {e : PathEdit}
    {c : Change} (h : e.change schema s.level = .ok c) :
    e.after schema s = { s with edit := c.on s.edit } := by
  rw [after, run_eq_change hSchema hs, h]
  rfl

theorem after_of_error (hSchema : schema.Compiled) (hs : s.Sound schema) {e : PathEdit}
    {cause : Error} (h : e.change schema s.level = .error cause) : e.after schema s = s := by
  rw [after, run_eq_change hSchema hs, h]
  rfl

/-- Whether it succeeds or fails, an edit leaves the session sound and its cursor where it is. -/
theorem sound_after (hSchema : schema.Compiled) (hs : s.Sound schema) (e : PathEdit) :
    (e.after schema s).Sound schema ∧ (e.after schema s).level = s.level := by
  have hrun := run_eq_change hSchema hs e
  cases hchange : e.change schema s.level with
  | error cause =>
    rw [after_of_error hSchema hs hchange]
    exact ⟨hs, rfl⟩
  | ok c =>
    rw [hchange] at hrun
    rw [after_of_change hSchema hs hchange]
    exact ⟨sound_of_run hSchema hs hrun, rfl⟩

/-- What stands in a session makes no difference to whether an edit succeeds. -/
theorem outcome_eq_change (hSchema : schema.Compiled) (hs : s.Sound schema) (e : PathEdit) :
    e.outcome schema s = (e.change schema s.level).map fun _ => () := by
  rw [outcome, run_eq_change hSchema hs]
  cases e.change schema s.level <;> rfl

theorem outcome_after (hSchema : schema.Compiled) (hs : s.Sound schema) (e f : PathEdit) :
    e.outcome schema (f.after schema s) = e.outcome schema s := by
  obtain ⟨hafter, hlevel⟩ := sound_after hSchema hs f
  rw [outcome_eq_change hSchema hafter, outcome_eq_change hSchema hs, hlevel]

/-- Sessions are the same after two edits in either order, if their targets are independent or both
of them delete. -/
theorem after_comm (hSchema : schema.Compiled) (hs : s.Sound schema) {e f : PathEdit}
    (h : (e.target schema s).Parts (f.target schema s) ∨
      (e.isDelete = true ∧ f.isDelete = true)) :
    f.after schema (e.after schema s) = e.after schema (f.after schema s) := by
  obtain ⟨he, helevel⟩ := sound_after hSchema hs e
  obtain ⟨hf, hflevel⟩ := sound_after hSchema hs f
  -- an edit that asks for nothing asks for nothing either when it comes second
  cases hchange : e.change schema s.level with
  | error cause =>
    rw [after_of_error hSchema hs hchange, after_of_error hSchema hf (by rw [hflevel, hchange])]
  | ok c =>
    have hafter := after_of_change hSchema hs hchange
    cases hchange' : f.change schema s.level with
    | error cause =>
      rw [after_of_error hSchema hs hchange', after_of_error hSchema he (by rw [helevel, hchange'])]
    | ok c' =>
      have hafter' := after_of_change hSchema hs hchange'
      obtain ⟨hfits, hpath, hremoval⟩ := fits_of_change hSchema hchange
      obtain ⟨hfits', hpath', hremoval'⟩ := fits_of_change hSchema hchange'
      rw [← hpath, ← hpath', ← hremoval, ← hremoval'] at h
      rw [hafter] at he
      rw [hafter'] at hf
      rw [hafter, hafter', after_of_change hSchema he hchange', after_of_change hSchema hf hchange]
      exact congrArg (fun edit => ({ s with edit := edit } : Session))
        (Change.comm hfits hfits' hs.edit he.edit hf.edit h)

end PathEdit

/-- In a session that can be reached, two edits of which neither writes nor removes a position at or
below that of the other, or that both delete, lead to the same configuration in either order; and
each of them succeeds, or fails with the same, whichever comes first. -/
theorem Session.edits_commute {schema : Schema} (hSchema : schema.Compiled) {s : Session}
    (hReach : s.Reachable schema) {e f : PathEdit}
    (h : (¬ e.target schema s <+: f.target schema s ∧ ¬ f.target schema s <+: e.target schema s) ∨
      (e.isDelete = true ∧ f.isDelete = true)) :
    (f.after schema (e.after schema s)).edit = (e.after schema (f.after schema s)).edit ∧
      e.outcome schema (f.after schema s) = e.outcome schema s ∧
      f.outcome schema (e.after schema s) = f.outcome schema s := by
  have hs := hReach.sound hSchema
  have hindependent : (e.target schema s).Parts (f.target schema s) ∨
      (e.isDelete = true ∧ f.isDelete = true) := h.imp Path.parts_iff.mpr id
  exact ⟨congrArg Session.edit (PathEdit.after_comm hSchema hs hindependent),
    PathEdit.outcome_after hSchema hs e f, PathEdit.outcome_after hSchema hs f e⟩

namespace Sample

/-- A session with a single instance. -/
def lone : Session := (host.run [("a", .setWords ["interface", "eth1"])]).session "a"

theorem lone_reachable : lone.Reachable schema :=
  ⟨Unit, Unit, _, "a", reachable [("a", .setWords ["interface", "eth1"])], .refl⟩

end Sample

/-- The only instance goes and another one comes: whether the tag node goes with the first or is
there for the second makes no difference in the end. -/
theorem Session.edits_commute_over_last_instance :
    let leave := PathEdit.delete ["interface"] (some "eth1")
    let come := PathEdit.set ["interface", "eth0", "address"] "10.0.0.1"
    (Sample.schema.Compiled ∧ Sample.lone.Reachable Sample.schema ∧
      (¬ leave.target Sample.schema Sample.lone <+: come.target Sample.schema Sample.lone ∧
        ¬ come.target Sample.schema Sample.lone <+: leave.target Sample.schema Sample.lone)) ∧
    (leave.after Sample.schema Sample.lone).edit = Tree.empty ∧
    (come.after Sample.schema (leave.after Sample.schema Sample.lone)).edit =
      (leave.after Sample.schema (come.after Sample.schema Sample.lone)).edit ∧
    (leave.after Sample.schema (come.after Sample.schema Sample.lone)).edit =
      .subtree [("interface", .subtree [("eth0", .subtree
        [("address", .list ["10.0.0.1"])])])] := by
  intro leave come
  have hindependent :
      ¬ leave.target Sample.schema Sample.lone <+: come.target Sample.schema Sample.lone ∧
        ¬ come.target Sample.schema Sample.lone <+: leave.target Sample.schema Sample.lone := by
    decide
  have hcomm := Session.edits_commute Sample.compiled Sample.lone_reachable (.inl hindependent)
  exact ⟨⟨Sample.compiled, Sample.lone_reachable, hindependent⟩, rfl, hcomm.1, rfl⟩

end RouterConfig
