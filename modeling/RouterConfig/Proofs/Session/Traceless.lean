import RouterConfig.Proofs.Host.Conformance
import RouterConfig.Proofs.Tree.Descending

/-!
# RouterConfig — failed edits leave no trace

An edit in place may fail when it has begun to make the way to its position: because a value stands
on that way, or because what stands at its end is no list. It has then made nothing, as both are
found only where nothing was missing before. This needs no configuration that conforms, only names
that are in order, and edits keep them so. Main results:

* `InPlace.set_eq`, `InPlace.delete_eq` — an edit in place leaves the session that comes of it, or
  the one that it was made of;
* `Session.Edits.orderly` — edits put no names out of order;
* `Session.failed_request_traceless` — a request that fails leaves the session as it was.
-/

namespace RouterConfig

/-- What is left of a session by an edit that is done or not done. -/
def Session.settled (s : Session) : Except Error Session → EStateM.Result Error Session Unit
  | .ok s' => .ok () s'
  | .error cause => .error cause s

/-! ## Edits in place -/

namespace InPlace

variable {s : Session}

theorem run_ofExcept {α : Type} (x : Except Error α) (s : Session) :
    (MonadExcept.ofExcept x : InPlace α).run s =
      match x with
      | .ok a => .ok a s
      | .error cause => .error cause s := by
  cases x <;> rfl

/-- Reaching a node makes what is missing on the way and answers with what was done to it. -/
theorem run_reach {α : Type} (path : Path) (act : Children → Children × α) (s : Session) :
    (reach path act).run s =
      match (s.edit.descend act path).2 with
      | some answer => .ok answer { s with edit := (s.edit.descend act path).1 }
      | none =>
        .error (Error.path path .valueOnPath)
          { s with edit := (s.edit.descend act path).1 } := by
  rw [reach, EStateM.run_bind, EStateM.run_modifyGet]
  dsimp only
  cases (s.edit.descend act path).2 <;> rfl

/-- A change of the children at a position that never declines is made, or leaves the session as it
was. -/
theorem reach_change (hs : s.edit.Orderly) (path : Path) (change : Children → Children) :
    (reach path fun children => (change children, ())).run s =
      s.settled (match s.edit.alter? (fun children => some (change children)) path with
        | some edit => .ok { s with edit := edit }
        | none => .error (.path path .valueOnPath)) := by
  rw [run_reach, Tree.alter?_some_eq_descend]
  cases hanswer : (s.edit.descend (fun children => (change children, ())) path).2 with
  | some answer => rfl
  | none =>
    rw [Tree.descend_of_blocked hs hanswer]
    rfl

theorem makeNode_eq (hs : s.edit.Orderly) (full : Path) :
    (makeNode full).run s = s.settled (s.makeNode full) := by
  rw [makeNode, Session.makeNode, Tree.ensureSubtree?]
  exact reach_change hs full id

theorem storeValue_eq (hs : s.edit.Orderly) (full : Path) (value : String) :
    (storeValue full value).run s = s.settled (s.storeValue full value) := by
  rw [storeValue, Session.storeValue]
  cases full.getLast? with
  | none => rfl
  | some name => exact reach_change hs full.dropLast fun cs => Keyed.insert cs name (.scalar value)

/-- Adding a value in place settles the session as the session's own adding does. -/
theorem addValue_eq (hs : s.edit.Orderly) (full : Path) (value : String) :
    (addValue full value).run s = s.settled (s.addValue full value) := by
  rw [addValue, Session.addValue]
  cases full.getLast? with
  | none => rfl
  | some name =>
    dsimp only
    have hextend := Tree.appended?_eq_pushEntry name value
    have hsame := Tree.descend_pushEntry_unchanged (p := full.dropLast) hs name value
    rw [EStateM.run_bind, run_reach, Tree.alter?_eq_descend (Tree.pushEntry name value) id hextend,
      Tree.ensureSubtree?_isSome (Tree.pushEntry name value)]
    -- whatever it fails for, the value is not pushed, and the session is as it was
    cases hanswer : (s.edit.descend (Tree.pushEntry name value) full.dropLast).2 with
    | none =>
      rw [hsame (by simp [hanswer])]
      rfl
    | some pushed =>
      cases pushed with
      | true => rfl
      | false =>
        rw [hsame (by simp [hanswer])]
        rfl

/-- Writing to a leaf in place settles the session as the session's own write does. -/
theorem setLeaf_eq (hs : s.edit.Orderly) (leaf : Schema.Node) (full : Path) (value : String) :
    (setLeaf leaf full value).run s = s.settled (s.setLeaf leaf full value) := by
  rw [setLeaf, Session.setLeaf]
  cases leaf.valueFault? value with
  | some fault => rfl
  | none =>
    dsimp only
    by_cases hMulti : leaf.multi = true
    · rw [if_pos hMulti, if_pos hMulti]
      exact addValue_eq hs full value
    · rw [if_neg hMulti, if_neg hMulti]
      exact storeValue_eq hs full _

/-- Making an instance in place settles the session as the session's own making does. -/
theorem setInstance_eq (hs : s.edit.Orderly) (full : Path) (name : String) :
    (setInstance full name).run s = s.settled (s.setInstance full name) := by
  rw [setInstance, Session.setInstance]
  by_cases hname : name.isEmpty = true
  · rw [if_pos hname, if_pos hname]
    rfl
  · rw [if_neg hname, if_neg hname]
    exact makeNode_eq hs _

/-- Writing to a child in place settles the session as the session's own write does. -/
theorem setChild_eq (hs : s.edit.Orderly) (node : Schema.Node) (full : Path) (name : String) :
    (setChild node full name).run s = s.settled (s.setChild node full name) := by
  rw [setChild, Session.setChild]
  cases node.child? name with
  | none => rfl
  | some child =>
    dsimp only
    -- by the kind of child, as the session itself decides it
    by_cases hLeaf : (!child.isLeaf) = true
    · rw [if_pos hLeaf, if_pos hLeaf]
      exact makeNode_eq hs _
    rw [if_neg hLeaf, if_neg hLeaf]
    by_cases hless : (!child.valueless) = true
    · rw [if_pos hless, if_pos hless]
      rfl
    · rw [if_neg hless, if_neg hless]
      exact storeValue_eq hs _ ""

/-- A set in place leaves the session that comes of it, or the one that it was made of. -/
theorem set_eq (hs : s.edit.Orderly) (schema : Schema) (path : Path) (typed : String) :
    (set schema path typed).run s = s.settled (s.set schema path typed) := by
  -- the tests come before anything is made, so a request that fails here has made nothing
  rw [set, EStateM.run_bind, EStateM.run_get, Session.set]
  dsimp only
  by_cases hquotes : holdsBothQuotes (unquote typed) = true
  · rw [if_pos hquotes, if_pos hquotes]
    rfl
  rw [if_neg hquotes, if_neg hquotes, EStateM.run_bind, run_ofExcept]
  cases schema.resolve (s.absolute path) with
  | error cause => rfl
  | ok place =>
    dsimp only
    by_cases hLeaf : place.isLeaf = true
    · rw [if_pos hLeaf, if_pos hLeaf]
      exact setLeaf_eq hs place.node _ _
    rw [if_neg hLeaf, if_neg hLeaf]
    by_cases hTag : place.isTag = true
    · rw [if_pos hTag, if_pos hTag]
      exact setInstance_eq hs _ _
    · rw [if_neg hTag, if_neg hTag]
      exact setChild_eq hs place.node _ _

theorem setWords_eq (hs : s.edit.Orderly) (schema : Schema) (words : List String) :
    (setWords schema words).run s = s.settled (s.setWords schema words) := by
  rw [setWords, Session.setWords]
  cases words.getLast? with
  | none => rfl
  | some typed => exact set_eq hs schema words.dropLast typed

/-- Taking something out in place finds it if and only if the session's own removal does, and leaves
the same tree. -/
theorem run_take (hs : s.edit.Orderly) (place : Schema.Place) (full : Path)
    (value? : Option String) :
    (take place full value?).run s =
      .ok (Session.deleted? s.edit place full value?).isSome
        { s with edit := (Session.deleted? s.edit place full value?).getD s.edit } := by
  rw [take, EStateM.run_modifyGet]
  cases value? with
  | none =>
    dsimp only
    rw [Tree.takeNode_eq hs]
    rfl
  | some value =>
    rw [Session.deleted?]
    dsimp only
    by_cases hLeaf : place.isLeaf = true
    · rw [if_pos hLeaf, if_pos hLeaf, Tree.takeValue_eq hs]
    · rw [if_neg hLeaf, if_neg hLeaf, Tree.takeNode_eq hs]

/-- A delete in place leaves the session that comes of it, or the one that it was made of. -/
theorem delete_eq (hs : s.edit.Orderly) (schema : Schema) (path : Path)
    (typed? : Option String) :
    (delete schema path typed?).run s = s.settled (s.delete schema path typed?) := by
  rw [delete, EStateM.run_bind, EStateM.run_get, Session.delete]
  dsimp only
  rw [EStateM.run_bind, run_ofExcept]
  cases schema.resolve (s.absolute path) with
  | error cause => rfl
  | ok place =>
    dsimp only
    rw [EStateM.run_bind, run_take hs]
    cases Session.deleted? s.edit place (s.absolute path) (typed?.map unquote) <;> rfl

/-- Deleting words in place settles the session as the session's own deleting does. -/
theorem deleteWords_eq (hs : s.edit.Orderly) (schema : Schema) (words : List String) :
    (deleteWords schema words).run s = s.settled (s.deleteWords schema words) := by
  rw [deleteWords, EStateM.run_bind, EStateM.run_get, Session.deleteWords]
  dsimp only
  split
  · exact delete_eq hs schema words.dropLast words.getLast?
  · exact delete_eq hs schema words none

theorem setLevel_eq (s : Session) (schema : Schema) (path : Path) :
    (setLevel schema path).run s = s.settled (s.setLevel schema path) := by
  rw [setLevel, EStateM.run_bind, run_ofExcept, Session.setLevel]
  cases schema.resolve path <;> rfl

end InPlace

/-! ## Names stay in order -/

namespace Session

variable {s s' : Session} {schema : Schema}

/-- Making a node keeps the tree in order. -/
theorem orderly_makeNode (hs : s.edit.Orderly) {full : Path} (h : s.makeNode full = .ok s') :
    s'.edit.Orderly := by
  rw [makeNode, Tree.ensureSubtree?] at h
  cases hedit : s.edit.alter? some full with
  | none => simp [hedit] at h
  | some edit =>
    rw [hedit] at h
    obtain rfl : { s with edit := edit } = s' := Except.ok.inj h
    exact hs.alter? (fun children children' hchildren hsame => Option.some.inj hsame ▸ hchildren)
      hedit

/-- Storing a value keeps the tree in order. -/
theorem orderly_storeValue (hs : s.edit.Orderly) {full : Path} {value : String}
    (h : s.storeValue full value = .ok s') : s'.edit.Orderly := by
  rw [storeValue] at h
  cases hname : full.getLast? with
  | none => simp [hname] at h
  | some name =>
    rw [hname] at h
    dsimp only at h
    split at h
    · rename_i edit hedit
      obtain rfl : { s with edit := edit } = s' := Except.ok.inj h
      refine hs.alter? (fun children children' hchildren hput => ?_) hedit
      rw [← Option.some.inj hput]
      exact hchildren.insert name (Tree.orderly_of_value rfl)
    · exact absurd h (by simp)

/-- Adding a value keeps the tree in order. -/
theorem orderly_addValue (hs : s.edit.Orderly) {full : Path} {value : String}
    (h : s.addValue full value = .ok s') : s'.edit.Orderly := by
  rw [addValue] at h
  cases hname : full.getLast? with
  | none => simp [hname] at h
  | some name =>
    rw [hname] at h
    dsimp only at h
    split at h
    · rename_i edit hedit
      obtain rfl : { s with edit := edit } = s' := Except.ok.inj h
      refine hs.alter? (fun children children' hchildren hput => ?_) hedit
      obtain ⟨entry, hentry, rfl⟩ := Option.map_eq_some_iff.mp hput
      exact hchildren.insert name (Tree.orderly_of_value (Tree.isSubtree_of_appended? hentry))
    · split at h <;> exact absurd h (by simp)

theorem orderly_set (hs : s.edit.Orderly) {path : Path} {typed : String}
    (h : s.set schema path typed = .ok s') : s'.edit.Orderly := by
  -- whatever the schema says, what is left to do is one of three ways to store
  simp only [set, setLeaf, setInstance, setChild] at h
  repeat' split at h
  all_goals grind [orderly_makeNode, orderly_storeValue, orderly_addValue]

theorem orderly_setWords (hs : s.edit.Orderly) {words : List String}
    (h : s.setWords schema words = .ok s') : s'.edit.Orderly := by
  rw [setWords] at h
  split at h
  · exact absurd h (by simp)
  · exact orderly_set hs h

/-- Deleting keeps the tree in order, whatever is taken out. -/
theorem orderly_delete (hs : s.edit.Orderly) {path : Path} {typed? : Option String}
    (h : s.delete schema path typed? = .ok s') : s'.edit.Orderly := by
  rw [delete] at h
  cases hplace : schema.resolve (s.absolute path) with
  | error cause => simp [hplace] at h
  | ok place =>
    rw [hplace] at h
    dsimp only at h
    -- only a removal that finds something changes the tree
    cases hedit : deleted? s.edit place (s.absolute path) (typed?.map unquote) with
    | none =>
      rw [hedit] at h
      obtain rfl : s = s' := Except.ok.inj h
      exact hs
    | some edit =>
      rw [hedit] at h
      obtain rfl : { s with edit := edit.prune (s.absolute path) } = s' := Except.ok.inj h
      -- the way is pruned last, be it a node or a value that has been taken out
      have htaken : edit.Orderly := by
        cases hvalue : typed?.map unquote with
        | none => exact hs.without? (hvalue ▸ hedit)
        | some value =>
          rw [hvalue, deleted?] at hedit
          split at hedit
          · exact hs.withoutValue? hedit
          · exact hs.without? hedit
      exact htaken.prune _

/-- What is done to a session in one go puts no names out of order. -/
theorem Edit.orderly {running : Tree} (hRunning : running.Orderly) (hs : s.edit.Orderly)
    (h : Edit schema running s s') : s'.edit.Orderly := by
  cases h with
  | set path typed hset => exact orderly_set hs hset
  | setWords words hset => exact orderly_setWords hs hset
  | delete path typed? hdelete => exact orderly_delete hs hdelete
  | deleteWords words hdelete =>
    rw [Session.deleteWords] at hdelete
    split at hdelete <;> exact orderly_delete hs hdelete
  | setLevel path hlevel => exact (setLevel_edit hlevel) ▸ hs
  | resetLevel => exact hs
  | discard => exact hRunning

/-- A session that is opened on a configuration with its names in order has them in order, whatever
is done to it and whatever the configuration holds. -/
theorem Edits.orderly {running : Tree} (hRunning : running.Orderly)
    (h : Edits schema running (ofRunning running) s) : s.edit.Orderly := by
  induction h with
  | refl => exact hRunning
  | tail _ hedit ih => exact hedit.orderly hRunning ih

end Session

/-! ## Failed requests -/

/-- A request in place leaves the session that comes of it, or the one that it was made of. -/
theorem Session.Request.inPlace_eq {schema : Schema} {s : Session} (hs : s.edit.Orderly)
    (r : Request) : (r.inPlace schema).run s = s.settled (r.result schema s) := by
  cases r with
  | set path typed => exact InPlace.set_eq hs schema path typed
  | setWords words => exact InPlace.setWords_eq hs schema words
  | delete path typed? => exact InPlace.delete_eq hs schema path typed?
  | deleteWords words => exact InPlace.deleteWords_eq hs schema words
  | setLevel path => exact InPlace.setLevel_eq s schema path

/-- Every request keeps the tree in order. -/
theorem Session.Request.orderly {schema : Schema} {s s' : Session} (hs : s.edit.Orderly)
    {r : Request} (h : r.result schema s = .ok s') : s'.edit.Orderly := by
  -- a request never discards, so that any configuration will do for the running one
  have hedit : Edit schema s.edit s s' := by
    cases r with
    | set path typed => exact .set path typed h
    | setWords words => exact .setWords words h
    | delete path typed? => exact .delete path typed? h
    | deleteWords words => exact .deleteWords words h
    | setLevel path => exact .setLevel path h
  exact hedit.orderly hs hs

/-- A request that fails leaves configuration and cursor as they were, whatever the session holds;
no more is asked of that than names in order, which requests leave in order. One that succeeds
leaves the session that comes of it. -/
theorem Session.failed_request_traceless {schema : Schema} {s : Session} (hs : s.edit.Orderly)
    (r : Session.Request) :
    (∀ cause left, (r.inPlace schema).run s = .error cause left →
      left.edit = s.edit ∧ left.level = s.level ∧ r.result schema s = .error cause) ∧
    ∀ left, (r.inPlace schema).run s = .ok () left →
      left.edit.Orderly ∧ r.result schema s = .ok left := by
  rw [r.inPlace_eq hs]
  cases hresult : r.result schema s with
  | error cause =>
    refine ⟨fun cause' left h => ?_, fun left h => absurd h (by simp [settled])⟩
    obtain ⟨rfl, rfl⟩ := EStateM.Result.error.inj h
    exact ⟨rfl, rfl, rfl⟩
  | ok s' =>
    refine ⟨fun cause left h => absurd h (by simp [settled]), fun left h => ?_⟩
    obtain ⟨-, rfl⟩ := EStateM.Result.ok.inj h
    exact ⟨Request.orderly hs hresult, rfl⟩

namespace Sample

/-- A configuration with a value where an instance belongs, another one where values belong, and a
node that is not declared. -/
def malformed : Tree :=
  .subtree
    [("bogus", .list []),
      ("interface", .subtree
        [("eth0", .scalar "up"), ("eth1", .subtree [("address", .scalar "10.0.0.1")])])]

/-- The sample tree that no schema would allow has its names in order all the same. -/
theorem malformed_orderly : malformed.Orderly := by
  have hvalues : ∀ v, (Tree.scalar v).Orderly := fun _ => Tree.orderly_of_value rfl
  have hOne : (Tree.subtree [("address", .scalar "10.0.0.1")]).Orderly :=
    Tree.orderly_empty.insert "address" (hvalues _)
  have hinterface : (Tree.subtree
      [("eth0", .scalar "up"), ("eth1", .subtree [("address", .scalar "10.0.0.1")])]).Orderly :=
    (Tree.orderly_empty.insert "eth0" (hvalues _)).insert "eth1" hOne
  have hbogus : (Tree.subtree [("bogus", .list [])]).Orderly :=
    Tree.orderly_empty.insert "bogus" (Tree.orderly_of_value rfl)
  exact hbogus.insert "interface" hinterface

end Sample

/-- An address can neither be set below the value that stands for an instance, which is found on the
way, nor next to the value that stands for a list, which is found at its end. -/
theorem Session.failed_request_traceless_of_malformed :
    let s : Session := ⟨Sample.malformed, ["interface"]⟩
    let blocked := Session.Request.setWords ["eth0", "address", "10.0.0.2"]
    let refused := Session.Request.setWords ["eth1", "address", "10.0.0.2"]
    s.edit.Orderly ∧
    (∃ left, (blocked.inPlace Sample.schema).run s =
        .error (.path ["interface", "eth0"] .valueOnPath) left ∧
      left.edit = Sample.malformed ∧ left.level = ["interface"]) ∧
    ∃ left, (refused.inPlace Sample.schema).run s =
        .error (.path ["interface", "eth1", "address"] .notAList) left ∧
      left.edit = Sample.malformed ∧ left.level = ["interface"] := by
  intro s blocked refused
  -- both requests are run first, and only then is it asked what they leave
  have hs : s.edit.Orderly := Sample.malformed_orderly
  have hblocked : ∃ left, (blocked.inPlace Sample.schema).run s =
      .error (.path ["interface", "eth0"] .valueOnPath) left := ⟨_, rfl⟩
  have hrefused : ∃ left, (refused.inPlace Sample.schema).run s =
      .error (.path ["interface", "eth1", "address"] .notAList) left := ⟨_, rfl⟩
  obtain ⟨left, hleft⟩ := hblocked
  obtain ⟨left', hleft'⟩ := hrefused
  obtain ⟨hedit, hlevel, -⟩ := (Session.failed_request_traceless hs blocked).1 _ left hleft
  obtain ⟨hedit', hlevel', -⟩ := (Session.failed_request_traceless hs refused).1 _ left' hleft'
  exact ⟨hs, ⟨left, hleft, hedit, hlevel⟩, left', hleft', hedit', hlevel'⟩

end RouterConfig
