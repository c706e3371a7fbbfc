import RouterConfig.Proofs.Commit.Steps

/-!
# RouterConfig — conformance while commits interleave

Commits that are done step by step, in whatever order, keep all configurations conforming: what is
running, what sessions hold, and what commits under way and promotions remember. Main results:

* `Interleaved.Sound.begin`, `Interleaved.Sound.proceed`, `Interleaved.Sound.promote` — the steps of
  a commit keep all sound;
* `Interleaved.Sound.run` — so does all that may happen, in any order.
-/

namespace RouterConfig

variable {World Dict : Type} {schema : Schema}

/-- A commit under way that will leave its cursor at a declared place. -/
structure Underway.Sound (schema : Schema) (c : Underway World Dict) : Prop where
  level : schema.declares c.level = true
  base : schema.Admits c.base

/-- A promotion of a configuration that conforms. -/
structure Promotion.Sound (schema : Schema) (p : Promotion) : Prop where
  base : schema.Admits p.base
  promoted : schema.Admits p.promoted

namespace Interleaved

/-- All is sound, also what commits have begun with. -/
structure Sound (schema : Schema) (σ : Interleaved World Dict) : Prop where
  host : σ.host.Sound schema
  underway : ∀ name c, σ.underway name = some c → c.Sound schema
  promotions : ∀ p ∈ σ.promotions, p.Sound schema

namespace Sound

variable {σ : Interleaved World Dict} {name : String} {c : Underway World Dict}

/-- Marking a commit that is sound, or none, leaves all sound. -/
theorem mark (h : σ.Sound schema) (name : String) {c? : Option (Underway World Dict)}
    (hc : ∀ c, c? = some c → c.Sound schema) : (σ.mark name c?).Sound schema := by
  refine ⟨h.host, fun other c hother => ?_, h.promotions⟩
  by_cases hname : other = name
  · exact hc c ((if_pos hname).symm.trans hother)
  · exact h.underway other c ((if_neg hname).symm.trans hother)

theorem inWorld (h : σ.Sound schema) (world : World) : (σ.inWorld world).Sound schema := by
  have hstore := h.host.store
  exact ⟨⟨⟨hstore.declared, hstore.modules, hstore.running⟩, h.host.sessions⟩, h.underway,
    h.promotions⟩

theorem putSession (h : σ.Sound schema) {session : Session} (hsession : session.Sound schema) :
    (σ.putSession name session).Sound schema :=
  ⟨h.host.putSession hsession, h.underway, h.promotions⟩

/-! ## Steps -/

/-- The selection that a commit begins with keeps everything conforming. -/
theorem begin (h : σ.Sound schema) (hSchema : schema.Compiled) :
    (σ.begin name).Sound schema := by
  have hsession := h.host.session name
  have hselected := h.host.store.select hSchema hsession
  -- the cursor goes back to where it is now, and that is declared
  refine mark (putSession (inWorld h _) hselected) name fun c hc => ?_
  rw [← Option.some.inj hc]
  exact ⟨hsession.cursor, h.host.store.running⟩

theorem finish (h : σ.Sound schema) (hc : c.Sound schema) : (σ.finish name c).Sound schema := by
  have hsession := (h.host.session name).atLevel hc.level
  exact mark (putSession h hsession) name fun _ hnone => absurd hnone (by simp)

/-- A phase goes on or ends a commit, and both leave everything conforming. -/
theorem proceed (h : σ.Sound schema) (hc : c.Sound schema) {phase : Phase}
    {result : PhaseResult World Dict} : (σ.proceed name c phase result).Sound schema := by
  have hworld := h.inWorld result.world
  rw [Interleaved.proceed]
  by_cases hfailures : result.failures = []
  · rw [if_pos hfailures]
    refine hworld.mark name fun c' hc' => ?_
    rw [← Option.some.inj hc']
    exact ⟨hc.level, hc.base⟩
  · rw [if_neg hfailures]
    exact hworld.finish hc

/-- A promotion makes a session that conforms the running tree. -/
theorem promote (h : σ.Sound schema) (hc : c.Sound schema) : (σ.promote name c).Sound schema := by
  have hstore := h.host.store
  have hedit := (h.host.session name).edit
  have hpromoted : Sound schema
      { σ with
        host := { σ.host with store := σ.host.store.promote (σ.host.session name).edit }
        promotions := σ.promotions ++ [σ.promotionOf name c] } := by
    refine ⟨⟨⟨hstore.declared, hstore.modules, hedit⟩, h.host.sessions⟩, h.underway, ?_⟩
    intro p hp
    rcases List.mem_append.mp hp with hold | hnew
    · exact h.promotions p hold
    · rw [List.mem_singleton.mp hnew]
      exact ⟨hc.base, hedit⟩
  exact hpromoted.finish hc

/-- Whatever happens in whatever order, all stays sound. -/
theorem run (h : σ.Sound schema) (hSchema : schema.Compiled) (actions : List Action) :
    (σ.run actions).Sound schema := by
  refine run_keeps ?_ ?_ ?_ ?_ h actions
  · intro σ name h
    exact h.begin hSchema
  · intro σ name c phase result h hc
    exact h.proceed (h.underway name c hc)
  · intro σ name c h hc
    exact h.promote (h.underway name c hc)
  · intro σ name operation h _ _
    exact ⟨h.host.perform hSchema name operation, h.underway, h.promotions⟩

end Sound

theorem sound_start {h : Host World Dict} (hSound : h.Sound schema) : (start h).Sound schema where
  host := hSound
  underway := fun _ _ hc => absurd hc (by simp [start])
  promotions := fun _ hp => absurd hp (by simp [start])

end Interleaved

end RouterConfig
