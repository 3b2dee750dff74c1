import WireCatalog.Catalogue.Register
import WireCatalog.Proofs.Publication

/-! # Requests

A request is a look-up that registers what is missing. `Answered` lists all that it can come to,
whatever becomes of its task: its answer is found, or it is registered, or the registration is
refused and the answer is detached (`answered`). What a request does to the registry, to the known
classes and for its caller is read off these three cases. -/

namespace WireCatalog

theorem Registry.log_nil (r : Registry) : r.log [] = r := by
  rw [log, List.append_nil]

theorem Registry.log_log (r : Registry) (es es' : List Event) :
    (r.log es).log es' = r.log (es ++ es') := by
  rw [log, log, log, List.append_assoc]

namespace Catalogue

/-! ### Registrations that the caller waits for -/

section

variable (c : Catalogue) (fate : Fate)

theorem registerAs_of_runs {fate : Fate} (hf : fate.runs = true) (decl : Declaration) :
    (c.registerAs fate decl).1.result = (c.publish decl).1 ∧
      (c.registerAs fate decl).2 = (c.publish decl).2 := by
  cases fate with
  | inline => exact ⟨rfl, rfl⟩
  | queued => exact ⟨rfl, rfl⟩
  | rejected => cases hf
  | dropped => cases hf

theorem registerAs_of_lost {fate : Fate} (hf : fate.runs = false) (decl : Declaration) :
    (c.registerAs fate decl).1.result = .error .executorClosed ∧
      (c.registerAs fate decl).2 = c := by
  cases fate with
  | inline => cases hf
  | queued => cases hf
  | rejected => exact ⟨rfl, rfl⟩
  | dropped => exact ⟨rfl, rfl⟩

/-- A registration that the caller waits for is a publication, whatever becomes of its task. -/
theorem registerNow_eq (decl : Declaration) :
    ∃ es, c.registerNow fate decl = (c.log es).publish decl := by
  have hne : ((c.log [.stage .synthesized decl.key]).publish decl).1 ≠ .error .executorClosed :=
    Registry.publish_ne_executorClosed
  unfold registerNow
  cases hf : fate.runs with
  | true =>
      obtain ⟨hresult, hafter⟩ :=
        (c.log [.stage .synthesized decl.key]).registerAs_of_runs hf decl
      refine ⟨[.stage .synthesized decl.key], ?_⟩
      dsimp only
      rw [hresult, hafter]
      split
      · contradiction
      · rfl
  | false =>
      obtain ⟨hresult, hafter⟩ :=
        (c.log [.stage .synthesized decl.key]).registerAs_of_lost hf decl
      refine ⟨[.stage .synthesized decl.key] ++ [.executorClosed decl.key], ?_⟩
      dsimp only
      rw [hresult, hafter]
      dsimp only
      rw [log, log, log, Registry.log_log]

end

/-! ### Requests -/

/-- A look-up that registers what is missing. -/
inductive Request
  | fromId (k : WireKey) (cls : ClassName)
  | fromClassOrId (k : WireKey) (cls : ClassName)
  | fromLegacy (id : Int) (d : Direction)

/-- The answer to a request whose task, if there is one, has the given fate. -/
def answerAs (c : Catalogue) (fate : Fate) : Request → PacketType × Catalogue
  | .fromId k cls => c.fromIdAs fate k cls
  | .fromClassOrId k cls => c.fromClassOrIdAs fate k cls
  | .fromLegacy id d => c.fromLegacyAs fate id d

/-- What the look-ups of a request find. -/
def found? (c : Catalogue) : Request → Option PacketType
  | .fromId k cls => (c.resolveCurrent k).or (c.resolveName k.channel cls.simple)
  | .fromClassOrId k cls =>
    (c.binder.typeOf? cls).or
      ((c.resolveName k.channel cls.simple).or (c.resolveCurrent k))
  | .fromLegacy id d => c.resolveLegacy id (some d)

/-- What a request registers if it finds nothing. -/
def missing (c : Catalogue) : Request → Declaration
  | .fromId k cls => c.discovered k cls
  | .fromClassOrId k cls => c.discovered k cls
  | .fromLegacy id d => discoveredLegacy id d

theorem aliases_discovered (c : Catalogue) (k : WireKey) (cls : ClassName) :
    (c.discovered k cls).aliases = [PacketName.format k.channel cls.simple] := by
  simp only [discovered, Declaration.aliases, Declaration.asDynamic, Declaration.withVersion,
    Declaration.withId, Declaration.named]

/-- At most one class becomes known, and it is one for the given packet type. -/
def Learns (c : Catalogue) (x : PacketType) (c' : Catalogue) : Prop :=
  c'.binder = c.binder ∨ ∃ cls, c'.binder = c.binder.remember cls x

/-- All that a request can come to: the answer and the catalogue after it. -/
inductive Answered (c : Catalogue) (q : Request) : PacketType → Catalogue → Prop
  | found {x : PacketType} {c' : Catalogue} {es : List Event} (hit : c.found? q = some x)
      (logged : c'.registry = c.registry.log es) (learns : c.Learns x c') : Answered c q x c'
  | registered {r : Registration} {c' : Catalogue} {es : List Event} (miss : c.found? q = none)
      (published : (c.registry.log es).publish (c.missing q) = (.ok r, c'.registry))
      (learns : c.Learns r.packetType c') : Answered c q r.packetType c'
  | detached {x : PacketType} {c' : Catalogue} {e : CatalogueError} {r : Registry}
      {es es' : List Event} (miss : c.found? q = none)
      (refused : (c.registry.log es).publish (c.missing q) = (.error e, r))
      (detach : (r.log es').detach (c.missing q) = (x, c'.registry))
      (binder : c'.binder = c.binder) : Answered c q x c'

/-! ### Every request is answered -/

/-- What a registration does for a caller who has logged its miss and waits. -/
theorem registerNow_spec (c : Catalogue) (es : List Event) (fate : Fate) (decl : Declaration) :
    ∃ es', (c.registry.log es').publish decl =
        (((c.log es).registerNow fate decl).1, ((c.log es).registerNow fate decl).2.registry) ∧
      ((c.log es).registerNow fate decl).2.binder = c.binder := by
  obtain ⟨es', hnow⟩ := (c.log es).registerNow_eq fate decl
  rw [hnow]
  refine ⟨es ++ es', ?_, rfl⟩
  rw [← Registry.log_log]
  rfl

section

variable {c : Catalogue} {k : WireKey} {cls : ClassName} {x : PacketType}

theorem fromIdAs_of_resolveCurrent (fate : Fate) (hk : c.resolveCurrent k = some x) :
    c.fromIdAs fate k cls = (x, c) := by
  rw [fromIdAs, hk]

theorem fromIdAs_of_resolveName (fate : Fate) (hk : c.resolveCurrent k = none)
    (hn : c.resolveName k.channel cls.simple = some x) :
    c.fromIdAs fate k cls =
      (x, ((c.log [.stage .miss k]).log [.resolvedByClass k cls x.name]).remember cls x) := by
  have hn' : (c.log [.stage .miss k]).resolveName k.channel cls.simple = some x := hn
  rw [fromIdAs, hk]
  dsimp only
  rw [hn']

/-- What is found nowhere is published, or else its publication is refused and it is detached. -/
theorem fromIdAs_of_miss (fate : Fate) (hk : c.resolveCurrent k = none)
    (hn : c.resolveName k.channel cls.simple = none) :
    ∃ es, let p := (c.registry.log es).publish (c.discovered k cls)
      let q := c.fromIdAs fate k cls
      match p.1 with
      | .ok r => q.1 = r.packetType ∧ q.2.registry = p.2 ∧
          q.2.binder = c.binder.remember cls r.packetType
      | .error _ => q.2.binder = c.binder ∧
          ∃ es', (p.2.log es').detach (c.discovered k cls) = (q.1, q.2.registry) := by
  have hn' : (c.log [.stage .miss k]).resolveName k.channel cls.simple = none := hn
  have hdecl : (c.log [.stage .miss k]).discovered k cls = c.discovered k cls := rfl
  obtain ⟨es, hpublish, hbinder⟩ := c.registerNow_spec [.stage .miss k] fate (c.discovered k cls)
  refine ⟨es, ?_⟩
  rw [fromIdAs, hk]
  dsimp only
  rw [hn', hdecl, hpublish]
  generalize (c.log [.stage .miss k]).registerNow fate (c.discovered k cls) = p at hbinder ⊢
  obtain ⟨result, c'⟩ := p
  cases result with
  | ok r => exact ⟨rfl, rfl, congrArg (·.remember cls r.packetType) hbinder⟩
  | error e => exact ⟨hbinder, _, rfl⟩

theorem fromClassOrIdAs_of_typeOf? (fate : Fate) (hc : c.binder.typeOf? cls = some x) :
    c.fromClassOrIdAs fate k cls = (x, c) := by
  rw [fromClassOrIdAs, hc]

theorem fromClassOrIdAs_of_resolveName (fate : Fate) (hc : c.binder.typeOf? cls = none)
    (hn : c.resolveName k.channel cls.simple = some x) :
    c.fromClassOrIdAs fate k cls = (x, c.remember cls x) := by
  rw [fromClassOrIdAs, hc]
  dsimp only
  rw [hn]

/-- A request by class that finds nothing by the class goes on as one by wire key. -/
theorem fromClassOrIdAs_of_miss (fate : Fate) (hc : c.binder.typeOf? cls = none)
    (hn : c.resolveName k.channel cls.simple = none) :
    c.fromClassOrIdAs fate k cls = c.fromIdAs fate k cls := by
  rw [fromClassOrIdAs, hc]
  dsimp only
  rw [hn]

end

theorem fromIdAs_answered (c : Catalogue) (fate : Fate) (k : WireKey) (cls : ClassName) :
    c.Answered (.fromId k cls) (c.fromIdAs fate k cls).1 (c.fromIdAs fate k cls).2 := by
  cases hk : c.resolveCurrent k with
  | some x =>
      rw [fromIdAs_of_resolveCurrent fate hk]
      exact .found (by simp [found?, hk]) c.registry.log_nil.symm (.inl rfl)
  | none =>
      cases hn : c.resolveName k.channel cls.simple with
      | some x =>
          rw [fromIdAs_of_resolveName fate hk hn]
          exact .found (by simp [found?, hk, hn]) (c.registry.log_log _ _) (.inr ⟨cls, rfl⟩)
      | none =>
          have hmiss : c.found? (.fromId k cls) = none := by simp [found?, hk, hn]
          obtain ⟨es, hresult⟩ := fromIdAs_of_miss fate hk hn
          cases hp : (c.registry.log es).publish (c.discovered k cls) with
          | mk result r =>
              rw [hp] at hresult
              cases result with
              | ok registration =>
                  obtain ⟨hx, hregistry, hbinder⟩ := hresult
                  rw [hx]
                  rw [← show _ = r from hregistry] at hp
                  exact .registered hmiss hp (.inr ⟨cls, hbinder⟩)
              | error e =>
                  obtain ⟨hbinder, es', hdetach⟩ := hresult
                  exact .detached hmiss hp hdetach hbinder

theorem fromLegacyAs_answered (c : Catalogue) (fate : Fate) (id : Int) (d : Direction) :
    c.Answered (.fromLegacy id d) (c.fromLegacyAs fate id d).1 (c.fromLegacyAs fate id d).2 := by
  unfold fromLegacyAs
  cases hk : c.resolveLegacy id (some d) with
  | some x => exact .found (by simp [found?, hk]) c.registry.log_nil.symm (.inl rfl)
  | none =>
      have hmiss : c.found? (.fromLegacy id d) = none := by simp [found?, hk]
      have hdecl : discoveredLegacy id d = c.missing (.fromLegacy id d) := rfl
      dsimp only
      rw [hdecl]
      obtain ⟨es, hpublish, hbinder⟩ := c.registerNow_spec
        [.stage .miss (c.missing (.fromLegacy id d)).key] fate (c.missing (.fromLegacy id d))
      generalize (c.log _).registerNow fate (c.missing (.fromLegacy id d)) = p
        at hpublish hbinder ⊢
      obtain ⟨result, c'⟩ := p
      cases result with
      | ok r => exact .registered hmiss hpublish (.inl hbinder)
      | error e => exact .detached hmiss hpublish rfl hbinder

/-- So its answer is that of a request by wire key. -/
theorem Answered.of_fromId {c c' : Catalogue} {k : WireKey} {cls : ClassName} {x : PacketType}
    (hc : c.binder.typeOf? cls = none) (hn : c.resolveName k.channel cls.simple = none)
    (h : c.Answered (.fromId k cls) x c') : c.Answered (.fromClassOrId k cls) x c' := by
  have hfound : c.found? (.fromClassOrId k cls) = c.found? (.fromId k cls) := by
    simp [found?, hc, hn]
  have hmissing : c.missing (.fromClassOrId k cls) = c.missing (.fromId k cls) := rfl
  cases h with
  | found hit logged learns => exact .found (hfound.trans hit) logged learns
  | registered miss published learns =>
      rw [← hmissing] at published
      exact .registered (hfound.trans miss) published learns
  | detached miss refused detach binder =>
      rw [← hmissing] at refused detach
      exact .detached (hfound.trans miss) refused detach binder

theorem fromClassOrIdAs_answered (c : Catalogue) (fate : Fate) (k : WireKey) (cls : ClassName) :
    c.Answered (.fromClassOrId k cls) (c.fromClassOrIdAs fate k cls).1
      (c.fromClassOrIdAs fate k cls).2 := by
  cases hc : c.binder.typeOf? cls with
  | some x =>
      rw [fromClassOrIdAs_of_typeOf? fate hc]
      exact .found (by simp [found?, hc]) c.registry.log_nil.symm (.inl rfl)
  | none =>
      cases hn : c.resolveName k.channel cls.simple with
      | some x =>
          rw [fromClassOrIdAs_of_resolveName fate hc hn]
          exact .found (by simp [found?, hc, hn]) c.registry.log_nil.symm (.inr ⟨cls, rfl⟩)
      | none =>
          rw [fromClassOrIdAs_of_miss fate hc hn]
          exact (c.fromIdAs_answered fate k cls).of_fromId hc hn

theorem answered (c : Catalogue) (fate : Fate) (q : Request) :
    c.Answered q (c.answerAs fate q).1 (c.answerAs fate q).2 := by
  cases q with
  | fromId k cls => exact c.fromIdAs_answered fate k cls
  | fromClassOrId k cls => exact c.fromClassOrIdAs_answered fate k cls
  | fromLegacy id d => exact c.fromLegacyAs_answered fate id d

end Catalogue

end WireCatalog
