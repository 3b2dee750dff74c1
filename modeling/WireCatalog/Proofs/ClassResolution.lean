import WireCatalog.Proofs.KnownClasses

/-! # What a request by class leaves known

A request by class looks for the class, then for its simple name, and then it goes on as a request
by wire key. It remembers the class for what it finds by name or registers. What it finds by the
wire key comes back without that (`FoundByKeyAlone.fromClassOrIdAs`), and so does a detached packet
type. In all other cases the class leads to the answer afterwards (`typeOf?_fromClassOrIdAs`).

`Learning` are the catalogues that know what their requests and their users taught them. Their
classes and packet types are paired, so that the answer is shown with its class then
(`class_resolution_binds_iff`). -/

namespace WireCatalog

namespace Catalogue

variable {c c' : Catalogue} {q : Request} {k : WireKey} {cls : ClassName} {x : PacketType}

/-! ### Catalogues that learn classes -/

/-- A catalogue that was built without known classes and then changed by operations and by classes
that a user made known. -/
inductive Learning : Catalogue → Prop
  | built {p : Plan} {c : Catalogue} (hb : p.binder = .table .empty) (h : p.Builds c) : Learning c
  | step {c : Catalogue} (h : Learning c) (fate : Fate) (op : Operation) :
      Learning (c.performAs fate op)
  | remember {c : Catalogue} (h : Learning c) (cls : ClassName) (x : PacketType) :
      Learning (c.remember cls x)

theorem Learns.pairs (h : c.Learns x c') (hp : c.binder.Pairs) : c'.binder.Pairs := by
  rcases h with hb | ⟨cls, hb⟩
  · rw [hb]
    exact hp
  · rw [hb]
    exact hp.remember cls x

theorem Answered.learns (h : c.Answered q x c') : c.Learns x c' := by
  cases h with
  | found hit logged learns => exact learns
  | registered miss published learns => exact learns
  | detached miss refused detach binder => exact .inl binder

theorem pairs_performAs (hp : c.binder.Pairs) (fate : Fate) (op : Operation) :
    (c.performAs fate op).binder.Pairs := by
  cases op with
  | register decl => cases fate <;> exact hp
  | fromId k cls => exact (c.fromIdAs_answered fate k cls).learns.pairs hp
  | fromClassOrId k cls => exact (c.fromClassOrIdAs_answered fate k cls).learns.pairs hp
  | fromLegacy id d => exact (c.fromLegacyAs_answered fate id d).learns.pairs hp
  | rebuild => cases fate <;> exact hp

namespace Learning

theorem coherent (h : c.Learning) : c.snapshot.Coherent := by
  induction h with
  | built _ h => exact h.reachable.coherent
  | step _ fate op ih => exact Registry.coherent_steps ih (performAs_steps _ fate op)
  | remember _ cls x ih => exact ih

theorem numbered (h : c.Learning) : c.Numbered := by
  induction h with
  | built _ h => exact h.reachable.numbered
  | step _ fate op ih => exact ih.performAs fate op
  | remember _ cls x ih => exact ih

theorem pairs (h : c.Learning) : c.binder.Pairs := by
  induction h with
  | built hb h =>
      rw [h.binder, hb]
      exact ClassTable.paired_empty
  | step _ fate op ih => exact pairs_performAs ih fate op
  | remember _ cls x ih => exact ih.remember cls x

end Learning

/-! ### What becomes of the class -/

/-- Whether a request by class finds something by its wire key, but not by the class or its name. -/
def FoundByKeyAlone (c : Catalogue) (k : WireKey) (cls : ClassName) : Prop :=
  c.binder.typeOf? cls = none ∧ c.resolveName k.channel cls.simple = none ∧
    (c.resolveCurrent k).isSome

theorem FoundByKeyAlone.fromClassOrIdAs (h : c.FoundByKeyAlone k cls) (fate : Fate) :
    ∃ x, c.resolveCurrent k = some x ∧ c.fromClassOrIdAs fate k cls = (x, c) := by
  obtain ⟨hc, hn, hsome⟩ := h
  obtain ⟨x, hk⟩ := Option.isSome_iff_exists.mp hsome
  exact ⟨x, hk, (fromClassOrIdAs_of_miss fate hc hn).trans (fromIdAs_of_resolveCurrent fate hk)⟩

theorem fromClass_eq_error (h : c.binder.typeOf? cls = none) :
    c.fromClass cls = .error (.notAPacketClass cls) := by
  rw [fromClass, h]

/-- The class leads to the answer, unless that was found by its wire key alone or is detached. -/
theorem typeOf?_fromClassOrIdAs (hp : c.binder.Pairs) (fate : Fate)
    (hkey : ¬c.FoundByKeyAlone k cls) (hq : ¬c.Refuses (.fromClassOrId k cls)) :
    (c.fromClassOrIdAs fate k cls).2.binder.typeOf? cls =
      some (c.fromClassOrIdAs fate k cls).1 := by
  cases hc : c.binder.typeOf? cls with
  | some x =>
      rw [fromClassOrIdAs_of_typeOf? fate hc]
      exact hc
  | none =>
      cases hn : c.resolveName k.channel cls.simple with
      | some x =>
          rw [fromClassOrIdAs_of_resolveName fate hc hn]
          exact hp.typeOf?_remember_self cls x
      | none =>
          cases hk : c.resolveCurrent k with
          | some x => exact absurd ⟨hc, hn, by rw [hk]; rfl⟩ hkey
          | none =>
              rw [fromClassOrIdAs_of_miss fate hc hn]
              obtain ⟨es, hresult⟩ := fromIdAs_of_miss fate hk hn
              cases hr : ((c.registry.log es).publish (c.discovered k cls)).1 with
              | ok r =>
                  simp only [hr] at hresult
                  obtain ⟨hx, _, hbinder⟩ := hresult
                  rw [hx, hbinder]
                  exact hp.typeOf?_remember_self cls r.packetType
              | error e =>
                  refine absurd ⟨by simp [found?, hc, hn, hk], e, ?_⟩ hq
                  rw [← fst_publish_log c es]
                  exact hr

/-- **A class stays unknown if its packet type is found by the wire key alone.** Take a catalogue
that was built without known classes and may have learnt some, and the answer to a request by class.
If neither the class nor its name led to anything and the wire key did, the answer is listed, but
the class is unknown still. It is unknown as well if the answer had to be registered and was
refused, and then the answer is not listed. In all other cases the class leads to the answer, which
counts as supported and is shown with the class. -/
theorem class_resolution_binds_iff (h : c.Learning) (fate : Fate) (k : WireKey)
    (cls : ClassName) :
    let x := (c.fromClassOrIdAs fate k cls).1
    let c' := (c.fromClassOrIdAs fate k cls).2
    (c.FoundByKeyAlone k cls → x ∈ c'.enumerate true ∧
      c'.fromClass cls = .error (.notAPacketClass cls)) ∧
    (c.Refuses (.fromClassOrId k cls) → x ∉ c'.enumerate true ∧
      c'.fromClass cls = .error (.notAPacketClass cls)) ∧
    (¬c.FoundByKeyAlone k cls → ¬c.Refuses (.fromClassOrId k cls) →
      c'.fromClass cls = .ok x ∧ c'.isSupported x = true ∧
        c'.describe x = x.describe (some cls)) := by
  intro x c'
  have hanswered := c.fromClassOrIdAs_answered fate k cls
  refine ⟨fun hkey => ?_, fun hq => ⟨hanswered.notMem_enumerate h.numbered hq, ?_⟩,
    fun hkey hq => ?_⟩
  · obtain ⟨y, hy, hanswer⟩ := hkey.fromClassOrIdAs fate
    simp only [x, c', hanswer]
    exact ⟨DirectorySet.mem_enumerate.mpr ⟨_, h.coherent.mem_of_byKey? hy⟩,
      fromClass_eq_error hkey.1⟩
  · obtain ⟨_, _, _, _, hbinder⟩ := hanswered.of_refuses hq
    have hunknown : c.binder.typeOf? cls = none := (Option.or_eq_none_iff.mp hq.1).1
    rw [← hbinder] at hunknown
    exact fromClass_eq_error hunknown
  · have hx : c'.binder.typeOf? cls = some x := typeOf?_fromClassOrIdAs h.pairs fate hkey hq
    have hclass := (hanswered.learns.pairs h.pairs).classOf?_of_typeOf? hx
    refine ⟨fromClass_eq_ok.mpr hx, ?_, ?_⟩
    · rw [isSupported, hclass]
      rfl
    · rw [describe, hclass]

end Catalogue

/-! ### A class that stays unknown -/

/-- Whether the built-in packet types of a plan have a wire key, but not the name of a class. -/
def Plan.HasKeyAlone (p : Plan) (k : WireKey) (cls : ClassName) : Prop :=
  let d := p.enrolled.1.set.get k.channel
  (d.byId? k.id).isSome ∧
    firstClaimant d.claims k.channel (PacketName.format k.channel cls.simple) = none ∧
      firstClaimant d.claims k.channel cls.simple = none

instance (p : Plan) (k : WireKey) (cls : ClassName) : Decidable (p.HasKeyAlone k cls) :=
  inferInstanceAs (Decidable (_ ∧ _ ∧ _))

namespace Catalogue

theorem foundByKeyAlone_of_hasKeyAlone {p : Plan} (hb : p.binder = .table .empty) {k : WireKey}
    {cls : ClassName} (h : p.HasKeyAlone k cls) : (p.buildLenient []).FoundByKeyAlone k cls := by
  have hbuilds : p.Builds (p.buildLenient []) := .inr ⟨[], rfl⟩
  obtain ⟨hid, hcanonical, hbare⟩ := h
  refine ⟨?_, ?_, ?_⟩
  · rw [hbuilds.binder, hb]
    rfl
  · rw [p.resolveName_buildLenient, hcanonical, hbare, Option.or_none]
  · rw [p.resolveCurrent_buildLenient]
    exact hid

/-- The wire key of the built-in packet type `PONG`. -/
def pongKey : WireKey := ⟨⟨.status, .serverToClient⟩, 1⟩

/-- A class whose name no built-in packet type has. -/
def mysteryClass : ClassName := ⟨"net.example.Mystery"⟩

theorem hasKeyAlone_pongKey : standardPlan.HasKeyAlone pongKey mysteryClass := by decide +kernel

/-- A class that is met with the wire key of a built-in packet type is unknown still. -/
theorem class_resolution_binds_iff_mystery : (standardPlan.buildLenient []).Learning ∧
    ∃ x c', (standardPlan.buildLenient []).fromClassOrIdAs .inline pongKey mysteryClass =
        (x, c') ∧
      x ∈ c'.enumerate true ∧
      c'.fromClass mysteryClass = .error (.notAPacketClass mysteryClass) := by
  have hlearning : (standardPlan.buildLenient []).Learning := .built rfl (.inr ⟨[], rfl⟩)
  have hkey := foundByKeyAlone_of_hasKeyAlone rfl hasKeyAlone_pongKey
  generalize standardPlan.buildLenient [] = c at hlearning hkey ⊢
  obtain ⟨hlisted, _⟩ := class_resolution_binds_iff hlearning .inline pongKey mysteryClass
  generalize c.fromClassOrIdAs .inline pongKey mysteryClass = p at hlisted ⊢
  obtain ⟨x, c'⟩ := p
  exact ⟨hlearning, x, c', rfl, hlisted hkey⟩

end Catalogue

end WireCatalog
