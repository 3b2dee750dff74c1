import WireCatalog.Catalogue.Plan
import WireCatalog.Proofs.Coherence
import WireCatalog.Proofs.Enrolment
import WireCatalog.Proofs.Requests
import Mathlib.Logic.Relation

/-! # Reachable catalogues

A catalogue is `Reachable` if it was built from a plan and then changed by operations, each of them
a task of any fate. Whatever an operation does to the registry is a sequence of registry steps
(`performAs_steps`), of which there are four (`Registry.Step`), so what each of these keeps holds of
every reachable catalogue: directories and index agree (`Reachable.coherent`).

At the end are the catalogues of single cases, and the calls for what they do not have. -/

namespace WireCatalog

namespace Registry

/-- One step of a registry. -/
inductive Step (r : Registry) : Registry → Prop
  | log (es : List Event) : Step r (r.log es)
  | publish (decl : Declaration) : Step r (r.publish decl).2
  | rebuild : Step r r.rebuild.2
  | detach (decl : Declaration) : Step r (r.detach decl).2

/-- Any number of steps of a registry. -/
abbrev Steps : Registry → Registry → Prop := Relation.ReflTransGen Step

variable {r r' : Registry}

theorem Step.steps (h : r.Step r') : r.Steps r' := .single h

theorem coherent_step (h : r.snapshot.Coherent) (hs : r.Step r') : r'.snapshot.Coherent := by
  cases hs with
  | log es => exact h
  | publish decl => exact coherent_publish h decl
  | rebuild =>
      obtain ⟨_, _, _, hc, _⟩ := rebuild_ok h
      exact hc
  | detach decl => exact h

theorem coherent_steps (h : r.snapshot.Coherent) (hs : r.Steps r') : r'.snapshot.Coherent := by
  induction hs with
  | refl => exact h
  | tail _ hs ih => exact coherent_step ih hs

end Registry

namespace Catalogue

/-- A change of a catalogue. -/
inductive Operation
  | register (decl : Declaration)
  | fromId (k : WireKey) (cls : ClassName)
  | fromClassOrId (k : WireKey) (cls : ClassName)
  | fromLegacy (id : Int) (d : Direction)
  | rebuild

/-- The catalogue after an operation whose task has the given fate. -/
def performAs (c : Catalogue) (fate : Fate) : Operation → Catalogue
  | .register decl => (c.registerAs fate decl).2
  | .fromId k cls => (c.fromIdAs fate k cls).2
  | .fromClassOrId k cls => (c.fromClassOrIdAs fate k cls).2
  | .fromLegacy id d => (c.fromLegacyAs fate id d).2
  | .rebuild => (c.rebuildAs fate).2

/-- The operation that makes a request and drops the answer. -/
def Request.operation : Request → Operation
  | .fromId k cls => .fromId k cls
  | .fromClassOrId k cls => .fromClassOrId k cls
  | .fromLegacy id d => .fromLegacy id d

/-! ### Operations as steps of the registry -/

variable (c : Catalogue) (fate : Fate)

theorem log_steps (es : List Event) : c.registry.Steps (c.log es).registry :=
  (Registry.Step.log es).steps

theorem publish_steps (decl : Declaration) : c.registry.Steps (c.publish decl).2.registry :=
  (Registry.Step.publish decl).steps

theorem registerAs_steps (decl : Declaration) :
    c.registry.Steps (c.registerAs fate decl).2.registry := by
  cases fate with
  | inline => exact c.publish_steps decl
  | queued => exact c.publish_steps decl
  | rejected => exact .refl
  | dropped => exact .refl

theorem registerNow_steps (decl : Declaration) :
    c.registry.Steps (c.registerNow fate decl).2.registry := by
  obtain ⟨es, hnow⟩ := c.registerNow_eq fate decl
  rw [hnow]
  exact (c.log_steps es).trans (publish_steps _ decl)

theorem detach_steps (decl : Declaration) (e : CatalogueError) :
    c.registry.Steps (c.detach decl e).2.registry :=
  (c.log_steps _).tail (.detach decl)

theorem Answered.steps {c c' : Catalogue} {q : Request} {x : PacketType} (h : c.Answered q x c') :
    c.registry.Steps c'.registry := by
  cases h with
  | @found x c' es hit logged learns =>
      rw [logged]
      exact (Registry.Step.log es).steps
  | @registered r c' es miss published learns =>
      have hafter : ((c.registry.log es).publish (c.missing q)).2 = c'.registry := by rw [published]
      rw [← hafter]
      exact (Registry.Step.log es).steps.tail (.publish _)
  | @detached x c' e r es es' miss refused detach binder =>
      have hr : ((c.registry.log es).publish (c.missing q)).2 = r := by rw [refused]
      have hafter : ((r.log es').detach (c.missing q)).2 = c'.registry := by rw [detach]
      rw [← hafter, ← hr]
      exact (((Registry.Step.log es).steps.tail (.publish _)).tail (.log es')).tail (.detach _)

theorem rebuildAs_of_runs {fate : Fate} (hf : fate.runs = true) :
    (c.rebuildAs fate).1 = c.registry.rebuild.1 ∧
      (c.rebuildAs fate).2.registry = c.registry.rebuild.2 := by
  unfold rebuildAs
  rw [if_pos hf]
  exact ⟨rfl, rfl⟩

theorem rebuildAs_steps : c.registry.Steps (c.rebuildAs fate).2.registry := by
  by_cases hf : fate.runs = true
  · rw [(c.rebuildAs_of_runs hf).2]
    exact Registry.Step.rebuild.steps
  · rw [rebuildAs, if_neg hf]

theorem performAs_operation (q : Request) :
    c.performAs fate q.operation = (c.answerAs fate q).2 := by
  cases q <;> rfl

theorem performAs_steps (op : Operation) : c.registry.Steps (c.performAs fate op).registry := by
  cases op with
  | register decl => exact c.registerAs_steps fate decl
  | fromId k cls => exact (c.fromIdAs_answered fate k cls).steps
  | fromClassOrId k cls => exact (c.fromClassOrIdAs_answered fate k cls).steps
  | fromLegacy id d => exact (c.fromLegacyAs_answered fate id d).steps
  | rebuild => exact c.rebuildAs_steps fate

end Catalogue

/-! ### Built catalogues -/

namespace Plan

variable {p : Plan}

/-- What a build finishes, if it succeeds. -/
theorem finish_of_build {c : Catalogue} (h : p.build = .ok c) :
    ∃ ix, Index.build p.enrolled.1.set = .ok ix ∧ c = p.finish p.enrolled.1 ix p.buildReport := by
  unfold build at h
  generalize p.enrolled = q at h ⊢
  obtain ⟨progress, failure⟩ := q
  cases failure with
  | some e => cases h
  | none =>
      dsimp only at h ⊢
      cases hb : Index.build progress.set with
      | error e =>
          rw [hb] at h
          cases h
      | ok ix =>
          rw [hb] at h
          exact ⟨ix, rfl, (Except.ok.inj h).symm⟩

/-- The directories of a plan have an index, and it agrees with them. -/
theorem coherent_enrolled (p : Plan) :
    ∃ ix, Index.build p.enrolled.1.set = .ok ix ∧ Snapshot.Coherent ⟨p.enrolled.1.set, ix⟩ := by
  have h : p.enrolled.1.set.Settled := BuiltIn.settled_tableFor p.peer.version 0
  obtain ⟨ix, hb, hr⟩ := Index.build_records h.sound
  exact ⟨ix, hb, h.sound, h.unclaimed, _, _, hr, h.sound.merged⟩

theorem finish_of_buildLenient (p : Plan) (earlier : List Event) :
    ∃ ix es, Index.build p.enrolled.1.set = .ok ix ∧
      p.buildLenient earlier = p.finish p.enrolled.1 ix es := by
  obtain ⟨ix, hb, _⟩ := p.coherent_enrolled
  unfold buildLenient
  dsimp only
  rw [hb]
  exact ⟨ix, _, rfl, rfl⟩

theorem coherent_finish {ix : Index} (hb : Index.build p.enrolled.1.set = .ok ix)
    (es : List Event) : (p.finish p.enrolled.1 ix es).snapshot.Coherent := by
  obtain ⟨ix', hb', hc⟩ := p.coherent_enrolled
  rw [hb] at hb'
  obtain rfl := Except.ok.inj hb'
  exact hc

theorem coherent_build {c : Catalogue} (h : p.build = .ok c) : c.snapshot.Coherent := by
  obtain ⟨ix, hb, rfl⟩ := finish_of_build h
  exact coherent_finish hb _

theorem coherent_buildLenient (p : Plan) (earlier : List Event) :
    (p.buildLenient earlier).snapshot.Coherent := by
  obtain ⟨ix, es, hb, hc⟩ := p.finish_of_buildLenient earlier
  rw [hc]
  exact coherent_finish hb es

/-- A catalogue starts with the directories of its plan, and no name is drawn yet. -/
theorem buildLenient_start (p : Plan) (earlier : List Event) :
    (p.buildLenient earlier).directories = p.enrolled.1.set ∧
      (p.buildLenient earlier).registry.names = p.names ∧
      (p.buildLenient earlier).registry.drawn = 0 := by
  obtain ⟨ix, es, _, hc⟩ := p.finish_of_buildLenient earlier
  rw [hc]
  exact ⟨rfl, rfl, rfl⟩

/-- The names of a catalogue stand at first for what they stand for in the directories of its
plan. -/
theorem bound?_buildLenient (p : Plan) (earlier : List Event) (ch : Channel) (n : String) :
    (p.buildLenient earlier).index.bound? ch n =
      firstClaimant (p.enrolled.1.set.get ch).claims ch n := by
  have hc := p.coherent_buildLenient earlier
  obtain ⟨hdirs, _, _⟩ := p.buildLenient_start earlier
  rw [← hdirs]
  exact hc.bound?_eq ch n

theorem resolveName_buildLenient (p : Plan) (earlier : List Event) (ch : Channel) (n : String) :
    (p.buildLenient earlier).resolveName ch n =
      (firstClaimant (p.enrolled.1.set.get ch).claims ch (PacketName.format ch n)).or
        (firstClaimant (p.enrolled.1.set.get ch).claims ch n) := by
  rw [Catalogue.resolveName, Index.byName?, p.bound?_buildLenient, p.bound?_buildLenient]

/-- So do its wire keys. -/
theorem resolveCurrent_buildLenient (p : Plan) (earlier : List Event) (k : WireKey) :
    (p.buildLenient earlier).resolveCurrent k =
      (p.enrolled.1.set.get k.channel).byId? k.id := by
  rw [← (p.buildLenient_start earlier).1]
  exact (p.coherent_buildLenient earlier).byKey? k

/-- The built-in packet types are all registered, so every plan can be built. -/
theorem exists_build (p : Plan) : ∃ c, p.build = .ok c := by
  obtain ⟨ix, hb, _⟩ := p.coherent_enrolled
  have hall : p.enrolled.2 = none := BuiltIn.enrol_tableFor p.peer.version
  unfold build
  generalize p.enrolled = q at hb hall ⊢
  obtain ⟨progress, failure⟩ := q
  dsimp only at hb hall ⊢
  rw [hall]
  dsimp only
  rw [hb]
  exact ⟨_, rfl⟩

end Plan

namespace Catalogue

/-- A catalogue that was built and then changed by operations, whatever becomes of their tasks. -/
inductive Reachable : Catalogue → Prop
  | built {p : Plan} {c : Catalogue} (h : p.build = .ok c) : Reachable c
  | builtLenient (p : Plan) (earlier : List Event) : Reachable (p.buildLenient earlier)
  | step {c : Catalogue} (h : Reachable c) (fate : Fate) (op : Operation) :
      Reachable (c.performAs fate op)

theorem Reachable.coherent {c : Catalogue} (h : c.Reachable) : c.snapshot.Coherent := by
  induction h with
  | built h => exact Plan.coherent_build h
  | builtLenient p earlier => exact p.coherent_buildLenient earlier
  | step _ fate op ih => exact Registry.coherent_steps ih (performAs_steps _ fate op)

end Catalogue

/-! ### A catalogue after a registration -/

namespace Plan

/-- Whether the built-in packet types of a plan leave free what the registration of a declaration
needs: they do not have it yet, and the first provisional name and the aliases are no names of
theirs. -/
def Admits (p : Plan) (decl : Declaration) : Prop :=
  let d := p.enrolled.1.set.get decl.channel
  d.equivalent? decl = none ∧ d.byName? (p.names 0) = none ∧
    ∀ n ∈ decl.aliases, firstClaimant d.claims decl.channel n = none ∧
      firstClaimant d.claims decl.channel (PacketName.format decl.channel n) = none

instance (p : Plan) (decl : Declaration) : Decidable (p.Admits decl) :=
  inferInstanceAs (Decidable (_ ∧ _ ∧ _))

namespace Admits

variable {p : Plan} {decl : Declaration}

theorem resolveName_eq_none (h : p.Admits decl) {n : String} (hn : n ∈ decl.aliases) :
    (p.buildLenient []).resolveName decl.channel n = none := by
  obtain ⟨hbare, hcanonical⟩ := h.2.2 n hn
  rw [p.resolveName_buildLenient, hbare, hcanonical, Option.or_none]

theorem nextNameFree (h : p.Admits decl) :
    (p.buildLenient []).registry.NextNameFree decl.channel := by
  obtain ⟨hdirs, hnames, hdrawn⟩ := p.buildLenient_start []
  have hfirst := h.2.1
  rw [← hdirs] at hfirst
  rw [Registry.NextNameFree, hnames, hdrawn]
  exact hfirst

/-- What a plan admits is published if it is registered first. -/
theorem offer_published (h : p.Admits decl) :
    let r := (p.buildLenient []).registry
    ∃ x s', x.toDeclaration = decl ∧
      r.snapshot.offer decl (r.names r.drawn) r.nextSerial = .published x s' := by
  have hc := p.coherent_buildLenient []
  have hnew := h.1
  rw [← (p.buildLenient_start []).1] at hnew
  obtain ⟨s', ho⟩ := hc.offer_published (p.buildLenient []).registry.nextSerial hnew h.nextNameFree
    fun n hn => h.resolveName_eq_none hn
  exact ⟨_, s', rfl, ho⟩

end Admits

end Plan

namespace Catalogue

/-- The default settings, no executor, and `N-1` as the first provisional name. -/
def standardPlan : Plan :=
  ⟨.default, .table .empty, .ofSettings .default, .none, .listed ["N-1"] "N-"⟩

/-- The built-in packet types. -/
def standard : Catalogue := standardPlan.buildLenient []

/-- A client's packet type under a legacy id that the built-in packet types use for the server. -/
def gauge : Declaration := Declaration.legacy .clientToServer 107 "Gauge"

/-- The built-in packet types and one more. -/
def withGauge : Catalogue := standard.performAs .inline (.register gauge)

theorem reachable_standard : standard.Reachable := .builtLenient _ _

theorem reachable_withGauge : withGauge.Reachable :=
  reachable_standard.step .inline (.register gauge)

theorem admits_gauge : standardPlan.Admits gauge := by decide +kernel

end Catalogue

/-! ### Calls for what is missing -/

/-- A packet type that was met on the wire: its key and the class that carries it. -/
structure Call where
  key : WireKey
  cls : ClassName
  deriving DecidableEq, Repr

namespace Call

def channel (a : Call) : Channel := a.key.channel

/-- The canonical name of the class in the channel. -/
def canonical (a : Call) : String := PacketName.format a.channel a.cls.simple

end Call

/-- Whether the built-in packet types of a plan leave free what two calls of one class want, and the
first two provisional names. -/
def Plan.Misses (p : Plan) (a b : Call) : Prop :=
  let d := p.enrolled.1.set.get a.channel
  (d.byId? a.key.id = none ∧ d.byId? b.key.id = none) ∧
    (firstClaimant d.claims a.channel a.canonical = none ∧
      firstClaimant d.claims a.channel a.cls.simple = none) ∧
    d.byName? (p.names 0) = none ∧ d.byName? (p.names 1) = none ∧ p.names 1 ≠ p.names 0

instance (p : Plan) (a b : Call) : Decidable (p.Misses a b) :=
  inferInstanceAs (Decidable ((_ ∧ _) ∧ (_ ∧ _) ∧ _ ∧ _ ∧ _))

namespace Catalogue

/-- The default settings, and the provisional names `N-1`, `N-2` and so on. -/
def countingPlan : Plan := { standardPlan with names := .listed [] "N-" }

/-- Two calls for ids that are not in use, with one class. -/
def mysteries (late : Bool) : Call :=
  ⟨⟨⟨.status, .serverToClient⟩, if late then 113 else 112⟩, ⟨"net.example.Mystery"⟩⟩

theorem misses_mysteries : countingPlan.Misses (mysteries false) (mysteries true) := by
  decide +kernel

end Catalogue

end WireCatalog
