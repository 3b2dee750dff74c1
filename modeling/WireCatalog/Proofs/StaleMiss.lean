import WireCatalog.Proofs.Exclusive
import Mathlib.Logic.Function.Basic

/-! # Calls that race

A call of `fromIdAs` looks a packet type up and, if it finds none, registers one (`fromIdAs_eq`).
Other calls can take their turns in between, so the registration may come to a catalogue that is not
the one in which the look-up missed. A `Race` is any number of calls, each in one of three states, and
a `Turn` is one part of one of them.

`Tracks` is what the turns keep true. A call that missed finds the name of its class free or taken by
what another call registered since. So a call returns a packet type that is in the catalogue, or its
class name belongs to a packet type of another call with another coordinate
(`returned_detached_iff`). -/

namespace WireCatalog

namespace Catalogue

/-! ### The two parts of a call -/

/-- The declaration of what a call registers. -/
def wanted (c : Catalogue) (a : Call) : Declaration := c.discovered a.key a.cls

theorem aliases_wanted (c : Catalogue) (a : Call) : (c.wanted a).aliases = [a.canonical] :=
  c.aliases_discovered a.key a.cls

theorem channel_wanted (c : Catalogue) (a : Call) : (c.wanted a).channel = a.channel := rfl

/-- What a call wants depends on the peer alone. -/
theorem wanted_congr {c c' : Catalogue} (h : c'.peer = c.peer) (a : Call) :
    c'.wanted a = c.wanted a := by
  rw [wanted, wanted, discovered, discovered, h]

/-- Looks the wire key up, and then the simple name of the class. -/
def lookUp (c : Catalogue) (a : Call) : Option PacketType × Catalogue :=
  match c.resolveCurrent a.key with
  | some x => (some x, c)
  | none =>
    let c := c.log [.stage .miss a.key]
    match c.resolveName a.channel a.cls.simple with
    | some x => (some x, (c.log [.resolvedByClass a.key a.cls x.name]).remember a.cls x)
    | none => (none, c)

/-- Registers what was not found, and remembers the class unless the registration is refused. -/
def registerMissing (c : Catalogue) (fate : Fate) (a : Call) : PacketType × Catalogue :=
  match c.registerNow fate (c.wanted a) with
  | (.ok r, c') => (r.packetType, c'.remember a.cls r.packetType)
  | (.error e, c') => c'.detach (c.wanted a) e

variable (c : Catalogue) (fate : Fate) (a : Call)

/-- A call that nothing comes between is its two parts. -/
theorem fromIdAs_eq :
    c.fromIdAs fate a.key a.cls =
      match c.lookUp a with
      | (some x, c') => (x, c')
      | (none, c') => c'.registerMissing fate a := by
  unfold fromIdAs lookUp
  cases c.resolveCurrent a.key with
  | some x => rfl
  | none =>
      dsimp only
      have hchannel : a.channel = a.key.channel := rfl
      rw [hchannel]
      cases (c.log [.stage .miss a.key]).resolveName a.key.channel a.cls.simple with
      | some x => rfl
      | none => rfl

/-! ### Looking up -/

theorem fst_lookUp : (c.lookUp a).1 =
    (c.resolveCurrent a.key).or (c.resolveName a.channel a.cls.simple) := by
  have hlog : (c.log [.stage .miss a.key]).resolveName = c.resolveName := rfl
  unfold lookUp
  cases c.resolveCurrent a.key with
  | some x => rfl
  | none =>
      dsimp only
      rw [hlog, Option.none_or]
      cases c.resolveName a.channel a.cls.simple with
      | some x => rfl
      | none => rfl

/-- A look-up changes nothing but the journal and the known classes. -/
theorem snd_lookUp : ∃ es, (c.lookUp a).2.registry = c.registry.log es ∧
    (c.lookUp a).2.peer = c.peer := by
  unfold lookUp
  cases c.resolveCurrent a.key with
  | some x =>
      exact ⟨[], c.registry.log_nil.symm, rfl⟩
  | none =>
      dsimp only
      cases (c.log [.stage .miss a.key]).resolveName a.channel a.cls.simple with
      | some x => exact ⟨_, c.registry.log_log _ _, rfl⟩
      | none => exact ⟨[.stage .miss a.key], rfl, rfl⟩

variable {c a}

theorem mem_enumerate_of_lookUp (hc : c.snapshot.Coherent) {x : PacketType}
    (hx : (c.lookUp a).1 = some x) : x ∈ c.enumerate true := by
  rw [fst_lookUp, Option.or_eq_some_iff] at hx
  rcases hx with hx | ⟨_, hx⟩
  · exact DirectorySet.mem_enumerate.mpr ⟨_, hc.mem_of_byKey? hx⟩
  · exact DirectorySet.mem_enumerate.mpr ⟨_, hc.mem_of_byName? hx⟩

theorem lookUp_eq_none (hc : c.snapshot.Coherent)
    (hid : (c.directories.get a.channel).byId? a.key.id = none)
    (hcanonical : c.index.bound? a.channel a.canonical = none)
    (hbare : c.index.bound? a.channel a.cls.simple = none) : (c.lookUp a).1 = none := by
  rw [fst_lookUp, Option.or_eq_none_iff, resolveName, Index.byName?, Option.or_eq_none_iff]
  exact ⟨(hc.byKey? a.key).trans hid, hcanonical, hbare⟩

/-- After a miss the canonical name of the class is free. -/
theorem bound?_of_lookUp (hx : (c.lookUp a).1 = none) :
    c.index.bound? a.channel a.canonical = none := by
  rw [fst_lookUp, Option.or_eq_none_iff, resolveName, Index.byName?, Option.or_eq_none_iff] at hx
  exact hx.2.1

/-! ### Registering -/

/-- Whether the class name of a call belongs to something while nothing is there that the call
describes. -/
def Taken (c : Catalogue) (a : Call) : Prop :=
  (c.directories.get a.channel).equivalent? (c.wanted a) = none ∧
    (c.index.bound? a.channel a.canonical).isSome

/-- The registration of a call is refused exactly if its class name is taken. -/
theorem publish_wanted_error_iff (hc : c.snapshot.Coherent)
    (hfree : c.registry.NextNameFree a.channel) :
    (∃ e, (c.registry.publish (c.wanted a)).1 = .error e) ↔ c.Taken a := by
  have hbound : c.snapshot.index.byName? a.channel a.canonical =
      c.index.bound? a.channel a.canonical := by
    rw [Index.byName?, Call.canonical, PacketName.format_format, Option.or_self]
    rfl
  have hfree' : c.registry.NextNameFree (c.wanted a).channel := hfree
  rw [Registry.publish_error_iff hc hfree', aliases_wanted, channel_wanted, Taken]
  simp only [List.mem_singleton, exists_eq_left, ← hbound]
  rfl

/-- What a call does that registers: its packet type is there, and it is the only one that can be
new. -/
structure Registers (c : Catalogue) (a : Call) (x : PacketType) (c' : Catalogue) : Prop where
  mem : x ∈ (c'.directories.get a.channel).entries
  repeats : (c.wanted a).repeats x = true
  new : ∀ y ∈ c'.enumerate true, y ∈ c.enumerate true ∨
    y = (c.wanted a).bind ⟨c.registry.names c.registry.drawn, false, false⟩ c.registry.nextSerial
  names : c'.registry.names = c.registry.names
  drawn : c'.registry.drawn = c.registry.drawn + 1

/-- What a call does whose class name is taken: the packet type that it makes is in no catalogue. -/
structure Detaches (c : Catalogue) (a : Call) (x : PacketType) (c' : Catalogue) : Prop where
  wanted : x.toDeclaration = c.wanted a
  snapshot : c'.snapshot = c.snapshot

theorem registerMissing_cases (hc : c.snapshot.Coherent)
    (hfree : c.registry.NextNameFree a.channel) :
    let x := (c.registerMissing fate a).1
    let c' := (c.registerMissing fate a).2
    c.registry.Steps c'.registry ∧ c'.peer = c.peer ∧
      (c.Taken a ∧ c.Detaches a x c' ∨ ¬c.Taken a ∧ c.Registers a x c') := by
  obtain ⟨es, hnow⟩ := c.registerNow_eq fate (c.wanted a)
  have hsteps := c.registerNow_steps fate (c.wanted a)
  have hc' : (c.registry.log es).snapshot.Coherent := hc
  have hfree' : (c.registry.log es).NextNameFree (c.wanted a).channel := hfree
  have hfails := publish_wanted_error_iff (c := c.log es) (a := a) hc hfree
  have hresult : (c.registerNow fate (c.wanted a)).1 =
      ((c.registry.log es).publish (c.wanted a)).1 := by rw [hnow]; rfl
  have hregistry : (c.registerNow fate (c.wanted a)).2.registry =
      ((c.registry.log es).publish (c.wanted a)).2 := by rw [hnow]; rfl
  have hpeer : (c.registerNow fate (c.wanted a)).2.peer = c.peer := by rw [hnow]; rfl
  unfold registerMissing
  generalize c.registerNow fate (c.wanted a) = p at hsteps hresult hregistry hpeer ⊢
  obtain ⟨result, c'⟩ := p
  dsimp only at hsteps hresult hregistry hpeer ⊢
  cases result with
  | error e =>
      have htaken : c.Taken a := hfails.mp ⟨e, hresult.symm⟩
      have hsnap := Registry.snapshot_of_publish_error hresult.symm
      rw [← hregistry] at hsnap
      exact ⟨hsteps.trans (c'.detach_steps _ e), hpeer, .inl ⟨htaken, rfl, hsnap⟩⟩
  | ok r =>
      have htaken : ¬c.Taken a := by
        intro ht
        obtain ⟨e, he⟩ := hfails.mpr ht
        cases hresult.trans he
      refine ⟨hsteps, hpeer, .inr ⟨htaken, ?_⟩⟩
      obtain ⟨hnames, hdrawn, _⟩ := Registry.publish_of_nextNameFree hfree'
      have hequiv := Registry.equivalent?_of_publish hresult.symm
      have hnew : ∀ y ∈ ((c.registry.log es).publish (c.wanted a)).2.snapshot.directories.enumerate
          true, _ := fun y hy => Registry.mem_enumerate_publish hfree' hy
      rw [← hregistry] at hnames hdrawn hnew hequiv
      have hmem := Directory.mem_of_equivalent? hequiv
      rw [Directory.equivalent?_eq_find?] at hequiv
      exact ⟨hmem, List.find?_some hequiv, hnew, hnames, hdrawn⟩

end Catalogue

/-! ### Races -/

/-- How far a call has come. -/
inductive CallState
  /-- It has looked nothing up yet. -/
  | waiting
  /-- It has found nothing and has not registered yet. -/
  | missed
  | returned (x : PacketType)
  deriving DecidableEq, Repr

/-- How far a call has come after its look-up. -/
def CallState.ofAnswer : Option PacketType → CallState
  | some x => returned x
  | none => missed

/-- A catalogue and the calls on it, each as far as it has come. -/
structure Race (ι : Type) where
  catalogue : Catalogue
  state : ι → CallState

namespace Race

variable {ι : Type}

def start (c : Catalogue) : Race ι := ⟨c, fun _ => .waiting⟩

section

variable [DecidableEq ι]

/-- One call looks up. -/
def look (calls : ι → Call) (i : ι) (r : Race ι) : Race ι where
  catalogue := (r.catalogue.lookUp (calls i)).2
  state := Function.update r.state i (.ofAnswer (r.catalogue.lookUp (calls i)).1)

/-- One call registers, by a task of the given fate. -/
def register (calls : ι → Call) (i : ι) (fate : Fate) (r : Race ι) : Race ι where
  catalogue := (r.catalogue.registerMissing fate (calls i)).2
  state := Function.update r.state i (.returned (r.catalogue.registerMissing fate (calls i)).1)

/-- One call goes on by one part. It registers only when the next provisional name is free. -/
inductive Turn (calls : ι → Call) (r : Race ι) : Race ι → Prop
  | look (i : ι) (waiting : r.state i = .waiting) : Turn calls r (r.look calls i)
  | register (i : ι) (fate : Fate) (missed : r.state i = .missed)
      (free : r.catalogue.registry.NextNameFree (calls i).channel) :
      Turn calls r (r.register calls i fate)

/-- Any number of turns. -/
abbrev Run (calls : ι → Call) : Race ι → Race ι → Prop := Relation.ReflTransGen (Turn calls)

end

/-- The canonical name of the class of a call leads to what another call has registered since the
start, and that has another coordinate. -/
def Outrun (calls : ι → Call) (c : Catalogue) (r : Race ι) (i : ι) : Prop :=
  ∃ j y, r.catalogue.index.bound? (calls i).channel (calls i).canonical = some y ∧
    y ∉ c.enumerate true ∧ y.toDeclaration = c.wanted (calls j) ∧
    (c.wanted (calls j)).coordinate ≠ (c.wanted (calls i)).coordinate

/-- What the turns of a race that starts at a catalogue keep true. -/
structure Tracks (calls : ι → Call) (c : Catalogue) (r : Race ι) : Prop where
  steps : c.registry.Steps r.catalogue.registry
  peer : r.catalogue.peer = c.peer
  missed : ∀ i, r.state i = .missed → ∀ y,
    r.catalogue.index.bound? (calls i).channel (calls i).canonical = some y →
      y ∉ c.enumerate true ∧ ∃ j, y.toDeclaration = c.wanted (calls j)
  returned : ∀ i x, r.state i = .returned x →
    x ∈ r.catalogue.enumerate true ∨
      x.toDeclaration = c.wanted (calls i) ∧ Outrun calls c r i

variable {calls : ι → Call} {c : Catalogue} {r : Race ι}

theorem tracks_start (calls : ι → Call) (c : Catalogue) : Tracks calls c (start c) where
  steps := .refl
  peer := rfl
  missed _ h := by cases h
  returned _ _ h := by cases h

namespace Tracks

/-- Calls that do not go on keep what is known of them while packet types of calls are added. -/
theorem keep (ht : Tracks calls c r) (hc : r.catalogue.snapshot.Coherent) {c' : Catalogue}
    (hsteps : r.catalogue.registry.Steps c'.registry) (hpeer : c'.peer = r.catalogue.peer)
    (hnew : ∀ y ∈ c'.enumerate true, y ∈ r.catalogue.enumerate true ∨
      ∃ j, y.toDeclaration = c.wanted (calls j)) :
    Tracks calls c ⟨c', r.state⟩ := by
  have hg := Registry.grows_steps hsteps
  have hc' := Registry.coherent_steps hc hsteps
  refine ⟨ht.steps.trans hsteps, hpeer.trans ht.peer, ?_, ?_⟩
  · intro i hi y hy
    cases hold : r.catalogue.index.bound? (calls i).channel (calls i).canonical with
    | some z =>
        obtain rfl := Option.some.inj ((hc.bound?_of_grows hc' hg hold).symm.trans hy)
        exact ht.missed i hi z hold
    | none =>
        have hentry := (hc'.bound?_cases hy).1
        have hnotMem : y ∉ r.catalogue.enumerate true := by
          rw [← hc'.sound.channel_of_mem hentry] at hold hy
          exact fun hmem =>
            hc.notMem_of_bound? hc' hg hold hy (hc.sound.mem_enumerate_iff.mp hmem)
        refine ⟨fun hmem => hnotMem ((Registry.grows_steps ht.steps).mem_enumerate hmem), ?_⟩
        exact (hnew y (DirectorySet.mem_enumerate.mpr ⟨_, hentry⟩)).resolve_left hnotMem
  · intro i x hi
    rcases ht.returned i x hi with hmem | ⟨hx, j, y, hy, hother⟩
    · exact .inl (hg.mem_enumerate hmem)
    · exact .inr ⟨hx, j, y, hc.bound?_of_grows hc' hg hy, hother⟩

/-- One call goes on to a state of which what is tracked is known. -/
theorem update [DecidableEq ι] (ht : Tracks calls c r) {i : ι} {st : CallState}
    (hmissed : st = .missed → ∀ y,
      r.catalogue.index.bound? (calls i).channel (calls i).canonical = some y →
        y ∉ c.enumerate true ∧ ∃ j, y.toDeclaration = c.wanted (calls j))
    (hreturned : ∀ x, st = .returned x → x ∈ r.catalogue.enumerate true ∨
      x.toDeclaration = c.wanted (calls i) ∧ Outrun calls c r i) :
    Tracks calls c ⟨r.catalogue, Function.update r.state i st⟩ := by
  refine ⟨ht.steps, ht.peer, ?_, ?_⟩
  · intro j hj
    dsimp only at hj
    by_cases hij : j = i
    · subst hij
      rw [Function.update_self] at hj
      exact hmissed hj
    · rw [Function.update_of_ne hij] at hj
      exact ht.missed j hj
  · intro j x hj
    dsimp only at hj
    by_cases hij : j = i
    · subst hij
      rw [Function.update_self] at hj
      exact hreturned x hj
    · rw [Function.update_of_ne hij] at hj
      exact ht.returned j x hj

theorem wanted (ht : Tracks calls c r) (a : Call) : r.catalogue.wanted a = c.wanted a :=
  Catalogue.wanted_congr ht.peer a

variable [DecidableEq ι]

theorem look (ht : Tracks calls c r) (hc : r.catalogue.snapshot.Coherent) (i : ι) :
    Tracks calls c (r.look calls i) := by
  obtain ⟨es, hlog, hpeer⟩ := r.catalogue.snd_lookUp (calls i)
  have hsteps : r.catalogue.registry.Steps (r.catalogue.lookUp (calls i)).2.registry := by
    rw [hlog]
    exact (Registry.Step.log es).steps
  have hindex : (r.catalogue.lookUp (calls i)).2.index = r.catalogue.index :=
    congrArg (·.snapshot.index) hlog
  have henumerate : (r.catalogue.lookUp (calls i)).2.enumerate true = r.catalogue.enumerate true :=
    congrArg (·.snapshot.directories.enumerate true) hlog
  have hkept := ht.keep hc hsteps hpeer fun y hy => .inl (henumerate ▸ hy)
  unfold Race.look
  cases hanswer : (r.catalogue.lookUp (calls i)).1 with
  | some x =>
      refine hkept.update (fun hy => ?_) fun y hy => ?_
      · cases hy
      · cases hy
        left
        rw [henumerate]
        exact Catalogue.mem_enumerate_of_lookUp hc hanswer
  | none =>
      refine hkept.update (fun _ y hy => ?_) fun y hy => ?_
      · rw [hindex, Catalogue.bound?_of_lookUp hanswer] at hy
        cases hy
      · cases hy

theorem register (ht : Tracks calls c r) (hc : r.catalogue.snapshot.Coherent) {i : ι}
    (hmissed : r.state i = .missed) (fate : Fate)
    (hfree : r.catalogue.registry.NextNameFree (calls i).channel) :
    Tracks calls c (r.register calls i fate) := by
  obtain ⟨hsteps, hpeer, ⟨⟨hq, hsome⟩, hdetaches⟩ | ⟨_, hregisters⟩⟩ :=
    Catalogue.registerMissing_cases fate hc hfree
  · obtain ⟨y, hy⟩ := Option.isSome_iff_exists.mp hsome
    have hindex : (r.catalogue.registerMissing fate (calls i)).2.index = r.catalogue.index :=
      congrArg Snapshot.index hdetaches.snapshot
    have henumerate : (r.catalogue.registerMissing fate (calls i)).2.enumerate true =
        r.catalogue.enumerate true :=
      congrArg (·.directories.enumerate true) hdetaches.snapshot
    have hkept := ht.keep hc hsteps hpeer fun y hy => .inl (henumerate ▸ hy)
    refine hkept.update nofun fun x hx => ?_
    cases hx
    obtain ⟨hnotMem, j, hj⟩ := ht.missed i hmissed y hy
    refine .inr ⟨hdetaches.wanted.trans (ht.wanted _), j, y, hindex ▸ hy, hnotMem, hj, ?_⟩
    intro hcoord
    -- Of the same coordinate, the owner of the name would have been found as present.
    rw [ht.wanted] at hq
    have hrepeats := Directory.repeats_eq_false_of_equivalent? hq y (hc.bound?_cases hy).1
    rw [← Declaration.repeats_eq_of_coordinate hcoord, ← hj, y.repeats_self] at hrepeats
    cases hrepeats
  · have hkept := ht.keep hc hsteps hpeer fun y hy =>
      (hregisters.new y hy).imp_right fun he => ⟨i, by rw [he, ← ht.wanted]; rfl⟩
    refine hkept.update nofun fun x hx => ?_
    cases hx
    exact .inl (DirectorySet.mem_enumerate.mpr ⟨_, hregisters.mem⟩)

theorem run (hc : c.snapshot.Coherent) (hrun : Run calls (start c) r) : Tracks calls c r := by
  induction hrun with
  | refl => exact tracks_start calls c
  | tail _ hturn ht =>
      have hc' := Registry.coherent_steps hc ht.steps
      cases hturn with
      | look i waiting => exact ht.look hc' i
      | register i fate missed free => exact ht.register hc' missed fate free

end Tracks

end Race

namespace Catalogue

/-! ### Two calls of one class -/

theorem equivalent?_of_lookUp {c : Catalogue} {a : Call} (hc : c.snapshot.Coherent)
    (hk : a.key.isKnown = true) (hmiss : (c.lookUp a).1 = none) :
    (c.directories.get a.channel).equivalent? (c.wanted a) = none := by
  have hkey : (c.wanted a).key = a.key := rfl
  rw [fst_lookUp, Option.or_eq_none_iff, resolveCurrent, index, hc.byKey?] at hmiss
  rw [Directory.equivalent?, hkey, if_pos hk]
  exact hmiss.1

namespace Registers

variable {c c' : Catalogue} {a b : Call} {x : PacketType}

/-- A packet type that nothing described before is new. -/
theorem eq_bind (h : c.Registers a x c') (hc : c.snapshot.Coherent) (hc' : c'.snapshot.Coherent)
    (ha : (c.directories.get a.channel).equivalent? (c.wanted a) = none) :
    x = (c.wanted a).bind ⟨c.registry.names c.registry.drawn, false, false⟩
      c.registry.nextSerial := by
  refine (h.new x (DirectorySet.mem_enumerate.mpr ⟨_, h.mem⟩)).resolve_left fun hold => ?_
  have hentry := hc.sound.mem_enumerate_iff.mp hold
  rw [hc'.sound.channel_of_mem h.mem] at hentry
  have hrepeats := Directory.repeats_eq_false_of_equivalent? ha x hentry
  rw [h.repeats] at hrepeats
  cases hrepeats

/-- Once a call has registered, the name of its class is taken for a call with another id. -/
theorem taken (h : c.Registers a x c') (hc : c.snapshot.Coherent) (hc' : c'.snapshot.Coherent)
    (hpeer : c'.peer = c.peer)
    (ha : (c.directories.get a.channel).equivalent? (c.wanted a) = none)
    (hb : (c.directories.get b.channel).equivalent? (c.wanted b) = none)
    (hchannel : b.channel = a.channel) (hcanonical : b.canonical = a.canonical)
    (hk : b.key.isKnown = true) (hid : a.key.id ≠ b.key.id) : c'.Taken b := by
  have hwanted : c'.wanted b = c.wanted b := wanted_congr hpeer b
  have hkey : (c.wanted b).key = b.key := rfl
  have hdecl : x.toDeclaration = c.wanted a := by
    rw [h.eq_bind hc hc' ha]
    rfl
  constructor
  · rw [Directory.equivalent?_eq_find?, hwanted, List.find?_eq_none]
    intro y hy
    rw [Bool.not_eq_true]
    rcases h.new y (DirectorySet.mem_enumerate.mpr ⟨_, hy⟩) with hold | rfl
    · have hentry := hc.sound.mem_enumerate_iff.mp hold
      rw [hc'.sound.channel_of_mem hy] at hentry
      exact Directory.repeats_eq_false_of_equivalent? hb y hentry
    · rw [Declaration.repeats, hkey, if_pos hk, beq_eq_false_iff_ne]
      exact hid
  · have hx : x.channel = a.channel := hc'.sound.channel_of_mem h.mem
    have hmem := h.mem
    rw [← hx] at hmem
    have halias : a.canonical ∈ x.aliases := by
      rw [hdecl, aliases_wanted]
      exact List.mem_singleton_self _
    rw [hchannel, hcanonical, ← hx]
    exact hc'.isSome_bound? hmem (.inr halias)

theorem nextNameFree (h : c.Registers a x c') (hc : c.snapshot.Coherent)
    (hc' : c'.snapshot.Coherent) (hg : c.snapshot.Grows c'.snapshot) {ch : Channel}
    (hfree : (c.directories.get ch).byName? (c.registry.names (c.registry.drawn + 1)) = none)
    (hne : c.registry.names (c.registry.drawn + 1) ≠ c.registry.names c.registry.drawn) :
    c'.registry.NextNameFree ch := by
  rw [Registry.NextNameFree, h.names, h.drawn]
  refine hc.byName?_eq_none_of_grows hc' hg hfree fun y hy => (h.new y hy).imp_right ?_
  rintro rfl
  exact hne.symm

end Registers

theorem Detaches.notMem_enumerate {c c' : Catalogue} {a : Call} {x : PacketType}
    (h : c.Detaches a x c') (hc : c.snapshot.Coherent) (ht : c.Taken a) :
    x ∉ c'.enumerate true := by
  rw [enumerate, directories, h.snapshot]
  intro hmem
  have hentry := hc.sound.mem_enumerate_iff.mp hmem
  have hchannel : x.channel = a.channel := by
    rw [h.wanted, channel_wanted]
  rw [hchannel] at hentry
  have hrepeats := Directory.repeats_eq_false_of_equivalent? ht.1 x hentry
  rw [← h.wanted, x.repeats_self] at hrepeats
  cases hrepeats

end Catalogue

namespace Race

variable {ι : Type} [DecidableEq ι] {calls : ι → Call} {c : Catalogue} {i j : ι}

/-- Two calls can both miss before one of them registers. -/
theorem exists_run_missed (hij : i ≠ j) (hi : (c.lookUp (calls i)).1 = none)
    (hj : (c.lookUp (calls j)).1 = none) :
    ∃ r es, Run calls (start c) r ∧ r.catalogue.registry = c.registry.log es ∧
      r.catalogue.peer = c.peer ∧ r.state i = .missed ∧ r.state j = .missed := by
  obtain ⟨es, hlog, hpeer⟩ := c.snd_lookUp (calls i)
  obtain ⟨es', hlog', hpeer'⟩ := (c.lookUp (calls i)).2.snd_lookUp (calls j)
  have hindex : (c.lookUp (calls i)).2.index = c.index := congrArg (·.snapshot.index) hlog
  have hj' : ((c.lookUp (calls i)).2.lookUp (calls j)).1 = none := by
    rw [Catalogue.fst_lookUp] at hj ⊢
    rw [Catalogue.resolveCurrent, Catalogue.resolveName, hindex]
    exact hj
  have hfirst : Turn calls (start c) ((start c).look calls i) := .look i rfl
  have hwaiting : ((start c).look calls i).state j = .waiting := Function.update_of_ne hij.symm _ _
  refine ⟨((start c).look calls i).look calls j, es ++ es',
    (Relation.ReflTransGen.single hfirst).tail (.look j hwaiting), ?_, ?_, ?_, ?_⟩
  · exact hlog'.trans ((congrArg (·.log es') hlog).trans (Registry.log_log _ _ _))
  · exact hpeer'.trans hpeer
  · refine (Function.update_of_ne hij _ _).trans ((Function.update_self _ _ _).trans ?_)
    exact congrArg CallState.ofAnswer hi
  · exact (Function.update_self _ _ _).trans (congrArg CallState.ofAnswer hj')

/-- Of two calls with different ids and one class name that have missed and find it free, the second
to register returns a packet type that is not in the catalogue. -/
theorem exists_run_detached {r : Race ι} (hc : r.catalogue.snapshot.Coherent) (hij : i ≠ j)
    (hi : r.state i = .missed) (hj : r.state j = .missed)
    (hqi : (r.catalogue.directories.get (calls i).channel).equivalent?
      (r.catalogue.wanted (calls i)) = none)
    (hqj : (r.catalogue.directories.get (calls j).channel).equivalent?
      (r.catalogue.wanted (calls j)) = none)
    (hbound : r.catalogue.index.bound? (calls i).channel (calls i).canonical = none)
    (hknown : (calls j).key.isKnown = true) (hid : (calls i).key.id ≠ (calls j).key.id)
    (hchannel : (calls j).channel = (calls i).channel)
    (hcanonical : (calls j).canonical = (calls i).canonical)
    (hfree : r.catalogue.registry.NextNameFree (calls i).channel)
    (hnext : (r.catalogue.directories.get (calls j).channel).byName?
      (r.catalogue.registry.names (r.catalogue.registry.drawn + 1)) = none)
    (hne : r.catalogue.registry.names (r.catalogue.registry.drawn + 1) ≠
      r.catalogue.registry.names r.catalogue.registry.drawn) :
    ∃ r' x, Run calls r r' ∧ r'.state j = .returned x ∧ x ∉ r'.catalogue.enumerate true := by
  have hfirst : Turn calls r (r.register calls i .inline) := .register i .inline hi hfree
  obtain ⟨hsteps, hpeer, ⟨⟨_, hsome⟩, _⟩ | ⟨_, hregisters⟩⟩ :=
    Catalogue.registerMissing_cases .inline hc hfree
  · rw [hbound] at hsome
    cases hsome
  have hc' := Registry.coherent_steps hc hsteps
  have htaken := hregisters.taken hc hc' hpeer hqi hqj hchannel hcanonical hknown hid
  have hfree' := hregisters.nextNameFree hc hc' (Registry.grows_steps hsteps) hnext hne
  have hj' : (r.register calls i .inline).state j = .missed :=
    (Function.update_of_ne hij.symm _ _).trans hj
  have hsecond : Turn calls (r.register calls i .inline) _ := .register j .inline hj' hfree'
  obtain ⟨_, _, ⟨_, hdetaches⟩ | ⟨hfree'', _⟩⟩ :=
    Catalogue.registerMissing_cases .inline hc' hfree'
  · refine ⟨_, _, (Relation.ReflTransGen.single hfirst).tail hsecond,
      Function.update_self _ _ _, ?_⟩
    exact hdetaches.notMem_enumerate hc' htaken
  · exact absurd htaken hfree''

end Race

/-- Two calls of one class that miss at first can race so that one of them returns a packet type that
is not in the catalogue. -/
theorem Plan.Misses.exists_run_detached {p : Plan} {ι : Type} [DecidableEq ι] (calls : ι → Call)
    {i j : ι} (h : p.Misses (calls i) (calls j)) (hki : (calls i).key.isKnown = true)
    (hkj : (calls j).key.isKnown = true) (hid : (calls i).key.id ≠ (calls j).key.id)
    (hchannel : (calls j).channel = (calls i).channel) (hcls : (calls j).cls = (calls i).cls) :
    ∃ r x, Race.Run calls (Race.start (p.buildLenient [])) r ∧ r.state j = .returned x ∧
      x ∉ r.catalogue.enumerate true := by
  have hc := p.coherent_buildLenient []
  have hbound := p.bound?_buildLenient []
  obtain ⟨hdirs, hnames, hdrawn⟩ := p.buildLenient_start []
  generalize p.buildLenient [] = c at hc hbound hdirs hnames hdrawn ⊢
  obtain ⟨⟨hi, hj⟩, ⟨hcanonical, hbare⟩, hfree, hnext, hne⟩ := h
  rw [← hdirs] at hi hj hfree hnext
  rw [← hbound] at hcanonical hbare
  have hcanonical' : (calls j).canonical = (calls i).canonical := by
    rw [Call.canonical, Call.canonical, hchannel, hcls]
  have hmissi : (c.lookUp (calls i)).1 = none := Catalogue.lookUp_eq_none hc hi hcanonical hbare
  have hmissj : (c.lookUp (calls j)).1 = none := by
    refine Catalogue.lookUp_eq_none hc ?_ ?_ ?_
    · rw [hchannel]
      exact hj
    · rw [hchannel, hcanonical']
      exact hcanonical
    · rw [hchannel, hcls]
      exact hbare
  have hqi := Catalogue.equivalent?_of_lookUp hc hki hmissi
  have hqj := Catalogue.equivalent?_of_lookUp hc hkj hmissj
  have hij : i ≠ j := by
    rintro rfl
    exact hid rfl
  obtain ⟨r, es, hrun, hlog, hpeer, hri, hrj⟩ :=
    Race.exists_run_missed hij hmissi hmissj
  have hsnapshot : r.catalogue.snapshot = c.snapshot := congrArg (·.snapshot) hlog
  have hdirs' : r.catalogue.directories = c.directories := congrArg (·.directories) hsnapshot
  have hindex : r.catalogue.index = c.index := congrArg (·.index) hsnapshot
  have hnames' : r.catalogue.registry.names = p.names := (congrArg (·.names) hlog).trans hnames
  have hdrawn' : r.catalogue.registry.drawn = 0 := (congrArg (·.drawn) hlog).trans hdrawn
  have hwanted := Catalogue.wanted_congr hpeer
  rw [← hdirs', ← hwanted] at hqi hqj
  rw [← hdirs'] at hfree hnext
  rw [← hindex] at hcanonical
  rw [← hsnapshot] at hc
  obtain ⟨r', x, hrun', hx, hdetached⟩ := Race.exists_run_detached hc hij hri hrj hqi hqj hcanonical
    hkj hid hchannel hcanonical' (by rw [Registry.NextNameFree, hnames', hdrawn']; exact hfree)
    (by rw [hnames', hdrawn', hchannel]; exact hnext) (by rw [hnames', hdrawn']; exact hne)
  exact ⟨r', x, hrun.trans hrun', hx, hdetached⟩

namespace Catalogue

/-! ### Which calls return a packet type that is not in the catalogue -/

/-- In a race of calls on a reachable catalogue whose provisional names are never taken already, a
call returns a packet type that is not in the catalogue exactly if the name of its class leads to a
packet type that a call of another coordinate has registered since the start. -/
theorem returned_detached_iff {ι : Type} [DecidableEq ι] {calls : ι → Call} {c : Catalogue}
    (h : c.Reachable) {r : Race ι} (hrun : Race.Run calls (Race.start c) r) {i : ι} {x : PacketType}
    (hx : r.state i = .returned x) :
    x ∉ r.catalogue.enumerate true ↔
      x.toDeclaration = c.wanted (calls i) ∧
      ∃ j y, r.catalogue.resolveName (calls i).channel (calls i).cls.simple = some y ∧
        y ∉ c.enumerate true ∧ y.toDeclaration = c.wanted (calls j) ∧
        (c.wanted (calls j)).coordinate ≠ (c.wanted (calls i)).coordinate := by
  have ht := Race.Tracks.run h.coherent hrun
  have hc := Registry.coherent_steps h.coherent ht.steps
  have he := Registry.exclusive_steps h.coherent h.exclusive ht.steps
  constructor
  · intro hdetached
    rcases ht.returned i x hx with hmem | ⟨hdecl, j, y, hy, hother⟩
    · exact absurd hmem hdetached
    · refine ⟨hdecl, j, y, ?_, hother⟩
      have hy' : r.catalogue.index.bound? (calls i).channel
          (PacketName.format (calls i).channel (calls i).cls.simple) = some y := hy
      rw [resolveName, Index.byName?, hy', Option.some_or]
  · rintro ⟨hdecl, j, y, hy, _, hj, hcoord⟩ hmem
    -- If `x` were in the catalogue, its own name would lead to it.
    have hchannel : x.channel = (calls i).channel := by
      rw [hdecl, channel_wanted]
    have hcanonical : PacketName.format x.channel (calls i).cls.simple ∈ x.aliases := by
      rw [hdecl, aliases_wanted, channel_wanted]
      exact List.mem_singleton_self _
    have hown := hc.byName?_of_format_mem he hmem hcanonical
    rw [hchannel] at hown
    obtain rfl := Option.some.inj (hown.symm.trans hy)
    rw [← hj, hdecl] at hcoord
    exact hcoord rfl

/-- Of two calls that carry one class under ids not in use, one may return a packet type that is not
in the catalogue: its class name leads to that of the other one. -/
theorem returned_detached_iff_mysteries : (countingPlan.buildLenient []).Reachable ∧
    ∃ r x, Race.Run mysteries (Race.start (countingPlan.buildLenient [])) r ∧
      r.state true = .returned x ∧ x ∉ r.catalogue.enumerate true ∧
      ∃ y, r.catalogue.resolveName ⟨.status, .serverToClient⟩ (mysteries true).cls.simple = some y ∧
        y ≠ x := by
  have hreachable : (countingPlan.buildLenient []).Reachable := .builtLenient _ _
  obtain ⟨r, x, hrun, hx, hdetached⟩ := misses_mysteries.exists_run_detached mysteries
    rfl rfl (by decide) rfl rfl
  obtain ⟨hdecl, j, y, hy, _, hj, hcoord⟩ :=
    (returned_detached_iff hreachable hrun hx).mp hdetached
  refine ⟨hreachable, r, x, hrun, hx, hdetached, y, hy, ?_⟩
  rintro rfl
  rw [← hj, hdecl] at hcoord
  exact hcoord rfl

end Catalogue

end WireCatalog
