import WireCatalog.Proofs.AliasSearch
import WireCatalog.Proofs.AppendOnly
import WireCatalog.Proofs.ClassTable
import WireCatalog.Proofs.Decision
import WireCatalog.Proofs.Transparency

/-! # Known classes lead to published packet types

A class becomes known when a request is answered, and a request whose registration is refused is
answered by a detached packet type. What a request teaches is a packet type that is listed after it
(`Answered.knowsListed`), so every known class leads to a listed packet type. A detached one has the
number that was next, which no listed packet type has at any time (`notMem_enumerate_of_refused`).
`known_classes_are_published` says so of every moment of a run, whatever names are drawn in it. -/

namespace WireCatalog

/-! ### What look-ups lead to -/

theorem Index.mem_bucket_of_byLegacyId? {ix : Index} {id : Int} {preferred : Option Direction}
    {x : PacketType} (h : ix.byLegacyId? id preferred = some x) : x ∈ ix.bucket id := by
  rw [byLegacyId?, Option.or_eq_some_iff] at h
  rcases h with h | ⟨_, h⟩
  · obtain ⟨d, _, hd⟩ := Option.bind_eq_some_iff.mp h
    exact List.mem_of_find?_eq_some hd
  · exact List.mem_of_head? h

namespace Catalogue

variable {c c' : Catalogue} {q : Request} {x : PacketType}

/-- Whether some look-up leads to a packet type: by class, wire key, name, legacy id or alias. -/
inductive Shows (c : Catalogue) (x : PacketType) : Prop
  | byClass {cls : ClassName} (h : c.fromClass cls = .ok x)
  | byKey {k : WireKey} (h : c.resolveCurrent k = some x)
  | byName {ch : Channel} {name : String} (h : c.resolveName ch name = some x)
  | byLegacyId {id : Int} {preferred : Option Direction}
      (h : c.resolveLegacy id preferred = some x)
  | byAlias {name : String} (h : x ∈ c.fromName name)

/-- Whether every known class leads to a listed packet type. -/
def KnowsListed (c : Catalogue) : Prop :=
  ∀ cls x, c.binder.typeOf? cls = some x → x ∈ c.enumerate true

theorem fromClass_eq_ok {cls : ClassName} :
    c.fromClass cls = .ok x ↔ c.binder.typeOf? cls = some x := by
  unfold fromClass
  cases c.binder.typeOf? cls <;> simp

theorem Shows.mem_enumerate (h : c.Shows x) (hc : c.Reachable) (hk : c.KnowsListed) :
    x ∈ c.enumerate true := by
  cases h with
  | byClass h => exact hk _ x (fromClass_eq_ok.mp h)
  | byKey h => exact DirectorySet.mem_enumerate.mpr ⟨_, hc.coherent.mem_of_byKey? h⟩
  | byName h => exact DirectorySet.mem_enumerate.mpr ⟨_, hc.coherent.mem_of_byName? h⟩
  | byLegacyId h => exact (hc.coherent.mem_bucket.mp (Index.mem_bucket_of_byLegacyId? h)).2.1
  | byAlias h =>
      rw [hc.fromName_eq] at h
      exact List.mem_of_mem_filter h

/-- What a request finds is found by one of the look-ups. -/
theorem shows_of_found? (h : c.found? q = some x) : c.Shows x := by
  cases q with
  | fromId k cls =>
      rcases Option.or_eq_some_iff.mp h with h | ⟨_, h⟩
      · exact .byKey h
      · exact .byName h
  | fromClassOrId k cls =>
      rcases Option.or_eq_some_iff.mp h with h | ⟨_, h⟩
      · exact .byClass (fromClass_eq_ok.mpr h)
      · rcases Option.or_eq_some_iff.mp h with h | ⟨_, h⟩
        · exact .byName h
        · exact .byKey h
  | fromLegacy id d => exact .byLegacyId h

/-! ### What is learnt is listed -/

theorem mem_enumerate_of_steps (hs : c.registry.Steps c'.registry) (hx : x ∈ c.enumerate true) :
    x ∈ c'.enumerate true :=
  (Registry.grows_steps hs).mem_enumerate hx

theorem KnowsListed.keep (h : c.KnowsListed) (hs : c.registry.Steps c'.registry)
    (hb : c'.binder = c.binder) : c'.KnowsListed := by
  intro cls x hx
  rw [hb] at hx
  exact mem_enumerate_of_steps hs (h cls x hx)

theorem KnowsListed.learn (h : c.KnowsListed) (hs : c.registry.Steps c'.registry)
    (hl : c.Learns x c') (hx : x ∈ c'.enumerate true) : c'.KnowsListed := by
  rcases hl with hb | ⟨cls, hb⟩
  · exact h.keep hs hb
  · intro cls' y hy
    rw [hb] at hy
    rcases Binder.typeOf?_remember hy with rfl | hy
    · exact hx
    · exact mem_enumerate_of_steps hs (h cls' y hy)

/-- The answer to a request that registered something is listed. -/
theorem mem_enumerate_of_registered {r : Registration} {es : List Event} {decl : Declaration}
    (h : (c.registry.log es).publish decl = (.ok r, c'.registry)) :
    r.packetType ∈ c'.enumerate true := by
  have hmem := Registry.mem_enumerate_of_publish (congrArg Prod.fst h)
  rw [h] at hmem
  exact hmem

theorem Answered.knowsListed (h : c.Answered q x c') (hc : c.Reachable) (hk : c.KnowsListed) :
    c'.KnowsListed := by
  have hs := h.steps
  cases h with
  | found hit logged learns =>
      have hx := (shows_of_found? hit).mem_enumerate hc hk
      exact hk.learn hs learns (mem_enumerate_of_steps hs hx)
  | registered miss published learns =>
      exact hk.learn hs learns (mem_enumerate_of_registered published)
  | detached miss refused detach binder => exact hk.keep hs binder

theorem KnowsListed.performAs (h : c.KnowsListed) (hc : c.Reachable) (fate : Fate)
    (op : Operation) : (c.performAs fate op).KnowsListed := by
  cases op with
  | register decl =>
      refine h.keep (c.registerAs_steps fate decl) ?_
      cases fate <;> rfl
  | fromId k cls => exact (c.fromIdAs_answered fate k cls).knowsListed hc h
  | fromClassOrId k cls => exact (c.fromClassOrIdAs_answered fate k cls).knowsListed hc h
  | fromLegacy id d => exact (c.fromLegacyAs_answered fate id d).knowsListed hc h
  | rebuild =>
      refine h.keep (c.rebuildAs_steps fate) ?_
      cases fate <;> rfl

/-! ### Answers -/

/-- Whether a request finds nothing and its registration is refused, so that its answer is
detached. -/
def Refuses (c : Catalogue) (q : Request) : Prop :=
  c.found? q = none ∧ ∃ e, (c.publish (c.missing q)).1 = .error e

/-- Events in the journal do not matter for the result of a publication. -/
theorem fst_publish_log (c : Catalogue) (es : List Event) (decl : Declaration) :
    ((c.registry.log es).publish decl).1 = (c.publish decl).1 :=
  (Registry.publish_quiet (c.registry.quiet_log es) decl).1

theorem Answered.mem_enumerate (h : c.Answered q x c') (hc : c.Reachable) (hk : c.KnowsListed)
    (hq : ¬c.Refuses q) : x ∈ c'.enumerate true := by
  have hs := h.steps
  cases h with
  | found hit logged learns =>
      exact mem_enumerate_of_steps hs ((shows_of_found? hit).mem_enumerate hc hk)
  | registered miss published learns => exact mem_enumerate_of_registered published
  | @detached _ _ e r es es' miss refused detach binder =>
      refine absurd ⟨miss, e, ?_⟩ hq
      rw [← fst_publish_log c es, refused]

/-- The answer to a request that is refused is made of what was missing and has the number that was
next. The catalogue has its snapshot and its known classes still. -/
theorem Answered.of_refuses (h : c.Answered q x c') (hq : c.Refuses q) :
    x.toDeclaration = c.missing q ∧ x.serial = c.registry.nextSerial ∧
      c.registry.nextSerial < c'.registry.nextSerial ∧ c'.snapshot = c.snapshot ∧
      c'.binder = c.binder := by
  obtain ⟨hmiss, e, he⟩ := hq
  cases h with
  | found hit logged learns => cases hmiss.symm.trans hit
  | @registered r _ es miss published learns =>
      rw [← fst_publish_log c es, published] at he
      cases he
  | @detached _ _ e r es es' miss refused detach binder =>
      have hends := (c.registry.log es).publish_ends (c.missing q)
      rw [refused] at hends
      have hsame : (c.registry.log es).SameSnapshot r := by
        cases hends with
        | nameTaken offer same => exact same
        | aliasTaken offer same => exact same
        | refused offer same => exact same
      have hserial : r.nextSerial = c.registry.nextSerial := hsame.nextSerial
      obtain ⟨hx, hafter⟩ := Prod.mk.inj detach
      rw [snapshot, ← hafter, ← hx, ← hserial]
      exact ⟨rfl, rfl, Nat.lt_succ_self _, hsame.snapshot, binder⟩

/-- The answer to a request that is refused is not listed. -/
theorem Answered.notMem_enumerate (h : c.Answered q x c') (hc : c.Numbered) (hq : c.Refuses q) :
    x ∉ c'.enumerate true := by
  obtain ⟨_, hserial, _, hsnapshot, _⟩ := h.of_refuses hq
  intro hx
  rw [enumerate, directories, hsnapshot] at hx
  have := hc.below x hx
  omega

/-! ### Moments -/

section

variable {run : List (Fate × Operation)} {i j : ℕ} {fate : Fate}

theorem nextSerial_le_moment (c : Catalogue) (run : List (Fate × Operation)) (hij : i ≤ j) :
    (c.moment run i).registry.nextSerial ≤ (c.moment run j).registry.nextSerial := by
  induction j, hij using Nat.le_induction with
  | base => exact le_rfl
  | succ j _ ih =>
      obtain ⟨new, hnew⟩ := c.moment_adds run j
      exact ih.trans hnew.next

/-- What is listed at a later moment was listed before or has a later number. -/
theorem mem_enumerate_or_le_serial (hij : i ≤ j) (hx : x ∈ (c.moment run j).enumerate true) :
    x ∈ (c.moment run i).enumerate true ∨ (c.moment run i).registry.nextSerial ≤ x.serial := by
  induction j, hij using Nat.le_induction with
  | base => exact .inl hx
  | succ j hij ih =>
      obtain ⟨new, hnew⟩ := c.moment_adds run j
      rcases hnew.entries.mem_enumerate.mp hx with hold | hx
      · exact ih hold
      · right
        rw [(hnew.serial x hx).1]
        exact c.nextSerial_le_moment run hij

theorem moment_succ_of_request {q : Request} (h : run[i]? = some (fate, q.operation)) :
    c.moment run (i + 1) = ((c.moment run i).answerAs fate q).2 := by
  rw [moment_succ h, performAs_operation]

/-- The answer to a request that is refused is listed at no moment. -/
theorem notMem_enumerate_of_refused (hc : c.Reachable) {q : Request}
    (hi : run[i]? = some (fate, q.operation)) (hq : (c.moment run i).Refuses q) (j : ℕ) :
    ((c.moment run i).answerAs fate q).1 ∉ (c.moment run j).enumerate true := by
  intro hx
  have hanswered := (c.moment run i).answered fate q
  obtain ⟨_, hserial, hlt, _⟩ := hanswered.of_refuses hq
  rw [← moment_succ_of_request hi] at hanswered hlt
  rcases Nat.lt_or_ge i j with hij | hji
  · have hnext : i + 1 ≤ j := hij
    rcases mem_enumerate_or_le_serial hnext hx with hx | hle
    · exact hanswered.notMem_enumerate (hc.moment run i).numbered hq hx
    · omega
  · have := (hc.moment run j).numbered.below _ hx
    have := c.nextSerial_le_moment run hji
    omega

end

end Catalogue

/-! ### Known classes of a catalogue that starts without any -/

/-- Whether a plan can be assembled to a catalogue, with or without passing refusals on. -/
def Plan.Builds (p : Plan) (c : Catalogue) : Prop :=
  p.build = .ok c ∨ ∃ earlier, c = p.buildLenient earlier

namespace Plan.Builds

variable {p : Plan} {c : Catalogue}

theorem reachable (h : p.Builds c) : c.Reachable := by
  rcases h with h | ⟨earlier, rfl⟩
  · exact .built h
  · exact .builtLenient p earlier

theorem binder (h : p.Builds c) : c.binder = p.binder := by
  rcases h with h | ⟨earlier, rfl⟩
  · obtain ⟨ix, es, _, rfl⟩ := finish_of_build h
    rfl
  · obtain ⟨ix, es, _, hc⟩ := p.finish_of_buildLenient earlier
    rw [hc]
    rfl

theorem knowsListed (h : p.Builds c) (hb : p.binder = .table .empty) : c.KnowsListed := by
  intro cls x hx
  rw [h.binder, hb] at hx
  cases hx

end Plan.Builds

/-! ### Names that run out -/

/-- Something new is refused if both names that are tried for it are taken. -/
theorem Registry.publish_of_names_taken {r : Registry} {decl : Declaration} {y z : PacketType}
    (hq : (r.snapshot.directories.get decl.channel).equivalent? decl = none)
    (hy : (r.snapshot.directories.get decl.channel).byName? (r.names r.drawn) = some y)
    (hz : (r.snapshot.directories.get decl.channel).byName? (r.names (r.drawn + 1)) = some z) :
    ∃ e, (r.publish decl).1 = .error e := by
  obtain ⟨hresult, _⟩ := publish_of_second (Snapshot.offer_eq_nameTaken hq hy)
  rw [Snapshot.offer_eq_nameTaken hq hz] at hresult
  exact ⟨_, hresult⟩

/-- Whether the built-in packet types of a plan have nothing for a wire key and a class, but have
the first two provisional names. -/
def Plan.Crowds (p : Plan) (k : WireKey) (cls : ClassName) : Prop :=
  let d := p.enrolled.1.set.get k.channel
  d.byId? k.id = none ∧
    (firstClaimant d.claims k.channel (PacketName.format k.channel cls.simple) = none ∧
      firstClaimant d.claims k.channel cls.simple = none) ∧
    (d.byName? (p.names 0)).isSome ∧ (d.byName? (p.names 1)).isSome

instance (p : Plan) (k : WireKey) (cls : ClassName) : Decidable (p.Crowds k cls) :=
  inferInstanceAs (Decidable (_ ∧ (_ ∧ _) ∧ _ ∧ _))

theorem Plan.Crowds.refuses {p : Plan} {k : WireKey} {cls : ClassName} (h : p.Crowds k cls)
    (hk : k.isKnown = true) : (p.buildLenient []).Refuses (.fromId k cls) := by
  have hcurrent := p.resolveCurrent_buildLenient [] k
  have hname := p.resolveName_buildLenient [] k.channel cls.simple
  obtain ⟨hdirs, hnames, hdrawn⟩ := p.buildLenient_start []
  generalize p.buildLenient [] = c at hcurrent hname hdirs hnames hdrawn ⊢
  obtain ⟨hid, ⟨hcanonical, hbare⟩, hfirst, hsecond⟩ := h
  obtain ⟨y, hy⟩ := Option.isSome_iff_exists.mp hfirst
  obtain ⟨z, hz⟩ := Option.isSome_iff_exists.mp hsecond
  rw [hid] at hcurrent
  rw [hcanonical, hbare, Option.or_none] at hname
  rw [← hdirs] at hid hy hz
  rw [← hnames] at hy hz
  constructor
  · rw [Catalogue.found?, hcurrent, hname, Option.or_none]
  · have hknown : (c.missing (.fromId k cls)).key.isKnown = true := hk
    refine Registry.publish_of_names_taken (y := y) (z := z) ?_ ?_ ?_
    · rw [Directory.equivalent?, if_pos hknown]
      exact hid
    · rw [hdrawn]
      exact hy
    · rw [hdrawn]
      exact hz

namespace Catalogue

/-- A plan whose provisional names are all one and the same, which a built-in packet type has. -/
def crowdedPlan : Plan := { standardPlan with names := fun _ => "PONG" }

/-- A request for an id and a class that the built-in packet types do not have. -/
def mystery : Request := .fromId ⟨⟨.status, .serverToClient⟩, 112⟩ ⟨"net.example.Mystery"⟩

theorem KnowsListed.moment {c : Catalogue} (h : c.KnowsListed) (hc : c.Reachable)
    (run : List (Fate × Operation)) (i : ℕ) : (c.moment run i).KnowsListed :=
  (moment_induction (P := fun c => c.Reachable ∧ c.KnowsListed) ⟨hc, h⟩
    (fun _ fate op h => ⟨h.1.step fate op, h.2.performAs h.1 fate op⟩) i).2

/-- **Known classes lead to published packet types.** Take a catalogue that was built without known
classes, and any operations, fates of their tasks and provisional names. At every moment a class is
unknown or leads to a listed packet type, and whatever a look-up leads to is listed. The answer to a
request is listed ever after, unless the request found nothing and its registration was refused:
then it is detached, and no moment lists it or has a look-up that leads to it. -/
theorem known_classes_are_published {p : Plan} (hb : p.binder = .table .empty) {c : Catalogue}
    (hc : p.Builds c) (run : List (Fate × Operation)) :
    (∀ i cls, (c.moment run i).fromClass cls = .error (.notAPacketClass cls) ∨
      ∃ x ∈ (c.moment run i).enumerate true, (c.moment run i).fromClass cls = .ok x) ∧
    (∀ i x, (c.moment run i).Shows x → x ∈ (c.moment run i).enumerate true) ∧
    ∀ i fate q, run[i]? = some (fate, Request.operation q) →
      let x := ((c.moment run i).answerAs fate q).1
      (¬(c.moment run i).Refuses q → ∀ j, i < j → x ∈ (c.moment run j).enumerate true) ∧
      ((c.moment run i).Refuses q →
        ∀ j, x ∉ (c.moment run j).enumerate true ∧ ¬(c.moment run j).Shows x) := by
  have hreach : ∀ i, (c.moment run i).Reachable := hc.reachable.moment run
  have hknows : ∀ i, (c.moment run i).KnowsListed := (hc.knowsListed hb).moment hc.reachable run
  have hshows : ∀ i x, (c.moment run i).Shows x → x ∈ (c.moment run i).enumerate true :=
    fun i x hx => hx.mem_enumerate (hreach i) (hknows i)
  refine ⟨fun i cls => ?_, hshows, fun i fate q hi => ⟨fun hq j hij => ?_, fun hq j => ?_⟩⟩
  · cases hcls : (c.moment run i).binder.typeOf? cls with
    | none =>
        left
        rw [fromClass, hcls]
    | some x => exact .inr ⟨x, hknows i cls x hcls, fromClass_eq_ok.mpr hcls⟩
  · have hx := ((c.moment run i).answered fate q).mem_enumerate (hreach i) (hknows i) hq
    rw [← moment_succ_of_request hi] at hx
    exact mem_enumerate_of_steps (moment_steps hij) hx
  · have hx := notMem_enumerate_of_refused hc.reachable hi hq j
    exact ⟨hx, fun hshown => hx (hshows j _ hshown)⟩

/-- A packet type that is met while the provisional names are taken is not to be found after it. -/
theorem known_classes_are_published_mystery :
    crowdedPlan.binder = .table .empty ∧ crowdedPlan.Builds (crowdedPlan.buildLenient []) ∧
    ∃ x, x = ((crowdedPlan.buildLenient []).answerAs .inline mystery).1 ∧
      ¬((crowdedPlan.buildLenient []).moment [(.inline, mystery.operation)] 1).Shows x := by
  have hcrowds : crowdedPlan.Crowds ⟨⟨.status, .serverToClient⟩, 112⟩ ⟨"net.example.Mystery"⟩ := by
    decide +kernel
  have hbuilds : crowdedPlan.Builds (crowdedPlan.buildLenient []) := .inr ⟨[], rfl⟩
  obtain ⟨_, _, hanswers⟩ :=
    known_classes_are_published rfl hbuilds [(.inline, mystery.operation)]
  have hrefused := (hanswers 0 .inline mystery rfl).2 (hcrowds.refuses rfl)
  exact ⟨rfl, hbuilds, _, rfl, (hrefused 1).2⟩

end Catalogue

end WireCatalog
