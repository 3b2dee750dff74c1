import WireCatalog.Proofs.KnownClasses
import WireCatalog.Proofs.Lookups

/-! # Discovery by legacy id

A request by legacy id that finds nothing registers a packet type under the id, with a name made of
it. While provisional names are free, one thing can stop it: the name stands for something else
(`refuses_iff_squatted`). A registration may take any name, so that can happen. Then every such
request gets a detached packet type of its own, and the id stays unknown.

In all other cases the id leads to the answer from then on (`Answered.resolveLegacy_eq`). -/

namespace WireCatalog

/-- The only packet type with a legacy id is the answer whatever direction is preferred. -/
theorem Index.byLegacyId?_of_bucket {ix : Index} {id : Int} {x : PacketType}
    (h : ix.bucket id = [x]) (preferred : Option Direction) :
    ix.byLegacyId? id preferred = some x := by
  unfold byLegacyId?
  rw [h]
  cases preferred with
  | none => rfl
  | some d =>
      dsimp only [Option.bind_some]
      rw [List.find?_cons]
      split <;> rfl

namespace Catalogue

variable {c c' : Catalogue} {id : Int} {d : Direction} {x : PacketType}

/-- Whether nothing has a legacy id and the name that is made of it stands for something else. -/
def Squatted (c : Catalogue) (id : Int) (d : Direction) : Prop :=
  c.resolveLegacy id (some d) = none ∧
    (c.resolveName ⟨.legacy, d⟩ (discoveredLegacy id d).canonical).isSome

theorem fromLegacyAs_of_resolveLegacy (fate : Fate) (h : c.resolveLegacy id (some d) = some x) :
    c.fromLegacyAs fate id d = (x, c) := by
  rw [fromLegacyAs, h]

theorem bucket_of_resolveLegacy (h : c.resolveLegacy id (some d) = none) :
    c.index.bucket id = [] := by
  have hempty := c.index.isSome_byLegacyId? id (some d)
  rw [resolveLegacy] at h
  rw [h] at hempty
  simpa using hempty

/-- A legacy id that nothing has is new to its directory. -/
theorem equivalent?_discoveredLegacy (hc : c.snapshot.Coherent) (hid : id ≠ unknownId)
    (h : c.resolveLegacy id (some d) = none) :
    (c.directories.get ⟨.legacy, d⟩).equivalent? (discoveredLegacy id d) = none := by
  have hunknown : ¬(discoveredLegacy id d).key.isKnown = true := Bool.false_ne_true
  have hlegacy : (discoveredLegacy id d).legacyId = id := rfl
  rw [Directory.equivalent?, if_neg hunknown, hlegacy, if_pos hid, List.find?_eq_none]
  intro y hy hdescribed
  have hy : y ∈ c.index.bucket id := by
    refine hc.mem_bucket.mpr ⟨hid, DirectorySet.mem_enumerate.mpr ⟨_, hy⟩, ?_⟩
    exact beq_iff_eq.mp (Bool.and_eq_true_iff.mp hdescribed).2
  rw [bucket_of_resolveLegacy h] at hy
  cases hy

theorem aliases_discoveredLegacy (id : Int) (d : Direction) :
    (discoveredLegacy id d).aliases = [(discoveredLegacy id d).canonical] := by
  simp only [discoveredLegacy, Declaration.aliases, Declaration.asDynamic, Declaration.legacy,
    Declaration.named]

/-- Under a free name, a request by legacy id is refused exactly if its name is squatted. -/
theorem refuses_iff_squatted (hc : c.snapshot.Coherent) (hid : id ≠ unknownId)
    (hfree : c.registry.NextNameFree ⟨.legacy, d⟩) :
    c.Refuses (.fromLegacy id d) ↔ c.Squatted id d := by
  have hfails : (∃ e, (c.registry.publish (discoveredLegacy id d)).1 = .error e) ↔ _ :=
    Registry.publish_error_iff hc hfree
  rw [aliases_discoveredLegacy] at hfails
  simp only [List.mem_singleton, exists_eq_left] at hfails
  constructor
  · rintro ⟨hmiss, he⟩
    exact ⟨hmiss, (hfails.mp he).2⟩
  · rintro ⟨hmiss, hbound⟩
    exact ⟨hmiss, hfails.mpr ⟨equivalent?_discoveredLegacy hc hid hmiss, hbound⟩⟩

/-- A legacy id leads to what a request by it was answered with, unless that was refused. -/
theorem Answered.resolveLegacy_eq (h : c.Answered (.fromLegacy id d) x c') (hc : c.Reachable)
    (hid : id ≠ unknownId) (hq : ¬c.Refuses (.fromLegacy id d)) :
    c'.resolveLegacy id (some d) = some x := by
  cases h with
  | found hit logged learns =>
      rw [resolveLegacy, index, snapshot, logged]
      exact hit
  | @registered r _ es miss published learns =>
      have hnew := equivalent?_discoveredLegacy hc.coherent hid miss
      have hp : ((c.registry.log es).publish (c.missing (.fromLegacy id d))).1 = .ok r := by
        rw [published]
      cases r with
      | present y =>
          have hold := Registry.equivalent?_of_present hp
          cases hnew.symm.trans hold
      | published y =>
          obtain ⟨name, ho⟩ := Registry.offer_of_published hp
          rw [published] at ho
          have hspec := (c.registry.log es).snapshot.offer_spec (c.missing (.fromLegacy id d)) name
            (c.registry.log es).nextSerial
          rw [ho] at hspec
          obtain ⟨_, _, _, hbind, _⟩ := hspec
          have hlegacy : y.legacyId = id := congrArg (fun z : PacketType => z.legacyId) hbind
          have hbucket := hc.coherent.bucket_publish ho (hlegacy ▸ hid)
          rw [hlegacy] at hbucket
          have hempty : c.snapshot.index.bucket id = [] := bucket_of_resolveLegacy miss
          rw [hempty, List.nil_append] at hbucket
          exact Index.byLegacyId?_of_bucket hbucket (some d)
  | @detached _ _ e r es es' miss refused detach binder =>
      refine absurd ⟨miss, e, ?_⟩ hq
      rw [← fst_publish_log c es, refused]

/-- While its name is squatted, a legacy id leads nowhere, and a request by it changes nothing. -/
theorem Squatted.fromLegacyAs (h : c.Squatted id d) (hc : c.Reachable) (hid : id ≠ unknownId)
    (hfree : c.registry.NextNameFree ⟨.legacy, d⟩) (fate : Fate) :
    (c.fromLegacyAs fate id d).1 ∉ (c.fromLegacyAs fate id d).2.enumerate true ∧
      (c.fromLegacyAs fate id d).2.snapshot = c.snapshot ∧
      (c.fromLegacyAs fate id d).2.resolveLegacy id (some d) = none := by
  have hrefuses := (refuses_iff_squatted hc.coherent hid hfree).mpr h
  have hanswered := c.fromLegacyAs_answered fate id d
  obtain ⟨_, _, _, hsnapshot, _⟩ := hanswered.of_refuses hrefuses
  refine ⟨hanswered.notMem_enumerate hc.numbered hrefuses, hsnapshot, ?_⟩
  rw [resolveLegacy, index, hsnapshot]
  exact h.1

/-- What has the name that is made of a legacy id squats it if nothing has the id. -/
theorem squatted_of_mem (hc : c.snapshot.Coherent)
    (hunused : ∀ y ∈ c.enumerate true, y.legacyId ≠ id)
    (hx : x ∈ c.enumerate true) (hchannel : x.channel = ⟨.legacy, d⟩)
    (hname : (discoveredLegacy id d).canonical ∈ x.aliases) : c.Squatted id d := by
  constructor
  · have hbucket : c.index.bucket id = [] := by
      refine List.eq_nil_iff_forall_not_mem.mpr fun y hy => ?_
      obtain ⟨_, hy, hlegacy⟩ := hc.mem_bucket.mp hy
      exact hunused y hy hlegacy
    rw [resolveLegacy, Index.byLegacyId?, hbucket]
    rfl
  · have hbound := hc.isSome_bound? (hc.sound.mem_enumerate_iff.mp hx) (.inr hname)
    rw [hchannel] at hbound
    rw [resolveName, Index.byName?, Option.isSome_or, index, hbound, Bool.or_true]

end Catalogue

/-! ### Names that are squatted -/

/-- Whether the built-in packet types of a plan leave free what the registration of a declaration
needs, and then the name after it, and have no packet type with a legacy id. -/
def Plan.AdmitsWithout (p : Plan) (decl : Declaration) (id : Int) : Prop :=
  p.Admits decl ∧ (∀ y ∈ p.enrolled.1.set.enumerate true, y.legacyId ≠ id) ∧
    (p.enrolled.1.set.get decl.channel).byName? (p.names 1) = none ∧ p.names 1 ≠ p.names 0

instance (p : Plan) (decl : Declaration) (id : Int) : Decidable (p.AdmitsWithout decl id) :=
  inferInstanceAs (Decidable (_ ∧ _ ∧ _ ∧ _))

namespace Catalogue

/-- What is registered under the name that is made of a legacy id squats it. -/
theorem squatted_of_admits {p : Plan} {decl : Declaration} {id : Int} {d : Direction}
    (h : p.AdmitsWithout decl id) (hchannel : decl.channel = ⟨.legacy, d⟩)
    (hid : decl.legacyId ≠ id) (hname : (discoveredLegacy id d).canonical ∈ decl.aliases) :
    let c := (p.buildLenient []).performAs .inline (.register decl)
    c.Squatted id d ∧ c.registry.NextNameFree ⟨.legacy, d⟩ := by
  have hc := p.coherent_buildLenient []
  obtain ⟨hdirs, hnames, hdrawn⟩ := p.buildLenient_start []
  have hfree := h.1.nextNameFree
  obtain ⟨x, s', hx, ho⟩ := h.1.offer_published
  -- From here on the catalogue is any one that starts so: nothing below may evaluate the build.
  generalize p.buildLenient [] = c at hc hdirs hnames hdrawn hfree ho ⊢
  have hregistry : (c.performAs .inline (.register decl)).registry =
      (c.registry.publish decl).2 := by
    rw [performAs, (c.registerAs_of_runs rfl decl).2, registry_publish]
  generalize c.performAs .inline (.register decl) = c' at hregistry ⊢
  obtain ⟨_, hunused, hsecond, hne⟩ := h
  rw [← hdirs] at hunused hsecond
  have hlisted := Registry.mem_enumerate_of_publish (Registry.publish_of_offer ho).1
  constructor
  · refine squatted_of_mem (x := x) ?_ (fun y hy => ?_) ?_ ?_ ?_
    · rw [snapshot, hregistry]
      exact Registry.coherent_publish hc decl
    · rw [enumerate, directories, snapshot, hregistry] at hy
      rcases Registry.mem_enumerate_publish hfree hy with hold | rfl
      · exact hunused y hold
      · exact hid
    · rw [enumerate, directories, snapshot, hregistry]
      exact hlisted
    · exact (congrArg Declaration.channel hx).trans hchannel
    · rw [hx]
      exact hname
  · rw [hregistry, ← hchannel]
    refine Registry.nextNameFree_publish hc hfree ?_ ?_
    · rw [hnames, hdrawn]
      exact hsecond
    · rw [hnames, hdrawn]
      exact hne

/-- Before it is registered the name is free. -/
theorem not_squatted_of_admits {p : Plan} {decl : Declaration} {id : Int} {d : Direction}
    (h : p.Admits decl) (hchannel : decl.channel = ⟨.legacy, d⟩)
    (hname : (discoveredLegacy id d).canonical ∈ decl.aliases) :
    ¬(p.buildLenient []).Squatted id d := by
  rintro ⟨_, hsome⟩
  rw [← hchannel, h.resolveName_eq_none hname] at hsome
  cases hsome

/-- A packet type with the name that is made of the legacy id 177. -/
def squatter : Declaration := Declaration.named ⟨.legacy, .clientToServer⟩ "Unknown177"

theorem admitsWithout_squatter : countingPlan.AdmitsWithout squatter 177 ∧
    (discoveredLegacy 177 .clientToServer).canonical ∈ squatter.aliases := by
  decide +kernel

/-- A legacy id whose name was registered before leads nowhere after a request by it. -/
theorem legacy_id_stays_unknown :
    let c := (countingPlan.buildLenient []).performAs .inline (.register squatter)
    c.Reachable ∧ (177 : Int) ≠ unknownId ∧ c.registry.NextNameFree ⟨.legacy, .clientToServer⟩ ∧
      (c.fromLegacyAs .inline 177 .clientToServer).2.resolveLegacy 177 (some .clientToServer) ≠
        some (c.fromLegacyAs .inline 177 .clientToServer).1 := by
  have hid : (177 : Int) ≠ unknownId := by decide
  obtain ⟨hadmits, hname⟩ := admitsWithout_squatter
  obtain ⟨hsquatted, hfree⟩ := squatted_of_admits hadmits rfl (by decide) hname
  have hbuilt : (countingPlan.buildLenient []).Reachable := .builtLenient _ _
  have hreachable := hbuilt.step .inline (.register squatter)
  generalize (countingPlan.buildLenient []).performAs .inline (.register squatter) = c
    at hsquatted hfree hreachable ⊢
  refine ⟨hreachable, hid, hfree, ?_⟩
  obtain ⟨_, _, hnone⟩ := hsquatted.fromLegacyAs hreachable hid hfree .inline
  rw [hnone]
  exact (Option.some_ne_none _).symm

/-- **Discovery by legacy id.** While the next provisional name is free, a legacy id leads to what a
request by it was answered with, and the next request gets that again and changes nothing. The
exception is an id that nothing has and whose name is squatted: then the answer is detached and the
snapshot is as it was, so the id still leads nowhere. -/
theorem legacy_discovery {c : Catalogue} (h : c.Reachable) {id : Int} (hid : id ≠ unknownId)
    {d : Direction} (hfree : c.registry.NextNameFree ⟨.legacy, d⟩) (fate fate' : Fate) :
    let x := (c.fromLegacyAs fate id d).1
    let c' := (c.fromLegacyAs fate id d).2
    let again := c'.fromLegacyAs fate' id d
    (¬c.Squatted id d → c'.resolveLegacy id (some d) = some x ∧ again.1 = x ∧
      again.2.snapshot = c'.snapshot) ∧
    (c.Squatted id d → x ∉ c'.enumerate true ∧ c'.snapshot = c.snapshot ∧
      c'.resolveLegacy id (some d) = none) := by
  intro x c' again
  refine ⟨fun hnot => ?_, fun hsquatted => hsquatted.fromLegacyAs h hid hfree fate⟩
  have hrefuses := refuses_iff_squatted h.coherent hid hfree
  have hanswered := c.fromLegacyAs_answered fate id d
  have hfound := hanswered.resolveLegacy_eq h hid (mt hrefuses.mp hnot)
  have hagain : again = (x, c') := fromLegacyAs_of_resolveLegacy fate' hfound
  rw [hagain]
  exact ⟨hfound, rfl, rfl⟩

/-- A legacy id that nothing has leads to the answer to the first request by it. -/
theorem legacy_discovery_unknown :
    let c := countingPlan.buildLenient []
    c.Reachable ∧ (177 : Int) ≠ unknownId ∧ c.registry.NextNameFree ⟨.legacy, .clientToServer⟩ ∧
      (c.fromLegacyAs .inline 177 .clientToServer).2.resolveLegacy 177 (some .clientToServer) =
        some (c.fromLegacyAs .inline 177 .clientToServer).1 := by
  have hid : (177 : Int) ≠ unknownId := by decide
  obtain ⟨hadmits, hname⟩ := admitsWithout_squatter
  have hnot := not_squatted_of_admits hadmits.1 rfl hname
  have hfree : (countingPlan.buildLenient []).registry.NextNameFree ⟨.legacy, .clientToServer⟩ :=
    hadmits.1.nextNameFree
  have hreachable : (countingPlan.buildLenient []).Reachable := .builtLenient _ _
  generalize countingPlan.buildLenient [] = c at hnot hfree hreachable ⊢
  obtain ⟨hfound, _⟩ := legacy_discovery hreachable hid hfree .inline .inline
  exact ⟨hreachable, hid, hfree, (hfound hnot).1⟩

end Catalogue

end WireCatalog
