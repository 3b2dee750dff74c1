import WireCatalog.Proofs.Lookups

/-! # The order of legacy buckets

An index that grew with its directories has the packet types of a bucket in the order of their
registrations, a built one has them in order of enumeration. Within each channel the two orders
agree (`SameByChannel`), so a bucket survives a rebuild exactly if it was in order of enumeration
before (`SameByChannel.eq_iff_inOrder`), and its first element exactly if no other one is of an
earlier channel (`SameByChannel.head?_eq_iff`).

`rebuild_keeps_legacy_iff` says so of the answers by legacy id. They do change: a registration in an
earlier channel than that of the answer is enough (`bucket_withGauge`). -/

namespace WireCatalog

/-! ### Lists in order of enumeration -/

/-- Lists with the same packet types of each channel, in the same order. -/
def SameByChannel (xs ys : List PacketType) : Prop :=
  ∀ c : Channel, xs.filter (·.channel == c) = ys.filter (·.channel == c)

/-- The packet types of earlier channels come first. -/
def InOrder (xs : List PacketType) : Prop :=
  xs.Pairwise fun x y => x.channel.slot ≤ y.channel.slot

namespace SameByChannel

variable {x y : PacketType} {xs ys : List PacketType}

theorem symm (h : SameByChannel xs ys) : SameByChannel ys xs := fun c => (h c).symm

theorem mem_iff (h : SameByChannel xs ys) : x ∈ xs ↔ x ∈ ys := by
  have hmem : ∀ zs : List PacketType, x ∈ zs ↔ x ∈ zs.filter (·.channel == x.channel) := by
    intro zs
    rw [List.mem_filter, beq_self_eq_true, and_iff_left rfl]
  rw [hmem xs, hmem ys, h]

theorem filter (h : SameByChannel xs ys) (p : PacketType → Bool) :
    SameByChannel (xs.filter p) (ys.filter p) := by
  intro c
  rw [List.filter_comm, h c, List.filter_comm]

theorem any_eq (h : SameByChannel xs ys) (p : PacketType → Bool) : xs.any p = ys.any p := by
  rw [Bool.eq_iff_iff, List.any_eq_true, List.any_eq_true]
  constructor
  · rintro ⟨x, hx, hp⟩
    exact ⟨x, h.mem_iff.mp hx, hp⟩
  · rintro ⟨x, hx, hp⟩
    exact ⟨x, h.mem_iff.mpr hx, hp⟩

theorem eq_nil (h : SameByChannel [] ys) : ys = [] := by
  rw [List.eq_nil_iff_forall_not_mem]
  intro x hx
  cases h.mem_iff.mpr hx

theorem of_cons (h : SameByChannel (x :: xs) (x :: ys)) : SameByChannel xs ys := by
  intro c
  have hc := h c
  rw [List.filter_cons, List.filter_cons] at hc
  by_cases hx : (x.channel == c) = true
  · rw [if_pos hx, if_pos hx] at hc
    exact (List.cons.inj hc).2
  · rw [if_neg hx, if_neg hx] at hc
    exact hc

/-- If neither list has a packet type of an earlier channel than its first one, the first ones are
of the same channel, and so they are the same. -/
theorem head_eq (h : SameByChannel (x :: xs) (y :: ys))
    (hx : ∀ z ∈ x :: xs, x.channel.slot ≤ z.channel.slot)
    (hy : ∀ z ∈ y :: ys, y.channel.slot ≤ z.channel.slot) : x = y := by
  have hxy := hx y (h.mem_iff.mpr List.mem_cons_self)
  have hyx := hy x (h.mem_iff.mp List.mem_cons_self)
  have hc : x.channel = y.channel := Channel.slot_injective (Fin.le_antisymm hxy hyx)
  have hf := h y.channel
  rw [List.filter_cons, List.filter_cons, if_pos (beq_iff_eq.mpr hc),
    if_pos (beq_self_eq_true _)] at hf
  exact (List.cons.inj hf).1

theorem eq_of_inOrder (h : SameByChannel xs ys) (hx : InOrder xs) (hy : InOrder ys) : xs = ys := by
  -- Both lists start with the first packet type of the earliest channel; without it they are alike.
  induction xs generalizing ys with
  | nil => exact h.eq_nil.symm
  | cons x xs ih =>
      cases ys with
      | nil => exact h.symm.eq_nil
      | cons y ys =>
          obtain ⟨hx₁, hx₂⟩ := List.pairwise_cons.mp hx
          obtain ⟨hy₁, hy₂⟩ := List.pairwise_cons.mp hy
          have hxy : x = y := by
            refine h.head_eq ?_ ?_
            · exact List.forall_mem_cons.mpr ⟨Fin.le_refl _, hx₁⟩
            · exact List.forall_mem_cons.mpr ⟨Fin.le_refl _, hy₁⟩
          subst hxy
          rw [ih h.of_cons hx₂ hy₂]

/-- The list in order of enumeration is the other one exactly if that one is in order as well. -/
theorem eq_iff_inOrder (h : SameByChannel xs ys) (hy : InOrder ys) : ys = xs ↔ InOrder xs := by
  constructor
  · rintro rfl
    exact hy
  · exact fun hx => (h.eq_of_inOrder hx hy).symm

/-- The first packet type in order of enumeration is the first of the other list exactly if no
packet type of that one is of an earlier channel. -/
theorem head?_eq_iff (h : SameByChannel xs ys) (hy : InOrder ys) :
    ys.head? = xs.head? ↔
      ∀ x, xs.head? = some x → ∀ z ∈ xs, x.channel.slot ≤ z.channel.slot := by
  cases xs with
  | nil =>
      rw [h.eq_nil]
      simp
  | cons x xs =>
      cases ys with
      | nil => cases h.symm.eq_nil
      | cons y ys =>
          have hmin : ∀ z ∈ y :: ys, y.channel.slot ≤ z.channel.slot :=
            List.forall_mem_cons.mpr ⟨Fin.le_refl _, (List.pairwise_cons.mp hy).1⟩
          rw [List.head?_cons, List.head?_cons]
          constructor
          · intro he x' hx' z hz
            rw [← Option.some.inj hx', ← Option.some.inj he]
            exact hmin z (h.mem_iff.mp hz)
          · intro hx
            rw [h.head_eq (hx x rfl) hmin]

end SameByChannel

theorem DirectorySet.Sound.inOrder_enumerate {s : DirectorySet} (h : s.Sound) :
    InOrder (s.enumerate true) := by
  have hall : Channel.all.Pairwise fun c c' => c.slot ≤ c'.slot := by decide
  rw [enumerate_true, InOrder, List.pairwise_flatMap]
  constructor
  · intro c _
    refine List.pairwise_of_forall_mem_list fun x hx y hy => ?_
    have hxy : x.channel = y.channel := (h.channel_of_mem hx).trans (h.channel_of_mem hy).symm
    exact Nat.le_of_eq (congrArg (fun c : Channel => c.slot.val) hxy)
  · refine hall.imp fun {c c'} hle x hx y hy => ?_
    rw [h.channel_of_mem hx, h.channel_of_mem hy]
    exact hle

/-- Merged histories of the same directories have the same packet types of each channel. -/
theorem DirectorySet.Merged.sameByChannel {s : DirectorySet} {xs ys : List PacketType}
    {cs ds : List Claim} (h : s.Merged xs cs) (h' : s.Merged ys ds) : SameByChannel xs ys := by
  intro c
  rw [h.packetTypes, h'.packetTypes]

/-! ### Buckets -/

namespace Index

/-- The packet types that a look-up by legacy id chooses from: those of the preferred direction if
there is one, or else all that have the id. -/
def candidates (ix : Index) (id : Int) (preferred : Option Direction) : List PacketType :=
  match preferred with
  | none => ix.bucket id
  | some d =>
    if (ix.bucket id).any (·.channel.direction == d) then
      (ix.bucket id).filter (·.channel.direction == d)
    else ix.bucket id

variable {ix ix' : Index}

theorem byLegacyId?_eq_head? (ix : Index) (id : Int) (preferred : Option Direction) :
    ix.byLegacyId? id preferred = (ix.candidates id preferred).head? := by
  unfold byLegacyId? candidates
  cases preferred with
  | none => rfl
  | some d =>
      dsimp only [Option.bind_some]
      by_cases ha : (ix.bucket id).any (·.channel.direction == d) = true
      · have hfound : ((ix.bucket id).find? (·.channel.direction == d)).isSome := by
          rw [List.find?_isSome]
          exact List.any_eq_true.mp ha
        rw [if_pos ha, Option.or_of_isSome hfound, List.head?_filter]
      · have hnone : (ix.bucket id).find? (·.channel.direction == d) = none := by
          rw [List.find?_eq_none]
          exact fun x hx hp => ha (List.any_eq_true.mpr ⟨x, hx, hp⟩)
        rw [if_neg ha, hnone, Option.none_or]

theorem inOrder_candidates {id : Int} (h : InOrder (ix.bucket id)) (preferred : Option Direction) :
    InOrder (ix.candidates id preferred) := by
  unfold candidates
  cases preferred with
  | none => exact h
  | some d =>
      dsimp only
      split
      · exact h.filter _
      · exact h

theorem sameByChannel_candidates {id : Int} (h : SameByChannel (ix.bucket id) (ix'.bucket id))
    (preferred : Option Direction) :
    SameByChannel (ix.candidates id preferred) (ix'.candidates id preferred) := by
  unfold candidates
  cases preferred with
  | none => exact h
  | some d =>
      dsimp only
      rw [← h.any_eq]
      split
      · exact h.filter _
      · exact h

end Index

namespace Snapshot.Coherent

variable {s s' : Snapshot}

theorem sameByChannel_bucket (h : s.Coherent) (h' : s'.Coherent)
    (hd : s'.directories = s.directories) (id : Int) :
    SameByChannel (s.index.bucket id) (s'.index.bucket id) := by
  obtain ⟨xs, cs, hr, hm⟩ := h.history
  obtain ⟨ys, ds, hr', hm'⟩ := h'.history
  rw [hd] at hm'
  rw [Index.bucket, Index.bucket, hr.legacy, hr'.legacy]
  exact ((hm.sameByChannel hm').filter _).filter _

theorem inOrder_bucket (h : s.Coherent) {cs : List Claim}
    (hr : s.index.Records (s.directories.enumerate true) cs) (id : Int) :
    InOrder (s.index.bucket id) := by
  rw [Index.bucket, hr.legacy]
  exact (h.sound.inOrder_enumerate.filter _).filter _

end Snapshot.Coherent

/-! ### A registration out of order -/

/-- A first registration in an earlier channel than that of all built-in packet types with its legacy
id leaves the bucket out of order. -/
theorem Plan.Admits.bucket_register {p : Plan} {decl : Declaration} (h : p.Admits decl)
    (hl : decl.legacyId ≠ unknownId)
    (hex : ∃ y ∈ p.enrolled.1.set.enumerate true, y.legacyId = decl.legacyId)
    (hlater : ∀ y ∈ p.enrolled.1.set.enumerate true, y.legacyId = decl.legacyId →
      decl.channel.slot < y.channel.slot) :
    ∃ x y ys,
      ((p.buildLenient []).performAs .inline (.register decl)).index.bucket decl.legacyId =
        y :: ys ∧ x ∈ y :: ys ∧ x.channel.slot < y.channel.slot := by
  have hc := p.coherent_buildLenient []
  obtain ⟨x, s', hx, ho⟩ := h.offer_published
  obtain ⟨hdirs, _, _⟩ := p.buildLenient_start []
  -- From here on the catalogue is any one that starts so: nothing below may evaluate the build.
  generalize p.buildLenient [] = c at hc hdirs ho ⊢
  rw [← hdirs] at hex hlater
  obtain ⟨z, hz, hzl⟩ := hex
  have hz' : z ∈ c.index.bucket decl.legacyId := hc.mem_bucket.mpr ⟨hl, hz, hzl⟩
  have hsnap : (c.performAs .inline (.register decl)).snapshot = s' :=
    (Registry.publish_of_offer ho).2
  have hb := hc.bucket_publish ho (hx ▸ hl)
  rw [← hsnap, hx] at hb
  obtain ⟨y, ys, hys⟩ := List.exists_cons_of_ne_nil (List.ne_nil_of_mem hz')
  have hy : y ∈ c.index.bucket decl.legacyId := hys ▸ List.mem_cons_self
  obtain ⟨_, hy, hyl⟩ := hc.mem_bucket.mp hy
  have hslot := hlater y hy hyl
  rw [← hx] at hslot
  change _ = c.index.bucket decl.legacyId ++ [x] at hb
  rw [hys] at hb
  exact ⟨x, y, ys ++ [x], hb, by simp, hslot⟩

namespace Catalogue

/-- Of the built-in packet types some have the legacy id of `gauge`, all of them in later
channels. -/
theorem legacyId_gauge :
    let s := standardPlan.enrolled.1.set
    (∃ y ∈ s.enumerate true, y.legacyId = gauge.legacyId) ∧
    ∀ y ∈ s.enumerate true, y.legacyId = gauge.legacyId →
      gauge.channel.slot < y.channel.slot := by
  decide +kernel

theorem bucket_withGauge : ∃ x y ys, withGauge.index.bucket gauge.legacyId = y :: ys ∧
    x ∈ y :: ys ∧ x.channel.slot < y.channel.slot := by
  obtain ⟨hex, hlater⟩ := legacyId_gauge
  exact admits_gauge.bucket_register (by decide) hex hlater

end Catalogue

/-! ### Rebuilds -/

namespace Catalogue

/-- A rebuild keeps a bucket exactly if the bucket is in order of enumeration. It keeps an answer
exactly if no other packet type that could have been the answer is of an earlier channel. -/
theorem rebuild_keeps_legacy_iff {c : Catalogue} (h : c.Reachable) {fate : Fate}
    (hf : fate.runs = true) :
    let c' := (c.rebuildAs fate).2
    (c.rebuildAs fate).1 = .ok () ∧
    (∀ id, c'.index.bucket id = c.index.bucket id ↔
      (c.index.bucket id).Pairwise fun x y => x.channel.slot ≤ y.channel.slot) ∧
    ∀ id preferred, c'.resolveLegacy id preferred = c.resolveLegacy id preferred ↔
      ∀ x, c.resolveLegacy id preferred = some x →
        ∀ y ∈ c.index.candidates id preferred, x.channel.slot ≤ y.channel.slot := by
  have hc := h.coherent
  obtain ⟨hok, _, hd, hc', hr⟩ := Registry.rebuild_ok hc
  obtain ⟨hresult, hreg⟩ := c.rebuildAs_of_runs hf
  rw [← hresult] at hok
  rw [← hreg] at hd hc' hr
  have hsame := hc.sameByChannel_bucket hc' hd
  rw [← hd] at hr
  have horder := hc'.inOrder_bucket hr
  refine ⟨hok, fun id => (hsame id).eq_iff_inOrder (horder id), ?_⟩
  intro id preferred
  have hkeep := (Index.sameByChannel_candidates (hsame id) preferred).head?_eq_iff
    (Index.inOrder_candidates (horder id) preferred)
  rw [← Index.byLegacyId?_eq_head?, ← Index.byLegacyId?_eq_head?] at hkeep
  exact hkeep

theorem rebuild_keeps_legacy_iff_withGauge : withGauge.Reachable ∧ Fate.inline.runs = true ∧
    (withGauge.rebuildAs .inline).2.resolveLegacy gauge.legacyId none ≠
      withGauge.resolveLegacy gauge.legacyId none := by
  refine ⟨reachable_withGauge, rfl, fun he => ?_⟩
  obtain ⟨_, _, hkeep⟩ :=
    rebuild_keeps_legacy_iff reachable_withGauge (rfl : Fate.inline.runs = true)
  obtain ⟨x, y, ys, hb, hx, hlt⟩ := bucket_withGauge
  have hy : withGauge.resolveLegacy gauge.legacyId none = some y := by
    rw [resolveLegacy, Index.byLegacyId?, hb]
    rfl
  rw [← hb] at hx
  have hle := (hkeep gauge.legacyId none).mp he y hy x hx
  exact absurd hlt (Fin.not_lt.mpr hle)

end Catalogue

end WireCatalog
