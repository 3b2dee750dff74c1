import WireCatalog.Proofs.Exclusive

/-! # Look-ups by name over time

A bound name keeps its owner, but a look-up asks for the canonical form of a name before it asks for
the name as it is. So a name that is not canonical, a symbolic name say, leads elsewhere once a new
packet type takes its canonical form. `resolveName_kept_iff` says that nothing else can happen to the
answer of a look-up, whatever the operations. -/

namespace WireCatalog

namespace Snapshot

variable {s s' : Snapshot} {c : Channel} {n : String} {x : PacketType}

namespace Coherent

/-- A name that was free is free as long as no new entry has it. -/
theorem bound?_eq_none_of_new (h : s.Coherent) (h' : s'.Coherent) (hg : s.Grows s')
    (hfree : s.index.bound? c n = none)
    (hother : ∀ y ∈ (s'.directories.get c).entries, y ∉ (s.directories.get c).entries →
      y.name ≠ n ∧ n ∉ y.aliases) : s'.index.bound? c n = none := by
  cases hx : s'.index.bound? c n with
  | none => rfl
  | some y =>
      have hnew := h.notMem_of_bound? h' hg hfree hx
      obtain ⟨hy, hn | hn | ⟨r, hr, hn, ht⟩⟩ := h'.bound?_cases hx
      · exact absurd hn (hother y hy hnew).1
      · exact absurd hn (hother y hy hnew).2
      · rw [hg.retired] at hr
        exact absurd (ht ▸ (h.sound.each c).targets r hr) hnew

theorem isSome_byName?_grows (h : s.Coherent) (h' : s'.Coherent) (hg : s.Grows s')
    (hx : s.index.byName? c n = some x) : (s'.index.byName? c n).isSome := by
  rw [Index.byName?, Option.or_eq_some_iff] at hx
  rw [Index.byName?, Option.isSome_or, Bool.or_eq_true]
  rcases hx with hx | ⟨_, hx⟩
  · left
    rw [h.bound?_of_grows h' hg hx]
    rfl
  · right
    rw [h.bound?_of_grows h' hg hx]
    rfl

/-- The answer of a look-up stays exactly if the canonical form of the name had an owner already or
is taken by no new entry. -/
theorem byName?_kept_iff (h : s.Coherent) (h' : s'.Coherent) (hg : s.Grows s')
    (hx : s.index.byName? c n = some x) :
    s'.index.byName? c n = some x ↔
      (s.index.bound? c (PacketName.format c n)).isSome ∨
      ∀ y ∈ (s'.directories.get c).entries, y ∉ (s.directories.get c).entries →
        y.name ≠ PacketName.format c n ∧ PacketName.format c n ∉ y.aliases := by
  unfold Index.byName? at hx ⊢
  cases hf : s.index.bound? c (PacketName.format c n) with
  | some y =>
      rw [hf, Option.some_or] at hx
      rw [h.bound?_of_grows h' hg hf, Option.some_or, hx]
      exact iff_of_true rfl (.inl rfl)
  | none =>
      rw [hf, Option.none_or] at hx
      rw [h.bound?_of_grows h' hg hx]
      constructor
      · intro hkept
        right
        intro y hy hold
        rw [← not_or]
        intro hn
        -- The canonical form is bound now, to a new entry, and `x` is an old one.
        have hchannel := h'.sound.channel_of_mem hy
        rw [← hchannel] at hy
        have hsome := h'.isSome_bound? hy (hn.imp Eq.symm id)
        rw [hchannel] at hsome
        obtain ⟨z, hz⟩ := Option.isSome_iff_exists.mp hsome
        rw [hz, Option.some_or] at hkept
        rw [Option.some.inj hkept] at hz
        exact h.notMem_of_bound? h' hg hf hz (h.bound?_cases hx).1
      · rintro (hsome | hother)
        · cases hsome
        · rw [h.bound?_eq_none_of_new h' hg hf hother, Option.none_or]

end Coherent

end Snapshot

namespace Catalogue

/-- The catalogue after operations, each with the fate of its task. -/
def performAll (c : Catalogue) : List (Fate × Operation) → Catalogue
  | [] => c
  | (fate, op) :: run => (c.performAs fate op).performAll run

theorem performAll_steps (c : Catalogue) (run : List (Fate × Operation)) :
    c.registry.Steps (c.performAll run).registry := by
  induction run generalizing c with
  | nil => exact .refl
  | cons p run ih =>
      obtain ⟨fate, op⟩ := p
      exact (c.performAs_steps fate op).trans (ih _)

end Catalogue

/-! ### A symbolic name that is taken over -/

/-- What a plan admits takes its canonical name, which was free, when it is registered. -/
theorem Plan.Admits.takes_canonical {p : Plan} {decl : Declaration} (h : p.Admits decl) :
    let c := p.buildLenient []
    let c' := c.performAll [(.inline, .register decl)]
    c.index.bound? decl.channel decl.canonical = none ∧
    ∃ y ∈ (c'.directories.get decl.channel).entries,
      y ∉ (c.directories.get decl.channel).entries ∧ decl.canonical ∈ y.aliases := by
  have hc := p.coherent_buildLenient []
  have hfree := p.bound?_buildLenient [] decl.channel decl.canonical
  rw [(h.2.2 _ List.mem_cons_self).1] at hfree
  obtain ⟨y, s', hy, ho⟩ := h.offer_published
  generalize p.buildLenient [] = c at hc hfree ho ⊢
  have hnew := Directory.mem_of_equivalent?
    (Registry.equivalent?_of_publish (Registry.publish_of_offer ho).1)
  have hcanonical : decl.canonical ∈ y.aliases := by
    rw [hy]
    exact List.mem_cons_self
  refine ⟨hfree, y, hnew, fun hold => ?_, hcanonical⟩
  have hchannel := hc.sound.channel_of_mem hold
  rw [← hchannel] at hold
  have hsome := hc.isSome_bound? hold (.inr hcanonical)
  rw [hchannel] at hsome
  exact Option.not_isSome_iff_eq_none.mpr hfree hsome

namespace Catalogue

/-- A packet type whose own name is the symbolic name of a built-in one. -/
def pong : Declaration := (Declaration.named ⟨.status, .serverToClient⟩ "PONG").withId 112

/-- Nothing has the canonical form of the symbolic name, so `pong` can be registered. -/
theorem admits_pong : standardPlan.Admits pong ∧
    (firstClaimant (standardPlan.enrolled.1.set.get pong.channel).claims pong.channel
      "PONG").isSome := by
  decide +kernel

/-! ### Which answers are kept -/

/-- A name that leads to a packet type leads to one after any operations. It leads to the same one
exactly if its canonical form was bound already or no new packet type of the channel takes it. -/
theorem resolveName_kept_iff {c : Catalogue} (h : c.Reachable) (run : List (Fate × Operation))
    {ch : Channel} {n : String} {x : PacketType} (hx : c.resolveName ch n = some x) :
    let c' := c.performAll run
    (c'.resolveName ch n).isSome ∧
    (c'.resolveName ch n = some x ↔
      (c.index.bound? ch (PacketName.format ch n)).isSome ∨
      ∀ y ∈ (c'.directories.get ch).entries, y ∉ (c.directories.get ch).entries →
        y.name ≠ PacketName.format ch n ∧ PacketName.format ch n ∉ y.aliases) := by
  have hc := h.coherent
  have hsteps := c.performAll_steps run
  have hg := Registry.grows_steps hsteps
  have hc' := Registry.coherent_steps hc hsteps
  exact ⟨hc.isSome_byName?_grows hc' hg hx, hc.byName?_kept_iff hc' hg hx⟩

/-- The symbolic name `PONG` leads to another packet type once `pong` is registered. -/
theorem resolveName_kept_iff_pong : standard.Reachable ∧
    ∃ x, standard.resolveName pong.channel "PONG" = some x ∧
      (standard.performAll [(.inline, .register pong)]).resolveName pong.channel "PONG" ≠
        some x := by
  obtain ⟨hadmits, hbare⟩ := admits_pong
  obtain ⟨hfree, y, hy, hnew, hcanonical⟩ := hadmits.takes_canonical
  have hformat : pong.canonical = PacketName.format pong.channel "PONG" := rfl
  have hstart : standardPlan.buildLenient [] = standard := rfl
  rw [hformat] at hfree hcanonical
  rw [hstart] at hfree
  obtain ⟨x, hx⟩ := Option.isSome_iff_exists.mp hbare
  rw [← standardPlan.bound?_buildLenient [], hstart] at hx
  have hanswer : standard.resolveName pong.channel "PONG" = some x := by
    rw [resolveName, Index.byName?, hfree, Option.none_or]
    exact hx
  refine ⟨reachable_standard, x, hanswer, fun hkept => ?_⟩
  obtain ⟨_, hiff⟩ := resolveName_kept_iff reachable_standard [(.inline, .register pong)] hanswer
  rcases hiff.mp hkept with hsome | hother
  · exact Option.not_isSome_iff_eq_none.mpr hfree hsome
  · exact (hother y hy hnew).2 hcanonical

end Catalogue

end WireCatalog
