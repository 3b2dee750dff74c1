import WireCatalog.Proofs.Decision
import WireCatalog.Proofs.Exclusive

/-! # The own name of what is published

A provisional name is new to its directory, but a look-up by name asks the index, and there it asks
for the canonical form of the name first. So the name may lead to an earlier packet type that has
its canonical form, or the name itself, among its aliases.

`Coherent.byName?_of_published` says where the name of a published packet type leads: to itself if
its aliases have the canonical form of the name, and else to what it led to before, if there was
such a thing. `own_name_found_iff` draws the conclusion for reachable catalogues and all names. -/

namespace WireCatalog

namespace Snapshot.Coherent

variable {s s' : Snapshot} {decl : Declaration} {name : String} {k : ℕ} {x : PacketType}

/-- A name is bound as before, and if it was free it falls to the published packet type that answers
to it. -/
theorem bound?_of_published (h : s.Coherent) (ho : s.offer decl name k = .published x s')
    (n : String) :
    s'.index.bound? x.channel n =
      (s.index.bound? x.channel n).or (if x.answersTo n then some x else none) := by
  have hspec := s.offer_spec decl name k
  rw [ho] at hspec
  obtain ⟨_, _, _, rfl, _, hd⟩ := hspec
  have hentries : (s'.directories.get decl.channel).entries =
      (s.directories.get decl.channel).entries ++ [decl.bind ⟨name, false, false⟩ k] := by
    rw [hd, PerChannel.get_set_self]
    rfl
  have hnew := h.bound?_grows (h.publish ho) (grows_of_published ho) hentries n
  rw [List.flatMap_singleton, PacketType.firstClaimant_claims_eq, Declaration.channel_bind] at hnew
  simp only [true_and] at hnew
  exact hnew

/-- Where the own name of a published packet type leads. -/
theorem byName?_of_published (h : s.Coherent) (ho : s.offer decl name k = .published x s') :
    s'.index.byName? x.channel x.name =
      if PacketName.format x.channel x.name ∈ x.aliases then some x
      else (s.index.byName? x.channel x.name).or (some x) := by
  have hself : x.answersTo x.name = true := (x.answersTo_iff _).mpr (.inl rfl)
  rw [Index.byName?, h.bound?_of_published ho, h.bound?_of_published ho, if_pos hself]
  by_cases halias : PacketName.format x.channel x.name ∈ x.aliases
  · have hcanonical := (x.answersTo_iff _).mpr (.inr halias)
    rw [(h.free_of_published ho).2 _ halias, if_pos hcanonical, if_pos halias, Option.none_or,
      Option.some_or]
  · rw [if_neg halias, Index.byName?]
    by_cases hname : PacketName.format x.channel x.name = x.name
    · rw [hname, if_pos hself, Option.or_self, Option.or_self]
    · have hcanonical : x.answersTo (PacketName.format x.channel x.name) ≠ true := by
        rw [Ne, x.answersTo_iff]
        exact not_or_intro hname halias
      rw [if_neg hcanonical, Option.or_none, Option.or_assoc]

end Snapshot.Coherent

namespace Catalogue

/-- The name of a published packet type leads to it exactly if it led nowhere before, or else if its
canonical form is an alias of the packet type. Otherwise it leads to what it led to before. -/
theorem own_name_found_iff {c : Catalogue} (h : c.Reachable) {decl : Declaration}
    {names : NameStream} {x : PacketType}
    (hp : ((c.withNames names).publish decl).1 = .ok (.published x)) :
    let c' := ((c.withNames names).publish decl).2
    (c'.resolveName x.channel x.name = some x ↔
      c.resolveName x.channel x.name = none ∨ PacketName.format x.channel x.name ∈ x.aliases) ∧
    (c'.resolveName x.channel x.name ≠ some x →
      c'.resolveName x.channel x.name = c.resolveName x.channel x.name) := by
  intro c'
  have hc : (c.withNames names).snapshot.Coherent := h.coherent
  rw [fst_publish] at hp
  obtain ⟨name, ho⟩ := Registry.offer_of_published hp
  obtain ⟨hnew, _⟩ := hc.free_of_published ho
  have hleads : c'.resolveName x.channel x.name =
      if PacketName.format x.channel x.name ∈ x.aliases then some x
      else (c.resolveName x.channel x.name).or (some x) := hc.byName?_of_published ho
  rw [hleads]
  by_cases halias : PacketName.format x.channel x.name ∈ x.aliases
  · rw [if_pos halias]
    exact ⟨iff_of_true rfl (.inr halias), fun hne => absurd rfl hne⟩
  · rw [if_neg halias]
    cases hold : c.resolveName x.channel x.name with
    | none => exact ⟨iff_of_true rfl (.inl rfl), fun hne => absurd rfl hne⟩
    | some y =>
        have hne : y ≠ x := by
          rintro rfl
          exact hnew (hc.mem_of_byName? hold)
        simp [hne, halias]

/-- A plan whose first provisional name is the name of a built-in packet type in other letters. -/
def pongPlan : Plan := { standardPlan with names := .listed ["Pong"] "N-" }

/-- A packet type that the built-in ones do not have. -/
def novelty : Declaration := (Declaration.named ⟨.status, .serverToClient⟩ "Novelty").withId 112

theorem admits_novelty : pongPlan.Admits novelty ∧
    PacketName.format novelty.channel (pongPlan.names 0) ∉ novelty.aliases ∧
    (firstClaimant (pongPlan.enrolled.1.set.get novelty.channel).claims novelty.channel
      (PacketName.format novelty.channel (pongPlan.names 0))).isSome := by
  decide +kernel

theorem withNames_self {c : Catalogue} {names : NameStream} (hnames : c.registry.names = names)
    (hdrawn : c.registry.drawn = 0) : c.withNames names = c := by
  subst hnames
  rw [withNames, ← hdrawn]

/-- What is published as `Pong` is not found by that name, which leads to the built-in `PONG`. -/
theorem own_name_found_iff_novelty : (pongPlan.buildLenient []).Reachable ∧
    ∃ x, (((pongPlan.buildLenient []).withNames pongPlan.names).publish novelty).1 =
        .ok (.published x) ∧
      (((pongPlan.buildLenient []).withNames pongPlan.names).publish novelty).2.resolveName
        x.channel x.name ≠ some x := by
  obtain ⟨hadmits, halias, hbound⟩ := admits_novelty
  have hreachable : (pongPlan.buildLenient []).Reachable := .builtLenient _ _
  obtain ⟨_, hnames, hdrawn⟩ := pongPlan.buildLenient_start []
  obtain ⟨x, s', hx, ho⟩ := hadmits.offer_published
  rw [← pongPlan.bound?_buildLenient []] at hbound
  generalize pongPlan.buildLenient [] = c at hreachable hnames hdrawn ho hbound ⊢
  have hp : ((c.withNames pongPlan.names).publish novelty).1 = .ok (.published x) := by
    rw [withNames_self hnames hdrawn, fst_publish]
    exact (Registry.publish_of_offer ho).1
  have hspec := c.registry.snapshot.offer_spec novelty (c.registry.names c.registry.drawn)
    c.registry.nextSerial
  rw [ho] at hspec
  obtain ⟨_, _, _, hbind, _⟩ := hspec
  have hname : x.name = pongPlan.names 0 := by
    rw [hbind, hnames, hdrawn]
    rfl
  have hchannel : x.channel = novelty.channel := congrArg Declaration.channel hx
  rw [← hchannel, ← hname] at hbound halias
  rw [← hx] at halias
  obtain ⟨hiff, _⟩ := own_name_found_iff hreachable hp
  refine ⟨hreachable, x, hp, fun hfound => ?_⟩
  rcases hiff.mp hfound with hnone | hown
  · rw [resolveName, Index.byName?, Option.or_eq_none_iff] at hnone
    rw [hnone.1] at hbound
    cases hbound
  · exact halias hown

end Catalogue

end WireCatalog
