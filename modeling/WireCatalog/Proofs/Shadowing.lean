import WireCatalog.Proofs.Claims
import WireCatalog.Proofs.PacketName
import WireCatalog.Proofs.Representation

/-! # Names of a directory in a built index

A directory takes a name as it is. An index tries the canonical form of the name first, and keeps
account only of clashes between equal names.

What a directory knows under a name claims that name in a build (`Directory.Sound.exists_claim`). So
the name is bound to it, or the loss is recorded (`Index.Claimed.bound_or_lost`). A name that is
bound to it leads to something else only if its canonical form is bound to that
(`Index.byName?_of_bound`), and this is not recorded as a collision. -/

namespace WireCatalog

/-- What a directory knows under a name makes a claim on it. -/
theorem Directory.Sound.exists_claim {d : Directory} (h : d.Sound) {n : String} {x : PacketType}
    (hn : d.byName? n = some x) :
    ∃ cl ∈ d.claims, cl.channel = d.channel ∧ cl.name = n ∧ cl.claimant = x := by
  rcases h.byName?_eq_some_iff.mp hn with ⟨hx, rfl⟩ | hr
  · refine ⟨⟨x.channel, .symbolic, x, x.name⟩, ?_, h.channel x hx, rfl, rfl⟩
    exact List.mem_append_left _ (List.mem_flatMap.mpr ⟨x, hx, List.mem_cons_self⟩)
  · refine ⟨⟨d.channel, .retired, x, n⟩, ?_, rfl, rfl, rfl⟩
    exact List.mem_append_right _ (List.mem_map.mpr ⟨⟨n, x⟩, hr, rfl⟩)

namespace Index

variable {ix : Index}

/-- A claim is met, or its loss is recorded. -/
theorem Claimed.bound_or_lost {cs : List Claim} (h : ix.Claimed cs) {cl : Claim} (hcl : cl ∈ cs) :
    ix.bound? cl.channel cl.name = some cl.claimant ∨
      ∃ l ∈ ix.collisions, l.channel = cl.channel ∧ l.name = cl.name ∧
        l.incoming = cl.claimant := by
  obtain ⟨y, hy⟩ := Option.isSome_iff_exists.mp (firstClaimant_isSome hcl)
  by_cases he : y = cl.claimant
  · left
    rw [h.bound, hy, he]
  · right
    have hloss : cl.loss? (firstClaimant cs) =
        some ⟨cl.channel, cl.name, cl.kind, y, cl.claimant⟩ := by
      rw [Claim.loss?, hy]
      exact if_neg he
    rw [h.collisions]
    exact ⟨_, List.mem_filterMap.mpr ⟨cl, hcl, hloss⟩, rfl, rfl, rfl⟩

/-- A bound name leads to what it is bound to, or its canonical form, which is a different name, is
bound to something else. -/
theorem byName?_of_bound {c : Channel} {n : String} {x : PacketType}
    (h : ix.bound? c n = some x) :
    ix.byName? c n = some x ∨
      (PacketName.isQualified n = false ∧ ∃ y, y ≠ x ∧
        ix.bound? c (PacketName.format c n) = some y ∧ ix.byName? c n = some y) := by
  rw [byName?, h]
  cases hq : PacketName.isQualified n with
  | true =>
      left
      rw [PacketName.format_of_isQualified c hq, h, Option.some_or]
  | false =>
      cases hy : ix.bound? c (PacketName.format c n) with
      | none => exact .inl rfl
      | some y =>
          by_cases he : y = x
          · left
            rw [he, Option.some_or]
          · exact .inr ⟨rfl, y, he, rfl, rfl⟩

/-- **No name is lost without a trace.** Take the index of any directories that adoptions and
retirements can make, and a name that one of them knows. The index finds the same packet type under
the name, or it has a collision on that name in which the packet type lost it, or the name is bound
to the packet type but is not qualified and has a canonical form that is bound to another one, which
is found instead. -/
theorem names_found_lost_or_shadowed {s : DirectorySet} (hs : DirectorySet.empty.Steps s) :
    ∃ ix, build s = .ok ix ∧ ∀ c n x, (s.get c).byName? n = some x →
      ix.byName? c n = some x ∨
      (∃ l ∈ ix.collisions, l.channel = c ∧ l.name = n ∧ l.incoming = x) ∨
      (ix.bound? c n = some x ∧ PacketName.isQualified n = false ∧ ∃ y, y ≠ x ∧
        ix.bound? c (PacketName.format c n) = some y ∧ ix.byName? c n = some y) := by
  have hsound := DirectorySet.sound_empty.steps hs
  obtain ⟨ix, hb, hr⟩ := build_records hsound
  refine ⟨ix, hb, fun c n x hn => ?_⟩
  obtain ⟨cl, hcl, hchannel, rfl, rfl⟩ := (hsound.each c).exists_claim hn
  rw [hsound.channel c] at hchannel
  subst hchannel
  rcases hr.bound_or_lost (DirectorySet.mem_claims.mpr ⟨_, hcl⟩) with hbound | hlost
  · rcases byName?_of_bound hbound with hfound | hshadowed
    · exact .inl hfound
    · exact .inr (.inr ⟨hbound, hshadowed⟩)
  · exact .inr (.inl hlost)

/-! ### Two packet types called Pong -/

/-- A packet type whose canonical name is that of `Pong`. -/
def canonicalPong : PacketType :=
  ((Declaration.named ⟨.status, .serverToClient⟩ "Pong").withId 1).bind ⟨"PONG", false, false⟩ 0

/-- A packet type whose symbolic name is `Pong`. -/
def symbolicPong : PacketType :=
  ((Declaration.named ⟨.status, .serverToClient⟩ "Novelty").withId 112).bind
    ⟨"Pong", false, false⟩ 1

/-- The directories that adopted both. -/
def pongs : DirectorySet :=
  let c : Channel := ⟨.status, .serverToClient⟩
  DirectorySet.empty.set c (((Directory.empty c).append canonicalPong).append symbolicPong)

theorem steps_pongs : DirectorySet.empty.Steps pongs := by
  let c : Channel := ⟨.status, .serverToClient⟩
  let s : DirectorySet := DirectorySet.empty.set c ((Directory.empty c).append canonicalPong)
  have hcanonical : DirectorySet.empty.adopt c canonicalPong.toDeclaration
      canonicalPong.toBinding 0 = .ok (.adopted canonicalPong, s) := rfl
  have hsymbolic : s.adopt c symbolicPong.toDeclaration symbolicPong.toBinding 1 =
      .ok (.adopted symbolicPong, pongs) := rfl
  exact .tail (.single (.adopt hcanonical)) (.adopt hsymbolic)

theorem build_pongs : ∃ ix, build pongs = .ok ix ∧
    ix.byName? symbolicPong.channel "Pong" = some canonicalPong ∧ ix.collisions = [] :=
  ⟨_, rfl, by decide, rfl⟩

/-- The name `Pong` is bound to the packet type that is called so, and leads to the other one. -/
theorem names_found_lost_or_shadowed_pong : DirectorySet.empty.Steps pongs ∧
    (pongs.get symbolicPong.channel).byName? "Pong" = some symbolicPong ∧
    ∃ ix, build pongs = .ok ix ∧ ix.bound? symbolicPong.channel "Pong" = some symbolicPong ∧
      ix.byName? symbolicPong.channel "Pong" = some canonicalPong := by
  have hn : (pongs.get symbolicPong.channel).byName? "Pong" = some symbolicPong := by decide
  obtain ⟨ix, hb, hfound, hnone⟩ := build_pongs
  obtain ⟨ix', hb', hnames⟩ := names_found_lost_or_shadowed steps_pongs
  obtain rfl := Except.ok.inj (hb.symm.trans hb')
  refine ⟨steps_pongs, hn, ix, hb, ?_, hfound⟩
  rcases hnames _ _ _ hn with h | ⟨l, hl, _⟩ | ⟨hbound, _⟩
  · exact absurd (Option.some.inj (hfound.symm.trans h)) (by decide)
  · rw [hnone] at hl
    cases hl
  · exact hbound

/-- The name leads elsewhere than in the directory, and no collision says so. -/
theorem shadowed_without_collision : DirectorySet.empty.Steps pongs ∧
    (pongs.get symbolicPong.channel).byName? "Pong" = some symbolicPong ∧
    ∃ ix, build pongs = .ok ix ∧
      ix.byName? symbolicPong.channel "Pong" ≠ some symbolicPong ∧
      ¬∃ l ∈ ix.collisions, l.channel = symbolicPong.channel ∧ l.name = "Pong" := by
  obtain ⟨ix, hb, hfound, hnone⟩ := build_pongs
  refine ⟨steps_pongs, by decide, ix, hb, ?_, ?_⟩
  · rw [hfound]
    decide
  · rw [hnone]
    exact fun ⟨l, hl, _⟩ => List.not_mem_nil hl

end Index

end WireCatalog
