import WireCatalog.Proofs.Additions

/-! # Adding again

A packet type that was accepted is accepted again. Its wire key and its legacy id are filed and all
its names are bound, so the tables stay as they are (`foldl_claim_of_bound`). A name that belongs to
another packet type is lost once more, and each of these losses is recorded once more. So adding
again changes nothing exactly if all names lead to the packet type itself (`losses_eq_nil_iff`).

`readdition_repeats_losses` is the case of an index that was built and then took any additions. -/

namespace WireCatalog

theorem Claim.loss?_eq_none_iff {owner : Channel → String → Option PacketType} {cl : Claim}
    (h : (owner cl.channel cl.name).isSome) :
    cl.loss? owner = none ↔ owner cl.channel cl.name = some cl.claimant := by
  obtain ⟨y, hy⟩ := Option.isSome_iff_exists.mp h
  rw [loss?, hy]
  simp

/-- The collisions that the claims of a packet type lead to where the names have the given
owners. -/
def PacketType.losses (x : PacketType) (owner : Channel → String → Option PacketType) :
    List Collision :=
  x.claims.filterMap (Claim.loss? owner)

/-- A packet type loses no name exactly if all its names lead to it. -/
theorem PacketType.losses_eq_nil_iff {x : PacketType}
    {owner : Channel → String → Option PacketType}
    (h : ∀ cl ∈ x.claims, (owner cl.channel cl.name).isSome) :
    x.losses owner = [] ↔ ∀ n, x.answersTo n = true → owner x.channel n = some x := by
  rw [losses, List.filterMap_eq_nil_iff]
  constructor
  · intro hnone n hn
    obtain ⟨cl, hcl, hchannel, rfl⟩ := x.exists_claim hn
    rw [← hchannel, (Claim.loss?_eq_none_iff (h cl hcl)).mp (hnone cl hcl),
      (mem_claims hcl).2.2.1]
  · intro hown cl hcl
    obtain ⟨hchannel, _, hclaimant, hname⟩ := mem_claims hcl
    rw [Claim.loss?_eq_none_iff (h cl hcl), hchannel, hclaimant]
    exact hown _ ((x.answersTo_iff _).mpr hname)

namespace Index

variable {ix : Index}

/-! ### Claims on bound names -/

theorem claim_of_bound {cl : Claim} (h : (ix.bound? cl.channel cl.name).isSome) :
    ix.claim cl = { ix with collisions := ix.collisions ++ (cl.loss? ix.bound?).toList } := by
  obtain ⟨y, hy⟩ := Option.isSome_iff_exists.mp h
  unfold claim claimName Claim.loss?
  rw [hy]
  by_cases he : y = cl.claimant <;> simp [he]

/-- Claims on bound names bind nothing: all that they can do is lose. -/
theorem foldl_claim_of_bound {ds : List Claim}
    (h : ∀ cl ∈ ds, (ix.bound? cl.channel cl.name).isSome) :
    ds.foldl claim ix =
      { ix with collisions := ix.collisions ++ ds.filterMap (Claim.loss? ix.bound?) } := by
  induction ds generalizing ix with
  | nil => simp
  | cons cl ds ih =>
      obtain ⟨hcl, hds⟩ := List.forall_mem_cons.mp h
      -- The names are those of `ix` still, so the later claims meet the same owners.
      rw [List.foldl_cons, claim_of_bound hcl]
      generalize hix : { ix with collisions := ix.collisions ++ (cl.loss? ix.bound?).toList } = ix'
      have hbound : ix'.bound? = ix.bound? := by rw [← hix]; rfl
      rw [← hbound] at hds
      rw [ih hds, hbound, ← hix, List.append_assoc, List.filterMap_cons]
      cases cl.loss? ix.bound? <;> rfl

namespace Records

variable {xs : List PacketType} {cs : List Claim} {x : PacketType}

theorem isSome_bound? (h : ix.Records xs cs) {cl : Claim} (hcl : cl ∈ cs) :
    (ix.bound? cl.channel cl.name).isSome := by
  rw [h.bound]
  exact firstClaimant_isSome hcl

/-- A packet type that was accepted and has made its claims repeats its losses. -/
theorem add_again (h : ix.Records xs cs) (hp : xs.Pairwise PacketType.Apart) (hx : x ∈ xs)
    (hcs : x.claims ⊆ cs) :
    ix.add x = .ok { ix with collisions := ix.collisions ++ x.losses ix.bound? } := by
  rw [h.add_eq_claimNames hp hx, claimNames_eq_foldl,
    foldl_claim_of_bound fun cl hcl => h.isSome_bound? (hcs hcl), PacketType.losses]

end Records

end Index

/-! ### Built indices -/

/-- A packet type of the directories makes its claims in a build. -/
theorem DirectorySet.claims_subset {s : DirectorySet} {x : PacketType}
    (hx : x ∈ s.enumerate true) : x.claims ⊆ s.claims := by
  intro cl hcl
  obtain ⟨c, hx⟩ := DirectorySet.mem_enumerate.mp hx
  exact mem_claims.mpr ⟨c, List.mem_append_left _ (List.mem_flatMap.mpr ⟨x, hx, hcl⟩)⟩

namespace Index

/-- **Adding again repeats what was lost.** Take the index of any directories that adoptions and
retirements can make, and then any additions to it. A packet type that was accepted, by the build or
by one of the additions, is accepted again. The wire keys, the names and the legacy ids stay as they
are, and the losses of the packet type are recorded again. So nothing changes exactly if every name
that it answers to leads to it. -/
theorem readdition_repeats_losses {s : DirectorySet} (hs : DirectorySet.empty.Steps s) :
    ∃ built, build s = .ok built ∧ ∀ (ys : List PacketType) (x : PacketType),
      x ∈ s.enumerate true ∨ x ∈ built.accepted ys →
      let ix := built.addEach ys
      ∃ ix', ix.add x = .ok ix' ∧
        ix'.known = ix.known ∧ ix'.names = ix.names ∧ ix'.legacy = ix.legacy ∧
        ix'.collisions = ix.collisions ++ x.losses ix.bound? ∧
        (ix' = ix ↔ ∀ n, x.answersTo n = true → ix.bound? x.channel n = some x) := by
  have hsound := DirectorySet.sound_empty.steps hs
  obtain ⟨built, hb, hr⟩ := build_records hsound
  refine ⟨built, hb, fun ys x hx => ?_⟩
  intro ix
  obtain ⟨hr', hp⟩ := hr.addEach hsound.enumerate_apart ys
  have hmem : x ∈ (s.enumerate true ++ built.accepted ys).eraseDups :=
    List.mem_eraseDups.mpr (List.mem_append.mpr hx)
  have hclaims : x.claims ⊆ s.claims ++ (built.accepted ys).flatMap PacketType.claims := by
    rcases hx with hx | hx
    · exact List.subset_append_of_subset_left _ (DirectorySet.claims_subset hx)
    · exact List.subset_append_of_subset_right _ fun cl hcl => List.mem_flatMap.mpr ⟨x, hx, hcl⟩
  refine ⟨_, hr'.add_again hp hmem hclaims, rfl, rfl, rfl, rfl, ?_⟩
  rw [← PacketType.losses_eq_nil_iff fun cl hcl => hr'.isSome_bound? (hclaims hcl)]
  constructor
  · intro he
    exact List.append_right_eq_self.mp (congrArg Index.collisions he)
  · intro hnil
    rw [hnil, List.append_nil]

/-- The packet type that came second to a shared canonical name is accepted again, and the name that
it lost is recorded as lost twice. -/
theorem readdition_repeats_losses_echo :
    let x := echo 1 "ECHO" [] 0
    let z := echo 2 "ECHO_LATE" ["PacketStatusInLate"] 2
    let lost : Collision := ⟨x.channel, "PacketStatusInEcho", .declared, x, z⟩
    DirectorySet.empty.Steps DirectorySet.empty ∧
      ∃ built, build DirectorySet.empty = .ok built ∧ z ∈ built.accepted [x, z] ∧
        (built.addEach [x, z]).collisions = [lost] ∧
        ∃ ix', (built.addEach [x, z]).add z = .ok ix' ∧ ix'.collisions = [lost, lost] ∧
          ix' ≠ built.addEach [x, z] := by
  intro x z lost
  have hs : DirectorySet.empty.Steps DirectorySet.empty := Relation.ReflTransGen.refl
  obtain ⟨built, hb, hagain⟩ := readdition_repeats_losses hs
  obtain rfl : empty = built := Except.ok.inj (Eq.trans (by rfl) hb)
  have hz : z ∈ empty.accepted [x, z] := by decide
  have hlost : (empty.addEach [x, z]).collisions = [lost] := by decide
  obtain ⟨ix', hadd, _, _, _, hcoll, hsame⟩ := hagain [x, z] z (.inr hz)
  refine ⟨hs, empty, hb, hz, hlost, ix', hadd, ?_, fun he => ?_⟩
  · rw [hcoll, hlost]
    decide
  · -- The shared name leads to the packet type that came first.
    exact absurd (hsame.mp he "PacketStatusInEcho" (by decide)) (by decide)

end Index

end WireCatalog
