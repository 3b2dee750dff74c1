import WireCatalog.Proofs.Claims
import Mathlib.Data.List.Find

/-! # Histories that merge the directories

An index that grows with its directories meets the channels in the order of the registrations, a
build meets them in order of enumeration. `DirectorySet.Merged` is what both orders have in common:
the packet types and the claims are those of the directories, and within each channel the order is
that of its directory, for the claims of the entries and for those of the retired names.

Where no entry claims a retired name (`DirectorySet.Unclaimed`), a merged history decides every
look-up: `Merged.firstClaimant_eq` for the names, `Merged.filter_collisions` for the collisions of a
channel and `Merged.byKey?` for the wire keys. -/

namespace WireCatalog

namespace Claim

/-- A claim of an entry on a name of channel `c`. -/
def isEntryOf (c : Channel) (cl : Claim) : Bool := cl.channel == c && cl.kind != .retired

/-- A claim of a retired name on channel `c`. -/
def isRetiredOf (c : Channel) (cl : Claim) : Bool := cl.channel == c && cl.kind == .retired

theorem isEntryOf_iff {c : Channel} {cl : Claim} :
    cl.isEntryOf c = true ↔ cl.channel = c ∧ cl.kind ≠ .retired := by
  simp [isEntryOf]

theorem isRetiredOf_iff {c : Channel} {cl : Claim} :
    cl.isRetiredOf c = true ↔ cl.channel = c ∧ cl.kind = .retired := by
  simp [isRetiredOf]

theorem isEntryOf_or_isRetiredOf (cl : Claim) :
    cl.isEntryOf cl.channel = true ∨ cl.isRetiredOf cl.channel = true := by
  rw [isEntryOf_iff, isRetiredOf_iff]
  by_cases hk : cl.kind = .retired
  · exact .inr ⟨rfl, hk⟩
  · exact .inl ⟨rfl, hk⟩

end Claim

namespace DirectorySet

/-- No entry has a retired name of its channel among its aliases. -/
def Unclaimed (s : DirectorySet) : Prop :=
  ∀ c, ∀ r ∈ (s.get c).retired, ∀ x ∈ (s.get c).entries, r.name ∉ x.aliases

theorem Unclaimed.append {s : DirectorySet} (h : s.Unclaimed) {c : Channel} {x : PacketType}
    (hx : ∀ r ∈ (s.get c).retired, r.name ∉ x.aliases) :
    Unclaimed (PerChannel.set s c ((s.get c).append x)) := by
  refine PerChannel.forall_set
    (P := fun _ (d : Directory) => ∀ r ∈ d.retired, ∀ y ∈ d.entries, r.name ∉ y.aliases) h ?_
  intro r hr y hy
  rcases List.mem_append.mp hy with hy | hy
  · exact h c r hr y hy
  · rw [List.mem_singleton.mp hy]
    exact hx r hr

/-- The packet types and the claims of all directories, merged with the order of each directory
kept. -/
structure Merged (s : DirectorySet) (xs : List PacketType) (cs : List Claim) : Prop where
  packetTypes : ∀ c, xs.filter (·.channel == c) = (s.get c).entries
  entryClaims : ∀ c, cs.filter (Claim.isEntryOf c) = (s.get c).entryClaims
  retiredClaims : ∀ c, cs.filter (Claim.isRetiredOf c) = (s.get c).retiredClaims

variable {s : DirectorySet} {xs ys : List PacketType} {cs ds : List Claim}

/-! ### The claims of sound directories -/

theorem Sound.isEntryOf_of_mem (h : s.Sound) {c : Channel} {cl : Claim}
    (hcl : cl ∈ (s.get c).entryClaims) : cl.isEntryOf c = true := by
  obtain ⟨x, hx, hcl⟩ := List.mem_flatMap.mp hcl
  obtain ⟨hc, hk, _⟩ := PacketType.mem_claims hcl
  exact Claim.isEntryOf_iff.mpr ⟨hc.trans (h.channel_of_mem hx), hk⟩

theorem Sound.isRetiredOf_of_mem (h : s.Sound) {c : Channel} {cl : Claim}
    (hcl : cl ∈ (s.get c).retiredClaims) : cl.isRetiredOf c = true := by
  obtain ⟨r, _, rfl⟩ := List.mem_map.mp hcl
  exact Claim.isRetiredOf_iff.mpr ⟨h.channel c, rfl⟩

theorem Sound.mem_retiredClaims (h : s.Sound) {c : Channel} {r : RetiredName}
    (hr : r ∈ (s.get c).retired) :
    ⟨c, .retired, r.target, r.name⟩ ∈ (s.get c).retiredClaims :=
  List.mem_map.mpr ⟨r, hr, by rw [h.channel c]⟩

theorem Sound.channel_of_mem_claims (h : s.Sound) {c : Channel} {cl : Claim}
    (hcl : cl ∈ (s.get c).claims) : cl.channel = c := by
  rcases List.mem_append.mp hcl with hcl | hcl
  · exact (Claim.isEntryOf_iff.mp (h.isEntryOf_of_mem hcl)).1
  · exact (Claim.isRetiredOf_iff.mp (h.isRetiredOf_of_mem hcl)).1

/-- No name of a channel is claimed both by an entry and as a retired name. -/
theorem Sound.claims_apart (h : s.Sound) (hu : s.Unclaimed) {c : Channel} {cl cl' : Claim}
    (hcl : cl ∈ (s.get c).entryClaims) (hcl' : cl' ∈ (s.get c).retiredClaims) :
    cl.name ≠ cl'.name := by
  obtain ⟨x, hx, hcl⟩ := List.mem_flatMap.mp hcl
  obtain ⟨r, hr, rfl⟩ := List.mem_map.mp hcl'
  obtain ⟨_, _, _, hn | hn⟩ := PacketType.mem_claims hcl
  · rw [hn]
    exact (h.each c).name_ne_retired hx hr
  · intro he
    rw [he] at hn
    exact hu c r hr x hx hn

/-- Of the claims of all channels, a test for one channel leaves those of its directory only. -/
theorem Sound.filter_claims (h : s.Sound) {c : Channel} {p : Claim → Bool}
    (hp : ∀ cl, p cl = true → cl.channel = c) : s.claims.filter p = (s.get c).claims.filter p := by
  have hclaims : s.claims = Channel.all.flatMap fun c => (s.get c).claims := by
    simp [claims, PerChannel.toList, List.flatMap_map]
  rw [hclaims, List.filter_flatMap, Channel.flatMap_all (c := c)]
  intro c' hc'
  refine List.filter_eq_nil_iff.mpr fun cl hcl hpc => hc' ?_
  rw [← hp cl hpc, h.channel_of_mem_claims hcl]

/-- A build merges the directories. -/
theorem Sound.merged (h : s.Sound) : s.Merged (s.enumerate true) s.claims where
  packetTypes := h.filter_enumerate
  entryClaims c := by
    rw [h.filter_claims fun cl hcl => (Claim.isEntryOf_iff.mp hcl).1, Directory.claims,
      List.filter_append, List.filter_eq_self.mpr fun cl hcl => h.isEntryOf_of_mem hcl,
      List.filter_eq_nil_iff.mpr, List.append_nil]
    intro cl hcl he
    exact (Claim.isEntryOf_iff.mp he).2 (Claim.isRetiredOf_iff.mp (h.isRetiredOf_of_mem hcl)).2
  retiredClaims c := by
    rw [h.filter_claims fun cl hcl => (Claim.isRetiredOf_iff.mp hcl).1, Directory.claims,
      List.filter_append, List.filter_eq_nil_iff.mpr, List.nil_append,
      List.filter_eq_self.mpr fun cl hcl => h.isRetiredOf_of_mem hcl]
    intro cl hcl he
    exact (Claim.isEntryOf_iff.mp (h.isEntryOf_of_mem hcl)).2 (Claim.isRetiredOf_iff.mp he).2

namespace Merged

/-! ### Packet types -/

theorem mem_iff (h : s.Merged xs cs) {x : PacketType} :
    x ∈ xs ↔ x ∈ (s.get x.channel).entries := by
  rw [← h.packetTypes, List.mem_filter]
  simp

theorem perm (h : s.Merged xs cs) (h' : s.Merged ys ds) : xs.Perm ys := by
  rw [List.perm_iff_count]
  intro x
  have hx : ∀ zs : List PacketType,
      zs.count x = (zs.filter (·.channel == x.channel)).count x :=
    fun zs => (List.count_filter (by simp)).symm
  rw [hx xs, hx ys, h.packetTypes, h'.packetTypes]

/-- The packet type that an index has for a wire key is the one that the directory finds. -/
theorem byKey? (h : s.Merged xs cs) {ix : Index} (hr : ix.Records xs cs) (k : WireKey) :
    ix.byKey? k = (s.get k.channel).byId? k.id := by
  rw [Index.byKey?, hr.known, List.find?_filter, Directory.byId?]
  by_cases hk : k.id = unknownId
  · rw [if_pos hk, List.find?_eq_none]
    intro x _ hx
    obtain ⟨hx, he⟩ := of_decide_eq_true hx
    rw [WireKey.isKnown_iff] at hx
    rw [beq_iff_eq.mp he] at hx
    exact hx hk
  · rw [if_neg hk, ← h.packetTypes, List.find?_filter]
    refine List.find?_congr fun x _ => decide_eq_decide.mpr ?_
    rw [WireKey.isKnown_iff, beq_iff_eq, beq_iff_eq, beq_iff_eq, WireKey.eq_iff]
    constructor
    · rintro ⟨_, hc, hi⟩
      exact ⟨hc, hi⟩
    · rintro ⟨hc, hi⟩
      exact ⟨hi ▸ hk, hc, hi⟩

theorem mem_bucket (h : s.Merged xs cs) {ix : Index} (hr : ix.Records xs cs) {id : Int}
    {x : PacketType} :
    x ∈ ix.bucket id ↔ id ≠ unknownId ∧ x ∈ (s.get x.channel).entries ∧ x.legacyId = id := by
  rw [Index.bucket, hr.legacy, List.mem_filter, List.mem_filter, h.mem_iff, bne_iff_ne, beq_iff_eq]
  constructor
  · rintro ⟨⟨hx, hl⟩, rfl⟩
    exact ⟨hl, hx, rfl⟩
  · rintro ⟨hl, hx, rfl⟩
    exact ⟨⟨hx, hl⟩, rfl⟩

/-! ### Names -/

theorem mem_entryClaims (h : s.Merged xs cs) {cl : Claim} (hcl : cl ∈ cs)
    (hk : cl.isEntryOf cl.channel = true) : cl ∈ (s.get cl.channel).entryClaims := by
  rw [← h.entryClaims]
  exact List.mem_filter.mpr ⟨hcl, hk⟩

theorem mem_retiredClaims (h : s.Merged xs cs) {cl : Claim} (hcl : cl ∈ cs)
    (hk : cl.isRetiredOf cl.channel = true) : cl ∈ (s.get cl.channel).retiredClaims := by
  rw [← h.retiredClaims]
  exact List.mem_filter.mpr ⟨hcl, hk⟩

/-- A claim stems from an entry that has the name, or from a retired name of its claimant. -/
theorem claim_cases (h : s.Merged xs cs) {cl : Claim} (hcl : cl ∈ cs) :
    (cl.claimant ∈ (s.get cl.channel).entries ∧
      (cl.name = cl.claimant.name ∨ cl.name ∈ cl.claimant.aliases)) ∨
    ∃ r ∈ (s.get cl.channel).retired, r.name = cl.name ∧ r.target = cl.claimant := by
  rcases cl.isEntryOf_or_isRetiredOf with hk | hk
  · obtain ⟨x, hx, hm⟩ := List.mem_flatMap.mp (h.mem_entryClaims hcl hk)
    obtain ⟨_, _, rfl, hn⟩ := PacketType.mem_claims hm
    exact .inl ⟨hx, hn⟩
  · obtain ⟨r, hr, he⟩ := List.mem_map.mp (h.mem_retiredClaims hcl hk)
    refine .inr ⟨r, hr, ?_⟩
    rw [← he]
    exact ⟨rfl, rfl⟩

/-- The claims on a name are all of entries or all of retired names. -/
theorem filter_name (h : s.Merged xs cs) (hs : s.Sound) (hu : s.Unclaimed) (c : Channel)
    (n : String) :
    cs.filter (fun cl => cl.channel == c && cl.name == n) =
      if ∃ r ∈ (s.get c).retired, r.name = n then (s.get c).retiredClaims.filter (·.name == n)
      else (s.get c).entryClaims.filter (·.name == n) := by
  -- A history may interleave the two kinds of claims in any way, but not those on one name.
  by_cases hr : ∃ r ∈ (s.get c).retired, r.name = n
  · rw [if_pos hr, ← h.retiredClaims, List.filter_filter]
    refine List.filter_congr fun cl hcl => Bool.eq_iff_iff.mpr ?_
    rw [Bool.and_eq_true, Bool.and_eq_true, beq_iff_eq, beq_iff_eq]
    constructor
    · rintro ⟨rfl, rfl⟩
      refine ⟨rfl, cl.isEntryOf_or_isRetiredOf.resolve_left fun hk => ?_⟩
      obtain ⟨r, hr, hn⟩ := hr
      exact hs.claims_apart hu (h.mem_entryClaims hcl hk) (hs.mem_retiredClaims hr) hn.symm
    · rintro ⟨hn, hk⟩
      exact ⟨(Claim.isRetiredOf_iff.mp hk).1, hn⟩
  · rw [if_neg hr, ← h.entryClaims, List.filter_filter]
    refine List.filter_congr fun cl hcl => Bool.eq_iff_iff.mpr ?_
    rw [Bool.and_eq_true, Bool.and_eq_true, beq_iff_eq, beq_iff_eq]
    constructor
    · rintro ⟨rfl, rfl⟩
      refine ⟨rfl, cl.isEntryOf_or_isRetiredOf.resolve_right fun hk => hr ?_⟩
      obtain ⟨r, hr, he⟩ := List.mem_map.mp (h.mem_retiredClaims hcl hk)
      exact ⟨r, hr, congrArg Claim.name he⟩
    · rintro ⟨hn, hk⟩
      exact ⟨(Claim.isEntryOf_iff.mp hk).1, hn⟩

/-- All merged histories give a name to the same packet type. -/
theorem firstClaimant_eq (h : s.Merged xs cs) (h' : s.Merged ys ds) (hs : s.Sound)
    (hu : s.Unclaimed) : firstClaimant cs = firstClaimant ds := by
  funext c n
  apply firstClaimant_congr
  rw [h.filter_name hs hu, h'.filter_name hs hu]

/-- A retired name stands for its target. -/
theorem firstClaimant_retired (h : s.Merged xs cs) (hs : s.Sound) (hu : s.Unclaimed) {c : Channel}
    {r : RetiredName} (hr : r ∈ (s.get c).retired) : firstClaimant cs c r.name = some r.target := by
  have hclaim := hs.mem_retiredClaims hr
  have hmem : ⟨c, .retired, r.target, r.name⟩ ∈ cs :=
    List.mem_of_mem_filter (h.retiredClaims c ▸ hclaim)
  obtain ⟨y, hy⟩ := Option.isSome_iff_exists.mp (firstClaimant_isSome hmem)
  obtain ⟨cl, hcl, rfl, hn, rfl⟩ := mem_of_firstClaimant hy
  rcases cl.isEntryOf_or_isRetiredOf with hk | hk
  · exact absurd hn (hs.claims_apart hu (h.mem_entryClaims hcl hk) hclaim)
  · obtain ⟨r', hr', he⟩ := List.mem_map.mp (h.mem_retiredClaims hcl hk)
    have hn' : r'.name = r.name := (congrArg Claim.name he).trans hn
    obtain rfl := (hs.each cl.channel).retired_inj hr' hr hn'
    rw [hy]
    exact congrArg some (congrArg Claim.claimant he).symm

/-- No claim of a retired name is lost. -/
theorem loss?_retired (h : s.Merged xs cs) (hs : s.Sound) (hu : s.Unclaimed) {cl : Claim}
    (hcl : cl ∈ cs) (hk : cl.kind = .retired) : cl.loss? (firstClaimant cs) = none := by
  obtain ⟨r, hr, he⟩ :=
    List.mem_map.mp (h.mem_retiredClaims hcl (Claim.isRetiredOf_iff.mpr ⟨rfl, hk⟩))
  have hn : r.name = cl.name := congrArg Claim.name he
  have ht : r.target = cl.claimant := congrArg Claim.claimant he
  have hf := h.firstClaimant_retired hs hu hr
  rw [hn, ht] at hf
  simp [Claim.loss?, hf]

/-- The collisions of a channel are the losses of the claims of its entries, in order. -/
theorem filter_collisions (h : s.Merged xs cs) (hs : s.Sound) (hu : s.Unclaimed) {ix : Index}
    (hr : ix.Records xs cs) (c : Channel) :
    ix.collisions.filter (·.channel == c) =
      (s.get c).entryClaims.filterMap (Claim.loss? (firstClaimant cs)) := by
  rw [hr.collisions, ← h.entryClaims, List.filter_filterMap, List.filterMap_filter]
  refine List.filterMap_congr fun cl hcl => ?_
  cases hl : cl.loss? (firstClaimant cs) with
  | none => simp
  | some l =>
      have hk : cl.kind ≠ .retired := by
        intro hk
        rw [h.loss?_retired hs hu hcl hk] at hl
        cases hl
      have hc := Claim.channel_of_loss? hl
      by_cases he : cl.channel = c <;> simp [Claim.isEntryOf, hc, he, hk]

/-! ### A new entry -/

theorem filter_isEntryOf_claims (x : PacketType) (c : Channel) :
    x.claims.filter (Claim.isEntryOf c) = if c = x.channel then x.claims else [] := by
  by_cases hc : c = x.channel
  · rw [if_pos hc, List.filter_eq_self]
    intro cl hcl
    obtain ⟨hx, hk, _⟩ := PacketType.mem_claims hcl
    exact Claim.isEntryOf_iff.mpr ⟨hx.trans hc.symm, hk⟩
  · rw [if_neg hc, List.filter_eq_nil_iff]
    intro cl hcl he
    exact hc ((Claim.isEntryOf_iff.mp he).1.symm.trans (PacketType.mem_claims hcl).1)

theorem filter_isRetiredOf_claims (x : PacketType) (c : Channel) :
    x.claims.filter (Claim.isRetiredOf c) = [] := by
  rw [List.filter_eq_nil_iff]
  intro cl hcl he
  exact (PacketType.mem_claims hcl).2.1 (Claim.isRetiredOf_iff.mp he).2

/-- A packet type that is appended to its directory comes last in the history. -/
theorem append (h : s.Merged xs cs) (x : PacketType) :
    Merged (PerChannel.set s x.channel ((s.get x.channel).append x)) (xs ++ [x])
      (cs ++ x.claims) where
  packetTypes c := by
    rw [List.filter_append, h.packetTypes]
    by_cases hc : x.channel = c
    · subst hc
      rw [PerChannel.get_set_self]
      simp [Directory.append]
    · rw [PerChannel.get_set_of_ne _ _ hc]
      simp [hc]
  entryClaims c := by
    rw [List.filter_append, h.entryClaims, filter_isEntryOf_claims]
    by_cases hc : x.channel = c
    · subst hc
      rw [PerChannel.get_set_self]
      simp [Directory.entryClaims, Directory.append]
    · rw [PerChannel.get_set_of_ne _ _ hc, if_neg (Ne.symm hc), List.append_nil]
  retiredClaims c := by
    rw [List.filter_append, h.retiredClaims, filter_isRetiredOf_claims, List.append_nil]
    by_cases hc : x.channel = c
    · subst hc
      rw [PerChannel.get_set_self]
      rfl
    · rw [PerChannel.get_set_of_ne _ _ hc]

end Merged

end DirectorySet

end WireCatalog
