import WireCatalog.Index.Basic
import WireCatalog.Proofs.Directory

/-! # What an index records

An index is filled by additions of packet types and by claims on names. `Index.Records` says what it
holds after the packet types `xs` were accepted and the claims `cs` were made, in these orders:

* the packet types of `xs` with a known wire key and those with a known legacy id, in order;
* for each name of a channel the packet type that claimed it first (`firstClaimant`);
* one collision for each claim of `cs` whose name another packet type had claimed first, in order
  (`Claim.loss?`).

A packet type claims exactly the names that it answers to, so that among packet types a name belongs
to the first that answers to it (`firstClaimant_flatMap_claims`).

`Claimed.claim` and `Records.add` are the two steps. `build_records` follows a build: it accepts the
packet types of the directories in order of enumeration, and each directory claims the names of its
entries before its retired names (`Directory.claims`). -/

namespace WireCatalog

/-- A claim of a packet type on a name of a channel. -/
structure Claim where
  channel : Channel
  kind : NameKind
  claimant : PacketType
  name : String

/-- The packet type that claims a name of a channel first. -/
def firstClaimant (cs : List Claim) (c : Channel) (n : String) : Option PacketType :=
  (cs.find? fun cl => cl.channel == c && cl.name == n).map (·.claimant)

theorem firstClaimant_append (cs ds : List Claim) (c : Channel) (n : String) :
    firstClaimant (cs ++ ds) c n = (firstClaimant cs c n).or (firstClaimant ds c n) := by
  simp only [firstClaimant, List.find?_append]
  cases cs.find? fun cl => cl.channel == c && cl.name == n <;> rfl

theorem firstClaimant_singleton (cl : Claim) (c : Channel) (n : String) :
    firstClaimant [cl] c n = if cl.channel = c ∧ cl.name = n then some cl.claimant else none := by
  by_cases h : cl.channel = c ∧ cl.name = n
  · simp [firstClaimant, h]
  · rw [if_neg h]
    simpa [firstClaimant] using h

theorem firstClaimant_isSome {cs : List Claim} {cl : Claim} (h : cl ∈ cs) :
    (firstClaimant cs cl.channel cl.name).isSome := by
  rw [firstClaimant, Option.isSome_map, List.find?_isSome]
  exact ⟨cl, h, by simp⟩

theorem mem_of_firstClaimant {cs : List Claim} {c : Channel} {n : String} {x : PacketType}
    (h : firstClaimant cs c n = some x) :
    ∃ cl ∈ cs, cl.channel = c ∧ cl.name = n ∧ cl.claimant = x := by
  obtain ⟨cl, hf, rfl⟩ := Option.map_eq_some_iff.mp h
  have hp := List.find?_some hf
  rw [Bool.and_eq_true, beq_iff_eq, beq_iff_eq] at hp
  exact ⟨cl, List.mem_of_find?_eq_some hf, hp.1, hp.2, rfl⟩

/-- The first claimant of a name depends on the claims on that name alone. -/
theorem firstClaimant_congr {cs ds : List Claim} {c : Channel} {n : String}
    (h : cs.filter (fun cl => cl.channel == c && cl.name == n) =
      ds.filter fun cl => cl.channel == c && cl.name == n) :
    firstClaimant cs c n = firstClaimant ds c n := by
  simp only [firstClaimant, ← List.head?_filter, h]

/-- The collision that a claim leads to where the names have the given owners. -/
def Claim.loss? (owner : Channel → String → Option PacketType) (cl : Claim) : Option Collision :=
  match owner cl.channel cl.name with
  | none => none
  | some y => if y = cl.claimant then none else some ⟨cl.channel, cl.name, cl.kind, y, cl.claimant⟩

theorem Claim.loss?_congr {f g : Channel → String → Option PacketType} {cl : Claim}
    (h : f cl.channel cl.name = g cl.channel cl.name) : cl.loss? f = cl.loss? g := by
  rw [loss?, loss?, h]

theorem Claim.channel_of_loss? {f : Channel → String → Option PacketType} {cl : Claim}
    {l : Collision} (h : cl.loss? f = some l) : l.channel = cl.channel := by
  unfold loss? at h
  split at h
  · cases h
  · split at h
    · cases h
    · rw [← Option.some.inj h]

theorem Claim.kind_of_loss? {f : Channel → String → Option PacketType} {cl : Claim}
    {l : Collision} (h : cl.loss? f = some l) : l.kind = cl.kind := by
  unfold loss? at h
  split at h
  · cases h
  · split at h
    · cases h
    · rw [← Option.some.inj h]

/-- The claims of a packet type: its symbolic name, then its aliases. -/
def PacketType.claims (x : PacketType) : List Claim :=
  ⟨x.channel, .symbolic, x, x.name⟩ :: x.aliases.map fun n => ⟨x.channel, .declared, x, n⟩

theorem PacketType.mem_claims {x : PacketType} {cl : Claim} (h : cl ∈ x.claims) :
    cl.channel = x.channel ∧ cl.kind ≠ .retired ∧ cl.claimant = x ∧
      (cl.name = x.name ∨ cl.name ∈ x.aliases) := by
  rcases List.mem_cons.mp h with rfl | h
  · exact ⟨rfl, nofun, rfl, .inl rfl⟩
  · obtain ⟨n, hn, rfl⟩ := List.mem_map.mp h
    exact ⟨rfl, nofun, rfl, .inr hn⟩

theorem PacketType.name_mem_aliases {x : PacketType} {cl : Claim} (h : cl ∈ x.claims)
    (hk : cl.kind = .declared) : cl.name ∈ x.aliases := by
  rcases List.mem_cons.mp h with rfl | h
  · cases hk
  · obtain ⟨n, hn, rfl⟩ := List.mem_map.mp h
    exact hn

/-! ### The names of a packet type -/

/-- Whether a name is the symbolic name or an alias of a packet type. -/
def PacketType.answersTo (x : PacketType) (n : String) : Bool := x.name == n || x.hasAlias n

namespace PacketType

theorem answersTo_iff (x : PacketType) (n : String) :
    x.answersTo n = true ↔ n = x.name ∨ n ∈ x.aliases := by
  rw [answersTo, hasAlias, Bool.or_eq_true, beq_iff_eq, decide_eq_true_iff, eq_comm]

/-- A packet type claims the names that it answers to. -/
theorem exists_claim (x : PacketType) {n : String} (hn : x.answersTo n = true) :
    ∃ cl ∈ x.claims, cl.channel = x.channel ∧ cl.name = n := by
  rcases (x.answersTo_iff n).mp hn with rfl | hn
  · exact ⟨_, List.mem_cons_self, rfl, rfl⟩
  · exact ⟨_, List.mem_cons_of_mem _ (List.mem_map.mpr ⟨n, hn, rfl⟩), rfl, rfl⟩

/-- It claims no others, and none in another channel. -/
theorem firstClaimant_claims_eq (x : PacketType) (c : Channel) (n : String) :
    firstClaimant x.claims c n =
      if x.channel = c ∧ x.answersTo n = true then some x else none := by
  cases hf : firstClaimant x.claims c n with
  | some y =>
      obtain ⟨cl, hcl, rfl, rfl, rfl⟩ := mem_of_firstClaimant hf
      obtain ⟨hchannel, _, hclaimant, hname⟩ := mem_claims hcl
      rw [if_pos ⟨hchannel.symm, (x.answersTo_iff _).mpr hname⟩, hclaimant]
  | none =>
      rw [if_neg]
      rintro ⟨rfl, hn⟩
      obtain ⟨cl, hcl, hchannel, rfl⟩ := x.exists_claim hn
      have hsome := firstClaimant_isSome hcl
      rw [hchannel, hf] at hsome
      cases hsome

end PacketType

/-- The first packet type of a channel that answers to a name. -/
def firstCalled (xs : List PacketType) (c : Channel) (n : String) : Option PacketType :=
  xs.find? fun x => x.channel == c && x.answersTo n

/-- The first claimant of a name is the first packet type that answers to it. -/
theorem firstClaimant_flatMap_claims (xs : List PacketType) :
    firstClaimant (xs.flatMap PacketType.claims) = firstCalled xs := by
  funext c n
  induction xs with
  | nil => rfl
  | cons x xs ih =>
      rw [List.flatMap_cons, firstClaimant_append, x.firstClaimant_claims_eq, ih, firstCalled,
        firstCalled, List.find?_cons]
      by_cases h : x.channel = c ∧ x.answersTo n = true
      · simp [h]
      · have hb : (x.channel == c && x.answersTo n) = false := by simpa using h
        simp [h, hb]

/-! ### The claims of directories -/

namespace Directory

/-- The claims of the entries of a directory. -/
def entryClaims (d : Directory) : List Claim := d.entries.flatMap PacketType.claims

/-- The claims of the retired names of a directory, each for its target. -/
def retiredClaims (d : Directory) : List Claim :=
  d.retired.map fun r => ⟨d.channel, .retired, r.target, r.name⟩

/-- The claims of a directory, in the order in which a build makes them. -/
def claims (d : Directory) : List Claim := d.entryClaims ++ d.retiredClaims

end Directory

/-- The claims of all directories, in the order in which a build makes them. -/
def DirectorySet.claims (s : DirectorySet) : List Claim := s.toList.flatMap Directory.claims

theorem DirectorySet.mem_claims {s : DirectorySet} {cl : Claim} :
    cl ∈ s.claims ↔ ∃ c, cl ∈ (s.get c).claims := by
  simp [claims, PerChannel.toList, Channel.mem_all]

namespace Index

variable {ix : Index}

/-! ### One claim -/

/-- Makes a claim. -/
def claim (ix : Index) (cl : Claim) : Index :=
  ix.claimName cl.channel cl.kind cl.claimant cl.name

theorem known_claim (ix : Index) (cl : Claim) : (ix.claim cl).known = ix.known := by
  unfold claim claimName
  split
  · rfl
  · split <;> rfl

theorem legacy_claim (ix : Index) (cl : Claim) : (ix.claim cl).legacy = ix.legacy := by
  unfold claim claimName
  split
  · rfl
  · split <;> rfl

/-- A claim changes the owner of no name that has one. -/
theorem bound?_claim (ix : Index) (cl : Claim) (c : Channel) (n : String) :
    (ix.claim cl).bound? c n = (ix.bound? c n).or (firstClaimant [cl] c n) := by
  rw [firstClaimant_singleton]
  unfold claim claimName
  cases hb : ix.bound? cl.channel cl.name with
  | none =>
      by_cases hc : cl.channel = c
      · subst hc
        simp only [bound?, PerChannel.get_set_self, Assoc.get?_cons]
        by_cases hn : n = cl.name
        · subst hn
          simp only [bound?] at hb
          simp [hb]
        · simp [hn, Ne.symm hn]
      · simp [bound?, PerChannel.get_set_of_ne _ _ hc, hc]
  | some y =>
      have hsame : (ix.bound? c n).or
          (if cl.channel = c ∧ cl.name = n then some cl.claimant else none) = ix.bound? c n := by
        by_cases h : cl.channel = c ∧ cl.name = n
        · rw [← h.1, ← h.2, hb]
          rfl
        · rw [if_neg h, Option.or_none]
      rw [hsame]
      dsimp only
      split <;> rfl

theorem collisions_claim (ix : Index) (cl : Claim) :
    (ix.claim cl).collisions = ix.collisions ++ (cl.loss? ix.bound?).toList := by
  unfold claim claimName Claim.loss?
  cases ix.bound? cl.channel cl.name with
  | none => simp
  | some y => by_cases h : y = cl.claimant <;> simp [h]

/-! ### Many claims -/

theorem known_foldl_claim (ix : Index) (ds : List Claim) :
    (ds.foldl claim ix).known = ix.known := by
  induction ds generalizing ix with
  | nil => rfl
  | cons cl ds ih => rw [List.foldl_cons, ih, known_claim]

theorem legacy_foldl_claim (ix : Index) (ds : List Claim) :
    (ds.foldl claim ix).legacy = ix.legacy := by
  induction ds generalizing ix with
  | nil => rfl
  | cons cl ds ih => rw [List.foldl_cons, ih, legacy_claim]

/-- What the names and collisions of an index are after the claims `cs`. -/
structure Claimed (ix : Index) (cs : List Claim) : Prop where
  bound : ∀ c n, ix.bound? c n = firstClaimant cs c n
  collisions : ix.collisions = cs.filterMap (Claim.loss? (firstClaimant cs))

namespace Claimed

variable {cs : List Claim}

theorem claim (h : ix.Claimed cs) (cl : Claim) : (ix.claim cl).Claimed (cs ++ [cl]) where
  bound c n := by rw [bound?_claim, h.bound, firstClaimant_append]
  collisions := by
    -- A later claim changes no loss: the name of an earlier claim has its owner already.
    have hold : ∀ cl' ∈ cs, cl'.loss? (firstClaimant (cs ++ [cl])) =
        cl'.loss? (firstClaimant cs) := by
      intro cl' hcl'
      apply Claim.loss?_congr
      rw [firstClaimant_append, Option.or_of_isSome (firstClaimant_isSome hcl')]
    have hnew : cl.loss? (firstClaimant (cs ++ [cl])) = cl.loss? ix.bound? := by
      cases hf : firstClaimant cs cl.channel cl.name with
      | some y =>
          apply Claim.loss?_congr
          rw [firstClaimant_append, h.bound, hf, Option.some_or]
      | none =>
          simp [Claim.loss?, h.bound, firstClaimant_append, hf, firstClaimant_singleton]
    rw [collisions_claim, h.collisions, List.filterMap_append, List.filterMap_congr hold]
    congr 1
    rw [← hnew]
    cases hl : cl.loss? (firstClaimant (cs ++ [cl])) <;> simp [hl]

theorem foldl_claim (h : ix.Claimed cs) (ds : List Claim) :
    (ds.foldl Index.claim ix).Claimed (cs ++ ds) := by
  induction ds generalizing ix cs with
  | nil => simpa using h
  | cons cl ds ih =>
      rw [List.append_cons]
      exact ih (h.claim cl)

end Claimed

/-! ### Histories -/

/-- What an index holds after the packet types `xs` were accepted and the claims `cs` were made. -/
structure Records (ix : Index) (xs : List PacketType) (cs : List Claim) : Prop extends
    Claimed ix cs where
  known : ix.known = xs.filter (·.key.isKnown)
  legacy : ix.legacy = xs.filter (·.legacyId != unknownId)

theorem records_empty : empty.Records [] [] where
  bound c n := by simp [empty, bound?, firstClaimant, Assoc.get?]
  collisions := rfl
  known := rfl
  legacy := rfl

theorem claimNames_eq_foldl (ix : Index) (x : PacketType) :
    ix.claimNames x = x.claims.foldl claim ix := by
  simp only [claimNames, PacketType.claims, List.foldl_cons, List.foldl_map, claim]

theorem claimRetired_eq_foldl (ix : Index) (d : Directory) :
    ix.claimRetired d = d.retiredClaims.foldl claim ix := by
  simp only [claimRetired, Directory.retiredClaims, List.foldl_map, claim]

namespace Records

variable {xs : List PacketType} {cs : List Claim}

theorem foldl_claim (h : ix.Records xs cs) (ds : List Claim) :
    (ds.foldl Index.claim ix).Records xs (cs ++ ds) where
  toClaimed := h.toClaimed.foldl_claim ds
  known := (known_foldl_claim ix ds).trans h.known
  legacy := (legacy_foldl_claim ix ds).trans h.legacy

theorem byKey?_eq_none (h : ix.Records xs cs) {k : WireKey} (hk : ∀ y ∈ xs, y.key ≠ k) :
    ix.byKey? k = none := by
  rw [byKey?, h.known, List.find?_eq_none]
  intro y hy
  simpa using hk y (List.mem_of_mem_filter hy)

/-- A packet type apart from all that were accepted finds its wire key free. -/
theorem claimKey (h : ix.Records xs cs) {x : PacketType} (hx : ∀ y ∈ xs, y.Apart x) :
    ∃ ix', ix.claimKey x = .ok ix' ∧ ix'.Claimed cs ∧
      ix'.known = (xs ++ [x]).filter (·.key.isKnown) ∧ ix'.legacy = ix.legacy := by
  unfold Index.claimKey
  by_cases hk : x.key.isKnown = true
  · rw [if_pos hk, h.byKey?_eq_none fun y hy => (hx y hy).2 hk]
    exact ⟨_, rfl, ⟨h.bound, h.collisions⟩, by simp [h.known, hk], rfl⟩
  · rw [if_neg hk]
    exact ⟨_, rfl, h.toClaimed, by simp [h.known, hk], rfl⟩

/-- A packet type apart from all that were accepted is accepted. -/
theorem add (h : ix.Records xs cs) {x : PacketType} (hx : ∀ y ∈ xs, y.Apart x) :
    ∃ ix', ix.add x = .ok ix' ∧ ix'.Records (xs ++ [x]) (cs ++ x.claims) := by
  obtain ⟨ix₁, hk, hc, hknown, hlegacy⟩ := h.claimKey hx
  have hnew : x ∉ ix₁.legacy := by
    rw [hlegacy, h.legacy, List.mem_filter]
    exact fun hmem => (hx x hmem.1).1 rfl
  refine ⟨(ix₁.claimNames x).fileLegacy x, by rw [Index.add, hk]; rfl, ?_⟩
  have hfold := hc.foldl_claim x.claims
  rw [claimNames_eq_foldl]
  unfold fileLegacy
  rw [legacy_foldl_claim]
  by_cases hl : x.legacyId = unknownId
  · rw [if_pos (.inl hl)]
    exact ⟨hfold, (known_foldl_claim _ _).trans hknown, by
      rw [legacy_foldl_claim, hlegacy, h.legacy]; simp [hl]⟩
  · rw [if_neg (by simp [hl, hnew])]
    exact ⟨⟨hfold.bound, hfold.collisions⟩, (known_foldl_claim _ _).trans hknown, by
      simp [hlegacy, h.legacy, hl]⟩

/-! ### Building -/

theorem addAll (h : ix.Records xs cs) (ys : List PacketType)
    (hp : (xs ++ ys).Pairwise PacketType.Apart) :
    ∃ ix', ix.addAll ys = (ix', none) ∧
      ix'.Records (xs ++ ys) (cs ++ ys.flatMap PacketType.claims) := by
  induction ys generalizing ix xs cs with
  | nil => exact ⟨ix, rfl, by simpa using h⟩
  | cons x ys ih =>
      rw [List.append_cons] at hp ⊢
      have hx : ∀ y ∈ xs, y.Apart x := fun y hy =>
        (List.pairwise_append.mp (List.pairwise_append.mp hp).1).2.2 y hy x (by simp)
      obtain ⟨ix₁, ha, h₁⟩ := h.add hx
      obtain ⟨ix₂, hf, h₂⟩ := ih h₁ hp
      refine ⟨ix₂, ?_, by simpa using h₂⟩
      rw [Index.addAll, ha]
      exact hf

/-- Directories whose packet types are apart are added without a refusal. -/
theorem addDirectories (h : ix.Records xs cs) (ds : List Directory)
    (hp : (xs ++ ds.flatMap (·.entries)).Pairwise PacketType.Apart) :
    ∃ ix', ix.addDirectories ds = (ix', none) ∧
      ix'.Records (xs ++ ds.flatMap (·.entries)) (cs ++ ds.flatMap Directory.claims) := by
  induction ds generalizing ix xs cs with
  | nil => exact ⟨ix, rfl, by simpa using h⟩
  | cons d ds ih =>
      rw [List.flatMap_cons, ← List.append_assoc] at hp ⊢
      obtain ⟨ix₁, ha, h₁⟩ := h.addAll d.entries (List.pairwise_append.mp hp).1
      have h₂ := h₁.foldl_claim d.retiredClaims
      rw [← claimRetired_eq_foldl, List.append_assoc] at h₂
      obtain ⟨ix₃, hf, h₃⟩ := ih h₂ hp
      refine ⟨ix₃, ?_, ?_⟩
      · rw [Index.addDirectories, ha]
        exact hf
      · rw [List.flatMap_cons, ← List.append_assoc]
        exact h₃

end Records

/-- Sound directories have an index, and a build finds it. -/
theorem build_records {s : DirectorySet} (h : s.Sound) :
    ∃ ix, build s = .ok ix ∧ ix.Records (s.enumerate true) s.claims := by
  have he : s.toList.flatMap Directory.entries = s.enumerate true := by
    simp [DirectorySet.enumerate, DirectorySet.included]
  have hp : ([] ++ s.toList.flatMap Directory.entries).Pairwise PacketType.Apart := by
    rw [List.nil_append, he]
    exact h.enumerate_apart
  obtain ⟨ix, hg, hr⟩ := records_empty.addDirectories s.toList hp
  rw [List.nil_append, List.nil_append, he] at hr
  exact ⟨ix, by rw [build, gather, hg], hr⟩

end Index

end WireCatalog
