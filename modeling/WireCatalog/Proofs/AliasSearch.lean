import WireCatalog.Proofs.Additions
import WireCatalog.Proofs.Reachable

/-! # The search by alias

The search by alias never scans the packet types: it asks for the owner of a name and for the
collisions on it. That is enough because every claim on the name either is one of its owner or
leaves a collision, so that the two together are, but for repetitions, the claimants of the name in
the order of their claims (`Claimed.eraseDups_claimants`).

Some claimants do not have the name among their aliases: it is their symbolic name, or a retired
one. `Covers` says that the others are the packet types that have it, in order. New packet types,
repeated ones and retired names keep this (`Covers.new`, `Covers.repeated`). So it holds after a
build and any additions, and there the search is exact (`byAlias_eq`, `fromName_eq`). -/

namespace WireCatalog

/-! ### The claimants of a name -/

/-- The packet types that claim a name of a channel, once for each claim. -/
def claimantsOf (cs : List Claim) (c : Channel) (n : String) : List PacketType :=
  (cs.filter fun cl => cl.channel == c && cl.name == n).map (·.claimant)

section

variable {cs ds : List Claim} {c : Channel} {n : String} {x : PacketType}

theorem mem_claimantsOf :
    x ∈ claimantsOf cs c n ↔ ∃ cl ∈ cs, cl.channel = c ∧ cl.name = n ∧ cl.claimant = x := by
  simp [claimantsOf, and_assoc]

theorem claimantsOf_append (cs ds : List Claim) (c : Channel) (n : String) :
    claimantsOf (cs ++ ds) c n = claimantsOf cs c n ++ claimantsOf ds c n := by
  simp [claimantsOf]

theorem head?_claimantsOf (cs : List Claim) (c : Channel) (n : String) :
    (claimantsOf cs c n).head? = firstClaimant cs c n := by
  rw [claimantsOf, firstClaimant, List.head?_map, List.head?_filter]

/-- A claim on the name is recorded as lost unless its claimant owns the name. -/
theorem incoming_loss? (owner : Channel → String → Option PacketType) (cl : Claim) (c : Channel)
    (n : String) :
    ((cl.loss? owner).toList.filter fun l => l.channel == c && l.name == n).map (·.incoming) =
      (claimantsOf [cl] c n).filter fun x => (owner c n).any fun y => !x == y := by
  by_cases hcl : cl.channel = c ∧ cl.name = n
  · obtain ⟨rfl, rfl⟩ := hcl
    cases ho : owner cl.channel cl.name with
    | none => simp [claimantsOf, Claim.loss?, ho]
    | some y =>
        by_cases he : y = cl.claimant
        · simp [claimantsOf, Claim.loss?, ho, he]
        · simp [claimantsOf, Claim.loss?, ho, he, Ne.symm he]
  · have hoff : (cl.channel == c && cl.name == n) = false := by simpa using hcl
    cases ho : owner cl.channel cl.name with
    | none => simp [claimantsOf, Claim.loss?, ho, hoff]
    | some y => by_cases he : y = cl.claimant <;> simp [claimantsOf, Claim.loss?, ho, hoff, he]

theorem incoming_losses (owner : Channel → String → Option PacketType) (cs : List Claim)
    (c : Channel) (n : String) :
    ((cs.filterMap (Claim.loss? owner)).filter fun l => l.channel == c && l.name == n).map
        (·.incoming) =
      (claimantsOf cs c n).filter fun x => (owner c n).any fun y => !x == y := by
  induction cs with
  | nil => rfl
  | cons cl cs ih =>
      have hcons : (cl :: cs).filterMap (Claim.loss? owner) =
          (cl.loss? owner).toList ++ cs.filterMap (Claim.loss? owner) := by
        cases hl : cl.loss? owner <;> simp [hl]
      rw [hcons, List.filter_append, List.map_append, ih, incoming_loss?, ← List.filter_append,
        ← claimantsOf_append]
      rfl

/-- The owner of a name and those who lost it are, but for repetitions, all its claimants. -/
theorem Index.Claimed.eraseDups_claimants {ix : Index} (h : ix.Claimed cs) (c : Channel)
    (n : String) :
    (ix.claimants c n).eraseDups = ((claimantsOf cs c n).filter (·.hasAlias n)).eraseDups := by
  rw [Index.claimants, h.bound, h.collisions, incoming_losses, ← head?_claimantsOf,
    eraseDups_filter, eraseDups_filter]
  cases claimantsOf cs c n with
  | nil => rfl
  | cons y xs => simp [eraseDups_cons_filter_ne]

/-! ### The packet types with an alias -/

/-- The claimants of a name that have it as an alias are the packet types that have it. -/
def Covers (cs : List Claim) (xs : List PacketType) : Prop :=
  ∀ c n, ((claimantsOf cs c n).filter (·.hasAlias n)).eraseDups =
    xs.filter fun x => x.channel == c && x.hasAlias n

theorem PacketType.mem_claimantsOf_claims {y : PacketType} :
    y ∈ (claimantsOf x.claims c n).filter (·.hasAlias n) ↔
      y = x ∧ x.channel = c ∧ x.hasAlias n = true := by
  rw [List.mem_filter, mem_claimantsOf]
  constructor
  · rintro ⟨⟨cl, hcl, rfl, rfl, rfl⟩, hn⟩
    obtain ⟨hc, _, hx, _⟩ := mem_claims hcl
    rw [hx] at hn ⊢
    exact ⟨rfl, hc.symm, hn⟩
  · rintro ⟨rfl, rfl, hn⟩
    obtain ⟨cl, hcl, hc, hname⟩ := y.exists_claim (by rw [answersTo, hn, Bool.or_true])
    exact ⟨⟨cl, hcl, hc, hname, (mem_claims hcl).2.2.1⟩, hn⟩

namespace Covers

variable {xs : List PacketType}

theorem nil : Covers [] [] := fun _ _ => rfl

/-- Claims of packet types that are there already change nothing. -/
theorem repeated (h : Covers cs xs)
    (hds : ∀ cl ∈ ds, cl.claimant ∈ xs ∧ cl.claimant.channel = cl.channel) :
    Covers (cs ++ ds) xs := by
  intro c n
  rw [claimantsOf_append, List.filter_append, eraseDups_append_of_subset, h c n]
  intro y hy
  obtain ⟨hy, hn⟩ := List.mem_filter.mp hy
  obtain ⟨cl, hcl, rfl, _, rfl⟩ := mem_claimantsOf.mp hy
  obtain ⟨hmem, hc⟩ := hds cl hcl
  rw [← List.mem_eraseDups, h, List.mem_filter]
  exact ⟨hmem, by rw [hc, hn, BEq.rfl, Bool.true_and]⟩

/-- A new packet type comes last under each of its aliases. -/
theorem new (h : Covers cs xs) (hx : x ∉ xs) : Covers (cs ++ x.claims) (xs ++ [x]) := by
  intro c n
  rw [claimantsOf_append, List.filter_append, List.filter_append, ← h c n]
  by_cases hc : x.channel = c ∧ x.hasAlias n = true
  -- All that the claims of `x` add here is `x`, more than once where its name is an alias too.
  · have hsame : ∀ y, y ∈ (claimantsOf x.claims c n).filter (·.hasAlias n) ↔ y = x := by
      intro y
      rw [PacketType.mem_claimantsOf_claims, and_iff_left hc]
    have hnew : x ∉ (claimantsOf cs c n).filter (·.hasAlias n) := by
      rw [← List.mem_eraseDups, h]
      exact fun hmem => hx (List.mem_of_mem_filter hmem)
    rw [eraseDups_append_of_disjoint fun y hy => (hsame y).mp hy ▸ hnew,
      eraseDups_eq_singleton hsame]
    simp [hc.1, hc.2]
  · have hnone : (claimantsOf x.claims c n).filter (·.hasAlias n) = [] := by
      rw [List.eq_nil_iff_forall_not_mem]
      exact fun y hy => hc (PacketType.mem_claimantsOf_claims.mp hy).2
    rw [hnone]
    simpa using hc

theorem flatMap_claims (h : Covers cs xs) (hnd : xs.Nodup) (ys : List PacketType) :
    Covers (cs ++ ys.flatMap PacketType.claims) (xs ++ ys).eraseDups := by
  induction ys generalizing xs cs with
  | nil => simpa [eraseDups_of_nodup hnd] using h
  | cons y ys ih =>
      rw [List.flatMap_cons, ← List.append_assoc]
      by_cases hy : y ∈ xs
      · rw [eraseDups_append_cons_of_mem hy]
        refine ih (h.repeated fun cl hcl => ?_) hnd
        obtain ⟨hc, _, he, _⟩ := PacketType.mem_claims hcl
        rw [he]
        exact ⟨hy, hc.symm⟩
      · rw [List.append_cons]
        have hnd' := hnd.concat hy
        rw [List.concat_eq_append] at hnd'
        exact ih (h.new hy) hnd'

/-- The retired names of a directory come after all its entries. -/
theorem directory (h : Covers cs xs) {d : Directory} (hd : d.Sound)
    (hnd : (xs ++ d.entries).Nodup) : Covers (cs ++ d.claims) (xs ++ d.entries) := by
  have hentries := h.flatMap_claims (List.nodup_append.mp hnd).1 d.entries
  rw [eraseDups_of_nodup hnd] at hentries
  rw [Directory.claims, ← List.append_assoc]
  refine hentries.repeated fun cl hcl => ?_
  obtain ⟨r, hr, rfl⟩ := List.mem_map.mp hcl
  have hmem := hd.targets r hr
  exact ⟨List.mem_append_right _ hmem, hd.channel _ hmem⟩

theorem directories (h : Covers cs xs) {ds : List Directory} (hd : ∀ d ∈ ds, d.Sound)
    (hnd : (xs ++ ds.flatMap (·.entries)).Nodup) :
    Covers (cs ++ ds.flatMap Directory.claims) (xs ++ ds.flatMap (·.entries)) := by
  induction ds generalizing xs cs with
  | nil => simpa using h
  | cons d ds ih =>
      rw [List.flatMap_cons, ← List.append_assoc] at hnd
      rw [List.flatMap_cons, List.flatMap_cons, ← List.append_assoc, ← List.append_assoc]
      have hfirst := h.directory (hd d List.mem_cons_self) (List.nodup_append.mp hnd).1
      exact ih hfirst (fun e he => hd e (List.mem_cons_of_mem _ he)) hnd

end Covers

end

/-- The claims of a build cover the packet types that it enumerates. -/
theorem DirectorySet.Sound.covers {s : DirectorySet} (h : s.Sound) :
    Covers s.claims (s.enumerate true) := by
  have he : s.toList.flatMap Directory.entries = s.enumerate true := by
    simp [enumerate, included]
  have hnd : ([] ++ s.toList.flatMap Directory.entries).Nodup := by
    rw [List.nil_append, he]
    exact h.nodup_enumerate
  have hsound : ∀ d ∈ s.toList, d.Sound := by
    intro d hd
    obtain ⟨c, _, rfl⟩ := List.mem_map.mp hd
    exact h.each c
  have hc := Covers.nil.directories hsound hnd
  rwa [List.nil_append, List.nil_append, he] at hc

namespace Index

variable {ix : Index} {xs : List PacketType} {cs : List Claim}

/-- Where the claims cover the packet types, the search by alias finds those that have the alias,
channel by channel and in order. -/
theorem Claimed.byAlias_eq (h : ix.Claimed cs) (hc : Covers cs xs) (name : String) :
    ix.byAlias name = Channel.all.flatMap fun c =>
      xs.filter fun x => x.channel == c && x.hasAlias (PacketName.format c name) := by
  have hfind : ∀ c, (ix.claimants c (PacketName.format c name)).eraseDups =
      xs.filter fun x => x.channel == c && x.hasAlias (PacketName.format c name) :=
    fun c => (h.eraseDups_claimants c _).trans (hc c _)
  have hchannel : ∀ {c x}, x ∈ ix.claimants c (PacketName.format c name) → x.channel = c := by
    intro c x hx
    rw [← List.mem_eraseDups, hfind, List.mem_filter, Bool.and_eq_true, beq_iff_eq] at hx
    exact hx.2.1
  -- A packet type is in one channel only, so it is enough to drop repetitions within each.
  rw [byAlias, eraseDups_flatMap]
  · exact congrArg Channel.all.flatMap (funext hfind)
  · refine Channel.nodup_all.imp fun hne x hx hx' => hne ?_
    rw [← hchannel hx, ← hchannel hx']

theorem nodup_byAlias (ix : Index) (name : String) : (ix.byAlias name).Nodup :=
  nodup_eraseDups _

/-- The search by alias after a build and any additions. -/
theorem byAlias_addEach {s : DirectorySet} (h : s.Sound) (ys : List PacketType) (name : String) :
    ∃ ix, build s = .ok ix ∧
      (ix.addEach ys).byAlias name = Channel.all.flatMap fun c =>
        (s.enumerate true ++ ix.accepted ys).eraseDups.filter fun x =>
          x.channel == c && x.hasAlias (PacketName.format c name) := by
  obtain ⟨ix, hb, hr⟩ := build_records h
  obtain ⟨hrecords, _⟩ := hr.addEach h.enumerate_apart ys
  have hcovers := h.covers.flatMap_claims h.nodup_enumerate (ix.accepted ys)
  exact ⟨ix, hb, hrecords.byAlias_eq hcovers name⟩

end Index

/-- One test for each channel, in order, is one test of all packet types. -/
theorem DirectorySet.Sound.flatMap_filter {s : DirectorySet} (h : s.Sound)
    (p : Channel → PacketType → Bool) :
    (Channel.all.flatMap fun c => (s.enumerate true).filter fun x => x.channel == c && p c x) =
      (s.enumerate true).filter fun x => p x.channel x := by
  have hchannel : ∀ c, ((s.enumerate true).filter fun x => x.channel == c && p c x) =
      (s.get c).entries.filter fun x => p x.channel x := by
    intro c
    rw [← h.filter_enumerate, List.filter_filter]
    refine List.filter_congr fun x _ => ?_
    by_cases hc : x.channel = c
    · subst hc
      exact Bool.and_comm _ _
    · have hne : (x.channel == c) = false := beq_eq_false_iff_ne.mpr hc
      rw [hne, Bool.false_and, Bool.and_false]
  rw [funext hchannel, enumerate_true, List.filter_flatMap]

namespace Catalogue

theorem Reachable.fromName_eq {c : Catalogue} (h : c.Reachable) (name : String) :
    c.fromName name =
      (c.enumerate true).filter fun x => x.hasAlias (PacketName.format x.channel name) := by
  obtain ⟨s', _, _, hd, hc, hr⟩ := h.coherent.reindex
  have hsound := h.coherent.sound
  rw [fromName, index, ← h.coherent.byAlias_congr hc hd, hr.byAlias_eq hsound.covers]
  exact hsound.flatMap_filter fun c x => x.hasAlias (PacketName.format c name)

/-- **The search by alias is exact.** In the index of directories that were filled by any adoptions
and retirements, after any further additions, it finds in each channel the packet types that were
accepted and have the name among their aliases, in the order in which they were accepted first, and
each of them once. In a reachable catalogue these are the packet types of the enumeration that have
the name in their channel. -/
theorem alias_search_exact :
    (∀ s, DirectorySet.empty.Steps s → ∀ ys name, ∃ ix, Index.build s = .ok ix ∧
      (ix.addEach ys).byAlias name = (Channel.all.flatMap fun ch =>
        (s.enumerate true ++ ix.accepted ys).eraseDups.filter fun x =>
          x.channel == ch && x.hasAlias (PacketName.format ch name)) ∧
      ((ix.addEach ys).byAlias name).Nodup) ∧
    ∀ c : Catalogue, c.Reachable → ∀ name, c.fromName name =
      (c.enumerate true).filter fun x => x.hasAlias (PacketName.format x.channel name) := by
  refine ⟨fun s hs ys name => ?_, fun c hc name => hc.fromName_eq name⟩
  obtain ⟨ix, hb, he⟩ := Index.byAlias_addEach (DirectorySet.sound_empty.steps hs) ys name
  exact ⟨ix, hb, he, Index.nodup_byAlias _ _⟩

/-- One packet type is adopted, gets a retired name and is added to the index again twice: its alias
finds it once. -/
theorem alias_search_exact_echo :
    let x := Index.echo 1 "ECHO" [] 0
    ∃ s ix, DirectorySet.empty.Steps s ∧ Index.build s = .ok ix ∧
      (s.get x.channel).retired = [⟨"ECHO_OLD", x⟩] ∧
      (ix.addEach [x, x]).byAlias "PacketStatusInEcho" = [x] := by
  intro x
  let d := (Directory.empty x.channel).append x
  let s : DirectorySet := DirectorySet.empty.set x.channel d
  let s' : DirectorySet := s.set x.channel (d.appendRetired "ECHO_OLD" x)
  have hadopt : DirectorySet.empty.adopt x.channel x.toDeclaration x.toBinding x.serial =
      .ok (.adopted x, s) := rfl
  have hretire : s.retire x.channel "ECHO_OLD" "ECHO" = .ok (x, s') := rfl
  have hsteps : DirectorySet.empty.Steps s' := .tail (.single (.adopt hadopt)) (.retire hretire)
  obtain ⟨ix, hb, he, _⟩ := alias_search_exact.1 s' hsteps [x, x] "PacketStatusInEcho"
  have hone : s'.enumerate true = [x] := by decide
  have hagain : ([x] ++ ix.accepted [x, x]).eraseDups = [x] := by
    have hmem : ∀ y ∈ ix.accepted [x, x], y ∈ [x] := by
      intro y hy
      simpa using (Index.accepted_sublist ix [x, x]).subset hy
    rw [eraseDups_append_of_subset hmem]
    rfl
  refine ⟨s', ix, hsteps, hb, by decide, ?_⟩
  rw [he, hone, hagain]
  decide

end Catalogue

end WireCatalog
