import WireCatalog.Proofs.Reachable
import Mathlib.Data.List.Infix

/-! # Growth of a registry

No step of a registry takes anything away. `Snapshot.Grows` says what they all keep: the entries of
a directory are the first ones of the later directory, and its retired names stay
(`Registry.grows_steps`).

So an entry that a declaration repeats is repeated by it later as well (`Grows.equivalent?`). Between
coherent snapshots a bound name keeps its owner, and a free one falls to the first new entry that has
it (`Coherent.bound?_grows`). -/

namespace WireCatalog

namespace Snapshot

variable {s s' s'' : Snapshot}

/-- Entries come after those that were there, and retired names stay as they are. -/
structure Grows (s s' : Snapshot) : Prop where
  entries : ∀ c, (s.directories.get c).entries <+: (s'.directories.get c).entries
  retired : ∀ c, (s'.directories.get c).retired = (s.directories.get c).retired

namespace Grows

theorem of_directories_eq (h : s'.directories = s.directories) : s.Grows s' where
  entries c := by rw [h]
  retired c := by rw [h]

theorem trans (h : s.Grows s') (h' : s'.Grows s'') : s.Grows s'' where
  entries c := (h.entries c).trans (h'.entries c)
  retired c := (h'.retired c).trans (h.retired c)

theorem mem_enumerate (h : s.Grows s') {x : PacketType} (hx : x ∈ s.directories.enumerate true) :
    x ∈ s'.directories.enumerate true := by
  obtain ⟨c, hc⟩ := DirectorySet.mem_enumerate.mp hx
  exact DirectorySet.mem_enumerate.mpr ⟨c, (h.entries c).subset hc⟩

/-- The first entry that a declaration repeats stays the first one. -/
theorem equivalent? (h : s.Grows s') {decl : Declaration} {x : PacketType}
    (hx : (s.directories.get decl.channel).equivalent? decl = some x) :
    (s'.directories.get decl.channel).equivalent? decl = some x :=
  Directory.equivalent?_mono (h.entries decl.channel) hx

end Grows

/-- The entries of a channel that have come since an earlier snapshot. -/
theorem Grows.exists_new (h : s.Grows s') (c : Channel) :
    ∃ new, (s'.directories.get c).entries = (s.directories.get c).entries ++ new := by
  obtain ⟨new, hnew⟩ := h.entries c
  exact ⟨new, hnew.symm⟩

theorem grows_of_published {decl : Declaration} {name : String} {k : ℕ} {x : PacketType}
    (ho : s.offer decl name k = .published x s') : s.Grows s' := by
  have hspec := s.offer_spec decl name k
  rw [ho] at hspec
  obtain ⟨_, _, _, _, _, hd⟩ := hspec
  constructor
  · intro c
    rw [hd, DirectorySet.entries_set_append _ (decl.channel_bind _ _)]
    exact List.prefix_append _ _
  · intro c
    by_cases hc : decl.channel = c
    · rw [hd, ← hc, PerChannel.get_set_self]
      rfl
    · rw [hd, PerChannel.get_set_of_ne _ _ hc]

theorem directories_of_reindex (h : s.reindex = .ok s') : s'.directories = s.directories := by
  unfold reindex at h
  cases hb : Index.build s.directories with
  | error e =>
      rw [hb] at h
      cases h
  | ok ix =>
      rw [hb] at h
      cases h
      rfl

namespace Coherent

/-- A name that is bound keeps its owner. One that is not falls to the first of the new entries that
has it. -/
theorem bound?_grows (h : s.Coherent) (h' : s'.Coherent) (hg : s.Grows s') {c : Channel}
    {new : List PacketType}
    (hnew : (s'.directories.get c).entries = (s.directories.get c).entries ++ new) (n : String) :
    s'.index.bound? c n =
      (s.index.bound? c n).or (firstClaimant (new.flatMap PacketType.claims) c n) := by
  have hentries : (s'.directories.get c).entryClaims =
      (s.directories.get c).entryClaims ++ new.flatMap PacketType.claims := by
    rw [Directory.entryClaims, Directory.entryClaims, hnew, List.flatMap_append]
  have hretired : (s'.directories.get c).retiredClaims = (s.directories.get c).retiredClaims := by
    rw [Directory.retiredClaims, Directory.retiredClaims, hg.retired, h.sound.channel,
      h'.sound.channel]
  cases hr : firstClaimant (s.directories.get c).retiredClaims c n with
  | none =>
      rw [h.bound?_eq, h'.bound?_eq, Directory.claims, Directory.claims, hentries, hretired,
        firstClaimant_append, firstClaimant_append, firstClaimant_append, hr, Option.or_none,
        Option.or_none]
  | some x =>
      -- No entry has a retired name, so in both snapshots the name stands for its target.
      obtain ⟨cl, hcl, _, rfl, _⟩ := mem_of_firstClaimant hr
      obtain ⟨r, hmem, rfl⟩ := List.mem_map.mp hcl
      have hmem' : r ∈ (s'.directories.get c).retired := (hg.retired c).symm ▸ hmem
      rw [h.bound?_retired hmem, h'.bound?_retired hmem', Option.some_or]

theorem bound?_of_grows (h : s.Coherent) (h' : s'.Coherent) (hg : s.Grows s') {c : Channel}
    {n : String} {x : PacketType} (hx : s.index.bound? c n = some x) :
    s'.index.bound? c n = some x := by
  obtain ⟨new, hnew⟩ := hg.exists_new c
  rw [h.bound?_grows h' hg hnew, hx, Option.some_or]

/-- A name that was free falls to a new entry. -/
theorem notMem_of_bound? (h : s.Coherent) (h' : s'.Coherent) (hg : s.Grows s') {c : Channel} {n : String}
    {x : PacketType} (hfree : s.index.bound? c n = none) (hx : s'.index.bound? c n = some x) :
    x ∉ (s.directories.get c).entries := by
  obtain ⟨new, hnew⟩ := hg.exists_new c
  have hapart := (h'.sound.each c).entries_apart
  rw [hnew, List.pairwise_append] at hapart
  rw [h.bound?_grows h' hg hnew, hfree, Option.none_or] at hx
  obtain ⟨cl, hcl, _, _, rfl⟩ := mem_of_firstClaimant hx
  obtain ⟨y, hy, hcl⟩ := List.mem_flatMap.mp hcl
  rw [(PacketType.mem_claims hcl).2.2.1]
  exact fun hold => (hapart.2.2 y hold y hy).1 rfl

/-- A name that is free in a directory stays free there if nothing new has it. -/
theorem byName?_eq_none_of_grows (h : s.Coherent) (h' : s'.Coherent) (hg : s.Grows s')
    {c : Channel} {n : String} (hfree : (s.directories.get c).byName? n = none)
    (hnew : ∀ y ∈ s'.directories.enumerate true,
      y ∈ s.directories.enumerate true ∨ y.name ≠ n) : (s'.directories.get c).byName? n = none := by
  have hn := (h.sound.each c).get?_names_of_byName? hfree
  refine (h'.sound.each c).byName?_eq_none (fun y hy => ?_) fun r hr => ?_
  · rcases hnew y (DirectorySet.mem_enumerate.mpr ⟨_, hy⟩) with hold | hne
    · have hentry := h.sound.mem_enumerate_iff.mp hold
      rw [h'.sound.channel_of_mem hy] at hentry
      exact (h.sound.each c).name_ne hn y hentry
    · exact hne
  · rw [hg.retired] at hr
    exact (h.sound.each c).retired_ne hn r hr

/-- The names of an entry are bound. -/
theorem isSome_bound? (h : s.Coherent) {x : PacketType}
    (hx : x ∈ (s.directories.get x.channel).entries) {n : String}
    (hn : n = x.name ∨ n ∈ x.aliases) : (s.index.bound? x.channel n).isSome := by
  obtain ⟨cl, hcl, hc, hname⟩ := x.exists_claim ((x.answersTo_iff n).mpr hn)
  have hmem : cl ∈ (s.directories.get x.channel).claims :=
    List.mem_append_left _ (List.mem_flatMap.mpr ⟨x, hx, hcl⟩)
  rw [h.bound?_eq, ← hc, ← hname]
  rw [← hc] at hmem
  exact firstClaimant_isSome hmem

end Coherent

end Snapshot

namespace Registry

variable {r r' : Registry}

theorem grows_publish (r : Registry) (decl : Declaration) :
    r.snapshot.Grows (r.publish decl).2.snapshot := by
  have hends := r.publish_ends decl
  generalize r.publish decl = p at hends ⊢
  obtain ⟨result, r'⟩ := p
  dsimp only at hends ⊢
  cases hends with
  | published offer => exact Snapshot.grows_of_published offer
  | present offer same => exact .of_directories_eq (congrArg _ same.snapshot)
  | nameTaken offer same => exact .of_directories_eq (congrArg _ same.snapshot)
  | aliasTaken offer same => exact .of_directories_eq (congrArg _ same.snapshot)
  | refused offer same => exact .of_directories_eq (congrArg _ same.snapshot)

/-- A publication leaves the name after the next one free. -/
theorem nextNameFree_publish {decl : Declaration} {c : Channel} (h : r.snapshot.Coherent)
    (hfree : r.NextNameFree decl.channel)
    (hsecond : (r.snapshot.directories.get c).byName? (r.names (r.drawn + 1)) = none)
    (hne : r.names (r.drawn + 1) ≠ r.names r.drawn) : (r.publish decl).2.NextNameFree c := by
  obtain ⟨hnames, hdrawn, _⟩ := publish_of_nextNameFree hfree
  rw [NextNameFree, hnames, hdrawn]
  refine h.byName?_eq_none_of_grows (coherent_publish h decl) (r.grows_publish decl) hsecond
    fun y hy => (mem_enumerate_publish hfree hy).imp_right ?_
  rintro rfl
  exact hne.symm

theorem grows_rebuild (r : Registry) : r.snapshot.Grows r.rebuild.2.snapshot := by
  unfold rebuild
  cases hr : r.snapshot.reindex with
  | error e => exact .of_directories_eq rfl
  | ok s => exact .of_directories_eq (Snapshot.directories_of_reindex hr)

theorem grows_step (h : r.Step r') : r.snapshot.Grows r'.snapshot := by
  cases h with
  | log es => exact .of_directories_eq rfl
  | publish decl => exact r.grows_publish decl
  | rebuild => exact r.grows_rebuild
  | detach decl => exact .of_directories_eq rfl

theorem grows_steps (h : r.Steps r') : r.snapshot.Grows r'.snapshot := by
  induction h with
  | refl => exact .of_directories_eq rfl
  | tail _ hs ih => exact ih.trans (grows_step hs)

end Registry

end WireCatalog
