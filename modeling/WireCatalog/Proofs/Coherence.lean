import WireCatalog.Proofs.Merged
import WireCatalog.Proofs.Publication

/-! # Directories and index agree

A snapshot is `Coherent` if its directories are sound, no entry claims a retired name, and its
index records a history that merges the directories. Publications keep this (`Coherent.publish`):
the registry appends a packet type to its directory only if its name is free there, and the alias
check makes sure that all its aliases are free in the index (`Coherent.bound?_of_claimedAlias?`). So
does a new index (`Coherent.reindex`).

In a coherent snapshot the index never refuses what the directory adopts (`Coherent.not_refused`).
Two coherent snapshots with the same directories give the same answers by wire key and by name
(`Coherent.byName?_congr`, `Coherent.byAlias_congr`) and have the same collisions in each
channel. -/

namespace WireCatalog

namespace Snapshot

/-- Sound directories and an index that records a history of them. -/
structure Coherent (s : Snapshot) : Prop where
  sound : s.directories.Sound
  unclaimed : s.directories.Unclaimed
  history : ∃ xs cs, s.index.Records xs cs ∧ s.directories.Merged xs cs

namespace Coherent

variable {s s' : Snapshot}

/-! ### Look-ups -/

theorem byKey? (h : s.Coherent) (k : WireKey) :
    s.index.byKey? k = (s.directories.get k.channel).byId? k.id := by
  obtain ⟨xs, cs, hr, hm⟩ := h.history
  exact hm.byKey? hr k

theorem mem_bucket (h : s.Coherent) {id : Int} {x : PacketType} :
    x ∈ s.index.bucket id ↔
      id ≠ unknownId ∧ x ∈ s.directories.enumerate true ∧ x.legacyId = id := by
  obtain ⟨xs, cs, hr, hm⟩ := h.history
  rw [hm.mem_bucket hr, h.sound.mem_enumerate_iff]

theorem nodup_bucket (h : s.Coherent) (id : Int) : (s.index.bucket id).Nodup := by
  obtain ⟨xs, cs, hr, hm⟩ := h.history
  have hnd : xs.Nodup :=
    (hm.perm h.sound.merged).nodup_iff.mpr h.sound.nodup_enumerate
  rw [Index.bucket, hr.legacy]
  exact (hnd.filter _).filter _

/-- A bound name belongs to an entry of the channel that has it. -/
theorem bound?_cases (h : s.Coherent) {c : Channel} {n : String} {x : PacketType}
    (hb : s.index.bound? c n = some x) :
    x ∈ (s.directories.get c).entries ∧ (x.name = n ∨ n ∈ x.aliases ∨
      ∃ r ∈ (s.directories.get c).retired, r.name = n ∧ r.target = x) := by
  obtain ⟨xs, cs, hr, hm⟩ := h.history
  rw [hr.bound] at hb
  obtain ⟨cl, hcl, rfl, rfl, rfl⟩ := mem_of_firstClaimant hb
  rcases hm.claim_cases hcl with ⟨hx, hn | hn⟩ | ⟨r, hr, hn, ht⟩
  · exact ⟨hx, .inl hn.symm⟩
  · exact ⟨hx, .inr (.inl hn)⟩
  · exact ⟨ht ▸ (h.sound.each _).targets r hr, .inr (.inr ⟨r, hr, hn, ht⟩)⟩

theorem mem_of_byName? (h : s.Coherent) {c : Channel} {n : String} {x : PacketType}
    (hx : s.index.byName? c n = some x) : x ∈ (s.directories.get c).entries := by
  rw [Index.byName?, Option.or_eq_some_iff] at hx
  rcases hx with hx | ⟨_, hx⟩
  · exact (h.bound?_cases hx).1
  · exact (h.bound?_cases hx).1

theorem mem_of_byKey? (h : s.Coherent) {k : WireKey} {x : PacketType}
    (hx : s.index.byKey? k = some x) : x ∈ (s.directories.get k.channel).entries := by
  rw [h.byKey?, Directory.byId?] at hx
  split at hx
  · cases hx
  · exact List.mem_of_find?_eq_some hx

/-- The names of a channel stand for what they stand for in a build. -/
theorem bound?_eq (h : s.Coherent) (c : Channel) (n : String) :
    s.index.bound? c n = firstClaimant (s.directories.get c).claims c n := by
  obtain ⟨xs, cs, hr, hm⟩ := h.history
  rw [hr.bound, hm.firstClaimant_eq h.sound.merged h.sound h.unclaimed]
  refine firstClaimant_congr (h.sound.filter_claims fun cl hcl => ?_)
  rw [Bool.and_eq_true, beq_iff_eq] at hcl
  exact hcl.1

theorem bound?_retired (h : s.Coherent) {c : Channel} {r : RetiredName}
    (hr : r ∈ (s.directories.get c).retired) : s.index.bound? c r.name = some r.target := by
  obtain ⟨xs, cs, hrec, hm⟩ := h.history
  rw [hrec.bound]
  exact hm.firstClaimant_retired h.sound h.unclaimed hr

/-! ### Coherent snapshots of the same directories -/

theorem bound?_congr (h : s.Coherent) (h' : s'.Coherent) (hd : s'.directories = s.directories) :
    s'.index.bound? = s.index.bound? := by
  obtain ⟨xs, cs, hr, hm⟩ := h.history
  obtain ⟨ys, ds, hr', hm'⟩ := h'.history
  rw [hd] at hm'
  funext c n
  rw [hr.bound, hr'.bound, hm'.firstClaimant_eq hm h.sound h.unclaimed]

theorem byKey?_congr (h : s.Coherent) (h' : s'.Coherent) (hd : s'.directories = s.directories)
    (k : WireKey) : s'.index.byKey? k = s.index.byKey? k := by
  rw [h.byKey?, h'.byKey?, hd]

theorem byName?_congr (h : s.Coherent) (h' : s'.Coherent) (hd : s'.directories = s.directories)
    (c : Channel) (n : String) : s'.index.byName? c n = s.index.byName? c n := by
  rw [Index.byName?, Index.byName?, h.bound?_congr h' hd]

theorem filter_collisions_congr (h : s.Coherent) (h' : s'.Coherent)
    (hd : s'.directories = s.directories) (c : Channel) :
    s'.index.collisions.filter (·.channel == c) = s.index.collisions.filter (·.channel == c) := by
  obtain ⟨xs, cs, hr, hm⟩ := h.history
  obtain ⟨ys, ds, hr', hm'⟩ := h'.history
  rw [hd] at hm'
  rw [hm.filter_collisions h.sound h.unclaimed hr, hm'.filter_collisions h.sound h.unclaimed hr',
    hm'.firstClaimant_eq hm h.sound h.unclaimed]

theorem claimants_congr (h : s.Coherent) (h' : s'.Coherent) (hd : s'.directories = s.directories)
    (c : Channel) (n : String) : s'.index.claimants c n = s.index.claimants c n := by
  have hlost : ∀ ix : Index, ix.collisions.filter (fun l => l.channel == c && l.name == n) =
      (ix.collisions.filter (·.channel == c)).filter (·.name == n) := by
    intro ix
    rw [List.filter_filter]
    exact List.filter_congr fun l _ => Bool.and_comm _ _
  rw [Index.claimants, Index.claimants, hlost, hlost, h.filter_collisions_congr h' hd,
    h.bound?_congr h' hd]

theorem byAlias_congr (h : s.Coherent) (h' : s'.Coherent) (hd : s'.directories = s.directories)
    (n : String) : s'.index.byAlias n = s.index.byAlias n := by
  unfold Index.byAlias
  congr 2
  funext c
  exact h.claimants_congr h' hd c _

/-! ### Publication -/

/-- A declaration that repeats no entry, under a name that is free in its directory, becomes a
packet type apart from all others. -/
theorem apart (h : s.Coherent) {decl : Declaration} {b : Binding} (k : ℕ)
    (hq : ∀ y ∈ (s.directories.get decl.channel).entries, decl.repeats y = false)
    (hn : (s.directories.get decl.channel).names.get? b.name = none) {y : PacketType}
    (hy : y ∈ (s.directories.get y.channel).entries) : y.Apart (decl.bind b k) := by
  by_cases hc : y.channel = decl.channel
  · rw [hc] at hy
    refine ⟨fun he => (h.sound.each _).name_ne hn y hy (congrArg (·.name) he), fun hk he => ?_⟩
    have hr := hq y hy
    have hk : decl.key.isKnown = true := hk
    simp only [Declaration.repeats, hk, if_true, beq_eq_false_iff_ne] at hr
    exact hr (congrArg WireKey.id he)
  · exact ⟨fun he => hc (congrArg (fun z : PacketType => z.channel) he),
      fun _ he => hc (congrArg WireKey.channel he)⟩

/-- The alias check lets a new packet type pass only if all its aliases are free. -/
theorem byName?_of_claimedAlias? (h : s.Coherent) {x : PacketType}
    (hx : x ∉ (s.directories.get x.channel).entries) (hc : s.index.claimedAlias? x = none) :
    ∀ n ∈ x.aliases, s.index.byName? x.channel n = none := by
  intro n hn
  rw [Index.claimedAlias?, List.findSome?_eq_none_iff] at hc
  have hcn := hc n hn
  cases hb : s.index.byName? x.channel n with
  | none => rfl
  | some y =>
      have hy := h.mem_of_byName? hb
      simp only [hb, ite_eq_left_iff, reduceCtorEq, imp_false, not_not] at hcn
      rw [hcn] at hy
      exact absurd hy hx

theorem bound?_of_claimedAlias? (h : s.Coherent) {x : PacketType}
    (hx : x ∉ (s.directories.get x.channel).entries) (hc : s.index.claimedAlias? x = none) :
    ∀ n ∈ x.aliases, s.index.bound? x.channel n = none := by
  intro n hn
  have hb := h.byName?_of_claimedAlias? hx hc n hn
  rw [Index.byName?, Option.or_eq_none_iff] at hb
  exact hb.2

/-- What is published was no entry before, and its aliases were free. -/
theorem free_of_published (h : s.Coherent) {decl : Declaration} {name : String} {k : ℕ}
    {x : PacketType} (ho : s.offer decl name k = .published x s') :
    x ∉ (s.directories.get x.channel).entries ∧
      ∀ n ∈ x.aliases, s.index.bound? x.channel n = none := by
  have hspec := s.offer_spec decl name k
  rw [ho] at hspec
  obtain ⟨_, hn, hc, rfl, _⟩ := hspec
  have hsound := h.sound.each decl.channel
  have hmem : decl.bind ⟨name, false, false⟩ k ∉ (s.directories.get decl.channel).entries :=
    fun hx => hsound.name_ne (hsound.get?_names_of_byName? hn) _ hx rfl
  exact ⟨hmem, h.bound?_of_claimedAlias? hmem hc⟩

/-- The index accepts what the directory adopts, as the next packet type of its history. -/
theorem add_ok (h : s.Coherent) {decl : Declaration} {b : Binding} {k : ℕ}
    (hq : (s.directories.get decl.channel).equivalent? decl = none)
    (hn : (s.directories.get decl.channel).byName? b.name = none) :
    ∃ xs cs ix', s.directories.Merged xs cs ∧ s.index.Records xs cs ∧
      s.index.add (decl.bind b k) = .ok ix' ∧
      ix'.Records (xs ++ [decl.bind b k]) (cs ++ (decl.bind b k).claims) := by
  obtain ⟨xs, cs, hr, hm⟩ := h.history
  have hfree := (h.sound.each _).get?_names_of_byName? hn
  have hnew := Directory.repeats_eq_false_of_equivalent? hq
  have hx : ∀ y ∈ xs, y.Apart (decl.bind b k) :=
    fun y hy => h.apart k hnew hfree (hm.mem_iff.mp hy)
  obtain ⟨ix', ha, hr'⟩ := hr.add hx
  exact ⟨xs, cs, ix', hm, hr, ha, hr'⟩

theorem not_refused (h : s.Coherent) {decl : Declaration} {name : String} {k : ℕ} {x : PacketType}
    {e : DuplicateId} : s.offer decl name k ≠ .refused x e := by
  intro ho
  have hspec := s.offer_spec decl name k
  rw [ho] at hspec
  obtain ⟨hq, hn, _, _, ha⟩ := hspec
  obtain ⟨_, _, ix', _, _, hok, _⟩ := h.add_ok (b := ⟨name, false, false⟩) (k := k) hq hn
  rw [hok] at ha
  cases ha

/-- A publication keeps directories and index in agreement. -/
theorem publish (h : s.Coherent) {decl : Declaration} {name : String} {k : ℕ} {x : PacketType}
    (ho : s.offer decl name k = .published x s') : s'.Coherent := by
  obtain ⟨_, haliases⟩ := h.free_of_published ho
  have hspec := s.offer_spec decl name k
  rw [ho] at hspec
  obtain ⟨hq, hn, _, rfl, ha, hd⟩ := hspec
  have hsound := h.sound.each decl.channel
  have hfree := hsound.get?_names_of_byName? hn
  have hnew := Directory.repeats_eq_false_of_equivalent? hq
  refine ⟨?_, ?_, ?_⟩
  · rw [hd]
    exact h.sound.set (hsound.append (h.sound.channel _).symm hnew hfree) (h.sound.channel _)
  · rw [hd]
    -- A retired name is bound in the index, and the aliases of the new packet type are free there.
    refine h.unclaimed.append fun r hr hx => ?_
    have hunbound := haliases r.name hx
    rw [Declaration.channel_bind, h.bound?_retired hr] at hunbound
    cases hunbound
  · obtain ⟨xs, cs, ix', hm, _, hok, hr⟩ := h.add_ok (b := ⟨name, false, false⟩) (k := k) hq hn
    rw [hok] at ha
    obtain rfl := Except.ok.inj ha
    have hm' := hm.append (decl.bind ⟨name, false, false⟩ k)
    rw [Declaration.channel_bind, ← hd] at hm'
    exact ⟨_, _, hr, hm'⟩

/-- A declaration under names that are free is published. -/
theorem offer_published (h : s.Coherent) {decl : Declaration} {name : String} (k : ℕ)
    (hq : (s.directories.get decl.channel).equivalent? decl = none)
    (hn : (s.directories.get decl.channel).byName? name = none)
    (hfree : ∀ n ∈ decl.aliases, s.index.byName? decl.channel n = none) :
    ∃ s', s.offer decl name k = .published (decl.bind ⟨name, false, false⟩ k) s' := by
  have hc : s.index.claimedAlias? (decl.bind ⟨name, false, false⟩ k) = none := by
    rw [Index.claimedAlias?, List.findSome?_eq_none_iff]
    intro n hn
    rw [Declaration.channel_bind, hfree n hn]
  have hspec := s.offer_spec decl name k
  cases ho : s.offer decl name k with
  | present x =>
      rw [ho] at hspec
      cases hq.symm.trans hspec
  | nameTaken n x =>
      rw [ho] at hspec
      obtain ⟨_, _, hn'⟩ := hspec
      cases hn.symm.trans hn'
  | aliasTaken n x =>
      rw [ho] at hspec
      obtain ⟨_, _, hc'⟩ := hspec
      cases hc.symm.trans hc'
  | refused x e => exact absurd ho h.not_refused
  | published x s' =>
      rw [ho] at hspec
      obtain ⟨_, _, _, rfl, _⟩ := hspec
      exact ⟨s', rfl⟩

/-- A published packet type comes last in the bucket of its legacy id. -/
theorem bucket_publish (h : s.Coherent) {decl : Declaration} {name : String} {k : ℕ}
    {x : PacketType} (ho : s.offer decl name k = .published x s') (hl : x.legacyId ≠ unknownId) :
    s'.index.bucket x.legacyId = s.index.bucket x.legacyId ++ [x] := by
  have hspec := s.offer_spec decl name k
  rw [ho] at hspec
  obtain ⟨hq, hn, _, rfl, ha, _⟩ := hspec
  obtain ⟨xs, cs, ix', _, hr, hok, hr'⟩ := h.add_ok (b := ⟨name, false, false⟩) (k := k) hq hn
  rw [hok] at ha
  obtain rfl := Except.ok.inj ha
  rw [Index.bucket, Index.bucket, hr'.legacy, hr.legacy, List.filter_append, List.filter_append]
  congr 1
  simp [hl]

/-! ### A new index -/

theorem reindex (h : s.Coherent) : ∃ s', s.reindex = .ok s' ∧
    Index.build s.directories = .ok s'.index ∧ s'.directories = s.directories ∧ s'.Coherent ∧
    s'.index.Records (s.directories.enumerate true) s.directories.claims := by
  obtain ⟨ix, hb, hr⟩ := Index.build_records h.sound
  refine ⟨{ s with index := ix }, by rw [Snapshot.reindex, hb]; rfl, hb, rfl, ?_, hr⟩
  exact ⟨h.sound, h.unclaimed, _, _, hr, h.sound.merged⟩

end Coherent

end Snapshot

/-! ### The registry -/

namespace Registry

variable {r : Registry}

theorem coherent_publish (h : r.snapshot.Coherent) (decl : Declaration) :
    (r.publish decl).2.snapshot.Coherent := by
  have hends := r.publish_ends decl
  generalize r.publish decl = p at hends ⊢
  obtain ⟨result, r'⟩ := p
  dsimp only at hends ⊢
  cases hends with
  | published offer => exact h.publish offer
  | present offer same => exact same.snapshot ▸ h
  | nameTaken offer same => exact same.snapshot ▸ h
  | aliasTaken offer same => exact same.snapshot ▸ h
  | refused offer same => exact same.snapshot ▸ h

/-- A publication never fails at the index. -/
theorem publish_ne_index (h : r.snapshot.Coherent) (decl : Declaration) (e : DuplicateId) :
    (r.publish decl).1 ≠ .error (.index e) := by
  intro he
  have hends := r.publish_ends decl
  rw [he] at hends
  cases hends with
  | refused offer same => exact h.not_refused offer

/-- If the next provisional name is free, a publication fails exactly if nothing is there that the
declaration repeats and one of its aliases belongs to something else. -/
theorem publish_error_iff (h : r.snapshot.Coherent) {decl : Declaration}
    (hfree : r.NextNameFree decl.channel) :
    (∃ e, (r.publish decl).1 = .error e) ↔
      (r.snapshot.directories.get decl.channel).equivalent? decl = none ∧
        ∃ n ∈ decl.aliases, (r.snapshot.index.byName? decl.channel n).isSome := by
  have hspec := r.snapshot.offer_spec decl (r.names r.drawn) r.nextSerial
  obtain ⟨_, _, hresult⟩ := publish_of_nextNameFree hfree
  have hsound := h.sound.each decl.channel
  cases ho : r.snapshot.offer decl (r.names r.drawn) r.nextSerial with
  | nameTaken n y =>
      rw [ho] at hresult
      exact hresult.elim
  | refused x e => exact absurd ho h.not_refused
  | present x =>
      rw [ho] at hresult hspec
      dsimp only at hresult
      constructor
      · rintro ⟨e, he⟩
        cases hresult.symm.trans he
      · rintro ⟨hq, _⟩
        cases hq.symm.trans hspec
  | published x s =>
      rw [ho] at hresult hspec
      dsimp only at hresult
      obtain ⟨_, _, hc, rfl, _, _⟩ := hspec
      have hmem : decl.bind ⟨r.names r.drawn, false, false⟩ r.nextSerial ∉
          (r.snapshot.directories.get decl.channel).entries :=
        fun hx => hsound.name_ne (hsound.get?_names_of_byName? hfree) _ hx rfl
      constructor
      · rintro ⟨e, he⟩
        cases hresult.1.symm.trans he
      · rintro ⟨_, n, hn, hsome⟩
        have hnone := h.byName?_of_claimedAlias? (x := decl.bind _ _) hmem hc n hn
        rw [Declaration.channel_bind] at hnone
        rw [hnone] at hsome
        cases hsome
  | aliasTaken n y =>
      rw [ho] at hresult hspec
      dsimp only at hresult
      obtain ⟨hq, _, hc⟩ := hspec
      obtain ⟨m, hm, hclaimed⟩ := List.exists_of_findSome?_eq_some hc
      rw [Declaration.channel_bind] at hclaimed
      have hsome : (r.snapshot.index.byName? decl.channel m).isSome := by
        cases hb : r.snapshot.index.byName? decl.channel m with
        | some z => rfl
        | none =>
            rw [hb] at hclaimed
            cases hclaimed
      exact iff_of_true ⟨_, hresult⟩ ⟨hq, m, hm, hsome⟩

/-- A rebuild publishes the same directories with the index that a build makes of them. -/
theorem rebuild_ok (h : r.snapshot.Coherent) : r.rebuild.1 = .ok () ∧
    Index.build r.snapshot.directories = .ok r.rebuild.2.snapshot.index ∧
    r.rebuild.2.snapshot.directories = r.snapshot.directories ∧ r.rebuild.2.snapshot.Coherent ∧
    r.rebuild.2.snapshot.index.Records (r.snapshot.directories.enumerate true)
      r.snapshot.directories.claims := by
  obtain ⟨s', hs, hb, hd, hc, hr⟩ := h.reindex
  unfold rebuild
  rw [hs]
  exact ⟨rfl, hb, hd, hc, hr⟩

end Registry

end WireCatalog
