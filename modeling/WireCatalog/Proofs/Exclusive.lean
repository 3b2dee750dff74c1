import WireCatalog.Proofs.Convergence
import WireCatalog.Proofs.TableOrder

/-! # Aliases that belong to one packet type

In a directory that is `Exclusive` no alias of an entry is the symbolic name or an alias of an
earlier one. So the entry claims its aliases first (`Exclusive.firstClaimant`), and every alias stands
for the entry that has it (`Coherent.bound?_alias`).

The built-in packet types are exclusive: their own names are capitalized and pairwise different, and
no symbolic name is qualified (`exclusive_tableFor`). A publication keeps directories exclusive,
since the alias check lets a packet type pass only if all its aliases are free
(`Coherent.exclusive_of_published`).

`every_identity_resolves_to_itself` says what that means for the look-ups of a reachable
catalogue. -/

namespace WireCatalog

/-! ### Exclusive directories -/

/-- No alias of an entry is the symbolic name or an alias of an earlier one. -/
def Directory.Exclusive (d : Directory) : Prop :=
  d.entries.Pairwise fun x y => ∀ n ∈ y.aliases, n ≠ x.name ∧ n ∉ x.aliases

def DirectorySet.Exclusive (s : DirectorySet) : Prop := ∀ c, (s.get c).Exclusive

theorem firstCalled_eq_none {xs : List PacketType} {c : Channel} {n : String}
    (h : ∀ x ∈ xs, n ≠ x.name ∧ n ∉ x.aliases) : firstCalled xs c n = none := by
  rw [firstCalled, List.find?_eq_none]
  intro x hx hn
  rw [Bool.and_eq_true, PacketType.answersTo_iff] at hn
  exact hn.2.elim (h x hx).1 (h x hx).2

/-- An entry claims each of its aliases before the others do. -/
theorem Directory.Exclusive.firstClaimant {d : Directory} (h : d.Exclusive) {x : PacketType}
    (hx : x ∈ d.entries) {n : String} (hn : n ∈ x.aliases) :
    firstClaimant d.entryClaims x.channel n = some x := by
  obtain ⟨before, after, hsplit⟩ := List.append_of_mem hx
  rw [Exclusive, hsplit, List.pairwise_append] at h
  have hbefore : ∀ y ∈ before, n ≠ y.name ∧ n ∉ y.aliases :=
    fun y hy => h.2.2 y hy x List.mem_cons_self n hn
  rw [entryClaims, hsplit, List.flatMap_append, firstClaimant_append, firstClaimant_flatMap_claims,
    firstCalled_eq_none hbefore, Option.none_or, List.flatMap_cons, firstClaimant_append,
    x.firstClaimant_claims_eq, if_pos ⟨rfl, (x.answersTo_iff n).mpr (.inr hn)⟩, Option.some_or]

namespace Snapshot

variable {s s' : Snapshot}

namespace Coherent

/-- An alias stands for the packet type that has it. -/
theorem bound?_alias (h : s.Coherent) (he : s.directories.Exclusive) {x : PacketType}
    (hx : x ∈ s.directories.enumerate true) {n : String} (hn : n ∈ x.aliases) :
    s.index.bound? x.channel n = some x := by
  have hentry := h.sound.mem_enumerate_iff.mp hx
  rw [h.bound?_eq, Directory.claims, firstClaimant_append,
    (he x.channel).firstClaimant hentry hn, Option.some_or]

theorem byName?_of_format_mem (h : s.Coherent) (he : s.directories.Exclusive) {x : PacketType}
    (hx : x ∈ s.directories.enumerate true) {n : String}
    (hn : PacketName.format x.channel n ∈ x.aliases) : s.index.byName? x.channel n = some x := by
  rw [Index.byName?, h.bound?_alias he hx hn, Option.some_or]

/-- A known wire key leads to the packet type that has it. -/
theorem byKey?_self (h : s.Coherent) {x : PacketType} (hx : x ∈ s.directories.enumerate true)
    (hk : x.key.isKnown = true) : s.index.byKey? x.key = some x := by
  have hentry : x ∈ (s.directories.get x.key.channel).entries := h.sound.mem_enumerate_iff.mp hx
  have hapart := (h.sound.each x.key.channel).entries_apart
  obtain ⟨before, after, hsplit⟩ := List.append_of_mem hentry
  rw [hsplit, List.pairwise_append] at hapart
  have hbefore : before.find? (·.key.id == x.key.id) = none := by
    refine List.find?_eq_none.mpr fun y hy he => ?_
    have hy' : y ∈ (s.directories.get x.key.channel).entries := hsplit ▸ List.mem_append_left _ hy
    have hkey : y.key = x.key :=
      WireKey.eq_iff.mpr ⟨h.sound.channel_of_mem hy', beq_iff_eq.mp he⟩
    exact (hapart.2.2 y hy x List.mem_cons_self).2 hk hkey
  rw [h.byKey?, Directory.byId?, if_neg ((WireKey.isKnown_iff _).mp hk), hsplit, List.find?_append,
    hbefore, Option.none_or, List.find?_cons, beq_self_eq_true]

/-- No alias that a packet type was declared with is lost to another one. -/
theorem kind_ne_declared (h : s.Coherent) (he : s.directories.Exclusive) :
    ∀ l ∈ s.index.collisions, l.kind ≠ .declared := by
  intro l hl hkind
  obtain ⟨xs, cs, hr, hm⟩ := h.history
  rw [hr.collisions] at hl
  obtain ⟨cl, hcl, hloss⟩ := List.mem_filterMap.mp hl
  have hk := Claim.kind_of_loss? hloss
  rw [hkind] at hk
  have hentry : cl.isEntryOf cl.channel = true := Claim.isEntryOf_iff.mpr ⟨rfl, by rw [← hk]; nofun⟩
  obtain ⟨x, hx, hcl⟩ := List.mem_flatMap.mp (hm.mem_entryClaims hcl hentry)
  obtain ⟨hc, _, rfl, _⟩ := PacketType.mem_claims hcl
  have hown := h.bound?_alias he (DirectorySet.mem_enumerate.mpr ⟨_, hx⟩)
    (PacketType.name_mem_aliases hcl hk.symm)
  rw [hr.bound, ← hc] at hown
  simp [Claim.loss?, hown] at hloss

/-- The aliases of a published packet type are free of all names and aliases before it. -/
theorem exclusive_of_published (h : s.Coherent) (he : s.directories.Exclusive)
    {decl : Declaration} {name : String} {k : ℕ} {x : PacketType}
    (ho : s.offer decl name k = .published x s') : s'.directories.Exclusive := by
  obtain ⟨_, haliases⟩ := h.free_of_published ho
  have hspec := s.offer_spec decl name k
  rw [ho] at hspec
  obtain ⟨_, _, _, rfl, _, hd⟩ := hspec
  rw [hd]
  refine PerChannel.forall_set (P := fun _ d => Directory.Exclusive d) he ?_
  refine List.pairwise_append.mpr ⟨he decl.channel, List.pairwise_singleton _ _, ?_⟩
  intro y hy z hz n hn
  rw [List.mem_singleton.mp hz] at hn
  have hfree := haliases n hn
  have hchannel : y.channel = decl.channel := h.sound.channel_of_mem hy
  rw [Declaration.channel_bind, ← hchannel] at hfree
  rw [← hchannel] at hy
  constructor
  · rintro rfl
    have := h.isSome_bound? hy (.inl rfl)
    rw [hfree] at this
    cases this
  · intro hya
    have := h.isSome_bound? hy (.inr hya)
    rw [hfree] at this
    cases this

end Coherent

end Snapshot

namespace Registry

variable {r r' : Registry}

theorem exclusive_step (h : r.snapshot.Coherent) (he : r.snapshot.directories.Exclusive)
    (hs : r.Step r') : r'.snapshot.directories.Exclusive := by
  cases hs with
  | log es => exact he
  | publish decl =>
      have hends := r.publish_ends decl
      generalize r.publish decl = p at hends ⊢
      obtain ⟨result, r'⟩ := p
      dsimp only at hends ⊢
      cases hends with
      | published offer => exact h.exclusive_of_published he offer
      | present offer same => exact same.snapshot ▸ he
      | nameTaken offer same => exact same.snapshot ▸ he
      | aliasTaken offer same => exact same.snapshot ▸ he
      | refused offer same => exact same.snapshot ▸ he
  | rebuild =>
      rw [(rebuild_ok h).2.2.1]
      exact he
  | detach decl => exact he

theorem exclusive_steps (h : r.snapshot.Coherent) (he : r.snapshot.directories.Exclusive)
    (hs : r.Steps r') : r'.snapshot.directories.Exclusive := by
  induction hs with
  | refl => exact he
  | tail hrs hs ih => exact exclusive_step (coherent_steps h hrs) ih hs

end Registry

/-! ### The built-in packet types -/

/-- The symbolic name and the aliases of a packet type. -/
def PacketType.labels (x : PacketType) : String × List String := (x.name, x.aliases)

/-- Whether a directory is exclusive can be seen from the names and aliases of its entries. -/
theorem Directory.exclusive_iff_labels {d : Directory} : d.Exclusive ↔
    (d.entries.map PacketType.labels).Pairwise fun a b => ∀ n ∈ b.2, n ≠ a.1 ∧ n ∉ a.2 := by
  rw [Exclusive, List.pairwise_map]
  rfl

namespace BuiltIn

/-- The symbolic name and the aliases that the packet type of a row gets in a channel. -/
def Entry.labels (c : Channel) (e : Entry) : String × List String :=
  (e.name, [PacketName.format c e.cls])

theorem Entry.Became.labels_eq {c : Channel} {v : Version} {e : Entry} {x : PacketType}
    (h : e.Became c v x) : e.labels c = x.labels := by
  have hname : x.name = e.name := congrArg Binding.name h.2
  have haliases : x.aliases = (e.declaration c v).aliases := congrArg Declaration.aliases h.1
  rw [PacketType.labels, hname, haliases]
  rfl

/-- A name and an own name of a packet type that no other one is taken for. -/
def Entry.IsPlain (e : Entry) : Prop :=
  PacketName.isQualified e.name = false ∧ PacketName.isQualified e.cls = false ∧
    PacketName.isCapitalized e.cls = true

instance (e : Entry) : Decidable e.IsPlain := inferInstanceAs (Decidable (_ ∧ _ ∧ _))

theorem isPlain_of_mem_tables : ∀ t ∈ tables, ∀ r ∈ t.rows, ∀ e ∈ r.2.declared?, e.IsPlain := by
  decide +kernel

theorem nodup_cls_of_mem_tables :
    ∀ t ∈ tables, ∀ c ∈ Channel.all, ((entriesOf c t.rows).map (·.cls)).Nodup := by
  decide +kernel

theorem pairwise_labels {es : List Entry} (c : Channel) (hplain : ∀ e ∈ es, e.IsPlain)
    (hnd : (es.map (·.cls)).Nodup) :
    (es.map (Entry.labels c)).Pairwise fun a b => ∀ n ∈ b.2, n ≠ a.1 ∧ n ∉ a.2 := by
  rw [List.Nodup, List.pairwise_map] at hnd
  rw [List.pairwise_map]
  refine hnd.imp_of_mem ?_
  intro e e' he he' hcls n hn
  obtain rfl := List.mem_singleton.mp hn
  obtain ⟨hname, hq, hcap⟩ := hplain e he
  obtain ⟨_, hq', hcap'⟩ := hplain e' he'
  constructor
  · intro heq
    have hsame : PacketName.format c e'.cls = e.name := heq
    rw [← hsame, PacketName.isQualified_format] at hname
    cases hname
  · intro hmem
    exact hcls (PacketName.format_inj hq hq' hcap hcap' (List.mem_singleton.mp hmem).symm)

/-- No built-in packet type is shadowed by another one. -/
theorem exclusive_tableFor (v : Version) :
    ((tableFor v).enrol DirectorySet.empty 0).1.set.Exclusive := by
  intro c
  have ht := tableFor_mem v
  obtain ⟨new, hentries, hnew⟩ :=
    (applied_tableFor DirectorySet.sound_empty (enrol_tableFor v)).2.entries c
  have hnone : (DirectorySet.empty.get c).entries = [] := by
    rw [DirectorySet.empty, PerChannel.get_tabulate]
    rfl
  rw [hnone, List.nil_append] at hentries
  have hlabels : (entriesOf c (tableFor v).rows).map (Entry.labels c) =
      new.map PacketType.labels := by
    rw [← List.forall₂_eq_eq_eq, List.forall₂_map_left_iff, List.forall₂_map_right_iff]
    exact hnew.imp fun e x hbecame => hbecame.labels_eq
  rw [Directory.exclusive_iff_labels, hentries, ← hlabels]
  refine pairwise_labels c ?_ (nodup_cls_of_mem_tables _ ht c c.mem_all)
  intro e he
  obtain ⟨⟨c', r⟩, hr, hsome⟩ := List.mem_filterMap.mp he
  refine isPlain_of_mem_tables _ ht (c', r) hr e ?_
  dsimp only at hsome ⊢
  split at hsome
  · exact hsome
  · cases hsome

end BuiltIn

/-! ### Reachable catalogues -/

namespace Plan

theorem exclusive_enrolled (p : Plan) : p.enrolled.1.set.Exclusive :=
  BuiltIn.exclusive_tableFor p.peer.version

end Plan

namespace Catalogue

theorem Reachable.exclusive {c : Catalogue} (h : c.Reachable) : c.directories.Exclusive := by
  induction h with
  | @built p c h =>
      obtain ⟨ix, es, _, rfl⟩ := Plan.finish_of_build h
      exact p.exclusive_enrolled
  | builtLenient p earlier =>
      rw [(p.buildLenient_start earlier).1]
      exact p.exclusive_enrolled
  | step hc fate op ih => exact Registry.exclusive_steps hc.coherent ih (performAs_steps _ fate op)

/-- In a reachable catalogue no packet type is shadowed. Its wire key leads to it if the id is known.
Every alias is bound to it, and so leads to it every name whose canonical form is one of its
aliases. No alias was ever lost to another packet type. -/
theorem every_identity_resolves_to_itself {c : Catalogue} (h : c.Reachable) :
    (∀ x ∈ c.enumerate true, x.key.isKnown = true → c.resolveCurrent x.key = some x) ∧
    (∀ x ∈ c.enumerate true, ∀ n ∈ x.aliases, c.index.bound? x.channel n = some x) ∧
    (∀ x ∈ c.enumerate true, ∀ n, PacketName.format x.channel n ∈ x.aliases →
      c.resolveName x.channel n = some x) ∧
    ∀ l ∈ c.index.collisions, l.kind ≠ .declared := by
  have hc := h.coherent
  have he := h.exclusive
  refine ⟨?_, ?_, ?_, hc.kind_ne_declared he⟩
  · exact fun x hx hk => hc.byKey?_self hx hk
  · exact fun x hx n hn => hc.bound?_alias he hx hn
  · exact fun x hx n hn => hc.byName?_of_format_mem he hx hn

/-- Once `gauge` is registered, its bare name leads to it. -/
theorem every_identity_resolves_to_itself_withGauge : withGauge.Reachable ∧
    ∃ x ∈ withGauge.enumerate true, x.toDeclaration = gauge ∧
      PacketName.format x.channel "gauge" ∈ x.aliases ∧
      withGauge.resolveName x.channel "gauge" = some x := by
  obtain ⟨_, _, hname, _⟩ := every_identity_resolves_to_itself reachable_withGauge
  obtain ⟨x, hx, hdecl⟩ := admits_gauge.mem_enumerate
  have halias : PacketName.format x.channel "gauge" ∈ x.aliases := by
    rw [hdecl]
    decide +kernel
  exact ⟨reachable_withGauge, x, hx, hdecl, halias, hname x hx "gauge" halias⟩

end Catalogue

end WireCatalog
