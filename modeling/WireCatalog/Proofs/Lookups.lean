import WireCatalog.Proofs.Reachable

/-! # Look-ups of a reachable catalogue

* `directories_and_index_agree`: the index of a reachable catalogue answers by wire key and by
  legacy id what its directories hold, its names stand for entries that have them, and it refuses
  nothing that a directory adopts.
* `rebuild_keeps_ids_and_names`: an index that grew with its directories gives the answers by wire
  key and by name of an index that is built from them. -/

namespace WireCatalog

/-- A bucket that is not empty answers whatever direction is preferred. -/
theorem Index.isSome_byLegacyId? (ix : Index) (id : Int) (preferred : Option Direction) :
    (ix.byLegacyId? id preferred).isSome = !(ix.bucket id).isEmpty := by
  unfold byLegacyId?
  cases hb : ix.bucket id with
  | nil => cases preferred <;> rfl
  | cons x xs =>
      dsimp only
      rw [List.head?_cons, Option.isSome_or, Option.isSome_some, Bool.or_true]
      rfl

namespace Catalogue

/-- **The directories and the index agree.** In a reachable catalogue a wire key leads to what the
scan of its directory by id finds, and an unknown id to nothing. The packet types under a legacy id
are, each of them once, the listed ones that have it, and a look-up by the id finds one exactly if
there are any. A bound name stands for an entry of its channel that has the name, or whose name it
was. So the index never refuses what a directory adopts, and a rebuild that runs succeeds. -/
theorem directories_and_index_agree {c : Catalogue} (h : c.Reachable) :
    (∀ k, c.resolveCurrent k = (c.directories.get k.channel).byId? k.id) ∧
    (∀ ch, c.resolveCurrent ⟨ch, unknownId⟩ = none) ∧
    (∀ id, (c.index.bucket id).Nodup) ∧
    (∀ id x, x ∈ c.index.bucket id ↔ id ≠ unknownId ∧ x ∈ c.enumerate true ∧ x.legacyId = id) ∧
    (∀ id preferred, c.hasLegacy id = (c.resolveLegacy id preferred).isSome) ∧
    (∀ ch n x, c.index.bound? ch n = some x → x ∈ (c.directories.get ch).entries ∧
      (x.name = n ∨ n ∈ x.aliases ∨
        ∃ r ∈ (c.directories.get ch).retired, r.name = n ∧ r.target = x)) ∧
    (∀ decl e, (c.publish decl).1 ≠ .error (.index e)) ∧
    ∀ fate : Fate, fate.runs = true → (c.rebuildAs fate).1 = .ok () := by
  have hc := h.coherent
  refine ⟨hc.byKey?, ?_, hc.nodup_bucket, ?_, ?_, ?_, ?_, ?_⟩
  · intro ch
    refine (hc.byKey? _).trans ?_
    rw [Directory.byId?, if_pos rfl]
  · exact fun id x => hc.mem_bucket
  · exact fun id preferred => (c.index.isSome_byLegacyId? id preferred).symm
  · exact fun ch n x hb => hc.bound?_cases hb
  · exact Registry.publish_ne_index hc
  · intro fate hf
    rw [(c.rebuildAs_of_runs hf).1]
    exact (Registry.rebuild_ok hc).1

theorem directories_and_index_agree_withGauge : withGauge.Reachable ∧
    withGauge.resolveCurrent ⟨gauge.channel, unknownId⟩ = none ∧
    (withGauge.index.bucket gauge.legacyId).Nodup ∧
    (withGauge.rebuildAs .inline).1 = .ok () := by
  obtain ⟨_, hunknown, hnodup, _, _, _, _, hok⟩ := directories_and_index_agree reachable_withGauge
  exact ⟨reachable_withGauge, hunknown gauge.channel, hnodup gauge.legacyId, hok .inline rfl⟩

/-- **A rebuild keeps look-ups by wire key and by name.** In a reachable catalogue a rebuild that runs
succeeds and makes the index of the directories, which stay as they are. That index answers by wire
key, by name and by alias as the index before did, and has lost the same claims of each channel in
the same order. -/
theorem rebuild_keeps_ids_and_names {c : Catalogue} (h : c.Reachable) {fate : Fate}
    (hf : fate.runs = true) :
    let c' := (c.rebuildAs fate).2
    (c.rebuildAs fate).1 = .ok () ∧ c'.directories = c.directories ∧
    Index.build c.directories = .ok c'.index ∧
    (∀ k, c'.resolveCurrent k = c.resolveCurrent k) ∧
    (∀ ch n, c'.resolveName ch n = c.resolveName ch n) ∧
    (∀ n, c'.fromName n = c.fromName n) ∧
    ∀ ch, c'.index.collisions.filter (·.channel == ch) =
      c.index.collisions.filter (·.channel == ch) := by
  have hc := h.coherent
  obtain ⟨hok, hb, hd, hc', _⟩ := Registry.rebuild_ok hc
  obtain ⟨hresult, hreg⟩ := c.rebuildAs_of_runs hf
  rw [← hresult] at hok
  rw [← hreg] at hb hd hc'
  refine ⟨hok, hd, hb, ?_, ?_, ?_, ?_⟩
  · exact hc.byKey?_congr hc' hd
  · exact hc.byName?_congr hc' hd
  · exact hc.byAlias_congr hc' hd
  · exact hc.filter_collisions_congr hc' hd

theorem rebuild_keeps_ids_and_names_withGauge : withGauge.Reachable ∧ Fate.inline.runs = true ∧
    (withGauge.rebuildAs .inline).2.resolveName gauge.channel "Gauge" =
      withGauge.resolveName gauge.channel "Gauge" := by
  obtain ⟨_, _, _, _, hname, _⟩ :=
    rebuild_keeps_ids_and_names reachable_withGauge (rfl : Fate.inline.runs = true)
  exact ⟨reachable_withGauge, rfl, hname gauge.channel "Gauge"⟩

end Catalogue

end WireCatalog
