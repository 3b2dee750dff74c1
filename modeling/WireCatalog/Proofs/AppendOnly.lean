import WireCatalog.Proofs.LegacyOrder
import WireCatalog.Proofs.NameStability
import WireCatalog.Proofs.Serials

/-! # A catalogue only grows

The moments of a run are the catalogues after its first operations. Each is reached from every
earlier one by steps of the registry (`moment_steps`), so what these keep holds of any two moments,
and from one moment to the next at most one packet type is added (`performAs_adds`).
`append_only` puts this together for the entries of the directories, for the enumerations and for
the look-ups by wire key. -/

namespace WireCatalog

/-- A wire key that leads to an entry leads to it for ever. -/
theorem Snapshot.Coherent.byKey?_grows {s s' : Snapshot} (h : s.Coherent) (h' : s'.Coherent)
    (hg : s.Grows s') {k : WireKey} {x : PacketType} (hx : s.index.byKey? k = some x) :
    s'.index.byKey? k = some x := by
  obtain ⟨new, hnew⟩ := hg.exists_new k.channel
  rw [h.byKey?, Directory.byId?] at hx
  rw [h'.byKey?, Directory.byId?]
  split at hx
  · cases hx
  · rename_i hk
    rw [if_neg hk, hnew, List.find?_append, hx, Option.some_or]

namespace Catalogue

/-! ### Moments of a run -/

theorem performAll_append (c : Catalogue) (run run' : List (Fate × Operation)) :
    c.performAll (run ++ run') = (c.performAll run).performAll run' := by
  induction run generalizing c with
  | nil => rfl
  | cons p run ih => exact ih _

/-- The catalogue after the first operations of a run. -/
def moment (c : Catalogue) (run : List (Fate × Operation)) (i : ℕ) : Catalogue :=
  c.performAll (run.take i)

variable {c : Catalogue} {run : List (Fate × Operation)} {i j : ℕ}

/-- A later moment comes after the operations in between. -/
theorem moment_add (c : Catalogue) (run : List (Fate × Operation)) (i n : ℕ) :
    c.moment run (i + n) = (c.moment run i).performAll ((run.drop i).take n) := by
  rw [moment, moment, List.take_add, performAll_append]

theorem moment_succ {fate : Fate} {op : Operation} (h : run[i]? = some (fate, op)) :
    c.moment run (i + 1) = (c.moment run i).performAs fate op := by
  have hdrop : (run.drop i).take 1 = [(fate, op)] := by
    obtain ⟨hi, hop⟩ := List.getElem?_eq_some_iff.mp h
    rw [List.drop_eq_getElem_cons hi, hop]
    rfl
  rw [moment_add, hdrop]
  rfl

theorem moment_succ_of_end (h : run[i]? = none) : c.moment run (i + 1) = c.moment run i := by
  have hi : run.length ≤ i := List.getElem?_eq_none_iff.mp h
  rw [moment, moment, List.take_of_length_le (by omega), List.take_of_length_le hi]

theorem moment_steps (hij : i ≤ j) :
    (c.moment run i).registry.Steps (c.moment run j).registry := by
  obtain ⟨n, rfl⟩ := Nat.exists_eq_add_of_le hij
  rw [moment_add]
  exact performAll_steps _ _

/-- What holds at first and is kept by the operations of a run holds at every moment of it. -/
theorem moment_induction {P : Catalogue → Prop} (hstart : P c)
    (hstep : ∀ c fate op, P c → P (performAs c fate op)) (i : ℕ) : P (c.moment run i) := by
  induction i with
  | zero => exact hstart
  | succ i ih =>
      cases h : run[i]? with
      | none =>
          rw [moment_succ_of_end h]
          exact ih
      | some p =>
          rw [moment_succ h]
          exact hstep _ _ _ ih

theorem Reachable.moment (h : c.Reachable) (run : List (Fate × Operation)) (i : ℕ) :
    (c.moment run i).Reachable :=
  moment_induction h (fun _ fate op hc => hc.step fate op) i

theorem moment_adds (c : Catalogue) (run : List (Fate × Operation)) (i : ℕ) :
    ∃ new, (c.moment run i).registry.Adds (c.moment run (i + 1)).registry new := by
  cases h : run[i]? with
  | none =>
      rw [moment_succ_of_end h]
      exact ⟨none, Registry.adds_none rfl le_rfl⟩
  | some p =>
      rw [moment_succ h]
      exact performAs_adds _ _ _

/-! ### Any two moments -/

/-- **The catalogue is append-only.** Whatever operations are made on it and whatever becomes of
their tasks, the entries of each directory stay the first ones. One operation adds at most one
packet type. The enumeration lists each packet type once, the channels in order and each with the
entries of its directory, and without the legacy phase it lists what is left of these. A wire key
that leads to a packet type leads to it at every later moment. -/
theorem append_only (h : c.Reachable) (run : List (Fate × Operation)) :
    (∀ i j, i ≤ j → ∀ ch, ((c.moment run i).directories.get ch).entries <+:
      ((c.moment run j).directories.get ch).entries) ∧
    (∀ i, ∃ new : Option PacketType, ∀ ch, ((c.moment run (i + 1)).directories.get ch).entries =
      ((c.moment run i).directories.get ch).entries ++ new.toList.filter (·.channel == ch)) ∧
    (∀ i, (((c.moment run i).enumerate true).map (·.serial)).Nodup ∧
      InOrder ((c.moment run i).enumerate true) ∧
      ∀ ch, ((c.moment run i).enumerate true).filter (·.channel == ch) =
        ((c.moment run i).directories.get ch).entries) ∧
    (∀ i, (c.moment run i).enumerate false =
      ((c.moment run i).enumerate true).filter fun x => !x.channel.phase.isLegacy) ∧
    ∀ i j, i ≤ j → ∀ k x, (c.moment run i).resolveCurrent k = some x →
      (c.moment run j).resolveCurrent k = some x := by
  have hc : ∀ i, (c.moment run i).snapshot.Coherent := fun i => (h.moment run i).coherent
  refine ⟨fun i j hij => (Registry.grows_steps (moment_steps hij)).entries, fun i => ?_,
    fun i => ?_, fun i => (hc i).sound.enumerate_false, fun i j hij k x hx => ?_⟩
  · obtain ⟨new, hnew⟩ := c.moment_adds run i
    exact ⟨new, hnew.entries⟩
  · exact ⟨(h.moment run i).numbered.nodup_map_serial (hc i).sound, (hc i).sound.inOrder_enumerate,
      (hc i).sound.filter_enumerate⟩
  · exact (hc i).byKey?_grows (hc j) (Registry.grows_steps (moment_steps hij)) hx

/-- A packet type that is registered is still listed after the index is made anew. -/
theorem append_only_gauge : standard.Reachable ∧
    ∃ x, x.toDeclaration = gauge ∧
      x ∈ (standard.moment [(.inline, .register gauge), (.inline, .rebuild)] 2).enumerate true := by
  obtain ⟨hfirst, _⟩ :=
    append_only reachable_standard [(.inline, .register gauge), (.inline, .rebuild)]
  obtain ⟨x, hx, hgauge⟩ := admits_gauge.mem_enumerate
  obtain ⟨ch, hch⟩ := DirectorySet.mem_enumerate.mp hx
  have hkept := (hfirst 1 2 (by decide) ch).subset hch
  exact ⟨reachable_standard, x, hgauge, DirectorySet.mem_enumerate.mpr ⟨ch, hkept⟩⟩

end Catalogue

end WireCatalog
