import WireCatalog.Catalogue.Registry
import WireCatalog.Proofs.Directory

/-! # Publication

What an offer and a publication can do.

* `Snapshot.offer_spec` says what each outcome of an offer tells about the snapshot, the checks that
  came before it included.
* `Registry.Ends` relates a registry and a declaration to the result of the publication and to the
  registry after it. `publish_ends` follows the names that are tried.
* `publish_all_or_nothing`: a publication either appends one packet type to one directory and adds
  it to the index, or it leaves the published snapshot as it is. -/

namespace WireCatalog

namespace Snapshot

/-- What the outcome of an offer tells, with the checks that it went through. -/
theorem offer_spec (s : Snapshot) (decl : Declaration) (name : String) (k : Nat) :
    let d := s.directories.get decl.channel
    let x := decl.bind ⟨name, false, false⟩ k
    match s.offer decl name k with
    | .present y => d.equivalent? decl = some y
    | .nameTaken n y => d.equivalent? decl = none ∧ n = name ∧ d.byName? name = some y
    | .aliasTaken n y => d.equivalent? decl = none ∧ d.byName? name = none ∧
        s.index.claimedAlias? x = some (n, y)
    | .refused y e => d.equivalent? decl = none ∧ d.byName? name = none ∧
        s.index.claimedAlias? x = none ∧ y = x ∧ s.index.add x = .error e
    | .published y s' => d.equivalent? decl = none ∧ d.byName? name = none ∧
        s.index.claimedAlias? x = none ∧ y = x ∧ s.index.add x = .ok s'.index ∧
        s'.directories = s.directories.set decl.channel (d.append x) := by
  intro d x
  unfold offer DirectorySet.enter
  rcases d.enter_cases decl ⟨name, false, false⟩ k with
    ⟨y, hq, he⟩ | ⟨y, hq, hn, he⟩ | ⟨hq, hn, he⟩
  · simp only [d, he] at hq ⊢
    exact hq
  · simp only [d, he] at hq hn ⊢
    exact ⟨hq, trivial, hn⟩
  · simp only [d, he] at hq hn ⊢
    cases hc : s.index.claimedAlias? x with
    | some p => exact ⟨hq, hn, rfl⟩
    | none =>
        dsimp only
        cases ha : s.index.add x with
        | error e => exact ⟨hq, hn, rfl, rfl, rfl⟩
        | ok ix => exact ⟨hq, hn, rfl, rfl, rfl, rfl⟩

end Snapshot

namespace Registry

/-- The published snapshot is still the same one, and no serial number was given out. -/
structure SameSnapshot (r r' : Registry) : Prop where
  snapshot : r'.snapshot = r.snapshot
  revision : r'.revision = r.revision
  nextSerial : r'.nextSerial = r.nextSerial

/-- How the publication of a declaration ends, by the offer that decides it: with which result and
in which registry. -/
inductive Ends (r : Registry) (decl : Declaration) :
    Except CatalogueError Registration → Registry → Prop
  | published {name : String} {x : PacketType} {r' : Registry}
      (offer : r.snapshot.offer decl name r.nextSerial = .published x r'.snapshot)
      (revision : r'.revision = r.revision + 1) (serial : r'.nextSerial = r.nextSerial + 1) :
      Ends r decl (.ok (.published x)) r'
  | present {name : String} {x : PacketType} {r' : Registry}
      (offer : r.snapshot.offer decl name r.nextSerial = .present x)
      (same : r.SameSnapshot r') : Ends r decl (.ok (.present x)) r'
  | nameTaken {name n : String} {y : PacketType} {r' : Registry}
      (offer : r.snapshot.offer decl name r.nextSerial = .nameTaken n y)
      (same : r.SameSnapshot r') :
      Ends r decl (.error (.nameConflict decl.channel n y.name)) r'
  | aliasTaken {name n : String} {y : PacketType} {r' : Registry}
      (offer : r.snapshot.offer decl name r.nextSerial = .aliasTaken n y)
      (same : r.SameSnapshot r') :
      Ends r decl (.error (.nameConflict decl.channel n y.name)) r'
  | refused {name : String} {x : PacketType} {e : DuplicateId} {r' : Registry}
      (offer : r.snapshot.offer decl name r.nextSerial = .refused x e)
      (same : r.SameSnapshot r') : Ends r decl (.error (.index e)) r'

theorem SameSnapshot.trans {r r₁ r' : Registry} (h : r.SameSnapshot r₁) (h' : r₁.SameSnapshot r') :
    r.SameSnapshot r' where
  snapshot := h'.snapshot.trans h.snapshot
  revision := h'.revision.trans h.revision
  nextSerial := h'.nextSerial.trans h.nextSerial

/-- A publication may start over after a step that kept the snapshot. -/
theorem SameSnapshot.ends {r r₁ r' : Registry} {decl : Declaration}
    {result : Except CatalogueError Registration} (h : r.SameSnapshot r₁)
    (he : r₁.Ends decl result r') : r.Ends decl result r' := by
  cases he with
  | published offer revision serial =>
      rw [h.snapshot, h.nextSerial] at offer
      rw [h.revision] at revision
      rw [h.nextSerial] at serial
      exact .published offer revision serial
  | present offer same =>
      rw [h.snapshot, h.nextSerial] at offer
      exact .present offer (h.trans same)
  | nameTaken offer same =>
      rw [h.snapshot, h.nextSerial] at offer
      exact .nameTaken offer (h.trans same)
  | aliasTaken offer same =>
      rw [h.snapshot, h.nextSerial] at offer
      exact .aliasTaken offer (h.trans same)
  | refused offer same =>
      rw [h.snapshot, h.nextSerial] at offer
      exact .refused offer (h.trans same)

theorem publishFrom_ends (decl : Declaration) (attempt left : ℕ) (r : Registry) :
    r.Ends decl (publishFrom decl attempt left r).1 (publishFrom decl attempt left r).2 := by
  unfold publishFrom
  simp only [draw]
  cases ho : r.snapshot.offer decl (r.names r.drawn) r.nextSerial with
  | published x s => exact .published ho rfl rfl
  | present x => exact .present ho ⟨rfl, rfl, rfl⟩
  | aliasTaken n y => exact .aliasTaken ho ⟨rfl, rfl, rfl⟩
  | refused x e => exact .refused ho ⟨rfl, rfl, rfl⟩
  | nameTaken n y =>
      cases left with
      | zero => exact .nameTaken ho ⟨rfl, rfl, rfl⟩
      | succ left =>
          -- The next name is offered to the same snapshot.
          refine SameSnapshot.ends ?_ (publishFrom_ends decl (attempt + 1) left _)
          exact ⟨rfl, rfl, rfl⟩
termination_by left

theorem publish_ends (r : Registry) (decl : Declaration) :
    r.Ends decl (r.publish decl).1 (r.publish decl).2 := by
  unfold publish
  refine SameSnapshot.ends ?_ (publishFrom_ends decl 1 1 _)
  exact ⟨rfl, rfl, rfl⟩

/-- An offer under the next name that is published decides the publication. -/
theorem publish_of_offer {r : Registry} {decl : Declaration} {x : PacketType} {s : Snapshot}
    (ho : r.snapshot.offer decl (r.names r.drawn) r.nextSerial = .published x s) :
    (r.publish decl).1 = .ok (.published x) ∧ (r.publish decl).2.snapshot = s := by
  unfold publish publishFrom
  simp only [draw, log]
  rw [ho]
  exact ⟨rfl, rfl⟩

/-- The next provisional name is no name of the directory of a channel. -/
def NextNameFree (r : Registry) (c : Channel) : Prop :=
  (r.snapshot.directories.get c).byName? (r.names r.drawn) = none

section

variable {r : Registry} {decl : Declaration}

/-- If the next provisional name is free, the first offer decides the publication. -/
theorem publish_of_nextNameFree (hfree : r.NextNameFree decl.channel) :
    (r.publish decl).2.names = r.names ∧ (r.publish decl).2.drawn = r.drawn + 1 ∧
    match r.snapshot.offer decl (r.names r.drawn) r.nextSerial with
    | .published x s =>
        (r.publish decl).1 = .ok (.published x) ∧ (r.publish decl).2.snapshot = s
    | .present x => (r.publish decl).1 = .ok (.present x)
    | .nameTaken _ _ => False
    | .aliasTaken n y => (r.publish decl).1 = .error (.nameConflict decl.channel n y.name)
    | .refused _ e => (r.publish decl).1 = .error (.index e) := by
  have hspec := r.snapshot.offer_spec decl (r.names r.drawn) r.nextSerial
  unfold publish publishFrom
  simp only [draw, log]
  cases ho : r.snapshot.offer decl (r.names r.drawn) r.nextSerial with
  | published x s => exact ⟨rfl, rfl, rfl, rfl⟩
  | present x => exact ⟨rfl, rfl, rfl⟩
  | nameTaken n y =>
      rw [ho] at hspec
      cases hfree.symm.trans hspec.2.2
  | aliasTaken n y => exact ⟨rfl, rfl, rfl⟩
  | refused x e => exact ⟨rfl, rfl, rfl⟩

theorem publish_ne_executorClosed : (r.publish decl).1 ≠ .error .executorClosed := by
  intro hclosed
  have hends := r.publish_ends decl
  rw [hclosed] at hends
  cases hends

theorem snapshot_of_publish_error {e : CatalogueError} (he : (r.publish decl).1 = .error e) :
    (r.publish decl).2.snapshot = r.snapshot := by
  have hends := r.publish_ends decl
  rw [he] at hends
  cases hends with
  | nameTaken offer same => exact same.snapshot
  | aliasTaken offer same => exact same.snapshot
  | refused offer same => exact same.snapshot

/-- All that a publication can add is a packet type of the declaration, which has the next name. -/
theorem mem_enumerate_publish (hfree : r.NextNameFree decl.channel) {y : PacketType}
    (hy : y ∈ (r.publish decl).2.snapshot.directories.enumerate true) :
    y ∈ r.snapshot.directories.enumerate true ∨
      y = decl.bind ⟨r.names r.drawn, false, false⟩ r.nextSerial := by
  obtain ⟨_, _, hresult⟩ := publish_of_nextNameFree hfree
  have hspec := r.snapshot.offer_spec decl (r.names r.drawn) r.nextSerial
  have hends := r.publish_ends decl
  cases ho : r.snapshot.offer decl (r.names r.drawn) r.nextSerial with
  | nameTaken n x =>
      rw [ho] at hresult
      exact hresult.elim
  | published x s =>
      rw [ho] at hresult hspec
      obtain ⟨_, rfl⟩ := hresult
      obtain ⟨_, _, _, rfl, _, hd⟩ := hspec
      obtain ⟨c, hc⟩ := DirectorySet.mem_enumerate.mp hy
      rw [hd, DirectorySet.entries_set_append _ (decl.channel_bind _ _)] at hc
      rcases List.mem_append.mp hc with hold | hnew
      · exact .inl (DirectorySet.mem_enumerate.mpr ⟨_, hold⟩)
      · right
        split at hnew
        · exact List.mem_singleton.mp hnew
        · cases hnew
  | present x =>
      rw [ho] at hresult
      rw [hresult] at hends
      cases hends with
      | present offer same => exact .inl (same.snapshot ▸ hy)
  | aliasTaken n x =>
      rw [ho] at hresult
      rw [snapshot_of_publish_error hresult] at hy
      exact .inl hy
  | refused x e =>
      rw [ho] at hresult
      rw [snapshot_of_publish_error hresult] at hy
      exact .inl hy

end

/-! ### All or nothing -/

/-- A publication that succeeds with a new packet type appends it to the directory of its channel,
binds its symbolic name there, adds it to the index once and changes nothing else. One that finds an
equivalent entry, and one that fails at any point, leaves the published snapshot as it is. -/
theorem publish_all_or_nothing (r : Registry) (decl : Declaration) :
    let s := r.snapshot
    let r' := (r.publish decl).2
    let s' := r'.snapshot
    match (r.publish decl).1 with
    | .ok (.published x) =>
        x.toDeclaration = decl ∧
        (s'.directories.get x.channel).entries = (s.directories.get x.channel).entries ++ [x] ∧
        (∀ n, (s'.directories.get x.channel).names.get? n =
          if n = x.name then some (.entry (s.directories.get x.channel).entries.length)
          else (s.directories.get x.channel).names.get? n) ∧
        (s'.directories.get x.channel).byName? x.name = some x ∧
        (∀ c, c ≠ x.channel → s'.directories.get c = s.directories.get c) ∧
        (∀ c, (s'.directories.get c).retired = (s.directories.get c).retired ∧
          (s'.directories.get c).channel = (s.directories.get c).channel) ∧
        s.index.add x = .ok s'.index ∧ r'.revision = r.revision + 1
    | .ok (.present e) =>
        e ∈ (s.directories.get decl.channel).entries ∧ s' = s ∧ r'.revision = r.revision
    | .error _ => s' = s ∧ r'.revision = r.revision := by
  have hends := r.publish_ends decl
  generalize r.publish decl = p at hends ⊢
  obtain ⟨result, r'⟩ := p
  dsimp only at hends ⊢
  cases hends with
  | @published name x _ offer revision serial =>
      have hspec := r.snapshot.offer_spec decl name r.nextSerial
      rw [offer] at hspec
      obtain ⟨_, _, _, rfl, hadd, hdirs⟩ := hspec
      have hself : r'.snapshot.directories.get decl.channel =
          (r.snapshot.directories.get decl.channel).append
            (decl.bind ⟨name, false, false⟩ r.nextSerial) := by
        rw [hdirs, PerChannel.get_set_self]
      have hother : ∀ c, c ≠ decl.channel →
          r'.snapshot.directories.get c = r.snapshot.directories.get c := by
        intro c hc
        rw [hdirs, PerChannel.get_set_of_ne _ _ (Ne.symm hc)]
      refine ⟨rfl, congrArg Directory.entries hself, ?_, ?_, hother, ?_, hadd, revision⟩
      · intro n
        refine (congrArg (fun d => Assoc.get? d.names n) hself).trans ?_
        exact Assoc.get?_cons _ _ _ _
      · refine (congrArg (Directory.byName? · name) hself).trans ?_
        exact Directory.byName?_append_self _ _
      · intro c
        by_cases hc : c = decl.channel
        · rw [hc, hself]
          exact ⟨rfl, rfl⟩
        · rw [hother c hc]
          exact ⟨rfl, rfl⟩
  | @present name x _ offer same =>
      have hspec := r.snapshot.offer_spec decl name r.nextSerial
      rw [offer] at hspec
      exact ⟨Directory.mem_of_equivalent? hspec, same.snapshot, same.revision⟩
  | nameTaken offer same => exact ⟨same.snapshot, same.revision⟩
  | aliasTaken offer same => exact ⟨same.snapshot, same.revision⟩
  | refused offer same => exact ⟨same.snapshot, same.revision⟩

end Registry

end WireCatalog
