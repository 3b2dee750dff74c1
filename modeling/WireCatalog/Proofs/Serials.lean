import WireCatalog.Proofs.Growth

/-! # Serial numbers

Serial numbers stand for the identity of packet types, so no two of them may have the same one. A
change of the registry adds at most one packet type, at the end of its directory and with the number
that was next (`Registry.Adds`, `performAs_adds`). So the packet types of a reachable catalogue have
numbers of their own, all of them below the next one (`Reachable.numbered`), and a packet type with
the next number that is not added now is never added. -/

namespace WireCatalog

namespace DirectorySet

variable {s s' : DirectorySet} {new : Option PacketType} {x : PacketType} {n n' : ℕ}

/-- There is at most one packet type more, at the end of its directory. -/
def Extends (s s' : DirectorySet) (new : Option PacketType) : Prop :=
  ∀ c, (s'.get c).entries = (s.get c).entries ++ new.toList.filter (·.channel == c)

theorem extends_none (h : ∀ c, (s'.get c).entries = (s.get c).entries) : s.Extends s' none := by
  intro c
  simp [h c]

theorem extends_some (h : ∀ c, (s'.get c).entries =
    (s.get c).entries ++ if x.channel = c then [x] else []) : s.Extends s' (some x) := by
  intro c
  rw [h c]
  by_cases hc : x.channel = c <;> simp [hc]

theorem Extends.mem_enumerate (h : s.Extends s' new) {y : PacketType} :
    y ∈ s'.enumerate true ↔ y ∈ s.enumerate true ∨ y ∈ new := by
  simp only [DirectorySet.mem_enumerate, h _, List.mem_append, List.mem_filter, Option.mem_toList,
    Option.mem_def, exists_or, beq_iff_eq, exists_and_left, exists_eq', and_true]

/-- Packet types have numbers of their own, and these are below `n`. -/
structure Numbered (s : DirectorySet) (n : ℕ) : Prop where
  below : ∀ x ∈ s.enumerate true, x.serial < n
  inj : ∀ x ∈ s.enumerate true, ∀ y ∈ s.enumerate true, x.serial = y.serial → x = y

theorem numbered_empty (n : ℕ) : empty.Numbered n := by
  have hnone : ∀ x, x ∉ empty.enumerate true := by
    intro x hx
    obtain ⟨c, hc⟩ := mem_enumerate.mp hx
    rw [empty, PerChannel.get_tabulate] at hc
    cases hc
  exact ⟨fun x hx => absurd hx (hnone x), fun x hx => absurd hx (hnone x)⟩

namespace Numbered

/-- A packet type that is added gets a number that was not in use. -/
theorem extend (h : s.Numbered n) (he : s.Extends s' new) (hle : n ≤ n')
    (hnew : ∀ x ∈ new, x.serial = n ∧ n < n') : s'.Numbered n' := by
  constructor
  · intro x hx
    rcases he.mem_enumerate.mp hx with hold | hx
    · exact (h.below x hold).trans_le hle
    · have := hnew x hx
      omega
  · intro x hx y hy hxy
    rcases he.mem_enumerate.mp hx with hxold | hxnew
    · rcases he.mem_enumerate.mp hy with hyold | hynew
      · exact h.inj x hxold y hyold hxy
      · have := h.below x hxold
        have := hnew y hynew
        omega
    · rcases he.mem_enumerate.mp hy with hyold | hynew
      · have := h.below y hyold
        have := hnew x hxnew
        omega
      · exact Option.mem_unique hxnew hynew

theorem nodup_map_serial (h : s.Numbered n) (hs : s.Sound) :
    ((s.enumerate true).map (·.serial)).Nodup :=
  hs.nodup_enumerate.map_on h.inj

end Numbered

end DirectorySet

/-! ### Changes of a registry -/

namespace Registry

variable {r r₁ r' : Registry} {new : Option PacketType}

/-- What a change adds: at most one packet type, with the number that was next. -/
structure Adds (r r' : Registry) (new : Option PacketType) : Prop where
  entries : r.snapshot.directories.Extends r'.snapshot.directories new
  next : r.nextSerial ≤ r'.nextSerial
  serial : ∀ x ∈ new, x.serial = r.nextSerial ∧ r.nextSerial < r'.nextSerial

theorem adds_none (hd : r'.snapshot.directories = r.snapshot.directories)
    (hle : r.nextSerial ≤ r'.nextSerial) : r.Adds r' none where
  entries := DirectorySet.extends_none fun c => by rw [hd]
  next := hle
  serial := by simp

/-- After what adds a packet type, nothing but numbers may follow. -/
theorem Adds.trans_none (h : r.Adds r₁ new) (h' : r₁.Adds r' none) : r.Adds r' new where
  entries c := by
    have hc := h'.entries c
    rw [Option.toList_none, List.filter_nil, List.append_nil] at hc
    rw [hc, h.entries c]
  next := h.next.trans h'.next
  serial x hx := ⟨(h.serial x hx).1, (h.serial x hx).2.trans_le h'.next⟩

theorem SameSnapshot.adds (h : r.SameSnapshot r') : r.Adds r' none :=
  adds_none (congrArg Snapshot.directories h.snapshot) (Nat.le_of_eq h.nextSerial.symm)

theorem adds_publish (r : Registry) (decl : Declaration) :
    ∃ new, r.Adds (r.publish decl).2 new := by
  have hends := r.publish_ends decl
  generalize r.publish decl = p at hends ⊢
  obtain ⟨result, r'⟩ := p
  dsimp only at hends ⊢
  cases hends with
  | @published name x _ offer revision serial =>
      have hspec := r.snapshot.offer_spec decl name r.nextSerial
      rw [offer] at hspec
      obtain ⟨_, _, _, hx, _, hd⟩ := hspec
      have hchannel : x.channel = decl.channel := by rw [hx, Declaration.channel_bind]
      have hserial : x.serial = r.nextSerial := by rw [hx, Declaration.bind]
      rw [← hx] at hd
      refine ⟨some x, DirectorySet.extends_some fun c => ?_, by omega, fun y hy => ?_⟩
      · rw [hd]
        exact DirectorySet.entries_set_append _ hchannel c
      · obtain rfl := Option.some.inj hy
        exact ⟨hserial, by omega⟩
  | present offer same => exact ⟨none, same.adds⟩
  | nameTaken offer same => exact ⟨none, same.adds⟩
  | aliasTaken offer same => exact ⟨none, same.adds⟩
  | refused offer same => exact ⟨none, same.adds⟩

theorem adds_rebuild (r : Registry) : r.Adds r.rebuild.2 none := by
  unfold rebuild
  cases hr : r.snapshot.reindex with
  | error e => exact adds_none rfl le_rfl
  | ok s => exact adds_none (Snapshot.directories_of_reindex hr) le_rfl

theorem adds_detach (r : Registry) (decl : Declaration) : r.Adds (r.detach decl).2 none :=
  adds_none rfl (Nat.le_succ r.nextSerial)

end Registry

/-! ### Operations -/

namespace Catalogue

variable {c c' : Catalogue}

theorem Answered.adds {q : Request} {x : PacketType} (h : c.Answered q x c') :
    ∃ new, c.registry.Adds c'.registry new := by
  cases h with
  | found hit logged learns =>
      rw [logged]
      exact ⟨none, Registry.adds_none rfl le_rfl⟩
  | @registered r _ es miss published learns =>
      obtain ⟨new, hnew⟩ := (c.registry.log es).adds_publish (c.missing q)
      rw [published] at hnew
      exact ⟨new, hnew.entries, hnew.next, hnew.serial⟩
  | @detached _ _ e r es es' miss refused detach binder =>
      obtain ⟨new, hnew⟩ := (c.registry.log es).adds_publish (c.missing q)
      have hdetach := (r.log es').adds_detach (c.missing q)
      rw [refused] at hnew
      rw [detach] at hdetach
      have hlog : r.Adds (r.log es') none := Registry.adds_none rfl le_rfl
      have hadds := (hnew.trans_none hlog).trans_none hdetach
      exact ⟨new, hadds.entries, hadds.next, hadds.serial⟩

theorem performAs_adds (c : Catalogue) (fate : Fate) (op : Operation) :
    ∃ new, c.registry.Adds (c.performAs fate op).registry new := by
  cases op with
  | register decl =>
      cases hf : fate.runs with
      | true =>
          rw [performAs, (c.registerAs_of_runs hf decl).2]
          exact c.registry.adds_publish decl
      | false =>
          rw [performAs, (c.registerAs_of_lost hf decl).2]
          exact ⟨none, Registry.adds_none rfl le_rfl⟩
  | fromId k cls => exact (c.fromIdAs_answered fate k cls).adds
  | fromClassOrId k cls => exact (c.fromClassOrIdAs_answered fate k cls).adds
  | fromLegacy id d => exact (c.fromLegacyAs_answered fate id d).adds
  | rebuild =>
      cases hf : fate.runs with
      | true =>
          rw [performAs, (c.rebuildAs_of_runs hf).2]
          exact ⟨none, c.registry.adds_rebuild⟩
      | false =>
          rw [performAs, rebuildAs, if_neg (by rw [hf]; exact Bool.false_ne_true)]
          exact ⟨none, Registry.adds_none rfl le_rfl⟩

end Catalogue

/-! ### Reachable catalogues -/

namespace BuiltIn.Progress

variable {p p' : Progress} {k : ℕ} {v : Version}

theorem numbered_apply (h : p.set.Numbered (k + p.adopted)) {c : Channel} {r : Row}
    (ha : p.apply k v c r = .ok p') : p'.set.Numbered (k + p'.adopted) := by
  cases r with
  | renamed old target =>
      obtain ⟨x, hs, hadopted⟩ := apply_renamed ha
      rw [hadopted]
      exact h.extend (DirectorySet.extends_none (DirectorySet.entries_retire hs)) le_rfl (by simp)
  | entry e =>
      obtain ⟨x, he, hadopted⟩ := apply_entry ha
      have hx : x.serial = k + p.adopted := by
        rw [(DirectorySet.entries_enter he c).1, Declaration.bind]
      refine h.extend (DirectorySet.extends_some fun c' => (DirectorySet.entries_enter he c').2)
        (by omega) fun y hy => ?_
      obtain rfl := Option.some.inj hy
      omega

theorem numbered_applyAll (h : p.set.Numbered (k + p.adopted)) (rows : List (Channel × Row)) :
    (applyAll k v rows p).1.set.Numbered (k + (applyAll k v rows p).1.adopted) :=
  applyAll_induction (P := fun q => q.set.Numbered (k + q.adopted)) h
    fun _ _ _ _ _ hq ha => numbered_apply hq ha

end BuiltIn.Progress

theorem Plan.numbered_enrolled (p : Plan) : p.enrolled.1.set.Numbered p.enrolled.1.adopted := by
  have h := BuiltIn.Progress.numbered_applyAll (k := 0)
    (v := (BuiltIn.tableFor p.peer.version).version) (p := ⟨DirectorySet.empty, 0⟩)
    (DirectorySet.numbered_empty _) (BuiltIn.tableFor p.peer.version).rows
  rw [Nat.zero_add] at h
  exact h

namespace Catalogue

variable {c : Catalogue}

/-- Whether the packet types have numbers of their own, and the next one is not in use. -/
def Numbered (c : Catalogue) : Prop := c.directories.Numbered c.registry.nextSerial

theorem Numbered.performAs (h : c.Numbered) (fate : Fate) (op : Operation) :
    (c.performAs fate op).Numbered := by
  obtain ⟨new, hnew⟩ := c.performAs_adds fate op
  exact DirectorySet.Numbered.extend h hnew.entries hnew.next hnew.serial

theorem Reachable.numbered (h : c.Reachable) : c.Numbered := by
  induction h with
  | @built p c hb =>
      obtain ⟨ix, es, _, rfl⟩ := Plan.finish_of_build hb
      exact p.numbered_enrolled
  | builtLenient p earlier =>
      obtain ⟨ix, es, _, hc⟩ := p.finish_of_buildLenient earlier
      rw [hc]
      exact p.numbered_enrolled
  | step _ fate op ih => exact ih.performAs fate op

end Catalogue

end WireCatalog
