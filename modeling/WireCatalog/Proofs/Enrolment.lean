import WireCatalog.BuiltIn.Release114
import WireCatalog.Proofs.Merged
import WireCatalog.Proofs.PacketName

/-! # Registration of a table

The rows of a table keep directories sound. A built-in packet type has its own name in canonical
form for its only alias, which is qualified, and the old names in a table are not. So a directory
filled from tables alone is `Settled`, and no alias of an entry is a retired name.

`Progress.settled_apply` is the step for one row, `Table.settled_enrol` follows the rows up to the
first one that is refused, and `settled_tableFor` is the case of the built-in tables. -/

namespace WireCatalog

/-- A sound directory in which all aliases are qualified and no retired name is. -/
structure Directory.Settled (d : Directory) : Prop extends d.Sound where
  qualified : ∀ x ∈ d.entries, ∀ n ∈ x.aliases, PacketName.isQualified n = true
  unqualified : ∀ r ∈ d.retired, PacketName.isQualified r.name = false

namespace Directory

variable {d : Directory} {decl : Declaration}

theorem settled_empty (c : Channel) : (empty c).Settled where
  toSound := sound_empty c
  qualified := by simp [empty]
  unqualified := by simp [empty]

theorem Settled.append (h : d.Settled) {x : PacketType} (hs : (d.append x).Sound)
    (hq : ∀ n ∈ x.aliases, PacketName.isQualified n = true) : (d.append x).Settled where
  toSound := hs
  qualified := by
    intro y hy
    rcases List.mem_append.mp hy with hy | hy
    · exact h.qualified y hy
    · rw [List.mem_singleton.mp hy]
      exact hq
  unqualified := h.unqualified

theorem Settled.enter (h : d.Settled) (hc : decl.channel = d.channel) (b : Binding) (k : ℕ)
    (hq : ∀ n ∈ decl.aliases, PacketName.isQualified n = true) :
    (d.enter decl b k).2.Settled := by
  have hs := h.toSound.enter hc b k
  rcases d.enter_cases decl b k with ⟨_, _, he⟩ | ⟨_, _, _, he⟩ | ⟨_, _, he⟩
  · rw [he]
    exact h
  · rw [he]
    exact h
  · rw [he] at hs ⊢
    exact h.append hs hq

theorem Settled.retire (h : d.Settled) {old target : String} {x : PacketType} {d' : Directory}
    (hr : d.retire old target = .ok (x, d')) (ho : PacketName.isQualified old = false) :
    d'.Settled := by
  have hs := h.toSound.retire hr
  obtain ⟨_, _, rfl⟩ := retire_ok hr
  refine ⟨hs, h.qualified, ?_⟩
  intro r hmem
  rcases List.mem_append.mp hmem with hmem | hmem
  · exact h.unqualified r hmem
  · rw [List.mem_singleton.mp hmem]
    exact ho

end Directory

/-- What the rows of tables make of the ten directories. -/
structure DirectorySet.Settled (s : DirectorySet) : Prop where
  each : ∀ c, (s.get c).Settled
  channel : ∀ c, (s.get c).channel = c

namespace DirectorySet

variable {s : DirectorySet}

theorem settled_empty : empty.Settled where
  each c := by
    rw [empty, PerChannel.get_tabulate]
    exact Directory.settled_empty c
  channel := sound_empty.channel

namespace Settled

theorem sound (h : s.Settled) : s.Sound := ⟨fun c => (h.each c).toSound, h.channel⟩

theorem unclaimed (h : s.Settled) : s.Unclaimed := by
  intro c r hr x hx hn
  have hq := (h.each c).qualified x hx r.name hn
  rw [(h.each c).unqualified r hr] at hq
  cases hq

theorem set (h : s.Settled) {d : Directory} {c : Channel} (hd : d.Settled) (hc : d.channel = c) :
    Settled (PerChannel.set s c d) where
  each := PerChannel.forall_set (P := fun _ d => Directory.Settled d) h.each hd
  channel := (h.sound.set hd.toSound hc).channel

theorem enter (h : s.Settled) {decl : Declaration} (b : Binding) (k : ℕ)
    (hq : ∀ n ∈ decl.aliases, PacketName.isQualified n = true) : (s.enter decl b k).2.Settled :=
  h.set ((h.each _).enter (h.channel _).symm b k hq)
    ((Directory.channel_enter _ _ b k).trans (h.channel _))

theorem retire (h : s.Settled) {c : Channel} {old target : String} {x : PacketType}
    {s' : DirectorySet} (hr : s.retire c old target = .ok (x, s'))
    (ho : PacketName.isQualified old = false) : s'.Settled := by
  unfold DirectorySet.retire at hr
  cases hd : (s.get c).retire old target with
  | error e =>
      rw [hd] at hr
      cases hr
  | ok p =>
      obtain ⟨y, d⟩ := p
      rw [hd] at hr
      cases hr
      refine h.set ((h.each c).retire hd ho) ?_
      obtain ⟨_, _, rfl⟩ := Directory.retire_ok hd
      exact h.channel c

end Settled

end DirectorySet

namespace BuiltIn

/-- The old name in a row. -/
def Row.oldName? : Row → Option String
  | .entry _ => none
  | .renamed old _ => some old

variable {p : Progress} {k : ℕ} {v : Version}

/-! ### Rows -/

theorem Entry.isQualified_of_mem_aliases (e : Entry) (c : Channel) (v : Version) :
    ∀ n ∈ (e.declaration c v).aliases, PacketName.isQualified n = true := by
  intro n hn
  obtain rfl : n = PacketName.format c e.cls := List.mem_singleton.mp hn
  exact PacketName.isQualified_format c e.cls

namespace Progress

theorem apply_renamed {c : Channel} {old target : String} {p' : Progress}
    (ha : p.apply k v c (.renamed old target) = .ok p') :
    ∃ x, p.set.retire c old target = .ok (x, p'.set) ∧ p'.adopted = p.adopted := by
  simp only [apply] at ha
  cases hr : p.set.retire c old target with
  | error e =>
      rw [hr] at ha
      cases ha
  | ok q =>
      rw [hr] at ha
      cases ha
      exact ⟨q.1, rfl, rfl⟩

theorem apply_entry {c : Channel} {e : Entry} {p' : Progress}
    (ha : p.apply k v c (.entry e) = .ok p') :
    ∃ x, p.set.enter (e.declaration c v) e.binding (k + p.adopted) = (.adopted x, p'.set) ∧
      p'.adopted = p.adopted + 1 := by
  simp only [apply] at ha
  generalize p.set.enter (e.declaration c v) e.binding (k + p.adopted) = q at ha ⊢
  obtain ⟨outcome, s⟩ := q
  cases outcome with
  | adopted x =>
      cases ha
      exact ⟨x, rfl, rfl⟩
  | present x => cases ha
  | nameTaken n x => cases ha

/-- A row keeps the directories settled, unless it is an old name that is qualified. -/
theorem settled_apply (h : p.set.Settled) {c : Channel} {r : Row} {p' : Progress}
    (hr : ∀ n ∈ r.oldName?, PacketName.isQualified n = false) (ha : p.apply k v c r = .ok p') :
    p'.set.Settled := by
  cases r with
  | renamed old target =>
      obtain ⟨x, hs, _⟩ := apply_renamed ha
      exact h.retire hs (hr old rfl)
  | entry e =>
      obtain ⟨x, he, _⟩ := apply_entry ha
      have hs := h.enter e.binding (k + p.adopted) (e.isQualified_of_mem_aliases c v)
      rw [he] at hs
      exact hs

theorem applyAll_cons_of_ok {c : Channel} {r : Row} {p' : Progress} (ha : p.apply k v c r = .ok p')
    (rows : List (Channel × Row)) : applyAll k v ((c, r) :: rows) p = applyAll k v rows p' := by
  simp only [applyAll, ha]

theorem applyAll_cons_of_error {c : Channel} {r : Row} {err : CatalogueError}
    (ha : p.apply k v c r = .error err) (rows : List (Channel × Row)) :
    applyAll k v ((c, r) :: rows) p = (p, some err) := by
  simp only [applyAll, ha]

/-- What every row that is accepted keeps holds after the rows up to the first one that is
refused. -/
theorem applyAll_induction {P : Progress → Prop} {rows : List (Channel × Row)} (h : P p)
    (hstep : ∀ c r, (c, r) ∈ rows → ∀ q q', P q → q.apply k v c r = .ok q' → P q') :
    P (applyAll k v rows p).1 := by
  induction rows generalizing p with
  | nil => exact h
  | cons r rows ih =>
      obtain ⟨c, r⟩ := r
      cases ha : p.apply k v c r with
      | error err =>
          rw [applyAll_cons_of_error ha rows]
          exact h
      | ok p' =>
          rw [applyAll_cons_of_ok ha rows]
          exact ih (hstep c r List.mem_cons_self p p' h ha) fun c' r' hr' =>
            hstep c' r' (List.mem_cons_of_mem _ hr')

/-- The rows up to the first one that is refused keep the directories settled. -/
theorem settled_applyAll (h : p.set.Settled) {rows : List (Channel × Row)}
    (hr : ∀ r ∈ rows, ∀ n ∈ r.2.oldName?, PacketName.isQualified n = false) :
    (applyAll k v rows p).1.set.Settled :=
  applyAll_induction (P := fun q => q.set.Settled) h
    fun c r hmem _ _ hq ha => settled_apply hq (hr (c, r) hmem) ha

end Progress

/-! ### Tables -/

theorem Table.settled_enrol (t : Table) (k : ℕ)
    (ht : ∀ r ∈ t.rows, ∀ n ∈ r.2.oldName?, PacketName.isQualified n = false) :
    (t.enrol DirectorySet.empty k).1.set.Settled :=
  Progress.settled_applyAll DirectorySet.settled_empty ht

set_option maxRecDepth 100000 in
theorem unqualified_of_mem_tables :
    ∀ t ∈ tables, ∀ r ∈ t.rows, ∀ n ∈ r.2.oldName?, PacketName.isQualified n = false := by
  decide

theorem tableFor_mem (v : Version) : tableFor v ∈ tables := by
  unfold tableFor
  cases hf : tables.find? fun t => v.atLeast t.version with
  | none => exact List.mem_singleton_self release114
  | some t => exact List.mem_of_find?_eq_some hf

theorem settled_tableFor (v : Version) (k : ℕ) :
    ((tableFor v).enrol DirectorySet.empty k).1.set.Settled :=
  (tableFor v).settled_enrol k (unqualified_of_mem_tables _ (tableFor_mem v))

/-- No row of a table is refused. -/
theorem enrol_of_mem_tables : ∀ t ∈ tables, (t.enrol DirectorySet.empty 0).2 = none := by
  decide +kernel

theorem enrol_tableFor (v : Version) : ((tableFor v).enrol DirectorySet.empty 0).2 = none :=
  enrol_of_mem_tables _ (tableFor_mem v)

end BuiltIn

end WireCatalog
