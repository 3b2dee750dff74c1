import WireCatalog.Proofs.Decision

/-! # The names of a declaration

A declaration opens with a name and is completed by clauses, of which only `Clause.name` touches its
names. That one adds a canonical form at the end or, if the declaration has it already, nothing. So
the name of the opening stays the first one (`canonical_extendAll`), no name is there twice
(`Composed.nodup_aliases`), and all of them are qualified, which is to say that look-ups take them
as they are.

`canonical_names_unambiguous` joins this with what canonical names tell of their channels. -/

namespace WireCatalog

namespace Index

/-- A name in canonical form is searched for as it is in every channel. -/
theorem byAlias_of_isQualified (ix : Index) {n : String} (h : PacketName.isQualified n = true) :
    ix.byAlias n = (Channel.all.flatMap fun c => ix.claimants c n).eraseDups := by
  simp only [byAlias, PacketName.format_of_isQualified _ h]

end Index

namespace Declaration

/-! ### Chains of clauses -/

/-- How a declaration starts. -/
inductive Opening
  | named (c : Channel) (name : String)
  | legacy (d : Direction) (id : Int) (name : String)

namespace Opening

def declaration : Opening → Declaration
  | named c name => Declaration.named c name
  | legacy d id name => Declaration.legacy d id name

def channel : Opening → Channel
  | named c _ => c
  | legacy d _ _ => ⟨.legacy, d⟩

def name : Opening → String
  | named _ name => name
  | legacy _ _ name => name

end Opening

/-- What completes a declaration. -/
inductive Clause
  | id (id : Int)
  | legacyId (id : Int)
  | version (v : Version)
  | name (name : String)
  | dynamic

/-- The declaration with one more clause. -/
def extend (d : Declaration) : Clause → Declaration
  | .id id => d.withId id
  | .legacyId id => d.withLegacyId id
  | .version v => d.withVersion v
  | .name name => d.withAlias name
  | .dynamic => d.asDynamic

def extendAll (d : Declaration) (clauses : List Clause) : Declaration := clauses.foldl extend d

variable {d : Declaration}

theorem Opening.composed (o : Opening) : o.declaration.Composed := by
  cases o with
  | named c name => exact .named c name
  | legacy d id name => exact composed_legacy d id name

theorem Composed.extend (h : d.Composed) (cl : Clause) : (d.extend cl).Composed := by
  cases cl with
  | id id => exact h.withId id
  | legacyId id => exact h.withLegacyId id
  | version v => exact h.withVersion v
  | name name => exact h.withAlias name
  | dynamic => exact h.asDynamic

theorem Composed.extendAll (h : d.Composed) (clauses : List Clause) :
    (d.extendAll clauses).Composed := by
  induction clauses generalizing d with
  | nil => exact h
  | cons cl clauses ih => exact ih (h.extend cl)

/-! ### Names -/

theorem canonical_extend (d : Declaration) (cl : Clause) : (d.extend cl).canonical = d.canonical := by
  cases cl with
  | name name =>
      rw [extend, withAlias]
      split <;> rfl
  | _ => rfl

/-- No clause changes the canonical name. -/
theorem canonical_extendAll (d : Declaration) (clauses : List Clause) :
    (d.extendAll clauses).canonical = d.canonical := by
  induction clauses generalizing d with
  | nil => rfl
  | cons cl clauses ih => exact (ih (d.extend cl)).trans (d.canonical_extend cl)

theorem Opening.canonical_eq (o : Opening) :
    o.declaration.canonical = PacketName.format o.channel o.name := by
  cases o <;> rfl

theorem Composed.nodup_aliases (h : d.Composed) : d.aliases.Nodup := by
  induction h with
  | named c name => exact List.nodup_singleton _
  | withId _ _ ih => exact ih
  | withLegacyId _ _ ih => exact ih
  | withVersion _ _ ih => exact ih
  | @withAlias d _ name ih =>
      rw [aliases_withAlias]
      split
      · exact ih
      · next hnew => exact ih.append (List.nodup_singleton _) (List.disjoint_singleton.mpr hnew)
  | asDynamic _ ih => exact ih

end Declaration

/-- **Canonical names are unambiguous.** A canonical name contains the marker, and no channel
changes it. Names that are not qualified have the same canonical form in two channels only if the
channels are the same and the names are the same once they are capitalized. So however a declaration
is put together, its names start with the canonical one, which is that of its opening, none of them
is there twice, and every look-up takes them as they are. -/
theorem canonical_names_unambiguous :
    (∀ c n, PacketName.marker.toList <:+: (PacketName.format c n).toList ∧
      ∀ c', PacketName.format c' (PacketName.format c n) = PacketName.format c n) ∧
    (∀ c c' n n', PacketName.isQualified n = false → PacketName.isQualified n' = false →
      (PacketName.format c n = PacketName.format c' n' ↔
        c = c' ∧ PacketName.capitalize n = PacketName.capitalize n')) ∧
    ∀ (o : Declaration.Opening) (clauses : List Declaration.Clause),
      let d := o.declaration.extendAll clauses
      d.canonical = PacketName.format o.channel o.name ∧
      d.aliases.head? = some d.canonical ∧
      d.aliases.Nodup ∧
      ∀ n ∈ d.aliases, (∀ c, PacketName.format c n = n) ∧
        ∀ ix : Index, (∀ c, ix.byName? c n = ix.bound? c n) ∧
          ix.byAlias n = (Channel.all.flatMap fun c => ix.claimants c n).eraseDups := by
  refine ⟨fun c n => ?_, fun c c' n n' hn hn' => PacketName.format_eq_format_iff hn hn',
    fun o clauses => ?_⟩
  · have hq := PacketName.isQualified_format c n
    exact ⟨PacketName.isQualified_iff.mp hq, PacketName.isQualified_iff_format.mp hq⟩
  · intro d
    have hd : d.Composed := o.composed.extendAll clauses
    have hcanonical : d.canonical = PacketName.format o.channel o.name :=
      (o.declaration.canonical_extendAll clauses).trans o.canonical_eq
    refine ⟨hcanonical, rfl, hd.nodup_aliases, fun n hn => ?_⟩
    have hq := hd.isQualified n hn
    exact ⟨PacketName.isQualified_iff_format.mp hq, fun ix =>
      ⟨fun c => ix.byName?_of_isQualified c hq, ix.byAlias_of_isQualified hq⟩⟩

/-- Two spellings of a name that starts with the label of a direction and contains the marker only
once it is capitalized. A declaration that is given both has one name for them. -/
theorem canonical_names_unambiguous_inbound :
    let c : Channel := ⟨.login, .clientToServer⟩
    let o : Declaration.Opening := .named c "inbound packets"
    let d := o.declaration.extendAll [.name "Inbound packets", .id 7, .name "Spare", .dynamic]
    PacketName.isQualified "inbound packets" = false ∧
    PacketName.isQualified "Inbound packets" = false ∧
    PacketName.format c "inbound packets" = PacketName.format c "Inbound packets" ∧
    PacketName.capitalize "inbound packets" = PacketName.capitalize "Inbound packets" ∧
    d.aliases = ["PacketLoginInInbound Packets", "PacketLoginInSpare"] ∧
    ∀ c', PacketName.format c' "PacketLoginInSpare" = "PacketLoginInSpare" := by
  intro c o d
  obtain ⟨_, hnames, hdeclared⟩ := canonical_names_unambiguous
  have hn : PacketName.isQualified "inbound packets" = false := by decide
  have hn' : PacketName.isQualified "Inbound packets" = false := by decide
  have hsame : PacketName.format c "inbound packets" = PacketName.format c "Inbound packets" := by
    decide +kernel
  have haliases : d.aliases = ["PacketLoginInInbound Packets", "PacketLoginInSpare"] := by
    decide +kernel
  have hmem : "PacketLoginInSpare" ∈ d.aliases := by
    rw [haliases]
    exact List.mem_cons_of_mem _ List.mem_cons_self
  exact ⟨hn, hn', hsame, ((hnames c c _ _ hn hn').mp hsame).2, haliases,
    ((hdeclared o _).2.2.2 _ hmem).1⟩

end WireCatalog
