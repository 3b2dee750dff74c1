import WireCatalog.Proofs.PacketName
import WireCatalog.Proofs.Reachable

/-! # What decides a publication

A publication offers its declaration under the next provisional name, and under the one after it if
that is taken. So it ends as the first offer does that finds its name free, or else as the second
one (`publish_of_first`, `publish_of_second`).

What an offer comes to depends on three things alone: the entry that the declaration repeats, the
owner of the provisional name in the directory, and the first alias that the index has
(`Coherent.result_offer`). They are looked at in this order. `publish_decides` says so of every
declaration, all names and every reachable catalogue. -/

namespace WireCatalog

/-! ### Declarations that can be made -/

namespace Declaration

/-- A declaration that is made of a named one. -/
inductive Composed : Declaration → Prop
  | named (c : Channel) (name : String) : Composed (named c name)
  | withId {d : Declaration} (h : Composed d) (id : Int) : Composed (d.withId id)
  | withLegacyId {d : Declaration} (h : Composed d) (id : Int) : Composed (d.withLegacyId id)
  | withVersion {d : Declaration} (h : Composed d) (v : Version) : Composed (d.withVersion v)
  | withAlias {d : Declaration} (h : Composed d) (name : String) : Composed (d.withAlias name)
  | asDynamic {d : Declaration} (h : Composed d) : Composed d.asDynamic

theorem composed_legacy (d : Direction) (id : Int) (name : String) :
    Composed (legacy d id name) :=
  ((Composed.named ⟨.legacy, d⟩ name).withLegacyId id).withVersion .worldUpdate

/-- A name that the declaration has already is not added again. -/
theorem aliases_withAlias (d : Declaration) (name : String) :
    (d.withAlias name).aliases =
      if PacketName.format d.channel name ∈ d.aliases then d.aliases
      else d.aliases ++ [PacketName.format d.channel name] := by
  rw [withAlias]
  split <;> rfl

theorem mem_aliases_withAlias {d : Declaration} {name n : String}
    (hn : n ∈ (d.withAlias name).aliases) :
    n ∈ d.aliases ∨ n = PacketName.format d.channel name := by
  rw [aliases_withAlias] at hn
  split at hn
  · exact .inl hn
  · rwa [List.mem_append, List.mem_singleton] at hn

/-- The names of a declaration are in canonical form. -/
theorem Composed.isQualified {d : Declaration} (h : d.Composed) :
    ∀ n ∈ d.aliases, PacketName.isQualified n = true := by
  induction h with
  | named c name =>
      intro n hn
      rw [List.mem_singleton.mp hn]
      exact PacketName.isQualified_format c name
  | withId _ _ ih => exact ih
  | withLegacyId _ _ ih => exact ih
  | withVersion _ _ ih => exact ih
  | @withAlias d _ name ih =>
      intro n hn
      rcases mem_aliases_withAlias hn with hn | rfl
      · exact ih n hn
      · exact PacketName.isQualified_format d.channel name
  | asDynamic _ ih => exact ih

end Declaration

/-! ### What an offer comes to -/

/-- The end of the publication that an offer decides, by the channel of the declaration. -/
def Offer.result (c : Channel) : Offer → Except CatalogueError Registration
  | .published x _ => .ok (.published x)
  | .present x => .ok (.present x)
  | .nameTaken n y => .error (.nameConflict c n y.name)
  | .aliasTaken n y => .error (.nameConflict c n y.name)
  | .refused _ e => .error (.index e)

theorem findSome?_congr {α β : Type} {f g : α → Option β} {l : List α}
    (h : ∀ a ∈ l, f a = g a) : l.findSome? f = l.findSome? g := by
  induction l with
  | nil => rfl
  | cons a l ih =>
      rw [List.findSome?_cons, List.findSome?_cons, h a List.mem_cons_self,
        ih fun b hb => h b (List.mem_cons_of_mem a hb)]

namespace Index

/-- The first name of a list that is bound in a channel, with what it stands for. -/
def firstBound? (ix : Index) (c : Channel) (names : List String) : Option (String × PacketType) :=
  names.findSome? fun n => (ix.bound? c n).map (n, ·)

/-- A name in canonical form is looked up as it is. -/
theorem byName?_of_isQualified (ix : Index) (c : Channel) {n : String}
    (h : PacketName.isQualified n = true) : ix.byName? c n = ix.bound? c n := by
  rw [byName?, PacketName.format_of_isQualified c h, Option.or_self]

end Index

namespace Snapshot

variable {s : Snapshot} {decl : Declaration} {name : String} {k : ℕ} {y : PacketType}

theorem offer_eq_present (hq : (s.directories.get decl.channel).equivalent? decl = some y) :
    s.offer decl name k = .present y := by
  simp [offer, DirectorySet.enter, Directory.enter, hq]

theorem offer_eq_nameTaken (hq : (s.directories.get decl.channel).equivalent? decl = none)
    (hn : (s.directories.get decl.channel).byName? name = some y) :
    s.offer decl name k = .nameTaken name y := by
  simp [offer, DirectorySet.enter, Directory.enter, hq, hn]

theorem offer_ne_nameTaken (hn : (s.directories.get decl.channel).byName? name = none) (n : String)
    (y : PacketType) : s.offer decl name k ≠ .nameTaken n y := by
  intro ho
  have hspec := s.offer_spec decl name k
  rw [ho] at hspec
  cases hn.symm.trans hspec.2.2

namespace Coherent

/-- What is no entry yet owns no name, so the alias check finds the first bound alias. -/
theorem claimedAlias?_eq (h : s.Coherent) {x : PacketType}
    (hx : x ∉ (s.directories.get x.channel).entries)
    (hq : ∀ n ∈ x.aliases, PacketName.isQualified n = true) :
    s.index.claimedAlias? x = s.index.firstBound? x.channel x.aliases := by
  unfold Index.claimedAlias? Index.firstBound?
  refine findSome?_congr fun n hn => ?_
  rw [s.index.byName?_of_isQualified x.channel (hq n hn)]
  cases hb : s.index.bound? x.channel n with
  | none => rfl
  | some y =>
      have hne : y ≠ x := by
        rintro rfl
        exact hx (h.bound?_cases hb).1
      exact if_neg hne

/-- What is new in a directory is refused for its symbolic name, or else for its first alias that
is bound, or else it is published. -/
theorem result_offer (h : s.Coherent) (hd : decl.Composed)
    (hq : (s.directories.get decl.channel).equivalent? decl = none) (name : String) (k : ℕ) :
    (s.offer decl name k).result decl.channel =
      match (s.directories.get decl.channel).byName? name with
      | some y => .error (.nameConflict decl.channel name y.name)
      | none =>
        match s.index.firstBound? decl.channel decl.aliases with
        | some (n, y) => .error (.nameConflict decl.channel n y.name)
        | none => .ok (.published (decl.bind ⟨name, false, false⟩ k)) := by
  cases hn : (s.directories.get decl.channel).byName? name with
  | some y => rw [offer_eq_nameTaken hq hn, Offer.result]
  | none =>
      have hsound := h.sound.each decl.channel
      have hmem : decl.bind ⟨name, false, false⟩ k ∉ (s.directories.get decl.channel).entries :=
        fun hx => hsound.name_ne (hsound.get?_names_of_byName? hn) _ hx rfl
      have hclaimed : s.index.claimedAlias? (decl.bind ⟨name, false, false⟩ k) =
          s.index.firstBound? decl.channel decl.aliases :=
        h.claimedAlias?_eq hmem hd.isQualified
      have hspec := s.offer_spec decl name k
      dsimp only at hspec
      rw [hclaimed] at hspec
      cases ho : s.offer decl name k with
      | present x =>
          rw [ho] at hspec
          cases hq.symm.trans hspec
      | nameTaken n y => exact absurd ho (offer_ne_nameTaken hn n y)
      | refused x e => exact absurd ho h.not_refused
      | aliasTaken n y =>
          rw [ho] at hspec
          rw [hspec.2.2, Offer.result]
      | published x s' =>
          rw [ho] at hspec
          obtain ⟨_, _, hfree, rfl, _⟩ := hspec
          rw [hfree, Offer.result]

end Coherent

end Snapshot

/-! ### Which offer decides -/

namespace Registry

variable {r : Registry} {decl : Declaration}

/-- What is published was offered under some name. -/
theorem offer_of_published {x : PacketType} (hp : (r.publish decl).1 = .ok (.published x)) :
    ∃ name, r.snapshot.offer decl name r.nextSerial =
      .published x (r.publish decl).2.snapshot := by
  have hends := r.publish_ends decl
  rw [hp] at hends
  cases hends with
  | published offer revision serial => exact ⟨_, offer⟩

theorem equivalent?_of_present {x : PacketType} (hp : (r.publish decl).1 = .ok (.present x)) :
    (r.snapshot.directories.get decl.channel).equivalent? decl = some x := by
  have hends := r.publish_ends decl
  rw [hp] at hends
  cases hends with
  | @present name _ _ offer same =>
      have hspec := r.snapshot.offer_spec decl name r.nextSerial
      rw [offer] at hspec
      exact hspec

theorem publishFrom_of_ne (attempt left : ℕ)
    (h : ∀ n y, r.snapshot.offer decl (r.names r.drawn) r.nextSerial ≠ .nameTaken n y) :
    (publishFrom decl attempt left r).1 =
        (r.snapshot.offer decl (r.names r.drawn) r.nextSerial).result decl.channel ∧
      (publishFrom decl attempt left r).2.drawn = r.drawn + 1 := by
  unfold publishFrom
  simp only [draw, log, replace]
  cases ho : r.snapshot.offer decl (r.names r.drawn) r.nextSerial with
  | nameTaken n y => exact absurd ho (h n y)
  | _ => exact ⟨rfl, rfl⟩

/-- The last name that is tried decides in any case. -/
theorem publishFrom_zero (attempt : ℕ) :
    (publishFrom decl attempt 0 r).1 =
        (r.snapshot.offer decl (r.names r.drawn) r.nextSerial).result decl.channel ∧
      (publishFrom decl attempt 0 r).2.drawn = r.drawn + 1 := by
  by_cases h : ∀ n y, r.snapshot.offer decl (r.names r.drawn) r.nextSerial ≠ .nameTaken n y
  · exact publishFrom_of_ne attempt 0 h
  · push Not at h
    obtain ⟨n, y, ho⟩ := h
    unfold publishFrom
    simp only [draw, log]
    rw [ho]
    exact ⟨rfl, rfl⟩

theorem publish_of_first (r : Registry) (decl : Declaration)
    (h : ∀ n y, r.snapshot.offer decl (r.names r.drawn) r.nextSerial ≠ .nameTaken n y) :
    (r.publish decl).1 =
        (r.snapshot.offer decl (r.names r.drawn) r.nextSerial).result decl.channel ∧
      (r.publish decl).2.drawn = r.drawn + 1 :=
  publishFrom_of_ne (r := r.log _) 1 1 h

theorem publish_of_second {n : String} {y : PacketType}
    (h : r.snapshot.offer decl (r.names r.drawn) r.nextSerial = .nameTaken n y) :
    (r.publish decl).1 =
        (r.snapshot.offer decl (r.names (r.drawn + 1)) r.nextSerial).result decl.channel ∧
      (r.publish decl).2.drawn = r.drawn + 2 := by
  unfold publish publishFrom
  simp only [draw, log, h]
  exact publishFrom_zero 2

/-- What a publication comes to, by the entry that its declaration repeats, the owners of the two
names that are tried and the first alias that is bound. -/
theorem publish_spec (h : r.snapshot.Coherent) (hd : decl.Composed) :
    let d := r.snapshot.directories.get decl.channel
    let first := r.names r.drawn
    let second := r.names (r.drawn + 1)
    let p := r.publish decl
    match d.equivalent? decl with
    | some x => p.1 = .ok (.present x) ∧ p.2.drawn = r.drawn + 1
    | none =>
      p.2.drawn = (if d.byName? first = none then r.drawn + 1 else r.drawn + 2) ∧
      match [first, second].find? fun n => (d.byName? n).isNone with
      | none => ∃ y, d.byName? second = some y ∧
          p.1 = .error (.nameConflict decl.channel second y.name)
      | some n =>
        match r.snapshot.index.firstBound? decl.channel decl.aliases with
        | some (a, y) => p.1 = .error (.nameConflict decl.channel a y.name)
        | none => p.1 = .ok (.published (decl.bind ⟨n, false, false⟩ r.nextSerial)) := by
  intro d first second p
  cases hq : d.equivalent? decl with
  | some x =>
      have ho : r.snapshot.offer decl first r.nextSerial = .present x :=
        Snapshot.offer_eq_present hq
      have hdecides := r.publish_of_first decl (by rw [ho]; nofun)
      rw [ho] at hdecides
      exact hdecides
  | none =>
      have hresult := h.result_offer hd hq
      cases hfirst : d.byName? first with
      | none =>
          obtain ⟨hp, hdrawn⟩ := publish_of_first _ _ (Snapshot.offer_ne_nameTaken hfirst)
          rw [hresult, hfirst] at hp
          refine ⟨hdrawn, ?_⟩
          rw [List.find?_cons, hfirst]
          dsimp only [Option.isNone_none] at hp ⊢
          split at hp <;> exact hp
      | some y =>
          obtain ⟨hp, hdrawn⟩ := publish_of_second (Snapshot.offer_eq_nameTaken hq hfirst)
          rw [hresult] at hp
          refine ⟨hdrawn, ?_⟩
          rw [List.find?_cons, hfirst, List.find?_cons]
          cases hsecond : d.byName? second with
          | none =>
              rw [hsecond] at hp
              dsimp only [Option.isNone_none, Option.isNone_some] at hp ⊢
              split at hp <;> exact hp
          | some z =>
              rw [hsecond] at hp
              exact ⟨z, rfl, hp⟩

end Registry

/-! ### Reachable catalogues -/

namespace Catalogue

/-- A catalogue that draws its provisional names from the start of a stream. -/
def withNames (c : Catalogue) (names : NameStream) : Catalogue :=
  { c with registry := { c.registry with names := names, drawn := 0 } }

/-- **What decides a publication.** It ends with the first entry that its declaration repeats. Else
the first of two names that is free in the directory becomes the symbolic name of the new packet
type, unless the names run out or an alias is bound already: then the publication fails with the
second name and its owner, or with the first such alias and its owner. -/
theorem publish_decides {c : Catalogue} (h : c.Reachable) {decl : Declaration} (hd : decl.Composed)
    (names : NameStream) :
    let d := c.directories.get decl.channel
    let p := (c.withNames names).publish decl
    match d.entries.find? decl.repeats with
    | some x => p.1 = .ok (.present x) ∧ p.2.registry.drawn = 1
    | none =>
      p.2.registry.drawn = (if d.byName? (names 0) = none then 1 else 2) ∧
      match [names 0, names 1].find? fun n => (d.byName? n).isNone with
      | none => ∃ y, d.byName? (names 1) = some y ∧
          p.1 = .error (.nameConflict decl.channel (names 1) y.name)
      | some n =>
        match c.index.firstBound? decl.channel decl.aliases with
        | some (a, y) => p.1 = .error (.nameConflict decl.channel a y.name)
        | none => p.1 = .ok (.published (decl.bind ⟨n, false, false⟩ c.registry.nextSerial)) := by
  intro d p
  rw [← Directory.equivalent?_eq_find?]
  exact Registry.publish_spec (r := (c.withNames names).registry) h.coherent hd

theorem composed_gauge : gauge.Composed := Declaration.composed_legacy _ _ _

/-- `gauge` is new and its names are free, so it is published under the first one. -/
theorem publish_decides_gauge : standard.Reachable ∧ gauge.Composed ∧
    ∃ x, ((standard.withNames (.listed ["N-1"] "N-")).publish gauge).1 = .ok (.published x) ∧
      x.toDeclaration = gauge ∧ x.name = "N-1" := by
  have hc : standard.Reachable := reachable_standard
  have hadmits := admits_gauge
  have hbound : ∀ ch n, standard.index.bound? ch n = _ := standardPlan.bound?_buildLenient []
  obtain ⟨hdirs, -⟩ : standard.directories = _ ∧ _ := standardPlan.buildLenient_start []
  generalize standard = c at hc hbound hdirs ⊢
  obtain ⟨hq, hn, hfree⟩ := hadmits
  rw [← hdirs] at hq hn
  rw [Directory.equivalent?_eq_find?] at hq
  have hunbound : c.index.firstBound? gauge.channel gauge.aliases = none := by
    refine List.findSome?_eq_none_iff.mpr fun n hn => ?_
    rw [hbound, (hfree n hn).1, Option.map_none]
  have hdecides := publish_decides hc composed_gauge (.listed ["N-1"] "N-")
  dsimp only at hdecides
  have hfirst : [NameStream.listed ["N-1"] "N-" 0, NameStream.listed ["N-1"] "N-" 1].find?
      (fun n => ((c.directories.get gauge.channel).byName? n).isNone) = some "N-1" :=
    List.find?_cons_of_pos (Option.isNone_iff_eq_none.mpr hn)
  rw [hq, hfirst, hunbound] at hdecides
  exact ⟨hc, composed_gauge, _, hdecides.2, rfl, rfl⟩

end Catalogue

end WireCatalog
