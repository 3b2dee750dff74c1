import WireCatalog.Proofs.Growth

/-! # Convergence of registrations

What a declaration describes is told by its `coordinate`: the wire key if its id is known, or else the
legacy id in its channel if that is known, or else the canonical name in its channel. Declarations of
one coordinate repeat the same entries, and an entry is repeated by the declaration that it was made
from (`repeats_bind`).

So a publication that succeeds decides the coordinate for good: afterwards the directory has an entry
that the declaration repeats (`equivalent?_of_publish`), it always finds the same one
(`Grows.equivalent?`), and a publication that finds one ends with it (`publish_of_equivalent?`).
`publications_converge` says so of any declarations in any order. -/

namespace WireCatalog

/-- What tells the packet type that a declaration describes from others. -/
inductive Coordinate
  | wire (k : WireKey)
  | legacy (c : Channel) (id : Int)
  | canonical (c : Channel) (name : String)
  deriving DecidableEq, Repr

namespace Coordinate

def channel : Coordinate → Channel
  | wire k => k.channel
  | legacy c _ => c
  | canonical c _ => c

/-- Whether an entry of the channel is what the coordinate stands for. -/
def meets : Coordinate → PacketType → Bool
  | wire k, x => x.key.id == k.id
  | legacy _ id, x => !x.key.isKnown && x.legacyId == id
  | canonical _ name, x => !x.key.isKnown && x.legacyId == unknownId && x.hasAlias name

end Coordinate

namespace Declaration

def coordinate (d : Declaration) : Coordinate :=
  if d.key.isKnown then .wire d.key
  else if d.legacyId ≠ unknownId then .legacy d.channel d.legacyId
  else .canonical d.channel d.canonical

variable {d e : Declaration}

theorem channel_coordinate (d : Declaration) : d.coordinate.channel = d.channel := by
  unfold coordinate
  split
  · rfl
  · split <;> rfl

theorem meets_coordinate (d : Declaration) (x : PacketType) :
    d.coordinate.meets x = d.repeats x := by
  unfold coordinate repeats
  split
  · rfl
  · split <;> rfl

theorem channel_eq_of_coordinate (h : d.coordinate = e.coordinate) : d.channel = e.channel := by
  rw [← channel_coordinate, h, channel_coordinate]

/-- Which entries a declaration repeats depends on its coordinate alone. -/
theorem repeats_eq_of_coordinate (h : d.coordinate = e.coordinate) : d.repeats = e.repeats := by
  funext x
  rw [← meets_coordinate, h, meets_coordinate]

end Declaration

/-- A packet type is what its declaration describes. -/
theorem PacketType.repeats_self (x : PacketType) : x.toDeclaration.repeats x = true :=
  x.toDeclaration.repeats_bind x.toBinding x.serial

theorem Directory.equivalent?_eq_of_coordinate (dir : Directory) {d e : Declaration}
    (h : d.coordinate = e.coordinate) : dir.equivalent? d = dir.equivalent? e := by
  rw [equivalent?_eq_find?, equivalent?_eq_find?, Declaration.repeats_eq_of_coordinate h]

/-! ### One publication -/

namespace Registry

variable {r : Registry} {decl : Declaration}

/-- A declaration that repeats an entry ends with it. -/
theorem publish_of_equivalent? {x : PacketType}
    (h : (r.snapshot.directories.get decl.channel).equivalent? decl = some x) :
    (r.publish decl).1 = .ok (.present x) := by
  have hends := r.publish_ends decl
  generalize r.publish decl = p at hends ⊢
  obtain ⟨result, r'⟩ := p
  dsimp only at hends ⊢
  cases hends with
  | @present name y _ offer same =>
      have hspec := r.snapshot.offer_spec decl name r.nextSerial
      rw [offer] at hspec
      rw [Option.some.inj (h.symm.trans hspec)]
  | @published name y _ offer _ _ =>
      have hspec := r.snapshot.offer_spec decl name r.nextSerial
      rw [offer] at hspec
      cases h.symm.trans hspec.1
  | @nameTaken name n y _ offer _ =>
      have hspec := r.snapshot.offer_spec decl name r.nextSerial
      rw [offer] at hspec
      cases h.symm.trans hspec.1
  | @aliasTaken name n y _ offer _ =>
      have hspec := r.snapshot.offer_spec decl name r.nextSerial
      rw [offer] at hspec
      cases h.symm.trans hspec.1
  | @refused name y e _ offer _ =>
      have hspec := r.snapshot.offer_spec decl name r.nextSerial
      rw [offer] at hspec
      cases h.symm.trans hspec.1

/-- After a publication that succeeds, the directory finds its packet type for the declaration. -/
theorem equivalent?_of_publish {result : Registration} (h : (r.publish decl).1 = .ok result) :
    ((r.publish decl).2.snapshot.directories.get decl.channel).equivalent? decl =
      some result.packetType := by
  have hends := r.publish_ends decl
  rw [h] at hends
  generalize (r.publish decl).2 = r' at hends ⊢
  cases hends with
  | @present name y _ offer same =>
      have hspec := r.snapshot.offer_spec decl name r.nextSerial
      rw [offer] at hspec
      rw [same.snapshot]
      exact hspec
  | @published name y _ offer _ _ =>
      have hspec := r.snapshot.offer_spec decl name r.nextSerial
      rw [offer] at hspec
      obtain ⟨hnone, _, _, rfl, _, hd⟩ := hspec
      rw [hd, PerChannel.get_set_self]
      exact Directory.equivalent?_append_bind hnone _ _

theorem mem_enumerate_of_publish {result : Registration} (h : (r.publish decl).1 = .ok result) :
    result.packetType ∈ (r.publish decl).2.snapshot.directories.enumerate true :=
  DirectorySet.mem_enumerate.mpr ⟨_, Directory.mem_of_equivalent? (equivalent?_of_publish h)⟩

end Registry

/-- What a plan admits is there once it is registered. -/
theorem Plan.Admits.mem_enumerate {p : Plan} {decl : Declaration} (h : p.Admits decl) :
    ∃ x ∈ ((p.buildLenient []).performAs .inline (.register decl)).enumerate true,
      x.toDeclaration = decl := by
  obtain ⟨x, s', hx, ho⟩ := h.offer_published
  generalize p.buildLenient [] = c at ho ⊢
  exact ⟨x, Registry.mem_enumerate_of_publish (Registry.publish_of_offer ho).1, hx⟩

/-! ### Any number of publications -/

namespace Catalogue

theorem fst_publish (c : Catalogue) (decl : Declaration) :
    (c.publish decl).1 = (c.registry.publish decl).1 := rfl

theorem registry_publish (c : Catalogue) (decl : Declaration) :
    (c.publish decl).2.registry = (c.registry.publish decl).2 := rfl

/-- Publishes declarations one after another and gives each back with its outcome. -/
def publications (c : Catalogue) :
    List Declaration → List (Declaration × Except CatalogueError Registration)
  | [] => []
  | decl :: decls => (decl, (c.publish decl).1) :: (c.publish decl).2.publications decls

/-- Whether a publication ended with a new packet type. -/
def isNew : Except CatalogueError Registration → Bool
  | .ok (.published _) => true
  | .ok (.present _) => false
  | .error _ => false

theorem map_fst_publications (c : Catalogue) (decls : List Declaration) :
    (c.publications decls).map Prod.fst = decls := by
  induction decls generalizing c with
  | nil => rfl
  | cons decl decls ih => exact congrArg (decl :: ·) (ih _)

/-- Once its directory has an entry that a declaration repeats, all publications of its coordinate
end with that entry. -/
theorem publications_of_equivalent? {c : Catalogue} {decl : Declaration} {x : PacketType}
    (h : (c.directories.get decl.channel).equivalent? decl = some x) (decls : List Declaration) :
    ∀ p ∈ c.publications decls, decl.coordinate = p.1.coordinate → p.2 = .ok (.present x) := by
  induction decls generalizing c with
  | nil => simp [publications]
  | cons e decls ih =>
      rw [publications, List.forall_mem_cons]
      constructor
      · intro hcoord
        rw [Directory.equivalent?_eq_of_coordinate _ hcoord,
          Declaration.channel_eq_of_coordinate hcoord] at h
        rw [fst_publish]
        exact Registry.publish_of_equivalent? h
      · have hgrows := c.registry.grows_publish e
        rw [← registry_publish] at hgrows
        exact ih (hgrows.equivalent? h)

theorem pairwise_publications (c : Catalogue) (decls : List Declaration) :
    (c.publications decls).Pairwise fun p q => p.1.coordinate = q.1.coordinate →
      ∀ result, p.2 = .ok result → q.2 = .ok (.present result.packetType) := by
  induction decls generalizing c with
  | nil => exact List.Pairwise.nil
  | cons decl decls ih =>
      rw [publications, List.pairwise_cons]
      refine ⟨?_, ih _⟩
      intro q hq hcoord result hresult
      rw [fst_publish] at hresult
      have hpresent := Registry.equivalent?_of_publish hresult
      rw [← registry_publish] at hpresent
      exact publications_of_equivalent? hpresent decls q hq hcoord

/-- Of publications in any order, at most one for each coordinate ends with a new packet type. Every
publication after one that succeeded for the same coordinate succeeds with the packet type that is
present since then. -/
theorem publications_converge (c : Catalogue) (decls : List Declaration) :
    (c.publications decls).map Prod.fst = decls ∧
    (∀ k, (c.publications decls).countP (fun p => p.1.coordinate = k ∧ isNew p.2) ≤ 1) ∧
    (c.publications decls).Pairwise fun p q => p.1.coordinate = q.1.coordinate →
      ∀ result, p.2 = .ok result → q.2 = .ok (.present result.packetType) := by
  have hpair := c.pairwise_publications decls
  refine ⟨c.map_fst_publications decls, fun k => ?_, hpair⟩
  rw [List.countP_eq_length_filter]
  have hnew := hpair.filter fun p => p.1.coordinate = k ∧ isNew p.2
  have hmem : ∀ p ∈ (c.publications decls).filter (fun p => p.1.coordinate = k ∧ isNew p.2),
      p.1.coordinate = k ∧ isNew p.2 := fun p hp => of_decide_eq_true (List.mem_filter.mp hp).2
  generalize (c.publications decls).filter _ = ps at hnew hmem
  match ps, hnew, hmem with
  | [], _, _ => exact Nat.zero_le _
  | [p], _, _ => exact Nat.le_refl _
  | p :: q :: ps, hnew, hmem =>
      obtain ⟨hp, hpnew⟩ := hmem p List.mem_cons_self
      obtain ⟨hq, hqnew⟩ := hmem q (List.mem_cons_of_mem _ List.mem_cons_self)
      have hpq := (List.pairwise_cons.mp hnew).1 q List.mem_cons_self (hp.trans hq.symm)
      cases hpr : p.2 with
      | error e => simp [hpr, isNew] at hpnew
      | ok result =>
          rw [hpq result hpr] at hqnew
          cases hqnew

end Catalogue

end WireCatalog
