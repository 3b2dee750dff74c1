import WireCatalog.Proofs.Claims
import WireCatalog.Proofs.Lists

/-! # Additions one after another

An index answers by what it accepted, the first one first. `Records.add_cases` is the step: a packet
type that is there already is accepted again and only repeats its claims, one whose known wire key
belongs to another is refused, and any other one comes last. `Records.addEach` follows any number of
additions, those that are refused or repeated included.

`addEach_first_wins` is the case of pairwise different packet types and an index that is empty at
first: the wire keys, the names, the legacy ids and the collisions are functions of the list of the
packet types that were accepted. -/

namespace WireCatalog

namespace Index

/-! ### Any number of additions -/

/-- The index after packet types were added one after another. One that is refused changes
nothing. -/
def addEach (ix : Index) : List PacketType → Index
  | [] => ix
  | x :: xs =>
    match ix.add x with
    | .ok ix' => ix'.addEach xs
    | .error _ => ix.addEach xs

/-- The packet types that are accepted when they are added one after another. -/
def accepted (ix : Index) : List PacketType → List PacketType
  | [] => []
  | x :: xs =>
    match ix.add x with
    | .ok ix' => x :: ix'.accepted xs
    | .error _ => ix.accepted xs

variable {ix ix' : Index} {x : PacketType} {xs ys : List PacketType} {cs : List Claim}

theorem addEach_cons_of_ok (h : ix.add x = .ok ix') (ys : List PacketType) :
    ix.addEach (x :: ys) = ix'.addEach ys ∧ ix.accepted (x :: ys) = x :: ix'.accepted ys := by
  simp [addEach, accepted, h]

theorem addEach_cons_of_error {e : DuplicateId} (h : ix.add x = .error e)
    (ys : List PacketType) :
    ix.addEach (x :: ys) = ix.addEach ys ∧ ix.accepted (x :: ys) = ix.accepted ys := by
  simp [addEach, accepted, h]

theorem accepted_sublist (ix : Index) (xs : List PacketType) : (ix.accepted xs).Sublist xs := by
  induction xs generalizing ix with
  | nil => exact List.Sublist.refl _
  | cons x xs ih =>
      cases h : ix.add x with
      | ok ix' =>
          rw [(addEach_cons_of_ok h _).2]
          exact (ih ix').cons_cons x
      | error e =>
          rw [(addEach_cons_of_error h _).2]
          exact (ih ix).cons x

theorem addEach_append (ix : Index) (xs ys : List PacketType) :
    ix.addEach (xs ++ ys) = (ix.addEach xs).addEach ys := by
  induction xs generalizing ix with
  | nil => rfl
  | cons x xs ih =>
      cases h : ix.add x with
      | ok ix' => simp [addEach_cons_of_ok h, ih]
      | error e => simp [addEach_cons_of_error h, ih]

theorem accepted_append (ix : Index) (xs ys : List PacketType) :
    ix.accepted (xs ++ ys) = ix.accepted xs ++ (ix.addEach xs).accepted ys := by
  induction xs generalizing ix with
  | nil => rfl
  | cons x xs ih =>
      cases h : ix.add x with
      | ok ix' => simp [addEach_cons_of_ok h, ih]
      | error e => simp [addEach_cons_of_error h, ih]

/-! ### One addition -/

theorem eq_of_key_eq (hp : xs.Pairwise PacketType.Apart) {y : PacketType} (hx : x ∈ xs)
    (hy : y ∈ xs) (hk : x.key.isKnown = true) (he : x.key = y.key) : x = y := by
  have hapart : ∀ {a b : PacketType}, a.Apart b → a.key = b.key → b.key.isKnown = true → a = b :=
    fun hab he hk => absurd he (hab.2 hk)
  -- Known keys differ whichever of the two comes first.
  have hunique := hp.imp (S := fun a b => a.key = b.key → a.key.isKnown = true → a = b)
    fun hab he hk => hapart hab he (he ▸ hk)
  have hflip := hp.imp (S := flip fun a b => a.key = b.key → a.key.isKnown = true → a = b)
    fun hab he hk => (hapart hab he.symm hk).symm
  exact hunique.forall_of_forall_of_flip (fun _ _ _ _ => rfl) hflip hx hy he hk

namespace Records

/-- Among packet types that are apart, a known wire key leads to the one that has it. -/
theorem byKey?_eq_some_iff (h : ix.Records xs cs) (hp : xs.Pairwise PacketType.Apart)
    {k : WireKey} {y : PacketType} :
    ix.byKey? k = some y ↔ y ∈ xs ∧ k.isKnown = true ∧ y.key = k := by
  have hmem : ∀ z, ix.byKey? k = some z → z ∈ xs ∧ k.isKnown = true ∧ z.key = k := by
    intro z hz
    rw [byKey?, h.known] at hz
    obtain ⟨hz', hknown⟩ := List.mem_filter.mp (List.mem_of_find?_eq_some hz)
    have hkey : z.key = k := by simpa using List.find?_some hz
    exact ⟨hz', hkey ▸ hknown, hkey⟩
  refine ⟨hmem y, ?_⟩
  rintro ⟨hy, hk, rfl⟩
  have hsome : (ix.byKey? y.key).isSome := by
    rw [byKey?, h.known, List.find?_isSome]
    exact ⟨y, List.mem_filter.mpr ⟨hy, hk⟩, by simp⟩
  obtain ⟨z, hz⟩ := Option.isSome_iff_exists.mp hsome
  obtain ⟨hz', _, he⟩ := hmem z hz
  rw [hz, eq_of_key_eq hp hz' hy (he ▸ hk) he]

/-- What is there already claims its names once more and changes no other table. -/
theorem add_eq_claimNames (h : ix.Records xs cs) (hp : xs.Pairwise PacketType.Apart)
    (hx : x ∈ xs) : ix.add x = .ok (ix.claimNames x) := by
  have hkey : ix.claimKey x = .ok ix := by
    unfold Index.claimKey
    by_cases hk : x.key.isKnown = true
    · rw [if_pos hk, (h.byKey?_eq_some_iff hp).mpr ⟨hx, hk, rfl⟩]
      simp
    · rw [if_neg hk]
  have hlegacy : x.legacyId = unknownId ∨ x ∈ (ix.claimNames x).legacy := by
    by_cases hl : x.legacyId = unknownId
    · exact .inl hl
    · right
      rw [claimNames_eq_foldl, legacy_foldl_claim, h.legacy]
      simp [hx, hl]
  unfold Index.add
  rw [hkey]
  simp [Except.map, fileLegacy, hlegacy]

theorem add_of_mem (h : ix.Records xs cs) (hp : xs.Pairwise PacketType.Apart) (hx : x ∈ xs) :
    ∃ ix', ix.add x = .ok ix' ∧ ix'.Records xs (cs ++ x.claims) := by
  refine ⟨ix.claimNames x, h.add_eq_claimNames hp hx, ?_⟩
  rw [claimNames_eq_foldl]
  exact h.foldl_claim x.claims

theorem add_of_taken (h : ix.Records xs cs) (hp : xs.Pairwise PacketType.Apart) (hx : x ∉ xs)
    (hk : x.key.isKnown = true) {y : PacketType} (hy : y ∈ xs) (he : y.key = x.key) :
    ix.add x = .error ⟨x.key, y.name, x.name⟩ := by
  have hne : y ≠ x := fun e => hx (e ▸ hy)
  unfold Index.add Index.claimKey
  rw [if_pos hk, (h.byKey?_eq_some_iff hp).mpr ⟨hy, hk, he⟩]
  simp [hne, Except.map]

/-- All that an addition can do. -/
theorem add_cases (h : ix.Records xs cs) (hp : xs.Pairwise PacketType.Apart) (x : PacketType) :
    (x ∈ xs ∧ ∃ ix', ix.add x = .ok ix' ∧ ix'.Records xs (cs ++ x.claims)) ∨
    (x ∉ xs ∧ x.key.isKnown = true ∧
      ∃ y ∈ xs, y.key = x.key ∧ ix.add x = .error ⟨x.key, y.name, x.name⟩) ∨
    (x ∉ xs ∧ (∀ y ∈ xs, y.Apart x) ∧
      ∃ ix', ix.add x = .ok ix' ∧ ix'.Records (xs ++ [x]) (cs ++ x.claims)) := by
  by_cases hx : x ∈ xs
  · exact .inl ⟨hx, h.add_of_mem hp hx⟩
  · by_cases htaken : x.key.isKnown = true ∧ ∃ y ∈ xs, y.key = x.key
    · obtain ⟨hk, y, hy, he⟩ := htaken
      exact .inr (.inl ⟨hx, hk, y, hy, he, h.add_of_taken hp hx hk hy he⟩)
    · have hapart : ∀ y ∈ xs, y.Apart x := by
        intro y hy
        exact ⟨fun e => hx (e ▸ hy), fun hk he => htaken ⟨hk, y, hy, he⟩⟩
      exact .inr (.inr ⟨hx, hapart, h.add hapart⟩)

/-- A new packet type is refused exactly if its known wire key belongs to an earlier one. -/
theorem add_eq_error_iff (h : ix.Records xs cs) (hp : xs.Pairwise PacketType.Apart) (hx : x ∉ xs)
    (e : DuplicateId) :
    ix.add x = .error e ↔
      ∃ y ∈ xs, x.key.isKnown = true ∧ y.key = x.key ∧ e = ⟨x.key, y.name, x.name⟩ := by
  constructor
  · intro he
    rcases h.add_cases hp x with ⟨hmem, _⟩ | ⟨_, hk, y, hy, hkey, herr⟩ | ⟨_, _, ix', hok, _⟩
    · exact absurd hmem hx
    · rw [herr] at he
      exact ⟨y, hy, hk, hkey, (Except.error.inj he).symm⟩
    · rw [hok] at he
      cases he
  · rintro ⟨y, hy, hk, hkey, rfl⟩
    exact h.add_of_taken hp hx hk hy hkey

/-- The packet types that were accepted at any time count once, at their first acceptance, and make
their claims at every acceptance. -/
theorem addEach (h : ix.Records xs cs) (hp : xs.Pairwise PacketType.Apart) (ys : List PacketType) :
    (ix.addEach ys).Records (xs ++ ix.accepted ys).eraseDups
        (cs ++ (ix.accepted ys).flatMap PacketType.claims) ∧
      (xs ++ ix.accepted ys).eraseDups.Pairwise PacketType.Apart := by
  -- Carried along is that what was accepted so far is pairwise apart: it decides the next addition.
  induction ys generalizing ix xs cs with
  | nil =>
      have hnd : xs.Nodup := hp.imp And.left
      simpa [Index.addEach, accepted, eraseDups_of_nodup hnd] using ⟨h, hp⟩
  | cons x ys ih =>
      rcases h.add_cases hp x with
        ⟨hx, ix', hok, hr⟩ | ⟨_, _, y, _, _, herr⟩ | ⟨_, hx, ix', hok, hr⟩
      · obtain ⟨heach, hacc⟩ := addEach_cons_of_ok hok ys
        rw [heach, hacc, eraseDups_append_cons_of_mem hx, List.flatMap_cons, ← List.append_assoc]
        exact ih hr hp
      · obtain ⟨heach, hacc⟩ := addEach_cons_of_error herr ys
        rw [heach, hacc]
        exact ih h hp
      · obtain ⟨heach, hacc⟩ := addEach_cons_of_ok hok ys
        have hp' : (xs ++ [x]).Pairwise PacketType.Apart := by
          rw [List.pairwise_append]
          refine ⟨hp, List.pairwise_singleton _ _, fun y hy z hz => ?_⟩
          rw [List.mem_singleton.mp hz]
          exact hx y hy
        rw [heach, hacc, List.append_cons, List.flatMap_cons, ← List.append_assoc]
        exact ih hr hp'

end Records

/-! ### Pairwise different packet types in an empty index -/

/-- Pairwise different packet types that are accepted are all recorded. -/
theorem records_addEach_empty (h : xs.Nodup) :
    (empty.addEach xs).Records (empty.accepted xs)
        ((empty.accepted xs).flatMap PacketType.claims) ∧
      (empty.accepted xs).Pairwise PacketType.Apart := by
  have hnd : (empty.accepted xs).Nodup := h.sublist (accepted_sublist empty xs)
  have hr := records_empty.addEach List.Pairwise.nil xs
  rwa [List.nil_append, List.nil_append, eraseDups_of_nodup hnd] at hr

/-- The packet type for a legacy id is the first of the preferred direction that has the id, or else
the first that has it. -/
theorem Records.byLegacyId?_eq (h : ix.Records xs cs) (id : Int)
    (preferred : Option Direction) :
    ix.byLegacyId? id preferred =
      (preferred.bind fun d => xs.find? fun x =>
        id != unknownId && x.legacyId == id && x.channel.direction == d).or
      (xs.find? fun x => id != unknownId && x.legacyId == id) := by
  have hbucket : ix.bucket id = xs.filter fun x => id != unknownId && x.legacyId == id := by
    rw [bucket, h.legacy, List.filter_filter]
    refine List.filter_congr fun x _ => ?_
    by_cases hid : x.legacyId = id
    · rw [hid, Bool.and_comm]
    · have hne : (x.legacyId == id) = false := beq_eq_false_iff_ne.mpr hid
      rw [hne, Bool.false_and, Bool.and_false]
  simp only [byLegacyId?, hbucket, List.find?_filter, List.head?_filter, Bool.decide_and,
    Bool.decide_eq_true]

/-- **An index is a first-wins function of what it accepted.** Pairwise different packet types are
added to an empty index one after another. One of them is refused, and changes nothing, exactly if
its known wire key belongs to one that was accepted before. In the end a known wire key leads to the
packet type that has it, a name to the first that answers to it, and a legacy id to the first of the
preferred direction or else the first. The collisions are the claims on names that another packet
type answered to first, in order. -/
theorem addEach_first_wins {xs : List PacketType} (h : xs.Nodup) :
    let ix := empty.addEach xs
    let acc := empty.accepted xs
    (∀ before x after, xs = before ++ x :: after →
      (∀ e, (empty.addEach before).add x = .error e ↔
        ∃ y ∈ empty.accepted before,
          x.key.isKnown = true ∧ y.key = x.key ∧ e = ⟨x.key, y.name, x.name⟩) ∧
      (∀ e, (empty.addEach before).add x = .error e →
        empty.addEach (before ++ [x]) = empty.addEach before ∧
        empty.accepted (before ++ [x]) = empty.accepted before) ∧
      (∀ ix', (empty.addEach before).add x = .ok ix' →
        empty.addEach (before ++ [x]) = ix' ∧
        empty.accepted (before ++ [x]) = empty.accepted before ++ [x])) ∧
    (∀ k x, ix.byKey? k = some x ↔ x ∈ acc ∧ k.isKnown = true ∧ x.key = k) ∧
    (∀ c n, ix.bound? c n = firstCalled acc c n) ∧
    (∀ id preferred, ix.byLegacyId? id preferred =
      (preferred.bind fun d => acc.find? fun x =>
        id != unknownId && x.legacyId == id && x.channel.direction == d).or
      (acc.find? fun x => id != unknownId && x.legacyId == id)) ∧
    ix.collisions =
      (acc.flatMap PacketType.claims).filterMap (Claim.loss? (firstCalled acc)) := by
  intro ix acc
  obtain ⟨hr, hp⟩ := records_addEach_empty h
  have hfirst : firstClaimant (acc.flatMap PacketType.claims) = firstCalled acc :=
    firstClaimant_flatMap_claims acc
  refine ⟨?_, fun k x => hr.byKey?_eq_some_iff hp, ?_, hr.byLegacyId?_eq, ?_⟩
  · rintro before x after rfl
    obtain ⟨hbefore, _, hx⟩ := List.nodup_append.mp h
    obtain ⟨hrb, hpb⟩ := records_addEach_empty hbefore
    have hnew : x ∉ empty.accepted before := fun hmem =>
      hx x ((accepted_sublist empty before).subset hmem) x List.mem_cons_self rfl
    refine ⟨hrb.add_eq_error_iff hpb hnew, fun e he => ?_, fun ix' hok => ?_⟩
    · rw [addEach_append, accepted_append, (addEach_cons_of_error he _).1,
        (addEach_cons_of_error he _).2]
      exact ⟨rfl, List.append_nil _⟩
    · rw [addEach_append, accepted_append, (addEach_cons_of_ok hok _).1,
        (addEach_cons_of_ok hok _).2]
      exact ⟨rfl, rfl⟩
  · intro c n
    rw [hr.bound, hfirst]
  · rw [hr.collisions, hfirst]

/-! ### Three packet types -/

/-- A packet type with a canonical name and further ones. -/
def echo (id : Int) (name : String) (further : List String) (serial : ℕ) : PacketType :=
  { Declaration.named ⟨.status, .clientToServer⟩ "PacketStatusInEcho" with
    key := ⟨⟨.status, .clientToServer⟩, id⟩
    further := further
    name := name
    serial := serial }

/-- Of three packet types under one canonical name, two of them with the same wire key, the second
one is refused and the third one loses the name. -/
theorem addEach_first_wins_echo :
    let x := echo 1 "ECHO" [] 0
    let y := echo 1 "ECHO_AGAIN" [] 1
    let z := echo 2 "ECHO_LATE" ["PacketStatusInLate"] 2
    let ix := empty.addEach [x, y, z]
    [x, y, z].Nodup ∧
      (empty.addEach [x]).add y = .error ⟨x.key, "ECHO", "ECHO_AGAIN"⟩ ∧
      ix.bound? x.channel "PacketStatusInEcho" = some x ∧
      ix.bound? x.channel "PacketStatusInLate" = some z ∧
      ix.collisions = [⟨x.channel, "PacketStatusInEcho", .declared, x, z⟩] := by
  intro x y z ix
  have hnd : [x, y, z].Nodup := by decide
  obtain ⟨hadd, _, hbound, _, hlost⟩ := addEach_first_wins hnd
  have hfirst : empty.accepted [x] = [x] := by decide
  have hacc : empty.accepted [x, y, z] = [x, z] := by decide
  rw [hacc] at hlost
  refine ⟨hnd, (hadd [x] y [z] rfl).1 _ |>.mpr ?_, ?_, ?_, ?_⟩
  · rw [hfirst]
    exact ⟨x, List.mem_singleton.mpr rfl, by decide⟩
  · rw [hbound, hacc]
    decide
  · rw [hbound, hacc]
    decide
  · rw [hlost]
    decide

end Index

end WireCatalog
