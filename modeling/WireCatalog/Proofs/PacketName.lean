import WireCatalog.Packet.Declaration
import WireCatalog.Proofs.Lists
import Mathlib.Data.List.Infix

/-! # Canonical names

A formatted name is always qualified (`isQualified_format`): it starts with the marker, or it was
qualified before. So formatting it once more changes nothing (`format_format`), and the qualified
names are exactly those that no channel changes (`isQualified_iff_format`).

No label of a phase starts another one, and neither does one of a direction. So a canonical name
tells its channel and its capitalized name (`format_eq_format_iff`). Names that are capitalized
already, as those of a table are, have different canonical names if they are different
(`format_inj`). -/

namespace WireCatalog.PacketName

theorem occurs_iff {m cs : List Char} : occurs m cs = true ↔ m <:+: cs := by
  induction cs with
  | nil => simp [occurs, List.isEmpty_iff]
  | cons c cs ih =>
      rw [occurs, Bool.or_eq_true, List.isPrefixOf_iff_prefix, ih, List.infix_cons_iff]

theorem isQualified_iff {name : String} :
    isQualified name = true ↔ marker.toList <:+: name.toList :=
  occurs_iff

theorem isQualified_append (s t : String) : isQualified (marker ++ s ++ t) = true := by
  rw [isQualified_iff, String.toList_append, String.toList_append, List.append_assoc]
  exact (List.prefix_append _ _).isInfix

theorem isQualified_format (c : Channel) (name : String) : isQualified (format c name) = true := by
  unfold format
  by_cases h : isQualified name = true
  · rw [if_pos h]
    exact h
  · rw [if_neg h, stem, String.append_assoc, String.append_assoc, ← String.append_assoc]
    exact isQualified_append _ _

theorem format_of_isQualified (c : Channel) {name : String} (h : isQualified name = true) :
    format c name = name := by
  rw [format, if_pos h]

theorem format_format (c : Channel) (name : String) : format c (format c name) = format c name :=
  format_of_isQualified c (isQualified_format c name)

/-- The qualified names are those that every channel leaves as they are. -/
theorem isQualified_iff_format {name : String} :
    isQualified name = true ↔ ∀ c, format c name = name := by
  constructor
  · exact fun h c => format_of_isQualified c h
  · intro h
    rw [← h ⟨.handshaking, .clientToServer⟩]
    exact isQualified_format _ name

/-! ### Channels in names -/

theorem phase_eq_of_label_prefix {p q : Phase} (h : p.label.toList <+: q.label.toList) : p = q := by
  cases p <;> cases q <;> revert h <;> decide

theorem direction_eq_of_label_prefix {d e : Direction} (h : d.label.toList <+: e.label.toList) :
    d = e := by
  cases d <;> cases e <;> revert h <;> decide

/-- What a name of a channel starts with tells the channel from the rest of the name. -/
theorem stem_append_inj {c c' : Channel} {s t : String} (h : stem c ++ s = stem c' ++ t) :
    c = c' ∧ s = t := by
  obtain ⟨p, d⟩ := c
  obtain ⟨p', d'⟩ := c'
  have hchars := congrArg String.toList h
  simp only [stem, String.toList_append, List.append_assoc] at hchars
  obtain ⟨rfl, hlabels⟩ :=
    append_inj_of_prefix phase_eq_of_label_prefix (List.append_cancel_left hchars)
  obtain ⟨rfl, hname⟩ := append_inj_of_prefix direction_eq_of_label_prefix hlabels
  exact ⟨rfl, String.toList_inj.mp hname⟩

/-- Names that are not qualified have one canonical form if they are the same name but for their
capitals, in the same channel. -/
theorem format_eq_format_iff {c c' : Channel} {a b : String} (ha : isQualified a = false)
    (hb : isQualified b = false) :
    format c a = format c' b ↔ c = c' ∧ capitalize a = capitalize b := by
  rw [format, format, ha, hb, if_neg Bool.false_ne_true, if_neg Bool.false_ne_true]
  constructor
  · exact stem_append_inj
  · rintro ⟨rfl, hcap⟩
    rw [hcap]

/-! ### Capitalized names -/

/-- Whether a name starts with an ASCII capital and has no blanks after it. -/
def isCapitalized (name : String) : Bool :=
  match name.toList with
  | [] => true
  | c :: cs => c.isUpper && cs.all (!Text.isBlank ·)

theorem isUpper_iff {c : Char} : c.isUpper = true ↔ 65 ≤ c.toNat ∧ c.toNat ≤ 90 :=
  decide_eq_true_iff.trans (and_congr UInt32.le_iff_toNat_le UInt32.le_iff_toNat_le)

theorem isBlank_of_isUpper {c : Char} (h : c.isUpper = true) : Text.isBlank c = false := by
  obtain ⟨h₁, h₂⟩ := isUpper_iff.mp h
  rw [Bool.eq_false_iff, Text.isBlank, Ne, Text.Ranges.covers_iff]
  rintro ⟨r, hr, hle, hge⟩
  have hapart : ∀ r ∈ Text.blanks, r.2 < 65 ∨ 90 < r.1 := by decide
  have := hapart r hr
  omega

/-- An ASCII capital is its own upper-case form: both tables start behind it. -/
theorem upper_of_isUpper {c : Char} (h : c.isUpper = true) : Text.upper c = [c] := by
  obtain ⟨_, h⟩ := isUpper_iff.mp h
  have hlong : Text.longUpperCase.find? (·.1 == c.toNat) = none := by
    have hlater : ∀ p ∈ Text.longUpperCase, 90 < p.1 := by decide +kernel
    refine List.find?_eq_none.mpr fun p hp he => ?_
    have := hlater p hp
    have := beq_iff_eq.mp he
    omega
  have hruns : Text.caseRuns.find? (·.maps c.toNat) = none := by
    have hlater : ∀ r ∈ Text.caseRuns, 90 < r.first := by decide +kernel
    refine List.find?_eq_none.mpr fun r hr hm => ?_
    have := hlater r hr
    simp only [Text.CaseRun.maps, Bool.and_eq_true, decide_eq_true_eq] at hm
    omega
  rw [Text.upper, hlong, Text.upperCode, hruns, Char.ofNat_toNat]

theorem capitalizeFrom_false {cs : List Char} (h : ∀ c ∈ cs, Text.isBlank c = false) :
    capitalizeFrom false cs = cs := by
  induction cs with
  | nil => rfl
  | cons c cs ih =>
      rw [capitalizeFrom, h c List.mem_cons_self, ih fun c' hc' => h c' (List.mem_cons_of_mem _ hc')]
      rfl

theorem capitalize_of_isCapitalized {name : String} (h : isCapitalized name = true) :
    capitalize name = name := by
  unfold isCapitalized at h
  have hchars : capitalizeFrom true name.toList = name.toList := by
    cases hn : name.toList with
    | nil => rfl
    | cons c cs =>
        rw [hn] at h
        obtain ⟨hc, hcs⟩ := Bool.and_eq_true_iff.mp h
        have hrest : ∀ c' ∈ cs, Text.isBlank c' = false := by simpa using hcs
        rw [capitalizeFrom, isBlank_of_isUpper hc, upper_of_isUpper hc, capitalizeFrom_false hrest]
        rfl
  rw [capitalize, hchars, String.ofList_toList]

/-- Capitalized names that are not qualified keep apart in canonical form. -/
theorem format_inj {c : Channel} {a b : String} (ha : isQualified a = false)
    (hb : isQualified b = false) (ha' : isCapitalized a = true) (hb' : isCapitalized b = true)
    (h : format c a = format c b) : a = b := by
  have hcap := ((format_eq_format_iff ha hb).mp h).2
  rwa [capitalize_of_isCapitalized ha', capitalize_of_isCapitalized hb'] at hcap

end WireCatalog.PacketName
