import WireCatalog.Proofs.TomlStrings
import WireCatalog.Proofs.VersionText
import WireCatalog.Settings.Reader

/-! # The document of settings

Settings are written as a document of lines: a key with a value, the header of the confined thread,
and an empty line before it. A line that was written is read as one part of the document, whatever
lines follow (`items?_line`, `items?_header`). The parts of the whole document are then put together
to the table whose fields are the settings, so reading what was written gives the settings back
(`parse_render`). -/

namespace WireCatalog

namespace Toml

variable {rest : List Char} {fuel : ℕ}

/-! ### Keys -/

/-- A key that needs no quotes. -/
def IsBare (key : String) : Prop := key.toList ≠ [] ∧ key.toList.all isBareKeyChar = true

instance (key : String) : Decidable (IsBare key) := inferInstanceAs (Decidable (_ ∧ _))

theorem skipSpaces_cons {c : Char} (hc : isSpace c = false) (cs : List Char) :
    skipSpaces (c :: cs) = c :: cs := by
  simp [skipSpaces, hc]

theorem isSpace_of_isBareKeyChar {c : Char} (h : isBareKeyChar c = true) : isSpace c = false := by
  rw [isSpace, Bool.or_eq_false_iff, beq_eq_false_iff_ne, beq_eq_false_iff_ne]
  constructor
  · rintro rfl
    cases h
  · rintro rfl
    cases h

/-- A bare key goes up to the first character that no bare key has. -/
theorem key?_of_isBare {key : String} (hkey : IsBare key)
    (hend : ∀ c ∈ rest.head?, isBareKeyChar c = false)
    (hdot : ∀ tail, skipSpaces rest ≠ '.' :: tail) :
    key? (key.toList ++ rest) = some (([], key), skipSpaces rest) := by
  obtain ⟨hne, hall⟩ := hkey
  have hbare := List.all_eq_true.mp hall
  have hskip : skipSpaces (key.toList ++ rest) = key.toList ++ rest := by
    cases hk : key.toList with
    | nil => exact absurd hk hne
    | cons c cs =>
        have hc := hbare c (hk ▸ List.mem_cons_self)
        exact skipSpaces_cons (isSpace_of_isBareKeyChar hc) _
  have htake : rest.takeWhile isBareKeyChar = [] := by
    cases rest with
    | nil => rfl
    | cons c cs => simp [hend c rfl]
  have hdrop : rest.dropWhile isBareKeyChar = rest := by
    cases rest with
    | nil => rfl
    | cons c cs => simp [hend c rfl]
  have hpart : keyPart? (key.toList ++ rest) = some (key, rest) := by
    rw [keyPart?, List.takeWhile_append_of_pos hbare, List.dropWhile_append_of_pos hbare, htake,
      hdrop, List.append_nil]
    simp [hne]
  have hrest : keyRest? (rest.length + 1) rest = some ([], skipSpaces rest) := by
    rw [keyRest?]
    split
    · rename_i tail h
      exact absurd h (hdot tail)
    · rfl
  simp [key?, hskip, hpart, hrest, maxDepth]

/-! ### Values -/

theorem head?_writeString (s : String) :
    ∃ q tail, (writeString s).toList = q :: tail ∧ (q = '"' ∨ q = '\'') := by
  rw [writeString, String.toList_ofList]
  cases formOf s.toList with
  | basic => exact ⟨'"', _, rfl, .inl rfl⟩
  | literal => exact ⟨'\'', _, rfl, .inr rfl⟩
  | longBasic => exact ⟨'"', _, rfl, .inl rfl⟩
  | longLiteral => exact ⟨'\'', _, rfl, .inr rfl⟩

/-- Whether a text is read as a value up to the end of its line. -/
structure IsText (text : String) (v : Value) : Prop where
  start : ∀ c ∈ text.toList.head?, isSpace c = false
  read : ∀ depth rest, value? depth (text.toList ++ '\n' :: rest) = some (v, '\n' :: rest)

theorem isText_writeString (s : String) : IsText (writeString s) (.string s) := by
  obtain ⟨q, tail, hw, hq⟩ := head?_writeString s
  constructor
  · intro c hc
    rw [hw] at hc
    obtain rfl := Option.some.inj hc
    rcases hq with rfl | rfl
    · rfl
    · rfl
  · intro depth rest
    have hdouble : ('\n' :: rest).head? ≠ some '"' := by simp
    have hsingle : ('\n' :: rest).head? ≠ some '\'' := by simp
    have hread := string?_writeString s hdouble hsingle
    rw [hw, List.cons_append] at hread ⊢
    unfold value?
    rcases hq with rfl | rfl
    · simp [hread]
    · simp [hread]

theorem isText_writeBool (b : Bool) : IsText (writeBool b) (.boolean b) := by
  cases b with
  | false =>
      refine ⟨fun c hc => ?_, fun depth rest => ?_⟩
      · obtain rfl := Option.some.inj hc
        rfl
      · unfold value?
        rfl
  | true =>
      refine ⟨fun c hc => ?_, fun depth rest => ?_⟩
      · obtain rfl := Option.some.inj hc
        rfl
      · unfold value?
        rfl

/-! ### Lines -/

theorem items?_blank (fuel : ℕ) (rest : List Char) :
    items? (fuel + 1) ('\n' :: rest) = items? fuel rest := rfl

/-- A part of a document on a line of its own is followed by the parts on the lines after it. -/
theorem items?_of_item? {cs : List Char} {item : Item} (hne : cs ≠ []) (hline : endLine? cs = none)
    (hitem : item? (skipSpaces cs) = some (item, '\n' :: rest)) :
    items? (fuel + 1) cs = (items? fuel rest).map (item :: ·) := by
  have hend : endLine? ('\n' :: rest) = some rest := rfl
  rw [items?]
  · rw [hline]
    simp only [hitem, hend, Option.bind_eq_bind, Option.bind_some]
    cases items? fuel rest <;> rfl
  · exact hne

/-- A line that starts with a bare key is not blank. -/
theorem endLine?_of_isBare {key : String} (hkey : IsBare key) (rest : List Char) :
    key.toList ++ rest ≠ [] ∧ endLine? (key.toList ++ rest) = none ∧
      skipSpaces (key.toList ++ rest) = key.toList ++ rest ∧
      ∀ tail, key.toList ++ rest ≠ '[' :: tail := by
  obtain ⟨hne, hall⟩ := hkey
  have hbare := List.all_eq_true.mp hall
  cases hk : key.toList with
  | nil => exact absurd hk hne
  | cons c cs =>
      have hc : isBareKeyChar c = true := hbare c (hk ▸ List.mem_cons_self)
      have hother : ∀ d, isBareKeyChar d = false → c ≠ d := by
        rintro d hd rfl
        cases hc.symm.trans hd
      have hskip := skipSpaces_cons (isSpace_of_isBareKeyChar hc) (cs ++ rest)
      refine ⟨by simp, ?_, hskip, fun tail h => hother '[' rfl (List.cons.inj h).1⟩
      rw [List.cons_append, endLine?, hskip]
      have hhash := hother '#' rfl
      have hfeed := hother '\n' rfl
      have hreturn := hother '\r' rfl
      simp [newline?, hhash, hfeed, hreturn]

/-- A line with a key and a value. -/
theorem items?_line {key text : String} {v : Value} (hkey : IsBare key) (htext : IsText text v)
    (fuel : ℕ) (rest : List Char) :
    items? (fuel + 1) ((Settings.line key text).toList ++ rest) =
      (items? fuel rest).map (.pair [] key v :: ·) := by
  have hline : (Settings.line key text).toList ++ rest =
      key.toList ++ ' ' :: '=' :: ' ' :: (text.toList ++ '\n' :: rest) := by
    simp [Settings.line]
  obtain ⟨hne, hblank, hskip, hbracket⟩ := endLine?_of_isBare hkey
    (' ' :: '=' :: ' ' :: (text.toList ++ '\n' :: rest))
  have hkeyRead : key? (key.toList ++ ' ' :: '=' :: ' ' :: (text.toList ++ '\n' :: rest)) =
      some (([], key), '=' :: ' ' :: (text.toList ++ '\n' :: rest)) :=
    key?_of_isBare hkey (by simp; rfl) (by simp [skipSpaces, isSpace])
  have hvalue : skipSpaces (text.toList ++ '\n' :: rest) = text.toList ++ '\n' :: rest := by
    cases ht : text.toList with
    | nil => rfl
    | cons c cs => exact skipSpaces_cons (htext.start c (by simp [ht])) _
  have hpair : pair? (some ∘ skipSpaces) (value? maxDepth)
      (key.toList ++ ' ' :: '=' :: ' ' :: (text.toList ++ '\n' :: rest)) =
      some ((([], key), v), '\n' :: rest) := by
    have hequals : skipSpaces ('=' :: ' ' :: (text.toList ++ '\n' :: rest)) =
        '=' :: ' ' :: (text.toList ++ '\n' :: rest) := rfl
    have hspace : skipSpaces (' ' :: (text.toList ++ '\n' :: rest)) =
        skipSpaces (text.toList ++ '\n' :: rest) := rfl
    simp [pair?, hkeyRead, hequals, expect?, hspace, hvalue, htext.read]
  rw [hline]
  refine items?_of_item? hne hblank ?_
  rw [hskip, item?]
  · simp [hpair]
  · exact fun tail h => hbracket _ h
  · exact fun tail h => hbracket _ h

/-- A line with the header of a table. -/
theorem items?_header {name : String} (hname : IsBare name) (fuel : ℕ) (rest : List Char) :
    items? (fuel + 1) ('[' :: (name.toList ++ ']' :: '\n' :: rest)) =
      (items? fuel rest).map (.header [] name :: ·) := by
  have hkeyRead : key? (name.toList ++ ']' :: '\n' :: rest) =
      some (([], name), ']' :: '\n' :: rest) :=
    key?_of_isBare hname (by simp; rfl) (by simp [skipSpaces, isSpace])
  refine items?_of_item? (by simp) rfl ?_
  have hskip : skipSpaces ('[' :: (name.toList ++ ']' :: '\n' :: rest)) =
    '[' :: (name.toList ++ ']' :: '\n' :: rest) := rfl
  rw [hskip, item?]
  · simp [hkeyRead, expect?]
  · intro tail h
    obtain ⟨_, _, _, hbracket⟩ := endLine?_of_isBare hname (']' :: '\n' :: rest)
    exact hbracket _ h

end Toml

/-! ### The document -/

namespace Settings

/-- The parts of the document of settings. -/
def items (s : Settings) : List Toml.Item :=
  [.pair [] "protocol_version" (.string s.protocolVersion.toString),
    .pair [] "legacy_wire_format" (.boolean s.legacyWireFormat),
    .pair [] "dynamic_name_prefix" (.string s.dynamicNamePrefix),
    .header [] "confined_thread",
    .pair [] "enabled" (.boolean s.confinedThread.enabled),
    .pair [] "name" (.string s.confinedThread.name)]

/-- The tables that these parts make. -/
def threadTable (s : Settings) : Toml.Table :=
  [("name", .string s.confinedThread.name), ("enabled", .boolean s.confinedThread.enabled)]

def table (s : Settings) : Toml.Table :=
  [("confined_thread", .table .header s.threadTable),
    ("dynamic_name_prefix", .string s.dynamicNamePrefix),
    ("legacy_wire_format", .boolean s.legacyWireFormat),
    ("protocol_version", .string s.protocolVersion.toString)]

theorem items?_render (s : Settings) {fuel : ℕ} (hfuel : 8 ≤ fuel) :
    Toml.items? fuel s.render.toList = some s.items := by
  obtain ⟨n, rfl⟩ := Nat.exists_eq_add_of_le' hfuel
  have hrender : s.render.toList =
      (line "protocol_version" (Toml.writeString s.protocolVersion.toString)).toList ++
      ((line "legacy_wire_format" (Toml.writeBool s.legacyWireFormat)).toList ++
      ((line "dynamic_name_prefix" (Toml.writeString s.dynamicNamePrefix)).toList ++
      '\n' :: '[' :: ("confined_thread".toList ++ ']' :: '\n' ::
      ((line "enabled" (Toml.writeBool s.confinedThread.enabled)).toList ++
      ((line "name" (Toml.writeString s.confinedThread.name)).toList ++ []))))) := by
    simp [render]
  rw [hrender, Toml.items?_line (by decide) (Toml.isText_writeString _),
    Toml.items?_line (by decide) (Toml.isText_writeBool _),
    Toml.items?_line (by decide) (Toml.isText_writeString _), Toml.items?_blank,
    Toml.items?_header (by decide), Toml.items?_line (by decide) (Toml.isText_writeBool _),
    Toml.items?_line (by decide) (Toml.isText_writeString _), Toml.items?]
  rfl

theorem document?_render (s : Settings) : Toml.document? s.render = some s.table := by
  have hfuel : 8 ≤ s.render.toList.length := by
    simp [render, line]
  have hmark : Toml.dropMark s.render.toList = s.render.toList := by
    simp [render, line, Toml.dropMark]
  rw [Toml.document?, hmark, s.items?_render hfuel]
  rfl

/-! ### The fields -/

/-- A table without an offence is not refused for its fields. -/
theorem checked_of_forall {α : Type} {t : Toml.Table}
    {check : String → Toml.Value → Except SettingsError Unit}
    (h : ∀ p ∈ t, check p.1 p.2 = .ok ()) (result : Except SettingsError α) :
    t.checked check result = result := by
  rw [Toml.Table.checked, List.filterMap_eq_nil_iff.mpr]
  · rfl
  · intro p hp
    dsimp only
    rw [h p hp]

theorem ofTable_threadTable (s : Settings) :
    ThreadSettings.ofTable s.threadTable = .ok s.confinedThread := by
  rfl

theorem ofTable_table (s : Settings) : ofTable s.table = .ok s := by
  have hversion : (Toml.Value.string s.protocolVersion.toString).version =
      .ok s.protocolVersion := by
    rw [Toml.Value.version, Version.parse_toString]
    rfl
  have hthread : ThreadSettings.ofValue (.table .header s.threadTable) = .ok s.confinedThread :=
    s.ofTable_threadTable
  have hchecked : ∀ p ∈ s.table, check p.1 p.2 = .ok () := by
    simp [table, check, hversion, hthread, Toml.Value.flag, Toml.Value.text, Except.map]
  have hfields : s.table.get? "protocol_version" = some (.string s.protocolVersion.toString) ∧
      s.table.get? "legacy_wire_format" = some (.boolean s.legacyWireFormat) ∧
      s.table.get? "dynamic_name_prefix" = some (.string s.dynamicNamePrefix) ∧
      s.table.get? "confined_thread" = some (.table .header s.threadTable) := by
    simp [table, Assoc.get?_cons]
  obtain ⟨hpeer, hflag, hprefixed, hconfined⟩ := hfields
  rw [ofTable, checked_of_forall hchecked]
  simp only [Toml.Table.field, hpeer, hflag, hprefixed, hconfined, hversion, hthread,
    Toml.Value.flag, Toml.Value.text]
  rfl

/-- **Settings survive their document.** What settings are written as is read as these settings,
whatever the numbers of the version, the truth values and the characters of the two strings. -/
theorem parse_render (s : Settings) : parse s.render = .ok s := by
  rw [parse, s.document?_render]
  exact s.ofTable_table

end Settings

end WireCatalog
