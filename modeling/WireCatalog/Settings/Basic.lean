import WireCatalog.Protocol.Encoded
import WireCatalog.Toml.Quoted

/-! # Settings

What a catalogue is configured with, and the defaults. Settings are written as a TOML document:
every field, and the confined thread as a table of its own. -/

namespace WireCatalog

/-- The thread on which a catalogue is changed. When it is disabled, callers change the catalogue
themselves. -/
structure ThreadSettings where
  enabled : Bool := true
  name : String := "pktcat-registrar"
  deriving DecidableEq, Repr

structure Settings where
  /-- The release that packet ids are taken from. -/
  protocolVersion : Version := .villageUpdate
  /-- Whether the peer speaks the old wire format. -/
  legacyWireFormat : Bool := false
  /-- What the provisional names of packet types discovered while running start with. -/
  dynamicNamePrefix : String := "Dynamic-"
  confinedThread : ThreadSettings := {}
  deriving DecidableEq, Repr

/-- The settings that hold where nothing else is said. -/
def Settings.default : Settings := {}

/-! ### The document of settings -/

/-- The names of the fields of a document. -/
def Settings.fieldNames : List String :=
  ["protocol_version", "legacy_wire_format", "dynamic_name_prefix", "confined_thread"]

/-- The names of the fields of the confined thread. -/
def ThreadSettings.fieldNames : List String := ["enabled", "name"]

/-- A line that gives a key its value. -/
def Settings.line (key value : String) : String := key ++ " = " ++ value ++ "\n"

/-- The document of settings. -/
def Settings.render (s : Settings) : String :=
  line "protocol_version" (Toml.writeString s.protocolVersion.toString) ++
    line "legacy_wire_format" (Toml.writeBool s.legacyWireFormat) ++
    line "dynamic_name_prefix" (Toml.writeString s.dynamicNamePrefix) ++
    "\n[confined_thread]\n" ++
    line "enabled" (Toml.writeBool s.confinedThread.enabled) ++
    line "name" (Toml.writeString s.confinedThread.name)

/-! ### Refusals -/

/-- Why a document is refused. -/
inductive SettingsError
  /-- The document is not well formed. -/
  | malformed
  /-- A value is of the wrong kind. -/
  | wrongKind
  /-- A field that is none of the known ones. -/
  | unknownField (name : String) (known : List String)
  | unreadable (error : ParseError)
  deriving DecidableEq, Repr

namespace SettingsError

/-- A choice between names, in words. -/
def oneOf (names : List String) : String :=
  match names with
  | [a, b] => s!"`{a}` or `{b}`"
  | names => "one of " ++ ", ".intercalate (names.map fun n => s!"`{n}`")

/-- The text of a refusal, for those that have one of their own. -/
def message? : SettingsError → Option String
  | malformed => none
  | wrongKind => none
  | unknownField n known => some (s!"unknown field `{n}`, expected " ++ oneOf known)
  | unreadable e => some e.message

end SettingsError

end WireCatalog
