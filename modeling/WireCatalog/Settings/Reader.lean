import WireCatalog.Settings.Basic
import WireCatalog.Toml.Document

/-! # Reading settings

Settings are read from a TOML document. A field that is missing takes its default. A document that
is not well formed is refused before anything else; then the fields are checked in the order of
their names, and the first that is unknown or has a value of the wrong kind is reported. -/

namespace WireCatalog

/-! ### Values of one kind -/

namespace Toml.Value

def flag : Value → Except SettingsError Bool
  | boolean b => .ok b
  | _ => .error .wrongKind

def text : Value → Except SettingsError String
  | string s => .ok s
  | _ => .error .wrongKind

def version : Value → Except SettingsError Version
  | string s => (Version.parse s).mapError .unreadable
  | _ => .error .wrongKind

end Toml.Value

/-! ### Tables of fields -/

open Toml (Table Value)

/-- The value of a field, or its default if the field is missing. -/
def Toml.Table.field {α : Type} (t : Table) (name : String) (fallback : α)
    (read : Value → Except SettingsError α) : Except SettingsError α :=
  match t.get? name with
  | some v => read v
  | none => .ok fallback

/-- The offence whose field comes first by name. -/
def firstOffence : List (String × SettingsError) → Option (String × SettingsError)
  | [] => none
  | p :: ps =>
    match firstOffence ps with
    | none => some p
    | some q => if q.1 < p.1 then some q else some p

/-- Refuses a table for the first of its fields that `check` refuses. -/
def Toml.Table.checked {α : Type} (t : Table) (check : String → Value → Except SettingsError Unit)
    (result : Except SettingsError α) : Except SettingsError α :=
  match firstOffence (t.filterMap fun (k, v) =>
      match check k v with
      | .ok () => none
      | .error e => some (k, e)) with
  | some (_, e) => .error e
  | none => result

namespace ThreadSettings

def default : ThreadSettings := {}

/-- Refuses a field that is unknown or has a value of the wrong kind. -/
def check (name : String) (v : Value) : Except SettingsError Unit :=
  if name = "enabled" then v.flag.map fun _ => ()
  else if name = "name" then v.text.map fun _ => ()
  else .error (.unknownField name fieldNames)

def ofTable (t : Table) : Except SettingsError ThreadSettings :=
  t.checked check do
    return ⟨← t.field "enabled" default.enabled Value.flag,
      ← t.field "name" default.name Value.text⟩

/-- The fields given by position. Values after the last field are not looked at. -/
def ofArray : List Value → Except SettingsError ThreadSettings
  | [] => .ok default
  | [e] => do return ⟨← e.flag, default.name⟩
  | e :: n :: _ => do return ⟨← e.flag, ← n.text⟩

/-- The field under which a date is kept when a table is asked for. -/
def dateField : String := "$__toml_private_datetime"

/-- The settings of the confined thread: a table, or an array of the fields in order. A date counts
as a table with one field of its own. -/
def ofValue : Value → Except SettingsError ThreadSettings
  | .table _ entries => ofTable entries
  | .array items => ofArray items
  | .date _ => .error (.unknownField dateField fieldNames)
  | .tables (_ :: _) => .error .wrongKind
  | .tables [] => .ok default
  | .string _ => .error .wrongKind
  | .integer _ => .error .wrongKind
  | .float _ => .error .wrongKind
  | .boolean _ => .error .wrongKind

end ThreadSettings

namespace Settings

/-- Refuses a field that is unknown or has a value of the wrong kind. -/
def check (name : String) (v : Value) : Except SettingsError Unit :=
  if name = "protocol_version" then v.version.map fun _ => ()
  else if name = "legacy_wire_format" then v.flag.map fun _ => ()
  else if name = "dynamic_name_prefix" then v.text.map fun _ => ()
  else if name = "confined_thread" then (ThreadSettings.ofValue v).map fun _ => ()
  else .error (.unknownField name fieldNames)

def ofTable (t : Table) : Except SettingsError Settings :=
  t.checked check do
    return {
      protocolVersion := ← t.field "protocol_version" default.protocolVersion Value.version
      legacyWireFormat := ← t.field "legacy_wire_format" default.legacyWireFormat Value.flag
      dynamicNamePrefix := ← t.field "dynamic_name_prefix" default.dynamicNamePrefix Value.text
      confinedThread :=
        ← t.field "confined_thread" default.confinedThread ThreadSettings.ofValue }

/-- The settings that a document gives. -/
def parse (text : String) : Except SettingsError Settings :=
  match Toml.document? text with
  | some t => ofTable t
  | none => .error .malformed

end Settings

/-! ### Files -/

/-- Why a file could not be read as text. -/
inductive FileFault
  | missing
  | isDirectory
  /-- The bytes of the file are not UTF-8. -/
  | notText
  deriving DecidableEq, Repr

def FileFault.message : FileFault → String
  | missing => "No such file or directory (os error 2)"
  | isDirectory => "Is a directory (os error 21)"
  | notText => "stream did not contain valid UTF-8"

inductive LoadError
  | file (path : String) (fault : FileFault)
  | settings (error : SettingsError)
  deriving DecidableEq, Repr

/-- The text of a refusal, for those that have one of their own. -/
def LoadError.message? : LoadError → Option String
  | file path fault => some (s!"I/O error reading {path}: " ++ fault.message)
  | settings e => e.message?

/-- The settings of the file at a path, given what reading it yielded. -/
def Settings.load (path : String) (contents : Except FileFault ByteArray) :
    Except LoadError Settings :=
  match contents with
  | .error fault => .error (.file path fault)
  | .ok bytes =>
    match String.fromUTF8? bytes with
    | none => .error (.file path .notText)
    | some text => (parse text).mapError .settings

end WireCatalog
