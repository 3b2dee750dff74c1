import WireCatalog.BuiltIn.Release114
import WireCatalog.Catalogue.Register
import WireCatalog.Worker.Thread

/-! # Assembling a catalogue

A plan says what a catalogue is made of. `build` registers the built-in packet types of the peer's
version and builds the index; a refusal is passed on. `buildLenient` reports a refusal in the
journal and goes on with what was registered before it. -/

namespace WireCatalog

/-- The executor that the settings ask for, unless its thread cannot have the name they give. -/
def Executor.ofSettings (s : Settings) : Except Worker.NameFault Executor :=
  if s.confinedThread.enabled then
    (Worker.checkName s.confinedThread.name).map fun _ => .thread true
  else .ok .none

structure Plan where
  settings : Settings
  binder : Binder
  peer : Peer
  executor : Executor
  names : NameStream

namespace Plan

/-- The plan that follows from the settings alone, given the provisional names. -/
def ofSettings (s : Settings) (names : NameStream) : Except Worker.NameFault Plan := do
  return {
    settings := s
    binder := .table .empty
    peer := .ofSettings s
    executor := ← Executor.ofSettings s
    names := names }

/-- The event of a table that was chosen for another version than its own. -/
def mismatch (used requested : Version) : List Event :=
  if used = requested then [] else [.versionMismatch requested used]

/-- The built-in packet types of the peer's version, and the refusal that stopped them if any. -/
def enrolled (p : Plan) : BuiltIn.Progress × Option CatalogueError :=
  (BuiltIn.tableFor p.peer.version).enrol DirectorySet.empty 0

/-- The events of the registration of the built-in packet types. It is silent about a refusal. -/
def enrolmentEvents (p : Plan) : List Event :=
  let used := (BuiltIn.tableFor p.peer.version).version
  mismatch used p.peer.version ++
    match p.enrolled with
    | (progress, none) => [.builtInsRegistered used progress.adopted]
    | (_, some _) => []

/-- The catalogue with the given directories and index, after the given events. -/
def finish (p : Plan) (progress : BuiltIn.Progress) (ix : Index) (journal : List Event) :
    Catalogue where
  registry :=
    { snapshot := ⟨progress.set, ix⟩
      names := p.names
      drawn := 0
      nextSerial := progress.adopted
      revision := 0
      journal := journal ++ [.built progress.set.size p.peer.version p.executor.isPresent] }
  binder := p.binder
  peer := p.peer
  executor := p.executor
  settings := p.settings

/-- What a build reports up to its end or the refusal that ends it. -/
def buildReport (p : Plan) : List Event :=
  p.enrolmentEvents ++
    match p.enrolled with
    | (progress, none) => Registry.buildEvents (Index.gather progress.set)
    | (_, some _) => []

def build (p : Plan) : Except CatalogueError Catalogue :=
  match p.enrolled with
  | (_, some e) => .error e
  | (progress, none) =>
    match Index.build progress.set with
    | .error e => .error (.index e)
    | .ok ix => .ok (p.finish progress ix p.buildReport)

def buildLenient (p : Plan) (earlier : List Event) : Catalogue :=
  let progress := p.enrolled.1
  let events := earlier ++ p.enrolmentEvents ++ p.enrolled.2.toList.map .builtInsFailed ++
    Registry.buildEvents (Index.gather progress.set)
  match Index.build progress.set with
  | .error e => p.finish progress .empty (events ++ [.indexFailed (.index e)])
  | .ok ix => p.finish progress ix events

end Plan

end WireCatalog
