import WireCatalog.Index.Basic

/-! # Events

What a catalogue reports while it works. Every event has a name, a level and fields; the catalogue
keeps the events in the order in which they happened. -/

namespace WireCatalog

/-- How far a registration has come. -/
inductive Stage
  /-- A look-up found nothing. -/
  | miss
  /-- A declaration was made for the missing packet type. -/
  | synthesized
  /-- The directory is about to be asked. -/
  | adoptPending
  | published
  | rejected
  deriving DecidableEq, Repr

def Stage.name : Stage → String
  | miss => "miss"
  | synthesized => "synthesized"
  | adoptPending => "adopt_pending"
  | published => "published"
  | rejected => "rejected"

inductive Level
  | trace
  | debug
  | warn
  | error
  deriving DecidableEq, Repr

def Level.name : Level → String
  | trace => "TRACE"
  | debug => "DEBUG"
  | warn => "WARN"
  | error => "ERROR"

/-- The value of a field of an event. -/
inductive Field
  | text (s : String)
  | number (n : Int)
  | flag (b : Bool)
  deriving DecidableEq, Repr

inductive Event
  /-- The settings could not be loaded. -/
  | settingsFailed
  | versionMismatch (requested used : Version)
  | builtInsRegistered (version : Version) (adopted : Nat)
  | builtInsFailed (error : CatalogueError)
  | collision (c : Collision)
  | indexBuilt (known legacyIds collisions : Nat)
  | indexFailed (error : CatalogueError)
  | built (packets : Nat) (version : Version) (confined : Bool)
  | stage (s : Stage) (key : WireKey)
  | aliasTaken (name owner : String) (channel : Channel)
  | indexRefused (error : DuplicateId) (name : String)
  | published (name canonical : String) (key : WireKey)
  | alreadyPresent (name : String)
  | nameTaken (name : String) (attempt : Nat) (channel : Channel)
  | resolvedByClass (key : WireKey) (cls : ClassName) (existing : String)
  | executorClosed (key : WireKey)
  | registrationFailed (error : CatalogueError) (key : WireKey)
  deriving DecidableEq, Repr

namespace Event

def name : Event → String
  | settingsFailed => "catalog.config.load_failed"
  | versionMismatch _ _ => "catalog.builtins.version_mismatch"
  | builtInsRegistered _ _ => "catalog.builtins.registered"
  | builtInsFailed _ => "catalog.builtins.failed"
  | collision _ => "catalog.index.collision"
  | indexBuilt _ _ _ => "catalog.index.build"
  | indexFailed _ => "catalog.index.build_failed"
  | built _ _ _ => "catalog.built"
  | stage _ _ => "catalog.register"
  | aliasTaken _ _ _ => "catalog.register.alias_taken"
  | indexRefused _ _ => "catalog.register.index_failed"
  | published _ _ _ => "catalog.register.published"
  | alreadyPresent _ => "catalog.register.already_present"
  | nameTaken _ _ _ => "catalog.register.name_conflict"
  | resolvedByClass _ _ _ => "catalog.register.resolved_by_class"
  | executorClosed _ => "catalog.register.executor_closed"
  | registrationFailed _ _ => "catalog.register.failed"

def level : Event → Level
  | settingsFailed => .error
  | versionMismatch _ _ => .warn
  | builtInsRegistered _ _ => .debug
  | builtInsFailed _ => .error
  | collision _ => .warn
  | indexBuilt _ _ _ => .debug
  | indexFailed _ => .error
  | built _ _ _ => .debug
  | stage _ _ => .trace
  | aliasTaken _ _ _ => .warn
  | indexRefused _ _ => .error
  | published _ _ _ => .debug
  | alreadyPresent _ => .trace
  | nameTaken _ _ _ => .warn
  | resolvedByClass _ _ _ => .debug
  | executorClosed _ => .warn
  | registrationFailed _ _ => .error

/-- The fields of an event by name. -/
def fields : Event → List (String × Field)
  | settingsFailed => []
  | versionMismatch requested used =>
    [("requested", .text requested.toString), ("using", .text used.toString)]
  | builtInsRegistered v n => [("version", .text v.toString), ("adopted", .number n)]
  | builtInsFailed e => [("error", .text e.message)]
  | collision c =>
    [("directory", .text s!"{c.channel}"), ("key", .text c.name), ("kind", .text c.kind.toString),
      ("existing", .text c.existing.name), ("incoming", .text c.incoming.name)]
  | indexBuilt known legacyIds collisions =>
    [("identities", .number known), ("legacy_ids", .number legacyIds),
      ("collisions", .number collisions)]
  | indexFailed e => [("error", .text e.message)]
  | built packets v confined =>
    [("packets", .number packets), ("version", .text v.toString), ("confined", .flag confined)]
  | stage s k =>
    [("stage", .text s.name), ("phase", .text k.channel.phase.name),
      ("direction", .text k.channel.direction.name), ("current_id", .number k.id)]
  | aliasTaken n owner c =>
    [("alias", .text n), ("owner", .text owner), ("directory", .text s!"{c}")]
  | indexRefused e n => [("error", .text e.message), ("name", .text n)]
  | published n canonical k =>
    [("name", .text n), ("class", .text canonical), ("directory", .text s!"{k.channel}"),
      ("current_id", .number k.id)]
  | alreadyPresent n => [("name", .text n)]
  | nameTaken n attempt c =>
    [("name", .text n), ("attempt", .number attempt), ("directory", .text s!"{c}")]
  | resolvedByClass k c existing =>
    [("key", .text k.toString), ("class", .text c.full), ("existing", .text existing)]
  | executorClosed k => [("key", .text k.toString)]
  | registrationFailed e k => [("error", .text e.message), ("key", .text k.toString)]

end Event

end WireCatalog
