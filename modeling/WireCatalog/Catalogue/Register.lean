import WireCatalog.Catalogue.Basic

/-! # Registration

Changes of a catalogue. Each is a task whose fate the executor decides, and each is also given as a
function of the fate, so that what an executor may do is stated once.

`fromId`, `fromClassOrId` and `fromLegacy` never fail: they look a packet type up and register it
when it is missing. A registration that the executor loses is made on the thread of the caller; one
that is refused yields a detached packet type, which no look-up returns. -/

namespace WireCatalog.Catalogue

/-! ### Tasks -/

/-- What the caller gets for a registration. -/
inductive Receipt
  /-- The executor did not accept the task. -/
  | rejected
  /-- The executor accepted the task and dropped it. -/
  | dropped
  /-- The task has run; `ready` tells whether it ran on the thread of the caller. -/
  | ran (ready : Bool) (result : Except CatalogueError Registration)

/-- The outcome of the registration. -/
def Receipt.result : Receipt → Except CatalogueError Registration
  | rejected => .error .executorClosed
  | dropped => .error .executorClosed
  | ran _ result => result

/-- Publishes a declaration on the thread of the caller. -/
def publish (c : Catalogue) (decl : Declaration) :
    Except CatalogueError Registration × Catalogue :=
  let (result, r) := c.registry.publish decl
  (result, { c with registry := r })

/-- Registers a declaration as a task of the given fate. -/
def registerAs (c : Catalogue) (fate : Fate) (decl : Declaration) : Receipt × Catalogue :=
  match fate with
  | .rejected => (.rejected, c)
  | .dropped => (.dropped, c)
  | .inline => let (result, c) := c.publish decl; (.ran true result, c)
  | .queued => let (result, c) := c.publish decl; (.ran false result, c)

def register (c : Catalogue) (decl : Declaration) : Receipt × Catalogue :=
  c.registerAs c.executor.fate decl

/-- Makes the index anew, as a task of the given fate. -/
def rebuildAs (c : Catalogue) (fate : Fate) : Except CatalogueError Unit × Catalogue :=
  if fate.runs then
    let (result, r) := c.registry.rebuild
    (result, { c with registry := r })
  else (.error .executorClosed, c)

def rebuild (c : Catalogue) : Except CatalogueError Unit × Catalogue :=
  c.rebuildAs c.executor.fate

/-- Tells the executor to accept no more tasks. -/
def closeExecutor (c : Catalogue) : Catalogue := { c with executor := c.executor.close }

/-! ### Look-ups that register what is missing -/

/-- Registers a declaration and waits for the outcome. If the task does not run, the declaration is
published on the thread of the caller. -/
def registerNow (c : Catalogue) (fate : Fate) (decl : Declaration) :
    Except CatalogueError Registration × Catalogue :=
  let (receipt, c) := (c.log [.stage .synthesized decl.key]).registerAs fate decl
  match receipt.result with
  | .error .executorClosed => (c.log [.executorClosed decl.key]).publish decl
  | result => (result, c)

/-- A packet type for a declaration that could not be registered. -/
def detach (c : Catalogue) (decl : Declaration) (e : CatalogueError) : PacketType × Catalogue :=
  let (x, r) := (c.log [.registrationFailed e decl.key]).registry.detach decl
  (x, { c with registry := r })

/-- The declaration of a packet type that was met on the wire. -/
def discovered (c : Catalogue) (k : WireKey) (cls : ClassName) : Declaration :=
  (((Declaration.named k.channel cls.simple).withId k.id).withVersion c.peer.version).asDynamic

/-- The declaration of a packet type of the old wire format that was met on the wire. -/
def discoveredLegacy (id : Int) (d : Direction) : Declaration :=
  (Declaration.legacy d id s!"Unknown{id}").asDynamic

/-- The packet type with a wire key. One that is missing is looked up by the simple name of its
class, and is registered if it is missing there too. The class is remembered for what was found by
name or registered. -/
def fromIdAs (c : Catalogue) (fate : Fate) (k : WireKey) (cls : ClassName) :
    PacketType × Catalogue :=
  match c.resolveCurrent k with
  | some x => (x, c)
  | none =>
    let c := c.log [.stage .miss k]
    match c.resolveName k.channel cls.simple with
    | some x => (x, (c.log [.resolvedByClass k cls x.name]).remember cls x)
    | none =>
      let decl := c.discovered k cls
      match c.registerNow fate decl with
      | (.ok r, c) => (r.packetType, c.remember cls r.packetType)
      | (.error e, c) => c.detach decl e

def fromId (c : Catalogue) (k : WireKey) (cls : ClassName) : PacketType × Catalogue :=
  c.fromIdAs c.executor.fate k cls

/-- The packet type that a class is bound to, or else the one that its simple name stands for, or
else the one with the wire key. -/
def fromClassOrIdAs (c : Catalogue) (fate : Fate) (k : WireKey) (cls : ClassName) :
    PacketType × Catalogue :=
  match c.binder.typeOf? cls with
  | some x => (x, c)
  | none =>
    match c.resolveName k.channel cls.simple with
    | some x => (x, c.remember cls x)
    | none => c.fromIdAs fate k cls

def fromClassOrId (c : Catalogue) (k : WireKey) (cls : ClassName) : PacketType × Catalogue :=
  c.fromClassOrIdAs c.executor.fate k cls

/-- The packet type with a legacy id, a preferred direction given. One that is missing is registered
in the legacy phase. -/
def fromLegacyAs (c : Catalogue) (fate : Fate) (id : Int) (d : Direction) :
    PacketType × Catalogue :=
  match c.resolveLegacy id (some d) with
  | some x => (x, c)
  | none =>
    let decl := discoveredLegacy id d
    match (c.log [.stage .miss decl.key]).registerNow fate decl with
    | (.ok r, c) => (r.packetType, c)
    | (.error e, c) => c.detach decl e

def fromLegacy (c : Catalogue) (id : Int) (d : Direction) : PacketType × Catalogue :=
  c.fromLegacyAs c.executor.fate id d

end WireCatalog.Catalogue
