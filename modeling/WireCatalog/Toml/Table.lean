import WireCatalog.Assoc

/-! # Tables of a TOML document

A table is a list of keys with their values. How a table came to be decides what may be added to it
later, so each table below the root carries its kind. The literals of numbers and dates are kept as
they were written.

The parts of a document become tables by a few rules. A key is given at most once. A table has at
most one header, and nothing is added to it from elsewhere: a dotted key adds only to tables without
a header, and those that it adds to get none later. Nothing is added to a table between braces. Where
a path meets tables with double brackets it goes on in the last of them. -/

namespace WireCatalog.Toml

/-- How a table came to be. -/
inductive TableKind
  /-- By a header that names it. -/
  | header
  /-- As a part of the path of a header that names a table inside it. -/
  | implied
  /-- As a part of a dotted key, or a dotted key has added to it. -/
  | dotted
  /-- Between braces. Nothing can be added to it. -/
  | inline
  deriving DecidableEq, Repr

inductive Value
  | string (s : String)
  | integer (literal : String)
  | float (literal : String)
  | boolean (b : Bool)
  | date (literal : String)
  | array (items : List Value)
  /-- The tables of the headers in double brackets that have one name, the last one first. -/
  | tables (items : List (List (String × Value)))
  | table (kind : TableKind) (entries : List (String × Value))

abbrev Table := Assoc String Value

/-! ### Building tables -/

namespace Table

/-- Changes the table that a dotted key adds to, by the key's path. `closed` tells that the path is
at a table that has a header of its own. -/
def alterDotted (f : Table → Option Table) (closed : Bool) : List String → Table → Option Table
  | [], t => if closed then none else f t
  | k :: ks, t =>
    match t.get? k with
    | none => (alterDotted f false ks []).map fun u => t.put k (.table .dotted u)
    | some (.table .header _) => none
    | some (.table .inline _) => none
    | some (.table _ u) => (alterDotted f false ks u).map fun u => t.put k (.table .dotted u)
    | some (.tables (u :: us)) =>
      (alterDotted f true ks u).map fun u => t.put k (.tables (u :: us))
    | some _ => none

/-- The table with a value under a key that it does not have. -/
def insertNew (k : String) (v : Value) (t : Table) : Option Table :=
  match t.get? k with
  | none => some (t.put k v)
  | some _ => none

/-- The table with a value under a dotted key, given as its path and its last part. -/
def insert (t : Table) (path : List String) (k : String) (v : Value) : Option Table :=
  alterDotted (insertNew k v) false path t

/-- Changes the table at a path of headers, making the tables on the way that are missing. The
change is made in the table that holds the last part of the path. -/
def alterAt (f : Table → Option Table) : List String → Table → Option Table
  | [], t => f t
  | k :: ks, t =>
    match t.get? k with
    | none => (alterAt f ks []).map fun u => t.put k (.table .implied u)
    | some (.table .inline _) => none
    | some (.table kind u) => (alterAt f ks u).map fun u => t.put k (.table kind u)
    | some (.tables (u :: us)) => (alterAt f ks u).map fun u => t.put k (.tables (u :: us))
    | some _ => none

/-- Gives the table under a key its header. -/
def openTable (k : String) (t : Table) : Option Table :=
  match t.get? k with
  | none => some (t.put k (.table .header []))
  | some (.table .implied u) => some (t.put k (.table .header u))
  | some _ => none

/-- Adds one more table to those under a key. -/
def openNext (k : String) (t : Table) : Option Table :=
  match t.get? k with
  | none => some (t.put k (.tables [[]]))
  | some (.tables us) => some (t.put k (.tables ([] :: us)))
  | some _ => none

end Table

/-! ### Documents -/

/-- One part of a document. -/
inductive Item
  /-- A value under a dotted key, given as its path and its last part. -/
  | pair (path : List String) (key : String) (value : Value)
  /-- The header of a table. -/
  | header (path : List String) (key : String)
  /-- The header of one more table of those with its name. -/
  | nextHeader (path : List String) (key : String)

/-- The tables so far, and the path of the table that pairs are added to. -/
structure Draft where
  root : Table
  path : List String

namespace Draft

def empty : Draft := ⟨[], []⟩

/-- Adds one part of the document. -/
def add (d : Draft) : Item → Option Draft
  | .pair path k v =>
    (Table.alterAt (·.insert path k v) d.path d.root).map fun t => { d with root := t }
  | .header path k =>
    (Table.alterAt (Table.openTable k) path d.root).map fun t => ⟨t, path ++ [k]⟩
  | .nextHeader path k =>
    (Table.alterAt (Table.openNext k) path d.root).map fun t => ⟨t, path ++ [k]⟩

end Draft

/-- The root table of a document with the given parts. -/
def Table.ofItems? (items : List Item) : Option Table :=
  (items.foldlM Draft.add Draft.empty).map (·.root)

end WireCatalog.Toml
