import Triage.Document

/-!
# TOML documents

A document is a table that grows line by line.  Each table remembers how it came into being, since
that decides who may still add to it: `Toml.ofLines?` refuses a line that says a key twice, and one
that adds to a table which an earlier line has closed.
-/

namespace Triage

/-- How a table came into being. -/
inductive Toml.Origin where
  /-- By its own header, or as the whole document. -/
  | header
  /-- By the header of a table inside it. -/
  | innerHeader
  /-- By a dotted key. -/
  | dottedKey
  /-- As a value between braces. -/
  | braces
  deriving DecidableEq, Repr

inductive Toml where
  | bool (b : Bool)
  | integer (n : Int)
  | float (x : Float)
  | text (s : String)
  /-- A date or a time; no setting is one. -/
  | moment
  | list (items : List Toml)
  /-- The tables under headers in double brackets. -/
  | tables (items : List Toml)
  | table (origin : Toml.Origin) (entries : List (String × Toml))

namespace Toml

abbrev Entries := List (String × Toml)

/-- The entries with a new value for the first entry of the key. -/
def replace (key : String) (v : Toml) : Entries → Entries
  | [] => []
  | e :: es => if e.1 = key then (key, v) :: es else e :: replace key v es

/-- Whether a path leads through a table: headers pass through all tables but those in braces,
dotted keys only through tables without a header of their own. -/
def Origin.admits (way : Origin) : Origin → Bool
  | .header => way != .dottedKey
  | .innerHeader | .dottedKey => true
  | .braces => false

/-- Changes the table that the path leads to; a table on the way that does not exist yet is made,
with `way` as its origin.  A list of tables stands for its last one. -/
def modifyAt (way : Origin) (change : Origin → Entries → Option Entries) :
    List String → Origin → Entries → Option Entries
  | [], origin, es => change origin es
  | k :: path, _, es =>
    match es.lookup k with
    | none => do
      let inner ← modifyAt way change path way []
      return es ++ [(k, .table way inner)]
    | some (.table origin inner) =>
      if way.admits origin then do
        let inner ← modifyAt way change path origin inner
        return replace k (.table origin inner) es
      else none
    | some (.tables items) =>
      match items.getLast? with
      | some (.table origin inner) => do
        let inner ← modifyAt way change path origin inner
        return replace k (.tables (items.dropLast ++ [.table origin inner])) es
      | _ => none
    | some _ => none

def addNew (key : String) (v : Toml) (es : Entries) : Option Entries :=
  if (es.lookup key).isSome then none else some (es ++ [(key, v)])

/-- Adds a value under a dotted key; only dotted keys add to a table that one of them made. -/
def addPair (path : List String) (key : String) (v : Toml) (origin : Origin) (es : Entries) :
    Option Entries :=
  modifyAt .dottedKey
    (fun origin es => if path.isEmpty || origin = .dottedKey then addNew key v es else none)
    path origin es

/-- The table of the pairs between braces. -/
def ofPairs? (pairs : List (List String × String × Toml)) : Option Toml := do
  let es ← pairs.foldlM (fun es (path, key, v) => addPair path key v .braces es) []
  return .table .braces es

/-- A table gets its header at most once, before or after the tables inside it. -/
def openTable (key : String) (es : Entries) : Option Entries :=
  match es.lookup key with
  | none => some (es ++ [(key, .table .header [])])
  | some (.table .innerHeader inner) => some (replace key (.table .header inner) es)
  | some _ => none

def openListedTable (key : String) (es : Entries) : Option Entries :=
  match es.lookup key with
  | none => some (es ++ [(key, .tables [.table .header []])])
  | some (.tables items) => some (replace key (.tables (items ++ [.table .header []])) es)
  | some _ => none

/-- A line of a document; keys are split at their dots, with the last part on its own. -/
inductive Line where
  | pair (path : List String) (key : String) (v : Toml)
  | header (path : List String) (key : String)
  | listHeader (path : List String) (key : String)

/-- A document with the path of the table that pairs go to. -/
structure Draft where
  entries : Entries
  current : List String

def Draft.add (d : Draft) : Line → Option Draft
  | .pair path key v => do
    let es ← modifyAt .innerHeader (addPair path key v) d.current .header d.entries
    return { d with entries := es }
  | .header path key => do
    let es ← modifyAt .innerHeader (fun _ => openTable key) path .header d.entries
    return ⟨es, path ++ [key]⟩
  | .listHeader path key => do
    let es ← modifyAt .innerHeader (fun _ => openListedTable key) path .header d.entries
    return ⟨es, path ++ [key]⟩

def ofLines? (lines : List Line) : Option Toml := do
  let d ← lines.foldlM Draft.add ⟨[], []⟩
  return .table .header d.entries

instance : Document Toml where
  isNull _ := false
  bool?
    | .bool b => some b
    | _ => none
  integer?
    | .integer n => some n
    | _ => none
  number?
    | .integer n => some (Float.ofInt n)
    | .float x => some x
    | _ => none
  text?
    | .text s => some s
    | _ => none
  list?
    | .list items | .tables items => some items
    | _ => none
  table?
    | .table _ es => some es
    | .moment => some []
    | _ => none
  allowsSurplus := true

end Toml

end Triage
