import SchemaDiagram.Text.Basic

/-!
# TOML values

A table keeps how it came about, since that decides which later lines may add to it. Adding an
entry fails where the key is taken or the table on the way to it is closed.
-/

namespace SchemaDiagram.Toml

/-- How a table came about. -/
inductive Origin where
  /-- Written in braces, and closed from then on. -/
  | inline
  /-- Opened by a header of its own. -/
  | header
  /-- On the way to a table that a header opened. -/
  | parent
  /-- On the way to a dotted key. -/
  | dotted
  deriving DecidableEq, Repr

inductive Value where
  | text (t : Text)
  | integer (i : Int)
  | float (x : Float)
  | boolean (b : Bool)
  /-- A date, a time or both, as written. -/
  | moment (written : Text)
  | array (items : List Value)
  | table (origin : Origin) (entries : List (Text × Value))
  /-- A list of tables under one key; the last one is open. -/
  | tables (elements : List (List (Text × Value)))

/-- What a table holds, in the order of its keys' first appearance. -/
abbrev Entries := List (Text × Value)

namespace Entries

def find? (entries : Entries) (key : Text) : Option Value :=
  (List.find? (fun e : Text × Value => e.1 = key) entries).map (·.2)

def put (key : Text) (v : Value) : Entries → Entries
  | [] => [(key, v)]
  | e :: rest => if e.1 = key then (key, v) :: rest else e :: put key v rest

def add? (key : Text) (v : Value) (entries : Entries) : Option Entries :=
  if (entries.find? key).isSome then none else some (entries ++ [(key, v)])

/-- Adds an entry with a dotted key: `path` leads to the table that gets it. Such a table must
itself come from dotted keys. -/
def addDotted? (key : Text) (v : Value) : List Text → Entries → Option Entries
  | [], entries => entries.add? key v
  | step :: path, entries =>
    let on (inner : Entries) : Option Entries := addDotted? key v path inner
    match entries.find? step with
    | none => (on []).map fun inner => entries.put step (.table .dotted inner)
    | some (.table .dotted inner) =>
      (on inner).map fun inner => entries.put step (.table .dotted inner)
    | some (.table .parent inner) =>
      if path.isEmpty then none
      else (on inner).map fun inner => entries.put step (.table .parent inner)
    | some (.tables elements) =>
      if path.isEmpty then none
      else do
        let last ← on (← elements.getLast?)
        return entries.put step (.tables (elements.dropLast ++ [last]))
    | _ => none

/-- Changes the table that `path` leads to by `f`; missing tables on the way are made. -/
def within? (f : Entries → Option Entries) : List Text → Entries → Option Entries
  | [], entries => f entries
  | step :: path, entries =>
    match entries.find? step with
    | none => (within? f path []).map fun inner => entries.put step (.table .parent inner)
    | some (.table .inline _) => none
    | some (.table origin inner) =>
      (within? f path inner).map fun inner => entries.put step (.table origin inner)
    | some (.tables elements) => do
      let last ← within? f path (← elements.getLast?)
      return entries.put step (.tables (elements.dropLast ++ [last]))
    | some _ => none

/-- Opens the table of a header. A table can be opened once only. -/
def openTable? (key : Text) (entries : Entries) : Option Entries :=
  match entries.find? key with
  | none => some (entries.put key (.table .header []))
  | some (.table .parent inner) => some (entries.put key (.table .header inner))
  | some _ => none

def openElement? (key : Text) (entries : Entries) : Option Entries :=
  match entries.find? key with
  | none => some (entries.put key (.tables [[]]))
  | some (.tables elements) => some (entries.put key (.tables (elements ++ [[]])))
  | some _ => none

end Entries

end SchemaDiagram.Toml
