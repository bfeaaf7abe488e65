/-!
# Documents of settings

A document in TOML gives values to keys. A table remembers how it came about, because that decides
what may still be added to it: a header opens a table once, a dotted key extends only tables that
dotted keys made, and a table in braces is closed.
-/

namespace ScriptHost.Toml

/-- How a table came about. -/
inductive Origin
  /-- On the way to a table with a header. -/
  | implied
  | header
  | dotted
  | braces
deriving DecidableEq, Repr

/-- A value in a document. -/
inductive Value
  | text (value : String)
  | integer (value : Int)
  | real
  | truth (value : Bool)
  | moment
  | list (items : List Value)
  | table (origin : Origin) (entries : List (String × Value))
  /-- Tables under one double header, the last of which is open. -/
  | tables (earlier : List (List (String × Value))) (last : List (String × Value))

/-- The keys of a table with their values, in order. -/
abbrev Entries := List (String × Value)

namespace Entries

/-- The value of a key. -/
def get? (entries : Entries) (key : String) : Option Value :=
  (entries.find? fun entry => entry.1 == key).map (·.2)

/-- Set the value of a key: in place if it has one, at the end otherwise. -/
def set (key : String) (value : Value) : Entries → Entries
  | [] => [(key, value)]
  | (key', value') :: rest =>
    if key' = key then (key, value) :: rest else (key', value') :: set key value rest

/-- Open the table that a header names, unless it is open already. -/
def openTable : List String → Entries → Option Entries
  | [], _ => none
  | [key], entries =>
    match entries.get? key with
    | none => some (set key (.table .header []) entries)
    | some (.table .implied inner) => some (set key (.table .header inner) entries)
    | some _ => none
  | key :: path, entries =>
    match entries.get? key with
    | none => (openTable path []).map fun inner => set key (.table .implied inner) entries
    | some (.table .braces _) => none
    | some (.table origin inner) =>
      (openTable path inner).map fun inner => set key (.table origin inner) entries
    | some (.tables earlier last) =>
      (openTable path last).map fun last => set key (.tables earlier last) entries
    | some _ => none

/-- Open one more table under a double header. -/
def openItem : List String → Entries → Option Entries
  | [], _ => none
  | [key], entries =>
    match entries.get? key with
    | none => some (set key (.tables [] []) entries)
    | some (.tables earlier last) => some (set key (.tables (earlier ++ [last]) []) entries)
    | some _ => none
  | key :: path, entries =>
    match entries.get? key with
    | none => (openItem path []).map fun inner => set key (.table .implied inner) entries
    | some (.table .braces _) => none
    | some (.table origin inner) =>
      (openItem path inner).map fun inner => set key (.table origin inner) entries
    | some (.tables earlier last) =>
      (openItem path last).map fun last => set key (.tables earlier last) entries
    | some _ => none

/-- Give a value to a dotted key that has none. -/
def define (value : Value) : List String → Entries → Option Entries
  | [], _ => none
  | [key], entries =>
    if (entries.get? key).isSome then none else some (set key value entries)
  | key :: path, entries =>
    match entries.get? key with
    | none => (define value path []).map fun inner => set key (.table .dotted inner) entries
    | some (.table .dotted inner) =>
      (define value path inner).map fun inner => set key (.table .dotted inner) entries
    | some (.table .implied inner) =>
      if path.length ≤ 1 then none
      else (define value path inner).map fun inner => set key (.table .implied inner) entries
    | some _ => none

/-- Change the table that a header opened. -/
def within (change : Entries → Option Entries) : List String → Entries → Option Entries
  | [], entries => change entries
  | key :: path, entries =>
    match entries.get? key with
    | some (.table origin inner) =>
      (within change path inner).map fun inner => set key (.table origin inner) entries
    | some (.tables earlier last) =>
      (within change path last).map fun last => set key (.tables earlier last) entries
    | _ => none

end Entries

namespace Value

/-- The fields of a value. A table gives them by name and a list in the order of the names. -/
def fields? (names : List String) : Value → Option Entries
  | .table _ entries => some entries
  | .list items => some (names.zip items)
  | .tables earlier last =>
    some (names.zip ((earlier ++ [last]).map fun entries => .table .header entries))
  | _ => none

/-- A whole number up to a limit. -/
def natural? (limit : Nat) : Value → Option Nat
  | .integer n => if 0 ≤ n ∧ n ≤ limit then some n.toNat else none
  | _ => none

/-- A truth value. -/
def truth? : Value → Option Bool
  | .truth value => some value
  | _ => none

end Value

end ScriptHost.Toml
