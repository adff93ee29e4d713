/-!
# TOML values

A document is a table. How a table came to be decides what may still be added to it: a table with a
header of its own may not be opened again, one that a longer header or a dotted key implied may.
Fractional numbers and dates are told apart from other values but have no use here.
-/
namespace DesktopTerminal

/-- How a table came to be. -/
inductive Origin where
  /-- It has a header. -/
  | header
  /-- A header of a table inside it implied it. -/
  | implied
  /-- A dotted key implied it. -/
  | dotted
deriving DecidableEq, Repr

inductive Toml where
  | text (s : String)
  | integer (n : Int)
  | float
  | bool (b : Bool)
  | date
  | array (items : List Toml)
  | inline (members : List (String × Toml))
  | table (origin : Origin) (members : List (String × Toml))
  /-- An array of tables, each under a header of its own. -/
  | tables (items : List (List (String × Toml)))
deriving Repr

namespace Toml

abbrev Members := List (String × Toml)

/-- The members with a new one at the end, or with another value for a key. -/
def setMember (key : String) (value : Toml) : Members → Members
  | [] => [(key, value)]
  | (k, v) :: rest => if k = key then (key, value) :: rest else (k, v) :: setMember key value rest

/-- Adds a member whose key must be new. -/
def addMember? (key : String) (value : Toml) (ms : Members) : Option Members :=
  match ms.lookup key with
  | none => some (ms ++ [(key, value)])
  | some _ => none

/-- Changes the last of some tables. -/
def changeLast? (f : Members → Option Members) (items : List Members) : Option (List Members) :=
  match items.getLast? with
  | none => none
  | some last => (f last).map fun changed => items.dropLast ++ [changed]

/-- Changes the table at the end of a path. Tables on the way are made if they are missing; a dotted
key does not lead into a table that has a header. -/
def within? (dotted : Bool) (f : Origin → Members → Option (Origin × Members)) :
    List String → Origin → Members → Option (Origin × Members)
  | [], origin, ms => f origin ms
  | key :: path, origin, ms =>
    let inside (o : Origin) (inner : Members) : Option Toml :=
      (within? dotted f path o inner).map fun r => .table r.1 r.2
    let changed : Option Toml :=
      match ms.lookup key with
      | none => inside (if dotted then .dotted else .implied) []
      | some (.table o inner) => if dotted && o == .header then none else inside o inner
      | some (.tables items) =>
        (changeLast? (fun ms => (within? dotted f path .header ms).map (·.2)) items).map .tables
      | some _ => none
    changed.map fun value => (origin, setMember key value ms)

/-- Adds a value under a dotted key of a table. -/
def addUnder? (path : List String) (key : String) (value : Toml) (origin : Origin)
    (ms : Members) : Option (Origin × Members) :=
  within? true
    (fun o inner =>
      if !path.isEmpty && o != .dotted then none
      else (addMember? key value inner).map fun inner => (o, inner))
    path origin ms

end Toml

end DesktopTerminal
