import ScopeLint.Config.Value

/-!
# Tables of TOML documents

A document fills a tree of tables, each at the place that its keys lead to.  A
table is made by its own header, by a header that leads through it, or by dotted
keys, and its origin decides what may still be added: a header may open a table
that headers only led through, and dotted keys may add to tables that dotted keys
made.  All else that would give a table or a value twice is refused.
-/

namespace ScopeLint.Toml

/-- What made a table. -/
inductive Origin where
  /-- Its own header; also the whole document. -/
  | header
  /-- A header of a table inside it. -/
  | passage
  /-- A dotted key. -/
  | dotted
  deriving DecidableEq, Repr, Inhabited

/-- What stands at a key. -/
inductive Item where
  /-- A value, to which nothing can be added. -/
  | value (v : ConfigValue)
  /-- A table. -/
  | table (origin : Origin) (entries : List (String × Item))
  /-- A list of tables, each with a header of its own. -/
  | tables (all : List (List (String × Item)))
  deriving Repr, Inhabited

/-- The keys of a table and what stands at them, in the order given. -/
abbrev Entries := List (String × Item)

/-- Keys that lead to a place: those before the last, and the last. -/
structure Address where
  /-- The keys of the tables passed. -/
  way : List String
  /-- The key in the last of them. -/
  key : String
  deriving DecidableEq, Repr, Inhabited

namespace Item

mutual

/-- The data of an item. -/
def toValue : Item → ConfigValue
  | value v => v
  | table _ entries => .record (toPairs entries)
  | tables all => .list (toRecords all)

/-- The data of a key with its item. -/
def toPair : String × Item → String × ConfigValue
  | (key, item) => (key, item.toValue)

/-- The data of a table. -/
def toPairs : List (String × Item) → List (String × ConfigValue)
  | [] => []
  | entry :: rest => toPair entry :: toPairs rest

/-- The data of a list of tables. -/
def toRecords : List (List (String × Item)) → List ConfigValue
  | [] => []
  | entries :: rest => .record (toPairs entries) :: toRecords rest

end

end Item

namespace Entries

/-- What stands at a key. -/
def item? (entries : Entries) (key : String) : Option Item :=
  (List.find? (·.1 == key) entries).map (·.2)

/-- Puts an item in the place of the one at a key. -/
def replace (entries : Entries) (key : String) (item : Item) : Entries :=
  entries.map fun e => if e.1 = key then (key, item) else e

/-- Leaves out what stands at a key. -/
def remove (entries : Entries) (key : String) : Entries := entries.filter (·.1 ≠ key)

/-- Changes the table that a way of keys leads to.  Tables on the way that are
missing are made with the origin `made`; dotted keys pass no table that has a
header.  The way into a list of tables leads into the last. -/
def alter (made : Origin) (change : Origin → Entries → Option Entries) :
    List String → Origin → Entries → Option Entries
  | [], origin, entries => change origin entries
  | key :: way, _, entries =>
    match item? entries key with
    | none => (alter made change way made []).map fun inner =>
        entries ++ [(key, .table made inner)]
    | some (.value _) => none
    | some (.table origin inner) =>
      if made = .dotted ∧ origin = .header then none
      else (alter made change way origin inner).map fun inner =>
        replace entries key (.table origin inner)
    | some (.tables all) =>
      match all.reverse with
      | [] => none
      | last :: before => (alter made change way .header last).map fun last =>
          replace entries key (.tables (before.reverse ++ [last]))

/-- Gives a key a value.  A dotted key adds only to tables that dotted keys made. -/
def assign (entries : Entries) (address : Address) (v : ConfigValue) : Option Entries :=
  alter .dotted (fun origin inner =>
    if address.way ≠ [] ∧ origin ≠ .dotted then none
    else if (item? inner address.key).isSome then none
    else some (inner ++ [(address.key, .value v)])) address.way .header entries

/-- Gives several keys values, one after the other. -/
def assignAll (entries : Entries) (pairs : List (Address × ConfigValue)) : Option Entries :=
  pairs.foldlM (fun entries (address, v) => assign entries address v) entries

/-- Fills the table of a header, which must be new or have been led through; it
then stands last in its table. -/
def openTable (entries : Entries) (address : Address) (pairs : List (Address × ConfigValue)) :
    Option Entries :=
  alter .passage (fun _ outer =>
    let fill (inner : Entries) : Option Entries := (assignAll inner pairs).map fun inner =>
      remove outer address.key ++ [(address.key, .table .header inner)]
    match item? outer address.key with
    | none => fill []
    | some (.table .passage inner) => fill inner
    | _ => none) address.way .header entries

/-- Fills a new table at the end of a list of tables. -/
def openNext (entries : Entries) (address : Address) (pairs : List (Address × ConfigValue)) :
    Option Entries :=
  alter .passage (fun _ outer =>
    match item? outer address.key, assignAll [] pairs with
    | none, some inner => some (outer ++ [(address.key, .tables [inner])])
    | some (.tables all), some inner => some (replace outer address.key (.tables (all ++ [inner])))
    | _, _ => none) address.way .header entries

end Entries

end ScopeLint.Toml
