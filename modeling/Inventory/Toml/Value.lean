/-! Values of TOML documents. A table remembers how it came to be, because that decides what may be
added to it later. -/
namespace Inventory.Toml
set_option autoImplicit false

/-- How a table came to be. -/
inductive Form where
  /-- Written between braces; nothing can be added to it. -/
  | inline
  /-- Opened by a header of its own. -/
  | section
  /-- Named on the way in the header of another table. -/
  | outline
  /-- Named on the way in a dotted key. -/
  | dotted
  deriving DecidableEq

inductive Value where
  | string (text : String)
  | integer (n : Int)
  | float (text : String)
  | boolean (value : Bool)
  | datetime (text : String)
  | array (items : List Value)
  | table (form : Form) (entries : List (String × Value))
  /-- An array of tables that are opened by headers. -/
  | tables (items : List Value)

/-- The entries of a table in the order in which their keys first came. -/
abbrev Entries := List (String × Value)

namespace Entries

/-- Puts a value at a key that has one, in its place, or at the end. -/
def put (key : String) (value : Value) : Entries → Entries
  | [] => [(key, value)]
  | (k, v) :: rest => if k = key then (k, value) :: rest else (k, v) :: put key value rest

/-- Adds a value at a free key. -/
def add? (key : String) (value : Value) (entries : Entries) : Option Entries :=
  if (entries.lookup key).isSome then none else some (entries.put key value)

/-- Adds a value at the end of a dotted key. The tables on the way may have been named before, but
not been opened by themselves, and the last one only by dotted keys. -/
def addDotted : List String → String → Value → Entries → Option Entries
  | [], key, value, entries => entries.add? key value
  | name :: path, key, value, entries =>
    match entries.lookup name with
    | none => do entries.put name (.table .dotted (← addDotted path key value []))
    | some (.table form sub) =>
      if form = .dotted ∨ form = .outline ∧ ¬path.isEmpty then do
        entries.put name (.table form (← addDotted path key value sub))
      else none
    | some (.tables items) =>
      match path, items.getLast? with
      | _ :: _, some (.table form sub) => do
        entries.put name (.tables (items.dropLast ++ [.table form (← addDotted path key value sub)]))
      | _, _ => none
    | some _ => none

/-- Changes the table at the end of a path of header names. Tables that are missing on the way are
made; an array of tables stands for its last table. -/
def within : List String → (Entries → Option Entries) → Entries → Option Entries
  | [], change, entries => change entries
  | name :: path, change, entries =>
    match entries.lookup name with
    | none => do entries.put name (.table .outline (← within path change []))
    | some (.table form sub) =>
      if form = .inline then none
      else do entries.put name (.table form (← within path change sub))
    | some (.tables items) =>
      match items.getLast? with
      | some (.table form sub) => do
        entries.put name (.tables (items.dropLast ++ [.table form (← within path change sub)]))
      | _ => none
    | some _ => none

/-- Opens a table under a header of its own, which no other header may have done. -/
def openTable (key : String) (entries : Entries) : Option Entries :=
  match entries.lookup key with
  | none => some (entries.put key (.table .section []))
  | some (.table .outline sub) => some (entries.put key (.table .section sub))
  | some _ => none

/-- Opens another table of an array of tables. -/
def openElement (key : String) (entries : Entries) : Option Entries :=
  match entries.lookup key with
  | none => some (entries.put key (.tables [.table .section []]))
  | some (.tables items) => some (entries.put key (.tables (items ++ [.table .section []])))
  | some _ => none

end Entries
end Inventory.Toml
