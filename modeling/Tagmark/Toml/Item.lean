import Tagmark.Number.Read

/-!
Tables of TOML, built from their statements. How a table came to be decides where it may be
extended: one that a header names is complete after it, one between braces at its end.
-/

namespace Tagmark.Toml

/-- How a table came to be. -/
inductive Origin where
  | implied
  | dotted
  | header
  | braces
deriving DecidableEq, Inhabited, Repr

inductive Item where
  | text (value : String)
  | integer (value : Int)
  | float (value : Number)
  | boolean (truth : Bool)
  /-- Values in brackets, or tables that each have a header and to which more may be added. -/
  | array (growing : Bool) (items : List Item)
  | table (origin : Origin) (entries : List (String × Item))
deriving Inhabited

abbrev Entries := List (String × Item)

def alter (name : String) (change : Option Item → Option Item) : Entries → Option Entries
  | [] => (change none).map fun item => [(name, item)]
  | (other, item) :: rest =>
      if other = name then (change (some item)).map fun item => (other, item) :: rest
      else (alter name change rest).map ((other, item) :: ·)

abbrev Change := Origin → Entries → Option (Origin × Entries)

def tableOf (result : Option (Origin × Entries)) : Option Item :=
  result.map fun (origin, entries) => .table origin entries

/-- Changes the table at the end of a path. Tables that are missing get the origin `fresh`; of an
array of tables the last one is meant. -/
def below (enters : Origin → Bool) (fresh : Origin) (change : Change) : List String → Change
  | [], origin, entries => change origin entries
  | name :: path, origin, entries =>
      (alter name (fun
        | none => tableOf (below enters fresh change path fresh [])
        | some (.table origin entries) =>
            if enters origin then tableOf (below enters fresh change path origin entries) else none
        | some (.array true items) =>
            match items.getLast? with
            | some (.table origin entries) =>
                (tableOf (below enters fresh change path origin entries)).map fun last =>
                  .array true (items.dropLast ++ [last])
            | _ => none
        | some _ => none) entries).map fun entries => (origin, entries)

def belowHeader (change : Change) : List String → Change :=
  below (· != .braces) .implied change

def belowKey (change : Change) : List String → Change :=
  below (fun origin => origin == .implied || origin == .dotted) .dotted change

/-- A part of a document, with its path. -/
inductive Statement where
  | table (path : List String) (name : String)
  | element (path : List String) (name : String)
  | entry (path : List String) (name : String) (value : Item)
deriving Inhabited

def alterEntry (name : String) (change : Option Item → Option Item) : Change := fun origin entries =>
  (alter name change entries).map fun entries => (origin, entries)

def openTable : Option Item → Option Item
  | none => some (.table .header [])
  | some (.table .implied entries) => some (.table .header entries)
  | some _ => none

def openElement : Option Item → Option Item
  | none => some (.array true [.table .header []])
  | some (.array true items) => some (.array true (items ++ [.table .header []]))
  | some _ => none

/-- Puts a value in a table, if nothing stands there. Only tables of keys with dots may be extended
by such keys. -/
def putEntry (path : List String) (name : String) (value : Item) : Change :=
  belowKey (fun origin entries =>
    if path ≠ [] && origin ≠ .dotted then none
    else
      alterEntry name (fun
        | none => some value
        | some _ => none) origin entries) path

/-- Adds statements to a table. `current` is the path of the table that the last header named. -/
def build (current : List String) (origin : Origin) (entries : Entries) : List Statement → Option Entries
  | [] => some entries
  | .table path name :: rest => do
      let (origin, entries) ← belowHeader (alterEntry name openTable) path origin entries
      build (path ++ [name]) origin entries rest
  | .element path name :: rest => do
      let (origin, entries) ← belowHeader (alterEntry name openElement) path origin entries
      build (path ++ [name]) origin entries rest
  | .entry path name value :: rest => do
      let (origin, entries) ← belowHeader (putEntry path name value) current origin entries
      build current origin entries rest

end Tagmark.Toml
