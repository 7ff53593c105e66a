/-!
# TOML values and tables

A document is a table. A table keeps its keys in the order in which they were first written, each key once. Tables grow
along paths: `Table.update` goes down a path, making the tables that are missing, and enters an array of tables at its
last element.
-/

namespace CalcImage.Toml

/-- A value. Real numbers and moments are kept as they are written. -/
inductive Value where
  | text (s : String)
  | integer (n : Int)
  | real (lexeme : String)
  | truth (b : Bool)
  | moment (lexeme : String)
  | array (elements : List Value)
  | table (fields : List (String × Value))

/-- Keys with their values. -/
abbrev Table := List (String × Value)

/-- Keys that lead into nested tables. -/
abbrev Path := List String

namespace Table

/-- Put a value at a key, in the place that the key has or else at the end. -/
def set (t : Table) (key : String) (v : Value) : Table :=
  match t with
  | [] => [(key, v)]
  | (k, w) :: rest => if k = key then (k, v) :: rest else (k, w) :: set rest key v

/-- Change the table at a path; `intoArrays` says whether the path may lead through arrays. -/
def update (intoArrays : Bool) (change : Table → Option Table) : Path → Table → Option Table
  | [], t => change t
  | key :: path, t =>
    match t.lookup key with
    | none => (update intoArrays change path []).map fun s => set t key (.table s)
    | some (.table s) => (update intoArrays change path s).map fun s => set t key (.table s)
    | some (.array vs) =>
      match intoArrays, vs.getLast? with
      | true, some (.table s) =>
        (update intoArrays change path s).map fun s => set t key (.array (vs.dropLast ++ [.table s]))
      | _, _ => none
    | some _ => none

/-- Add a value under a new key. -/
def add (key : String) (v : Value) (t : Table) : Option Table :=
  match t.lookup key with
  | none => some (set t key v)
  | some _ => none

/-- Add an empty table to the array of tables under a key. -/
def append (key : String) (t : Table) : Option Table :=
  match t.lookup key with
  | none => some (set t key (.array [.table []]))
  | some (.array vs) => some (set t key (.array (vs ++ [.table []])))
  | some _ => none

end Table

end CalcImage.Toml
