import RoutedExperts.Document.Value

/-!
# Tables under construction

A table comes into being in one of three ways: by its own header, on the way to a deeper header, or
by a dotted key. A header may complete a table that only lay on the way; a dotted key may only
extend a table that dotted keys made; and no key is given twice. Headers in double brackets append
to a list of tables, and a path through such a list goes on in its last table.
-/

namespace RoutedExperts

namespace Toml

/-- How a table came into being. -/
inductive Origin where
  | header | passage | dotted
  deriving DecidableEq, Repr

/-- What stands under a key. -/
inductive Node where
  | leaf (value : Value)
  | table (origin : Origin) (entries : List (String × Node))
  | tables (elements : List (List (String × Node)))
  deriving Inhabited

/-- The entries of a table in the order of their keys' first appearance. -/
abbrev Entries := List (String × Node)

namespace Entries

/-- What stands under a key. -/
def find (key : String) (entries : Entries) : Option Node :=
  (entries.find? (·.1 == key)).map (·.2)

/-- The entries with a new node under a key, which may be there already. -/
def put (key : String) (node : Node) (entries : Entries) : Entries :=
  if (find key entries).isSome then
    entries.map fun (k, n) => if k == key then (k, node) else (k, n)
  else entries ++ [(key, node)]

/-- Changes the last table of a list. -/
def onLast (change : Entries → Option Entries) : List Entries → Option (List Entries)
  | [] => none
  | [last] => (change last).map ([·])
  | first :: rest => (onLast change rest).map (first :: ·)

/-- Changes the table that a header path leads to. Tables that are missing on the way are made. -/
def descend (change : Entries → Option Entries) : List String → Entries → Option Entries
  | [], entries => change entries
  | key :: path, entries => do
    match find key entries with
    | none => return put key (.table .passage (← descend change path [])) entries
    | some (.table origin sub) =>
      return put key (.table origin (← descend change path sub)) entries
    | some (.tables elements) =>
      return put key (.tables (← onLast (descend change path) elements)) entries
    | some (.leaf _) => none

/-- Opens a table by its header. -/
def openTable (key : String) (entries : Entries) : Option Entries :=
  match find key entries with
  | none => some (put key (.table .header []) entries)
  | some (.table .passage sub) => some (put key (.table .header sub) entries)
  | some _ => none

/-- Appends a table to a list of tables. -/
def appendTable (key : String) (entries : Entries) : Option Entries :=
  match find key entries with
  | none => some (put key (.tables [[]]) entries)
  | some (.tables elements) => some (put key (.tables (elements ++ [[]])) entries)
  | some _ => none

/-- Puts a value under a dotted key. -/
def insert (value : Value) : List String → (key : String) → Entries → Option Entries
  | [], key, entries =>
    if (find key entries).isSome then none else some (put key (.leaf value) entries)
  | step :: path, key, entries => do
    match find step entries with
    | none => return put step (.table .dotted (← insert value path key [])) entries
    | some (.table origin sub) =>
      if origin = .header ∨ (path = [] ∧ origin ≠ .dotted) then none
      else return put step (.table origin (← insert value path key sub)) entries
    | some (.tables elements) =>
      if path = [] then none
      else return put step (.tables (← onLast (insert value path key) elements)) entries
    | some (.leaf _) => none

end Entries

mutual

/-- A finished node. -/
def Node.finish : Node → Value
  | .leaf value => value
  | .table _ entries => .table (finishEntries entries)
  | .tables elements => .list (finishTables elements)

/-- The finished entries of a table. -/
def finishEntries : List (String × Node) → List (String × Value)
  | [] => []
  | (key, node) :: rest => (key, node.finish) :: finishEntries rest

/-- The finished tables of a list. -/
def finishTables : List (List (String × Node)) → List Value
  | [] => []
  | entries :: rest => .table (finishEntries entries) :: finishTables rest

end

end Toml

end RoutedExperts
