import RoutedExperts.Toml.Moment
import RoutedExperts.Toml.Table

/-!
# Documents

`Toml.parse?` reads a whole document, or refuses it. A document is a sequence of lines; each holds
nothing, a comment, a header that says where the following keys belong, or a key and its value.
-/

namespace RoutedExperts

namespace Toml

/-- Dotted keys have fewer parts than this, and arrays and inline tables are nested less deep. -/
def depthLimit : Nat := 80

/-- A character of a bare key. -/
def isBare (c : Char) : Bool := c.isAlphanum || c == '-' || c == '_'

/-- One part of a dotted key. -/
def keyPart : Reader String := do
  blanks
  let part ← basic <|> literal <|> (do return String.ofList (← run1 isBare))
  blanks
  return part

/-- A dotted key: the path to its last part, and the last part. -/
def key : Reader (List String × String) := do
  let parts ← separated1 keyPart (word ".")
  if parts.length < depthLimit then
    match parts.getLast? with
    | some last => return (parts.dropLast, last)
    | none => failure
  else failure

/-- A value that holds no other values. -/
def scalar : Reader Value :=
  (do return .text (← quoted)) <|> moment <|> scientific <|> special <|> integer <|>
    (do word "true"; return .boolean true) <|> (do word "false"; return .boolean false)

/-- An array of values. -/
def array (value : Reader Value) : Reader Value := do
  word "["
  let element : Reader Value := do
    gap
    let v ← value
    gap
    return v
  let elements ← optional (separated1 element (word ","))
  if elements.isSome then
    let _ ← optional (word ",")
  gap
  word "]"
  return .list (elements.getD [])

/-- A key and its value. -/
def pair (value : Reader Value) : Reader ((List String × String) × Value) := do
  let key ← key
  word "="
  blanks
  return (key, ← value)

/-- A table on one line. -/
def inlineTable (value : Reader Value) : Reader Value := do
  word "\x7b"
  let item : Reader ((List String × String) × Value) := do
    let p ← pair value
    blanks
    return p
  let pairs ← optional (separated1 item (word ","))
  blanks
  word "\x7d"
  let entries ← StateT.lift <| (pairs.getD []).foldlM (fun entries ((path, key), v) =>
    Entries.insert v path key entries) []
  return .table (finishEntries entries)

/-- A value, in which arrays and inline tables are nested at most so deep. -/
def value : (depth : Nat) → Reader Value
  | 0 => scalar
  | depth + 1 =>
    let inner := value depth
    array inner <|> inlineTable inner <|> scalar

/-- A document read so far: all its tables, and the header that is open. -/
structure Progress where
  root : Entries := []
  header : List String := []

/-- A header in double brackets. -/
def arrayHeader (p : Progress) : Reader Progress := do
  word "[["
  let (path, last) ← key
  word "]]"
  lineEnd
  let root ← StateT.lift (Entries.descend (Entries.appendTable last) path p.root)
  return { root := root, header := path ++ [last] }

/-- A header in single brackets. -/
def tableHeader (p : Progress) : Reader Progress := do
  word "["
  let (path, last) ← key
  word "]"
  lineEnd
  let root ← StateT.lift (Entries.descend (Entries.openTable last) path p.root)
  return { root := root, header := path ++ [last] }

/-- A key and its value under the open header. -/
def assignment (p : Progress) : Reader Progress := do
  let ((path, key), v) ← pair (value (depthLimit - 1))
  lineEnd
  let root ← StateT.lift (Entries.descend (Entries.insert v path key) p.header p.root)
  return { p with root := root }

/-- One line. -/
def line (p : Progress) : Reader Progress := do
  blanks
  (do newline; return p) <|> (do comment; newline <|> ended; return p) <|>
    arrayHeader p <|> tableHeader p <|> assignment p

/-- The lines up to the end of the text. Every line takes at least one character. -/
def lines : Nat → Progress → Reader Progress
  | 0, p => do blanks; ended; return p
  | fuel + 1, p => (do blanks; ended; return p) <|> (do lines fuel (← line p))

/-- The entries of a document. -/
def parse? (text : String) : Option (List (String × Value)) :=
  let chars := match text.toList with
    | '﻿' :: rest => rest
    | chars => chars
  ((lines chars.length {}).run chars).map fun (p, _) => finishEntries p.root

end Toml

end RoutedExperts
