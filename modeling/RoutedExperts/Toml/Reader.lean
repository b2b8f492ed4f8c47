import RoutedExperts.Document.Value

/-!
# Reading characters

A reader takes characters from the front of a text, or refuses. This module holds the few
combinators that the notation needs, and its blanks, line ends and comments.
-/

namespace RoutedExperts

namespace Toml

/-- Takes characters from the front of a text, or refuses. -/
abbrev Reader := StateT (List Char) Option

/-- The next character, if there is one; nothing is taken. -/
def peek? : Reader (Option Char) := do return (← get).head?

/-- Takes one character of a class. -/
def satisfy (p : Char → Bool) : Reader Char := do
  match ← get with
  | c :: rest => if p c then set rest; return c else failure
  | [] => failure

/-- Takes the given characters. -/
def word (s : String) : Reader Unit := do
  let chars ← get
  if s.toList.isPrefixOf chars then set (chars.drop s.length) else failure

/-- Takes the longest run of characters of a class. -/
def run (p : Char → Bool) : Reader (List Char) := do
  let (taken, rest) := (← get).span p
  set rest
  return taken

/-- Takes the longest run of characters of a class, at least one. -/
def run1 (p : Char → Bool) : Reader (List Char) := do
  let taken ← run p
  if taken.isEmpty then failure else return taken

/-- Takes what a reader takes, or nothing if it refuses. -/
def optional {α : Type} (p : Reader α) : Reader (Option α) := (some <$> p) <|> pure none

/-- Repeats a reader that takes at least one character, until it refuses. -/
def many {α : Type} (p : Reader α) : Reader (List α) := do
  let rec loop : Nat → Reader (List α)
    | 0 => pure []
    | fuel + 1 => do
      match ← optional p with
      | none => return []
      | some a => return a :: (← loop fuel)
  loop (← get).length

/-- One or more items with separators between them. -/
def separated1 {α : Type} (item : Reader α) (separator : Reader Unit) : Reader (List α) := do
  let first ← item
  let rest ← many (do separator; item)
  return first :: rest

/-- The characters that a reader takes. -/
def consumed {α : Type} (p : Reader α) : Reader String := do
  let before ← get
  let _ ← p
  let after ← get
  return String.ofList (before.take (before.length - after.length))

/-- The end of the text. -/
def ended : Reader Unit := do
  if (← get).isEmpty then return () else failure

/-- A space or a tab. -/
def isBlank (c : Char) : Bool := c == ' ' || c == '\t'

/-- Characters that may stand in a comment or, quotes and backslashes apart, in quotes. -/
def isPlain (c : Char) : Bool := c == '\t' || (' ' ≤ c && c != '\x7f')

/-- Any number of blanks. -/
def blanks : Reader Unit := do
  let _ ← run isBlank

/-- A line end: a line feed, or a carriage return and a line feed. -/
def newline : Reader Unit := word "\n" <|> word "\r\n"

/-- A comment up to the end of its line. -/
def comment : Reader Unit := do
  word "#"
  let _ ← run isPlain

/-- What may follow at the end of a line: blanks, a comment, and the line end or the end of the
text. -/
def lineEnd : Reader Unit := do
  blanks
  let _ ← optional comment
  newline <|> ended

/-- Blanks, line ends and comments between the elements of an array. -/
def gap : Reader Unit := do
  let _ ← many ((do let _ ← run1 isBlank) <|> newline <|> (do comment; newline))

end Toml

end RoutedExperts
