import RoutedExperts.Toml.Reader

/-!
# Quoted texts

Four forms of quotes: with escapes or literal, on one line or on several. Inside triple quotes one
or two quotes stand for themselves, also right before the closing ones.
-/

namespace RoutedExperts

namespace Toml

/-- A hexadecimal digit. -/
def isHex (c : Char) : Bool := c.isDigit || ('a' ≤ c && c ≤ 'f') || ('A' ≤ c && c ≤ 'F')

/-- The value of digits in a base up to sixteen. -/
def valueInBase (base : Nat) (cs : List Char) : Nat :=
  cs.foldl (fun n c =>
    let d := if c.isDigit then c.toNat - 48 else c.toLower.toNat - 87
    base * n + d) 0

/-- The character with the code that the next `count` hexadecimal digits give. -/
def coded (count : Nat) : Reader Char := do
  let digits := (← get).take count
  if digits.length < count || !digits.all isHex then failure
  let n := valueInBase 16 digits
  if n < 0xD800 || (0xDFFF < n && n < 0x110000) then
    set ((← get).drop count)
    return Char.ofNat n
  else failure

/-- What stands behind a backslash. -/
def escapee : Reader Char := do
  match ← satisfy fun _ => true with
  | 'b' => return '\x08'
  | 't' => return '\t'
  | 'n' => return '\n'
  | 'f' => return '\x0c'
  | 'r' => return '\r'
  | '"' => return '"'
  | '\\' => return '\\'
  | 'u' => coded 4
  | 'U' => coded 8
  | _ => failure

/-- A character that stands for itself inside double quotes. -/
def isBasic (c : Char) : Bool := isPlain c && c != '"' && c != '\\'

/-- A character that stands for itself inside single quotes. -/
def isLiteral (c : Char) : Bool := isPlain c && c != '\''

/-- A part of a text in double quotes. -/
def basicPart : Reader (List Char) :=
  run1 isBasic <|> (do word "\\"; return [← escapee])

/-- A text in double quotes. -/
def basic : Reader String := do
  word "\""
  let parts ← many basicPart
  word "\""
  return String.ofList parts.flatten

/-- A text in single quotes. -/
def literal : Reader String := do
  word "'"
  let chars ← run isLiteral
  word "'"
  return String.ofList chars

/-- A backslash at the end of a line, which takes all blanks and line ends behind it. -/
def continuation : Reader (List Char) := do
  word "\\"
  blanks
  newline
  let _ ← many ((do let _ ← run1 isBlank) <|> newline)
  return []

/-- One or two quotes inside triple quotes. -/
def innerQuotes (quote : Char) : Reader (List Char) := do
  let quotes ← run1 (· == quote)
  if quotes.length < 3 then return quotes else failure

/-- Closing triple quotes, and up to two quotes of the text right before them. -/
def closingQuotes (quote : Char) : Reader (List Char) := do
  let chars ← get
  let count := (chars.takeWhile (· == quote)).length
  if count < 3 then failure
  let inner := min (count - 3) 2
  set (chars.drop (inner + 3))
  return List.replicate inner quote

/-- A text in triple quotes with the given parts. -/
def tripled (quote : Char) (part : Reader (List Char)) : Reader String := do
  word (String.ofList [quote, quote, quote])
  let _ ← optional newline
  let parts ← many (part <|> (do newline; return ['\n']) <|> innerQuotes quote)
  let last ← closingQuotes quote
  return String.ofList (parts.flatten ++ last)

/-- A text in any form of quotes. -/
def quoted : Reader String :=
  tripled '"' (continuation <|> basicPart) <|> tripled '\'' (run1 isLiteral) <|> basic <|> literal

end Toml

end RoutedExperts
