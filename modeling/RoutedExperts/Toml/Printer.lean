import RoutedExperts.Toml.Document

/-!
# Writing documents

`Toml.render?` writes the scalar entries of a table, one line each. A text is written in the
plainest quotes that need no escape: double, single, triple double, triple single. Only where all of
these fail are characters escaped.
-/

namespace RoutedExperts

namespace Toml

/-- A control character that only an escape can write. -/
def isControl (c : Char) : Bool := (c < ' ' && c != '\t' && c != '\n') || c == '\x7f'

/-- The longest run of a character, `current` of which precede. -/
def longestRun (c : Char) (current : Nat) : List Char → Nat
  | [] => current
  | x :: rest =>
    if x == c then longestRun c (current + 1) rest else max current (longestRun c 0 rest)

/-- Four hexadecimal digits. -/
def hexFour (n : Nat) : List Char :=
  let digits := (Nat.toDigits 16 n).map Char.toUpper
  List.replicate (4 - digits.length) '0' ++ digits

/-- A character inside double quotes, quotes apart. -/
def escaped (multiline : Bool) (c : Char) : List Char :=
  match c with
  | '\x08' => ['\\', 'b']
  | '\t' => ['\\', 't']
  | '\n' => if multiline then ['\n'] else ['\\', 'n']
  | '\x0c' => ['\\', 'f']
  | '\r' => ['\\', 'r']
  | '\\' => ['\\', '\\']
  | c => if isControl c then '\\' :: 'u' :: hexFour c.toNat else [c]

/-- Characters inside double quotes, after `quotes` quotes in a row. Up to two in a row stand for
themselves inside triple quotes. -/
def basicBody (multiline : Bool) (quotes : Nat) : List Char → List Char
  | [] => []
  | c :: rest =>
    if c == '"' then
      if quotes < (if multiline then 2 else 0) then '"' :: basicBody multiline (quotes + 1) rest
      else '\\' :: '"' :: basicBody multiline 0 rest
    else escaped multiline c ++ basicBody multiline 0 rest

/-- A text in double quotes. -/
def basicText (s : String) : String := "\"" ++ String.ofList (basicBody false 0 s.toList) ++ "\""

/-- Triple quotes begin with a line end where the text has several lines. -/
def tripledText (quote body : String) (lines : Bool) : String :=
  quote ++ (if lines then "\n" else "") ++ body ++ quote

/-- A text in quotes. -/
def quotedText (s : String) : String :=
  let chars := s.toList
  let lines := chars.contains '\n'
  let controls := chars.any isControl
  let backslashes := chars.contains '\\'
  let doubles := longestRun '"' 0 chars
  let singles := longestRun '\'' 0 chars
  let tripledBasic := tripledText "\"\"\"" (String.ofList (basicBody true 0 chars)) lines
  if !controls && !backslashes && doubles == 0 && !lines then basicText s
  else if !controls && singles == 0 && !lines then "'" ++ s ++ "'"
  else if !controls && !backslashes && doubles ≤ 2 then tripledBasic
  else if !controls && singles ≤ 2 then tripledText "'''" s lines
  else if lines then tripledBasic
  else basicText s

/-- Numbers are written in full, and a whole number keeps its point. -/
def numberStyle : Decimal.Style := { nan := "nan" }

/-- A scalar, or nothing for an integer beyond 64 bits and for what is no scalar. -/
def scalarText? : Value → Option String
  | .boolean b => some (if b then "true" else "false")
  | .integer z => if -twoTo 63 ≤ z ∧ z < twoTo 63 then some (toString z) else none
  | .real x => some (Decimal.doubleText numberStyle x)
  | .text s => some (quotedText s)
  | _ => none

/-- One line per entry. -/
def render? (entries : List (String × Value)) : Option String := do
  let lines ← entries.mapM fun (key, v) => do return key ++ " = " ++ (← scalarText? v) ++ "\n"
  return String.join lines

end Toml

end RoutedExperts
