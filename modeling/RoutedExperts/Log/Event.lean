/-!
# Log events

An event has a severity, a target that names the part of the program it comes from, a message and
fields. A field value is a number, a switch, a text, or the rendering of something else, which is
written without quotes.
-/

namespace RoutedExperts

/-- How important an event is. -/
inductive Severity where
  | error | warn | info | debug | trace
  deriving DecidableEq, Repr

namespace Severity

/-- The rank of a severity; more talkative ones rank higher. -/
def rank : Severity → Nat
  | error => 1
  | warn => 2
  | info => 3
  | debug => 4
  | trace => 5

/-- The name of a severity in log lines. -/
def name : Severity → String
  | error => "ERROR"
  | warn => "WARN"
  | info => "INFO"
  | debug => "DEBUG"
  | trace => "TRACE"

end Severity

/-- The value of an event's field. -/
inductive FieldValue where
  | number (n : Nat)
  | switch (b : Bool)
  | text (s : String)
  | rendering (s : String)
  deriving DecidableEq, Repr

namespace FieldValue

/-- A value in a log line. -/
def display : FieldValue → String
  | number n => toString n
  | switch b => if b then "true" else "false"
  | text s => "\"" ++ s ++ "\""
  | rendering s => s

end FieldValue

/-- Something that happened during a run. -/
structure Event where
  severity : Severity
  target : String
  message : String
  fields : List (String × FieldValue)
  deriving DecidableEq, Repr

namespace Event

/-- An event on one line. -/
def line (e : Event) : String :=
  e.severity.name ++ " " ++ e.target ++ ": " ++
    " ".intercalate (e.message :: e.fields.map fun (key, v) => key ++ "=" ++ v.display)

/-- A character inside the quotes of a record. -/
def recordChar (c : Char) : List Char :=
  match c with
  | '"' => ['\\', '"']
  | '\\' => ['\\', '\\']
  | '\n' => ['\\', 'n']
  | '\r' => ['\\', 'r']
  | '\t' => ['\\', 't']
  | c =>
    if c < ' ' then
      let digits := Nat.toDigits 16 c.toNat
      ['\\', 'u'] ++ List.replicate (4 - digits.length) '0' ++ digits
    else [c]

/-- A text in a record. -/
def recordText (s : String) : String :=
  "\"" ++ String.ofList (s.toList.flatMap recordChar) ++ "\""

/-- A field value in a record; a rendering is a text. -/
def recordValue : FieldValue → String
  | .text s | .rendering s => recordText s
  | v => v.display

/-- Named values in braces. -/
def recordOf (entries : List (String × String)) : String :=
  "\x7b" ++ ",".intercalate (entries.map fun (key, v) => recordText key ++ ":" ++ v) ++ "\x7d"

/-- An event as a record on one line. -/
def record (e : Event) : String :=
  let fields := ("message", recordText e.message) :: e.fields.map fun (key, v) =>
    (key, recordValue v)
  recordOf [("level", recordText e.severity.name), ("fields", recordOf fields),
    ("target", recordText e.target)]

end Event

end RoutedExperts
