import RoutedExperts.Log.Event
import RoutedExperts.Numeric.Literal
import RoutedExperts.Text.LowerCase

/-!
# Log filters

A filter is a list of directives separated by commas: a level for everything, or a level for the
targets that begin with a name. The directive with the longest name that fits decides, and an event
that no directive fits is dropped.
-/

namespace RoutedExperts

/-- Which events of some targets are kept. -/
structure Directive where
  /-- The beginning of the targets; empty for all of them. -/
  target : String
  /-- The highest rank that is kept; zero keeps none. -/
  level : Nat
  deriving DecidableEq, Repr

namespace Directive

/-- The names of the levels by rank. -/
def levelNames : List String := ["off", "error", "warn", "info", "debug", "trace"]

/-- The rank that keeps everything. -/
def highest : Nat := 5

/-- A level by name, in any case, or by rank. -/
def level? (s : String) : Option Nat :=
  match Literal.nat? s with
  | some n => if n ≤ highest then some n else none
  | none => levelNames.findIdx? (· == s.toLower)

/-- Blanks around a directive. -/
def isSpace (c : Char) : Bool := c.isWhitespace || c == '\x0b' || c == '\x0c'

/-- A character with which a directive may begin. -/
def isStart (c : Char) : Bool :=
  c.isAlphanum || c == '-' || c == ':' || c == '_' || 0x80 ≤ c.toNat

/-- Reads one directive. The place of the equals sign is counted behind leading blanks, but the
text is cut with them. A name alone, and a name with nothing behind the equals sign, keep
everything. -/
def parse? (text : String) : Option Directive :=
  let chars := text.toList
  let trimmed := chars.dropWhile isSpace
  match trimmed with
  | [] => none
  | first :: _ =>
    if !isStart first || trimmed.contains '[' then none
    else match trimmed.findIdx? (· == '=') with
      | none =>
        match level? text with
        | some level => some ⟨"", level⟩
        | none => some ⟨text, highest⟩
      | some i =>
        let target := String.ofList (chars.take i)
        let level := String.ofList (chars.drop (i + 1))
        if level.isEmpty then some ⟨target, highest⟩
        else (level? level).map (Directive.mk target)

/-- Whether a directive speaks of a target. -/
def fits (d : Directive) (target : String) : Bool := d.target.toList.isPrefixOf target.toList

end Directive

/-- The directives of a filter in the order in which they were given. -/
structure LogFilter where
  directives : List Directive
  deriving DecidableEq, Repr

namespace LogFilter

/-- Without directives only errors are kept. -/
def ofDirectives (directives : List Directive) : LogFilter :=
  ⟨if directives.isEmpty then [⟨"", Severity.error.rank⟩] else directives⟩

/-- The parts of a filter's text. -/
def parts (text : String) : List String := (text.splitOn ",").filter (!·.isEmpty)

/-- Reads a filter, or refuses it as a whole. -/
def parse? (text : String) : Option LogFilter := do
  return ofDirectives (← (parts text).mapM Directive.parse?)

/-- Reads a filter and passes over what cannot be read. -/
def parseLenient (text : String) : LogFilter :=
  ofDirectives ((parts text).filterMap Directive.parse?)

/-- The filter of the environment where it can be read, and of the level option elsewhere. -/
def choose (environment : Option String) (level : String) : LogFilter :=
  (environment.bind parse?).getD (parseLenient level)

/-- The directive that decides on a target: the one with the longest name, and of two with the same
name the later. -/
def deciding? (f : LogFilter) (target : String) : Option Directive :=
  f.directives.foldl (fun best d =>
    if !d.fits target then best
    else match best with
      | none => some d
      | some b => if b.target.length ≤ d.target.length then some d else best) none

/-- Whether an event is kept. -/
def keeps (f : LogFilter) (e : Event) : Bool :=
  match f.deciding? e.target with
  | some d => e.severity.rank ≤ d.level
  | none => false

end LogFilter

/-- How events are written. -/
inductive LogFormat where
  | lines | records
  deriving DecidableEq, Repr

namespace LogFormat

/-- The format that the environment asks for; lines if it does not say. -/
def ofName (name : String) : LogFormat :=
  if LowerCase.text name = "json" then records else lines

end LogFormat

end RoutedExperts
