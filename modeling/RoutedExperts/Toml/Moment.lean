import RoutedExperts.Toml.Number

/-!
# Dates and times

A date, a time of day, or a date with a time and possibly an offset. Every part is checked against
the calendar; a second of sixty is allowed for.
-/

namespace RoutedExperts

namespace Toml

/-- A number of exactly `count` digits between two limits. -/
def fixed (count low high : Nat) : Reader Nat := do
  let chars := (← get).take count
  if chars.length < count || !chars.all Char.isDigit then failure
  let n := Decimal.digitValue chars
  if low ≤ n ∧ n ≤ high then
    set ((← get).drop count)
    return n
  else failure

/-- The days of a month. -/
def daysOf (year month : Nat) : Nat :=
  let leap := year % 4 = 0 ∧ (year % 100 ≠ 0 ∨ year % 400 = 0)
  if month = 2 then if leap then 29 else 28
  else if month = 4 ∨ month = 6 ∨ month = 9 ∨ month = 11 then 30
  else 31

/-- A date. -/
def date : Reader Unit := do
  let year ← fixed 4 0 9999
  word "-"
  let month ← fixed 2 1 12
  word "-"
  let _ ← fixed 2 1 (daysOf year month)

/-- A time of day. -/
def time : Reader Unit := do
  let _ ← fixed 2 0 23
  word ":"
  let _ ← fixed 2 0 59
  word ":"
  let _ ← fixed 2 0 60
  let _ ← optional (do word "."; run1 Char.isDigit)

/-- An offset from universal time. -/
def offset : Reader Unit :=
  word "Z" <|> word "z" <|> do
    let _ ← satisfy fun c => c == '+' || c == '-'
    let _ ← fixed 2 0 23
    word ":"
    let _ ← fixed 2 0 59

/-- The time behind a date. -/
def timeOfDate : Reader Unit := do
  let _ ← satisfy fun c => c == 'T' || c == 't' || c == ' '
  time
  let _ ← optional offset

/-- A date, a time of day or both. -/
def moment : Reader Value := do
  return .moment (← consumed ((do date; let _ ← optional timeOfDate) <|> time))

end Toml

end RoutedExperts
