import RoutedExperts.Numeric.Decimal
import RoutedExperts.Toml.Quoted

/-!
# Numbers

Integers of 64 bits in four bases and numbers with a fraction or an exponent. An underscore may
stand between two digits; a decimal number does not begin with an idle zero.
-/

namespace RoutedExperts

namespace Toml

/-- Digits with single underscores between them, underscores dropped. -/
def underscored (p : Char → Bool) : List Char → List Char × List Char
  | '_' :: c :: rest =>
    if p c then
      let (digits, rest) := underscored p rest
      (c :: digits, rest)
    else ([], '_' :: c :: rest)
  | c :: rest =>
    if p c then
      let (digits, rest) := underscored p rest
      (c :: digits, rest)
    else ([], c :: rest)
  | [] => ([], [])

/-- One or more digits of a class. -/
def digits (p : Char → Bool) : Reader (List Char) := do
  let first ← satisfy p
  let (others, rest) := underscored p (← get)
  set rest
  return first :: others

/-- An optional sign; whether it is a minus. -/
def sign : Reader Bool := do
  return (← optional (satisfy fun c => c == '+' || c == '-')) == some '-'

/-- Whole decimal digits: a zero, or digits that do not begin with one. -/
def whole : Reader (List Char) := do
  if (← peek?) == some '0' then
    let zero ← satisfy fun _ => true
    return [zero]
  else digits Char.isDigit

/-- An integer of 64 bits. -/
def ranged (z : Int) : Reader Value :=
  if -twoTo 63 ≤ z ∧ z < twoTo 63 then return .integer z else failure

/-- An integer in the base that a mark announces. -/
def inBase (mark : String) (base : Nat) (p : Char → Bool) : Reader Value := do
  word mark
  ranged (valueInBase base (← digits p))

/-- A decimal integer. -/
def decimal : Reader Value := do
  let negative ← sign
  let n := Decimal.digitValue (← whole)
  ranged (if negative then -(n : Int) else n)

/-- An integer. -/
def integer : Reader Value :=
  inBase "0x" 16 isHex <|> inBase "0o" 8 (fun c => '0' ≤ c && c ≤ '7') <|>
    inBase "0b" 2 (fun c => c == '0' || c == '1') <|> decimal

/-- An exponent. -/
def exponent : Reader Int := do
  let _ ← satisfy fun c => c == 'e' || c == 'E'
  let negative ← sign
  let n := Decimal.digitValue (← digits Char.isDigit)
  return if negative then -(n : Int) else n

/-- A fraction. -/
def fraction : Reader (List Char) := do
  word "."
  digits Char.isDigit

/-- A number with a fraction, an exponent or both. A number above all finite ones is refused; one
below them is the negative infinity. -/
def scientific : Reader Value := do
  let negative ← sign
  let whole ← whole
  let decimal ← (do return Decimal.ofParts negative whole [] (← exponent)) <|> do
    let fraction ← fraction
    return Decimal.ofParts negative whole fraction ((← optional exponent).getD 0)
  let x := decimal.toDouble
  if Double.datum x = .infinite false then failure else return .real x

/-- An infinity or a NaN by name. -/
def special : Reader Value := do
  let negative ← sign
  (do word "inf"; return .real (Double.ofDatum (.infinite negative))) <|>
    (do word "nan"; return .real (Double.ofDatum .nan))

end Toml

end RoutedExperts
