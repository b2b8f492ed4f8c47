import RoutedExperts.Text.CaseTable

/-!
# Lower case

`LowerCase.text` maps a text to lower case letter by letter. Two letters need more than the table: a
dotted capital I becomes two characters, and a sigma takes its final form where it ends a word.
-/

namespace RoutedExperts

namespace LowerCase

/-- Whether a character lies in one of the ranges. -/
def inRanges (ranges : List (Nat × Nat)) (c : Char) : Bool :=
  ranges.any fun (first, last) => first ≤ c.toNat && c.toNat ≤ last

/-- The lower-case form of a character that has a single one. -/
def letter (c : Char) : Char :=
  let n := c.toNat
  match CaseTable.lower.find? fun (first, last, stride, _) =>
      first ≤ n && n ≤ last && (n - first) % stride == 0 with
  | some (_, _, _, distance) => Char.ofNat (n + distance).toNat
  | none => c

/-- Whether the first character that is not passed over is a letter with case. -/
def nextIsCased (chars : List Char) : Bool :=
  match chars.dropWhile (inRanges CaseTable.ignorable) with
  | c :: _ => inRanges CaseTable.cased c
  | [] => false

/-- The lower-case form of a character between `before`, in reverse order, and `after`. -/
def inContext (before : List Char) (c : Char) (after : List Char) : List Char :=
  if c = 'İ' then ['i', '̇']
  else if c = 'Σ' then [if nextIsCased before && !nextIsCased after then 'ς' else 'σ']
  else [letter c]

/-- The lower-case form of the rest of a text after `before`, in reverse order. -/
def chars (before : List Char) : List Char → List Char
  | [] => []
  | c :: after => inContext before c after ++ chars (c :: before) after

/-- A text in lower case. -/
def text (s : String) : String := String.ofList (chars [] s.toList)

end LowerCase

end RoutedExperts
