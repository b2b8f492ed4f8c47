import RoutedExperts.Error
import RoutedExperts.Numeric.Exponential

/-!
# The experts of each token

A router gives every token one logit per expert. `TopK.select` turns each row of logits into
probabilities and keeps the `count` most probable experts, of equally probable ones the lower index
first. A row whose probabilities are no numbers keeps the order of the experts.
-/

namespace RoutedExperts

/-- How many experts a token takes, and whether their probabilities are made to add up to one. -/
structure Selection where
  count : Nat := 2
  renormalize : Bool := true
  deriving DecidableEq, Repr, Inhabited

/-- The experts of each token and their weights, both of shape `[tokens, count]`. -/
structure Choice where
  weights : Tensor
  experts : Tensor

namespace TopK

/-- The sum from left to right. -/
def sum (values : Array Float32) : Float32 := values.foldl (· + ·) 0

/-- The largest value, beginning with the first. -/
def largest (values : Array Float32) : Float32 :=
  values.foldl (fun m x => if m < x then x else m) (values.getD 0 0)

/-- The probabilities of a row of logits. -/
def softmax (logits : Array Float32) : Array Float32 :=
  let top := largest logits
  let powers := logits.map fun x => Single.exp (x - top)
  let total := sum powers
  powers.map (· / total)

/-- Whether expert `i` ranks before expert `j`: by larger probability, and by lower index where
neither probability is larger. -/
def precedes (probabilities : Array Float32) (i j : Nat) : Bool :=
  let p := probabilities.getD i 0
  let q := probabilities.getD j 0
  q < p || (!(p < q) && i ≤ j)

/-- The experts in the order of their rank. -/
def ranking (probabilities : Array Float32) : List Nat :=
  (List.range probabilities.size).mergeSort (precedes probabilities)

/-- The experts that a row of probabilities chooses. -/
def chosen (count : Nat) (probabilities : Array Float32) : Array Nat :=
  ((ranking probabilities).take count).toArray

/-- The weights of chosen experts. -/
def weigh (renormalize : Bool) (probabilities : Array Float32) (experts : Array Nat) :
    Array Float32 :=
  let picked := experts.map fun e => probabilities.getD e 0
  if renormalize then
    let total := sum picked
    picked.map (· / total)
  else picked

/-- The experts and weights of one row of logits. -/
def selectRow (selection : Selection) (logits : Array Float32) : Array Nat × Array Float32 :=
  let probabilities := softmax logits
  let experts := chosen selection.count probabilities
  (experts, weigh selection.renormalize probabilities experts)

/-- Chooses the experts of every token from logits of shape `[tokens, experts]`. -/
def select (logits : Tensor) (selection : Selection) : Except Error Choice :=
  match logits.shape with
  | [tokens, experts] => do
    let k := selection.count
    if k = 0 ∨ experts < k then throw (.chosenCount k experts)
    if tokens = 0 then throw .emptyReduction
    let singles := logits.singles
    let rows := Array.ofFn fun m : Fin tokens =>
      selectRow selection (singles.extract (m * experts) ((m + 1) * experts))
    return {
      weights := Tensor.ofSingles .f32 [tokens, k] (rows.flatMap (·.2))
      experts := Tensor.ofWords [tokens, k] (rows.flatMap fun row => row.1.map (·.toUInt32)) }
  | shape => .error (.logitsRank shape)

end TopK

end RoutedExperts
