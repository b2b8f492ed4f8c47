import RoutedExperts.Numeric.Scalar

/-!
# The seeded generator

A stream of words from the ChaCha block function with twelve rounds. A 64-bit seed is stretched to a
key by a permuted congruential generator; the words of the stream are the words of block after
block. Numbers are drawn from the stream: a single-precision number takes one word, a natural number
below a bound takes two words per attempt.
-/

namespace RoutedExperts

/-- The state of the generator: its key, the number of the next block, and the words of the current
block that are still to come. -/
structure Generator where
  key : List UInt32
  counter : UInt64
  pending : List UInt32
  deriving Repr

namespace Generator

/-- A word with its bits turned to the left. -/
def rotateLeft (x : UInt32) (count : UInt32) : UInt32 := x <<< count ||| x >>> (32 - count)

/-- A word with its bits turned to the right. -/
def rotateRight (x : UInt32) (count : UInt32) : UInt32 :=
  if count = 0 then x else x >>> count ||| x <<< (32 - count)

/-- One step of the generator that stretches seeds. -/
def stretch (state : UInt64) : UInt64 := state * 6364136223846793005 + 11634580027462260723

/-- The word that a state of the stretching generator yields. -/
def stretchedWord (state : UInt64) : UInt32 :=
  rotateRight (((state >>> 18 ^^^ state) >>> 27).toUInt32) (state >>> 59).toUInt32

/-- The next `count` words of the stretching generator. -/
def stretchedWords : (count : Nat) → (state : UInt64) → List UInt32
  | 0, _ => []
  | count + 1, state =>
    let next := stretch state
    stretchedWord next :: stretchedWords count next

/-- The generator of a seed. -/
def ofSeed (seed : UInt64) : Generator :=
  { key := stretchedWords 8 seed, counter := 0, pending := [] }

/-- Mixes the four words at the given places of a block. -/
def quarterRound (s : Array UInt32) (a b c d : Nat) : Array UInt32 :=
  let xa := s.getD a 0 + s.getD b 0
  let xd := rotateLeft (s.getD d 0 ^^^ xa) 16
  let xc := s.getD c 0 + xd
  let xb := rotateLeft (s.getD b 0 ^^^ xc) 12
  let xa := xa + xb
  let xd := rotateLeft (xd ^^^ xa) 8
  let xc := xc + xd
  let xb := rotateLeft (xb ^^^ xc) 7
  (((s.setIfInBounds a xa).setIfInBounds b xb).setIfInBounds c xc).setIfInBounds d xd

/-- Mixes the columns and then the diagonals of a block. -/
def doubleRound (s : Array UInt32) : Array UInt32 :=
  let s := quarterRound s 0 4 8 12
  let s := quarterRound s 1 5 9 13
  let s := quarterRound s 2 6 10 14
  let s := quarterRound s 3 7 11 15
  let s := quarterRound s 0 5 10 15
  let s := quarterRound s 1 6 11 12
  let s := quarterRound s 2 7 8 13
  quarterRound s 3 4 9 14

/-- The words of one block. -/
def block (key : List UInt32) (counter : UInt64) : Array UInt32 :=
  let constants : List UInt32 := [0x61707865, 0x3320646e, 0x79622d32, 0x6b206574]
  let start := (constants ++ key ++
    [counter.toUInt32, (counter >>> 32).toUInt32, 0, 0]).toArray
  Array.zipWith (· + ·) (Nat.repeat doubleRound 6 start) start

/-- The next word of the stream. -/
def word (g : Generator) : UInt32 × Generator :=
  match g.pending with
  | w :: rest => (w, { g with pending := rest })
  | [] =>
    let words := (block g.key g.counter).toList
    (words.headD 0, { g with counter := g.counter + 1, pending := words.tail })

/-- A number drawn evenly from `low` up to `high`. -/
def uniform (low high : Float32) (g : Generator) : Float32 × Generator :=
  let (w, g) := g.word
  let fraction := Float32.ofBits (w >>> 9 ||| 0x3f800000) - 1
  (fraction * (high - low) + low, g)

/-- The least number of leading zero bits that `n` has in 64 bits. -/
def leadingZeros (n : Nat) : Nat := if n = 0 then 64 else 63 - n.log2

/-- Attempts after which drawing a natural number gives up; one attempt fails less than half of the
time. -/
def attempts : Nat := 1000

/-- A natural number drawn evenly below `n`: the high half of a 128-bit product, where the low half
must not exceed the largest whole multiple of `n`. -/
def below (n : Nat) (g : Generator) : Nat × Generator :=
  let zone := n <<< leadingZeros n - 1
  let rec draw : Nat → Generator → Nat × Generator
    | 0, g => (0, g)
    | fuel + 1, g =>
      let (low, g) := g.word
      let (high, g) := g.word
      let p := (low.toNat + high.toNat <<< 32) * n
      if p % twoTo 64 ≤ zone then (p >>> 64, g) else draw fuel g
  draw attempts g

/-- Draws `count` values one after another. -/
def many {α : Type} (draw : Generator → α × Generator) (count : Nat) (g : Generator) :
    Array α × Generator :=
  Nat.fold count (fun _ _ (values, g) =>
    let (value, g) := draw g
    (values.push value, g)) (#[], g)

/-- Draws `count` numbers evenly between `-scale` and `scale`. -/
def symmetric (scale : Float32) (count : Nat) (g : Generator) : Array Float32 × Generator :=
  many (fun g =>
    let (x, g) := uniform (-1) 1 g
    (x * scale, g)) count g

/-- The first `count` numbers that a seed gives between `-scale` and `scale`. -/
def seeded (seed : UInt64) (count : Nat) (scale : Float32) : Array Float32 :=
  (symmetric scale count (ofSeed seed)).1

end Generator

end RoutedExperts
