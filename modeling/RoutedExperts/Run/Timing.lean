import RoutedExperts.Run.Workload

/-!
# Times

How the times of a run are summed up and written.
-/

namespace RoutedExperts

/-- The times of a run in nanoseconds. -/
structure Timing where
  mean : Nat
  least : Nat
  deriving DecidableEq, Repr

namespace Timing

/-- The times of the timed passes. -/
def ofPasses (passes : List Nat) : Timing where
  mean := divNearest (passes.foldl (· + ·) 0) (max passes.length 1)
  least := passes.min?.getD 0

/-- A number of `unit`s with the digits behind the point that it needs. -/
def inUnit (unit : Nat) (name : String) (nanoseconds : Nat) : String :=
  let places := (Decimal.digitText unit).length - 1
  let digits := Decimal.digitText (nanoseconds % unit)
  let padded := List.replicate (places - digits.length) '0' ++ digits
  let fraction := (padded.reverse.dropWhile (· == '0')).reverse
  toString (nanoseconds / unit) ++
    (if places = 0 ∨ fraction.isEmpty then "" else "." ++ String.ofList fraction) ++ name

/-- A time in the largest unit of which it is at least one. -/
def durationText (nanoseconds : Nat) : String :=
  if tenTo 9 ≤ nanoseconds then inUnit (tenTo 9) "s" nanoseconds
  else if tenTo 6 ≤ nanoseconds then inUnit (tenTo 6) "ms" nanoseconds
  else if tenTo 3 ≤ nanoseconds then inUnit (tenTo 3) "µs" nanoseconds
  else inUnit 1 "ns" nanoseconds

/-- A finite number that is not negative, rounded to two places behind the point. -/
def twoPlaces (x : Float) : String :=
  match Double.datum x with
  | .finite _ mantissa exponent =>
    let hundredths := if 0 ≤ exponent then mantissa * twoTo exponent.toNat * 100
      else divNearest (mantissa * 100) (twoTo (-exponent).toNat)
    let rest := Decimal.digitText (hundredths % 100)
    toString (hundredths / 100) ++ "." ++
      String.ofList (List.replicate (2 - rest.length) '0' ++ rest)
  | _ => "inf"

/-- A relative error with three digits and an exponent. -/
def errorText (x : Float32) : String :=
  match Single.datum x with
  | .finite negative mantissa exponent =>
    if mantissa = 0 then "0.00e0"
    else
      let d := Decimal.shortest .single negative mantissa exponent
      let length := (Decimal.digitText d.digits).length
      let digits := if length ≤ 3 then d.digits * tenTo (3 - length)
        else divNearest d.digits (tenTo (length - 3))
      let (digits, leading) := if digits = 1000 then (100, d.leading + 1) else (digits, d.leading)
      toString (digits / 100) ++ "." ++ String.ofList ((Decimal.digitText digits).drop 1) ++ "e" ++
        toString leading
  | .infinite _ => "inf"
  | .nan => "NaN"

/-- The line that a run prints. -/
def summary (t : Timing) (headline : String) (r : Report) : String :=
  headline ++ ": mean " ++ durationText t.mean ++ ", min " ++ durationText t.least ++ ", " ++
    twoPlaces (Report.gigaflops r.macs t.mean) ++ " GFLOP/s, max rel error " ++ errorText r.error

/-- The last event of a run with its times. -/
def completed (t : Timing) (r : Report) : Event :=
  let plain := Trace.completed r.mode r.block
  { plain with fields := plain.fields ++ [
      ("max_rel_error", .rendering (Decimal.singleText RunSettings.numberStyle r.error)),
      ("mean_us", .number (t.mean / 1000)), ("min_us", .number (t.least / 1000)),
      ("gflops", .rendering (Decimal.doubleText RunSettings.numberStyle
        (Report.gigaflops r.macs t.mean)))] }

end Timing

end RoutedExperts
