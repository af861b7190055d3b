/-!
# Instants and durations

Both are counts of nanoseconds: an instant counts from the start of the run, a duration is a
difference of instants. Durations are written exactly, in the largest unit that leaves a nonzero
integer part, so two durations of different length have different texts.
-/

namespace NetnsWatch

/-- A length of time in nanoseconds. -/
abbrev Duration := Nat

/-- A point in time, in nanoseconds since the run began. -/
abbrev Instant := Nat

namespace Duration

/-- Nanoseconds in one second. -/
def nanosPerSec : Nat := 1000000000

/-- Combine whole seconds with additional nanoseconds. -/
def ofParts (secs nanos : Nat) : Duration :=
  secs * nanosPerSec + nanos

/-- A number of whole milliseconds. -/
def ofMillis (millis : Nat) : Duration :=
  millis * 1000000

/-- The whole seconds of a duration. -/
def secs (d : Duration) : Nat :=
  d / nanosPerSec

/-- The nanoseconds beyond the whole seconds. -/
def subsecNanos (d : Duration) : Nat :=
  d % nanosPerSec

/-- The last `places` decimal digits of a number, most significant first. -/
def lastDigits : (places number : Nat) → List Char
  | 0, _ => []
  | places + 1, number => lastDigits places (number / 10) ++ [Nat.digitChar (number % 10)]

/-- Remove the zeros at the end of a list of digits. -/
def dropTrailingZeros : List Char → List Char
  | [] => []
  | digit :: rest =>
    match dropTrailingZeros rest with
    | [] => if digit = '0' then [] else [digit]
    | kept => digit :: kept

/-- A duration in a unit of `step` nanoseconds, whose fraction has `places` digits. -/
def scaledText (step places : Nat) (unit : String) (d : Duration) : String :=
  let fraction := dropTrailingZeros (lastDigits places (d % step))
  let point := if fraction.isEmpty then "" else "."
  toString (d / step) ++ point ++ String.ofList fraction ++ unit

/-- The exact text of a duration, in seconds, milliseconds, microseconds or nanoseconds. -/
def text (d : Duration) : String :=
  if 1000000000 ≤ d then scaledText 1000000000 9 "s" d
  else if 1000000 ≤ d then scaledText 1000000 6 "ms" d
  else if 1000 ≤ d then scaledText 1000 3 "µs" d
  else toString d ++ "ns"

end Duration

end NetnsWatch
