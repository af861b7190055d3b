import NetnsWatch.Text.Unicode
import NetnsWatch.Time

/-!
# Reading durations in words

A duration is written as a row of spans such as `1h 30m` or `1.5s`: an integer part, an optional
fraction, and a unit. White space may stand between spans, within numbers, and before the unit. The
reader is a state machine over the characters and counts their bytes, so that an error can say where
it lies. All amounts must fit into 64 bits on their way to whole seconds and nanoseconds, and a
fraction must come out exactly.
-/

namespace NetnsWatch

/-- Why a text is not a duration. -/
inductive SpanError where
  /-- There is nothing but white space. -/
  | empty
  /-- A span does not begin with a digit; the scan for one began here. -/
  | numberExpected (offset : Nat)
  /-- A character does not belong where it stands. -/
  | invalidCharacter (offset : Nat)
  /-- A number at the end has no unit. -/
  | unitNeeded (number : Nat)
  /-- No unit has this name. -/
  | unknownUnit (name : String)
  /-- An amount does not fit, or has a part below its precision. -/
  | outOfRange
  deriving DecidableEq, Repr

/-- A unit of time. -/
inductive TimeUnit where
  | nanosecond
  | microsecond
  | millisecond
  | second
  | minute
  | hour
  | day
  | week
  | month
  | year
  deriving DecidableEq, Repr

/-- The integer part of a span, and its fraction as a numerator over a power of ten. -/
structure SpanNumber where
  whole : Nat
  fraction : Option (Nat × Nat)
  deriving DecidableEq, Repr

namespace SpanError

/-- The reason in words. -/
def message : SpanError → String
  | empty => "value was empty"
  | numberExpected offset => "expected number at " ++ toString offset
  | invalidCharacter offset => "invalid character at " ++ toString offset
  | unitNeeded number =>
    "time unit needed, for example " ++ toString number ++ "sec or " ++ toString number ++ "ms"
  | unknownUnit name =>
    "unknown time unit \"" ++ name ++ "\", supported units: ns, us/µs, ms, sec, min, hours, " ++
      "days, weeks, months, years (and few variations)"
  | outOfRange =>
    "number is too large or cannot be represented without a lack of precision " ++
      "(values below 1ns are not supported)"

end SpanError

namespace TimeUnit

/-- The units with their names. -/
def names : List (TimeUnit × List String) := [
  (nanosecond, ["nanos", "nsec", "ns"]),
  (microsecond, ["usec", "us", "µs"]),
  (millisecond, ["millis", "msec", "ms"]),
  (second, ["seconds", "second", "secs", "sec", "s"]),
  (minute, ["minutes", "minute", "min", "mins", "m"]),
  (hour, ["hours", "hour", "hr", "hrs", "h"]),
  (day, ["days", "day", "d"]),
  (week, ["weeks", "week", "wk", "wks", "w"]),
  (month, ["months", "month", "M"]),
  (year, ["years", "year", "yr", "yrs", "y"])]

/-- The unit with a given name. -/
def ofName? (name : String) : Option TimeUnit :=
  (names.find? (·.2.contains name)).map (·.1)

/-- The nanoseconds of a unit below the second. -/
def nanos? : TimeUnit → Option Nat
  | nanosecond => some 1
  | microsecond => some 1000
  | millisecond => some 1000000
  | second | minute | hour | day | week | month | year => none

/-- The whole seconds of a unit. -/
def secs : TimeUnit → Nat
  | nanosecond | microsecond | millisecond => 0
  | second => 1
  | minute => 60
  | hour => 3600
  | day => 86400
  | week => 604800
  | month => 2630016
  | year => 31557600

end TimeUnit

namespace SpanReader

/-- A number that fits into 64 bits. -/
def fit (n : Nat) : Except SpanError Nat :=
  if n < UInt64.size then .ok n else .error .outOfRange

/-- An exact quotient. -/
def divideExactly (n d : Nat) : Except SpanError Nat :=
  if n % d = 0 then .ok (n / d) else .error .outOfRange

/-- Add seconds and nanoseconds to a duration. -/
def add (secs nanos : Nat) (total : Duration) : Except SpanError Duration := do
  let nanos ← fit (total.subsecNanos + nanos)
  let secs ← fit (secs + nanos / Duration.nanosPerSec)
  let secs ← fit (total.secs + secs)
  return Duration.ofParts secs (nanos % Duration.nanosPerSec)

/-- Add a number of whole units. -/
def addWhole (unit : TimeUnit) (whole : Nat) (total : Duration) : Except SpanError Duration := do
  match unit.nanos? with
  | some nanos => add 0 (← fit (whole * nanos)) total
  | none => add (← fit (whole * unit.secs)) 0 total

/-- Add a fraction of a unit: in nanoseconds up to the minute, in seconds from the hour on. -/
def addFraction (unit : TimeUnit) (numerator denominator : Nat) (total : Duration) :
    Except SpanError Duration := do
  let scaled (factor : Nat) : Except SpanError Nat := do
    divideExactly (← fit (numerator * factor)) denominator
  match unit with
  | .nanosecond => .error .outOfRange
  | .microsecond => add 0 (← scaled 1000) total
  | .millisecond => add 0 (← scaled 1000000) total
  | .second => add 0 (← scaled 1000000000) total
  | .minute => add 0 (← scaled 60000000000) total
  | .hour | .day | .week | .month | .year => add (← scaled unit.secs) 0 total

/-- Add a span to a duration. -/
def addSpan (number : SpanNumber) (unitName : String) (total : Duration) :
    Except SpanError Duration := do
  match TimeUnit.ofName? unitName with
  | none =>
    if unitName.isEmpty then .error (.unitNeeded number.whole) else .error (.unknownUnit unitName)
  | some unit =>
    let total ← addWhole unit number.whole total
    match number.fraction with
    | none => return total
    | some (numerator, denominator) => addFraction unit numerator denominator total

/-- Where the reader stands. -/
inductive State where
  /-- Before a span: where the scan for its first digit began, and whether it is the first span. -/
  | before (start : Nat) (first : Bool)
  /-- In the integer part. -/
  | whole (whole : Nat)
  /-- In the fraction: the end of what was accepted of it, or where its point stands. -/
  | fraction (whole numerator denominator stop : Nat)
  /-- In the unit. -/
  | unit (number : SpanNumber) (name : List Char)
  deriving DecidableEq, Repr

/-- The value of a decimal digit. -/
def digit? (c : Char) : Option Nat :=
  if '0' ≤ c ∧ c ≤ '9' then some (c.toNat - '0'.toNat) else none

/-- Whether a character can stand in a unit. -/
def isLetter (c : Char) : Bool :=
  ('a' ≤ c && c ≤ 'z') || ('A' ≤ c && c ≤ 'Z') || c == 'µ'

/-- Append a digit to a number. -/
def push (n digit : Nat) : Except SpanError Nat :=
  fit (n * 10 + digit)

/-- The number of a span that has a fraction; a point without digits is no fraction. -/
def closeFraction (whole numerator denominator stop : Nat) : Except SpanError SpanNumber :=
  if denominator = 1 then .error (.invalidCharacter stop)
  else .ok { whole, fraction := some (numerator, denominator) }

/-- Read the character at an offset. -/
def step (offset : Nat) (c : Char) : State × Duration → Except SpanError (State × Duration)
  | (.before start first, total) =>
    match digit? c with
    | some digit => .ok (.whole digit, total)
    | none =>
      if Unicode.blank c then .ok (.before start first, total) else .error (.numberExpected start)
  | (.whole whole, total) =>
    match digit? c with
    | some digit => do return (.whole (← push whole digit), total)
    | none =>
      if Unicode.blank c then .ok (.whole whole, total)
      else if isLetter c then .ok (.unit { whole, fraction := none } [c], total)
      else if c = '.' then .ok (.fraction whole 0 1 offset, total)
      else .error (.invalidCharacter offset)
  | (.fraction whole numerator denominator stop, total) =>
    match digit? c with
    | some digit => do
      let denominator ← fit (denominator * 10)
      return (.fraction whole (← push numerator digit) denominator (offset + c.utf8Size), total)
    | none =>
      if Unicode.blank c then
        .ok (.fraction whole numerator denominator (offset + c.utf8Size), total)
      else if isLetter c then do
        return (.unit (← closeFraction whole numerator denominator stop) [c], total)
      else .error (.invalidCharacter stop)
  | (.unit number name, total) =>
    match digit? c with
    | some digit => do return (.whole digit, ← addSpan number (String.ofList name) total)
    | none =>
      if Unicode.blank c then do
        return (.before (offset + c.utf8Size) false, ← addSpan number (String.ofList name) total)
      else if isLetter c then .ok (.unit number (name ++ [c]), total)
      else .error (.invalidCharacter offset)

/-- Complete the duration at the end of the text. -/
def finish : State × Duration → Except SpanError Duration
  | (.before _ first, total) => if first then .error .empty else .ok total
  | (.whole whole, total) => addSpan { whole, fraction := none } "" total
  | (.fraction whole numerator denominator stop, total) => do
    addSpan (← closeFraction whole numerator denominator stop) "" total
  | (.unit number name, total) => addSpan number (String.ofList name) total

/-- Read characters from an offset on. -/
def readFrom (offset : Nat) : List Char → State × Duration → Except SpanError Duration
  | [], state => finish state
  | c :: rest, state => do readFrom (offset + c.utf8Size) rest (← step offset c state)

end SpanReader

/-- The duration that a text spells. A lone zero needs no unit. -/
def Duration.read (text : String) : Except SpanError Duration :=
  if text = "0" then .ok 0
  else SpanReader.readFrom 0 text.toList (.before 0 true, 0)

end NetnsWatch
