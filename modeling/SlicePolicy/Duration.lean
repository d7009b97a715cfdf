import SlicePolicy.Text.Decimal

namespace SlicePolicy

/-!
# Durations

A duration is a whole number of nanoseconds. It is shown in the largest unit in which it is at
least one, as an exact decimal fraction without trailing zeros.
-/

/-- A length of time. -/
structure Duration where
  nanoseconds : Nat
  deriving DecidableEq, Repr, Inhabited

namespace Duration

/-- The number of nanoseconds in a second. -/
def second : Nat := 1000000000

/-- The number of nanoseconds in a millisecond. -/
def millisecond : Nat := 1000000

/-- The number of nanoseconds in a microsecond. -/
def microsecond : Nat := 1000

/-- The duration of some seconds and nanoseconds. -/
def ofParts (seconds nanos : Nat) : Duration := ⟨seconds * second + nanos⟩

/-- The whole seconds. -/
def seconds (d : Duration) : Nat := d.nanoseconds / second

/-- The nanoseconds after the whole seconds. -/
def subsecond (d : Duration) : Nat := d.nanoseconds % second

/-- The whole milliseconds. -/
def milliseconds (d : Duration) : Nat := d.nanoseconds / millisecond

/-- A number of nanoseconds in a unit of `10 ^ places` of them, as a decimal fraction without trailing
    zeros. -/
def fractionText (n unit places : Nat) : String :=
  let digits := Text.digits (n % unit)
  let padded := List.replicate (places - digits.length) '0' ++ digits
  let shown := (padded.reverse.dropWhile (· = '0')).reverse
  Text.natural (n / unit) ++ if shown.isEmpty then "" else "." ++ String.ofList shown

/-- The duration as shown. -/
def text (d : Duration) : String :=
  if second ≤ d.nanoseconds then fractionText d.nanoseconds second 9 ++ "s"
  else if millisecond ≤ d.nanoseconds then fractionText d.nanoseconds millisecond 6 ++ "ms"
  else if microsecond ≤ d.nanoseconds then fractionText d.nanoseconds microsecond 3 ++ "µs"
  else Text.natural d.nanoseconds ++ "ns"

end Duration

end SlicePolicy
