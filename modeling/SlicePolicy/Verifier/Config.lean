import SlicePolicy.Duration
import SlicePolicy.Error

namespace SlicePolicy

/-!
# Configuration of a verifier

How long a solver may take, how complete its solutions should be, and which field the slice
compiler uses for tags.
-/

/-- The settings of a verifier. -/
structure Config where
  /-- The time for one query, if it is bounded. -/
  timeout : Option Duration
  /-- Whether a solution should also give values to fields that the query leaves open. -/
  modelCompletion : Bool
  /-- The field that keeps slices apart. -/
  tagField : Field
  deriving DecidableEq, Repr

namespace Config

/-- No time limit, no completion, and tags in the VLAN header. -/
def standard : Config := ⟨none, false, .header .vlan⟩

instance : Inhabited Config := ⟨standard⟩

/-- A time limit for every query. -/
def bounded (timeout : Duration) : Config := { standard with timeout := some timeout }

/-- No time limit, and solutions with a value for every field. -/
def exhaustive : Config := { standard with modelCompletion := true }

/-- The largest number of milliseconds that a solver's timer can hold, which is an unsigned 64-bit
    integer. -/
def maxMilliseconds : Nat := UInt64.size - 1

/-- What is wrong with a time limit: it is zero, or too long for the solver's timer. -/
def timeoutFault? (timeout : Duration) : Option String :=
  if timeout.nanoseconds = 0 then some "must be positive"
  else if maxMilliseconds < timeout.milliseconds then
    some (timeout.text ++ " exceeds the millisecond range")
  else none

/-- What is wrong with a tag field: the location is not carried by packets. -/
def tagFault? (f : Field) : Option String :=
  if f.isLocation then some (f.name ++ " is a location field and cannot carry tags") else none

/-- Refuses settings that cannot work: the time limit is looked at first. -/
def validate (c : Config) : Except Error Unit :=
  match c.timeout.bind timeoutFault? with
  | some fault => .error (.invalidConfig "timeout" fault)
  | none =>
    match tagFault? c.tagField with
    | some fault => .error (.invalidConfig "tag_field" fault)
    | none => .ok ()

/-- The time limit in the solver's unit. It is never zero, which would mean no limit. -/
def timeoutMilliseconds (c : Config) : Option Nat :=
  c.timeout.map fun t => min (max t.milliseconds 1) maxMilliseconds

/-- The settings as shown in the description of a verifier. -/
def text (c : Config) : String :=
  "VerifierConfig \x7b timeout: " ++
    (c.timeout.elim "None" fun t => "Some(" ++ t.text ++ ")") ++
    ", model_completion: " ++ (if c.modelCompletion then "true" else "false") ++
    ", tag_field: " ++ c.tagField.label ++ " \x7d"

end Config

end SlicePolicy
