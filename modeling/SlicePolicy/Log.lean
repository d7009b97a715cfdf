import SlicePolicy.Location

namespace SlicePolicy

/-!
# Log records

What the library tells about its work while it is done, in the order in which it happens: the
spans that are entered and single events.
-/

/-- How important a record is. -/
inductive Level
  | trace | debug | info | warn | error
  deriving DecidableEq, Repr

namespace Level

/-- The name of the level. -/
def name : Level → String
  | trace => "trace"
  | debug => "debug"
  | info => "info"
  | warn => "warn"
  | error => "error"

end Level

/-- The value of a field of a record. -/
inductive LogValue
  | text (s : String)
  | number (n : Int)
  deriving DecidableEq, Repr

/-- An event, or the start of a span if it has the name of one. -/
structure LogRecord where
  level : Level
  span : Option String
  fields : List (String × LogValue)
  /-- Fields with times in milliseconds, which are kept apart because no two runs agree on them. -/
  times : List (String × Nat)
  deriving DecidableEq, Repr

namespace LogRecord

/-- An event with its message after the other fields. -/
def event (level : Level) (fields : List (String × LogValue)) (message : String) : LogRecord :=
  ⟨level, none, fields ++ [("message", .text message)], []⟩

/-- The start of a span, which is of interest for debugging only. -/
def enter (span : String) (fields : List (String × LogValue)) : LogRecord :=
  ⟨.debug, some span, fields, []⟩

/-- The record with one more time. -/
def withTime (r : LogRecord) (key : String) (milliseconds : Nat) : LogRecord :=
  { r with times := r.times ++ [(key, milliseconds)] }

end LogRecord

end SlicePolicy
