import SlicePolicy.Log
import SlicePolicy.Text.Layout
import SlicePolicy.Text.Quoted

namespace SlicePolicy

/-!
# Reports

Every check delivers a report: which property was checked, how it came out, and what is worth
knowing about it.
-/

/-- A property of policies that can be checked. -/
inductive CheckKind
  | notEmpty
  | equivalence
  | simulation
  | observationSimulation
  | twoHopSimulation
  | oneTagPerEdge
  | isolation
  | compiledCorrectly
  deriving DecidableEq, Repr

namespace CheckKind

/-- The kinds in their order. -/
def all : List CheckKind :=
  [notEmpty, equivalence, simulation, observationSimulation, twoHopSimulation, oneTagPerEdge,
    isolation, compiledCorrectly]

/-- The name used in reports. -/
def name : CheckKind → String
  | notEmpty => "not_empty"
  | equivalence => "equivalence"
  | simulation => "simulation"
  | observationSimulation => "observation_simulation"
  | twoHopSimulation => "two_hop_simulation"
  | oneTagPerEdge => "one_tag_per_edge"
  | isolation => "isolation"
  | compiledCorrectly => "compiled_correctly"

/-- The kind of a name. -/
def ofName? (s : String) : Option CheckKind := all.find? fun k => k.name = s

end CheckKind

/-- How a check came out. -/
inductive CheckOutcome
  | holds
  | violated
  /-- The solver could not decide. -/
  | unknown
  deriving DecidableEq, Repr

namespace CheckOutcome

/-- The name used in reports. -/
def name : CheckOutcome → String
  | holds => "holds"
  | violated => "violated"
  | unknown => "unknown"

/-- The outcome of a name. -/
def ofName? (s : String) : Option CheckOutcome :=
  [holds, violated, unknown].find? fun o => o.name = s

/-- How important it is to hear about an outcome. -/
def level : CheckOutcome → Level
  | holds => .debug
  | violated => .info
  | unknown => .warn

end CheckOutcome

/-- The result of a check, for those who watch. -/
structure Report where
  kind : CheckKind
  outcome : CheckOutcome
  message : String
  /-- How long the check took, if that was measured, and zero otherwise. -/
  elapsedMilliseconds : Nat
  /-- Further facts by name. -/
  context : Std.TreeMap String String

namespace Report

/-- A report without further facts. -/
def plain (kind : CheckKind) (outcome : CheckOutcome) (message : String) : Report :=
  ⟨kind, outcome, message, 0, ∅⟩

/-- The report with the time that the check took. -/
def withElapsed (r : Report) (milliseconds : Nat) : Report :=
  { r with elapsedMilliseconds := milliseconds }

/-- The report with one more fact, which replaces an earlier one of the same name. -/
def withContext (r : Report) (key value : String) : Report :=
  { r with context := r.context.insert key value }

/-- The report as shown; facts appear only if there are any. -/
def text (r : Report) : String :=
  let facts := r.context.toList.map fun e => Text.quoted e.1 ++ ": " ++ Text.quoted e.2
  "[" ++ r.kind.name ++ "/" ++ r.outcome.name ++ "] " ++ r.message ++ " (" ++
    Text.natural r.elapsedMilliseconds ++ "ms" ++
    (if facts.isEmpty then "" else ", context=" ++ Text.braced facts) ++ ")"

/-- The report in a log, where the facts are one field. -/
def logRecord (r : Report) : LogRecord :=
  let facts := r.context.toList.map fun e => e.1 ++ "=" ++ e.2
  let event := LogRecord.event r.outcome.level
    [("kind", .text r.kind.name), ("outcome", .text r.outcome.name),
      ("context", .text (Text.braced facts))]
    r.message
  event.withTime "elapsed_ms" r.elapsedMilliseconds

end Report

end SlicePolicy
