import SlicePolicy.Policy.EdgeAdmission
import SlicePolicy.Query.Checks
import SlicePolicy.Verifier.Backend
import SlicePolicy.Verifier.Counterexample
import SlicePolicy.Verifier.Run

namespace SlicePolicy

/-!
# The verifier

A verifier poses the query of a check to its backend, unless the query is plainly unsatisfiable,
and reports the outcome.

* `Verifier.timed` — the verdict on a query, and how long it took.
* `Verifier.pose` — one query, one report; a failure of the backend itself is not reported.
* `Verifier.notEmpty` to `Verifier.isolated` — the single checks; without a counterexample the
  property holds.
* `Verifier.compiledCorrectly`, `Verifier.compiledCorrectlyIn` — sequences of checks that stop at
  the first that fails, with a report of their own at the end.
-/

/-- A backend with settings that were found to work, and a clock. -/
structure Verifier (σ : Type) where
  backend : Backend σ
  config : Config
  valid : config.validate = .ok ()
  /-- How long it takes by the clock until there is a verdict on a query, from a state of the
      backend. A clock that stands still shows no time. -/
  elapsed : Query → σ → Duration := fun _ _ => ⟨0⟩

namespace Verifier

variable {σ : Type}

/-- A verifier with the given settings, which are validated, and a clock that stands still. -/
def new (backend : Backend σ) (config : Config) : Except Error (Verifier σ) :=
  match h : config.validate with
  | .ok () => .ok { backend, config, valid := h }
  | .error e => .error e

/-- The verifier as shown. -/
def text (v : Verifier σ) : String :=
  "Verifier \x7b backend: " ++ Text.quoted v.backend.name ++ ", config: " ++ v.config.text ++
    ", .. \x7d"

/-! ### Posing a query -/

/-- Asks the backend. -/
def ask (v : Verifier σ) (query : Query) : Run σ Verdict := fun s =>
  let answer := v.backend.check query v.config s
  ⟨answer.1, answer.2, [.asked query]⟩

/-- The verdict on a query; a query that is plainly unsatisfiable is not put to the backend. -/
def decide (v : Verifier σ) (query : Query) : Run σ Verdict :=
  if query.isTriviallyUnsat then pure .unsat else v.ask query

/-- The time until there is a verdict on a query, in the unit of reports; what does not fit into 64
    bits is cut down. -/
def elapsedMilliseconds (v : Verifier σ) (query : Query) (s : σ) : Nat :=
  min (v.elapsed query s).milliseconds Config.maxMilliseconds

/-- The verdict on a query, and how long it took. -/
def timed (v : Verifier σ) (query : Query) : Run σ (Verdict × Nat) := fun s =>
  let e := v.decide query s
  ⟨e.result.map fun verdict => (verdict, v.elapsedMilliseconds query s), e.state, e.signals⟩

/-- What a verdict means for the property that was checked. -/
def reportOf (kind : CheckKind) (query : Query) : Verdict → Report
  | .unsat => .plain kind .holds "no counterexample"
  | .sat witness =>
    (Report.plain kind .violated "counterexample found").withContext "witness"
      (Counterexample.mk kind query.packets witness).line
  | .unknown reason => .plain kind .unknown ("solver gave up: " ++ reason)

/-- What a verdict means for the caller. -/
def resultOf (kind : CheckKind) (query : Query) : Verdict → Except Error (Option Counterexample)
  | .unsat => .ok none
  | .sat witness => .ok (some ⟨kind, query.packets, witness⟩)
  | .unknown reason => .error (.solverUnknown kind.name reason)

/-- Checks a property by its query; the context is added to the report. -/
def pose (v : Verifier σ) (kind : CheckKind) (query : Query)
    (context : List (String × String)) : Run σ (Option Counterexample) := do
  Run.log (.enter "check" [("kind", .text kind.name), ("backend", .text v.backend.name)])
  Run.log (.event .trace
    [("size", .number query.size), ("packets", .number query.packets.length)] "posing query")
  let answer ← v.timed query
  let report := (reportOf kind query answer.1).withElapsed answer.2
  Run.report (context.foldl (fun r e => r.withContext e.1 e.2) report)
  Run.ofExcept (resultOf kind query answer.1)

/-! ### Single checks -/

/-- Looks for a packet that the policy forwards. -/
def notEmpty (v : Verifier σ) (policy : Policy) : Run σ (Option Counterexample) :=
  v.pose .notEmpty (.notEmpty policy) []

/-- Checks that the second policy does what the first does, and nothing else with the packets that
    the first forwards. -/
def equivalent (v : Verifier σ) (policy₁ policy₂ : Policy) : Run σ (Option Counterexample) :=
  v.pose .equivalence (.equivalent policy₁ policy₂) []

/-- Checks that the second policy sends all that the first sends, up to a field. -/
def simulates (v : Verifier σ) (a b : Policy) (field : Field) : Run σ (Option Counterexample) :=
  v.pose .simulation (.simulates a b field) [("field", field.name)]

/-- Checks that the second policy reports all that the first reports, up to a field. -/
def simulatesObserves (v : Verifier σ) (a b : Policy) (field : Field) :
    Run σ (Option Counterexample) :=
  v.pose .observationSimulation (.simulatesObserves a b field) [("field", field.name)]

/-- Checks that the second policy has every path of the first over one link, up to a field. -/
def simulatesTwoHop (v : Verifier σ) (w : Wiring) (a b : Policy) (field : Field) :
    Run σ (Option Counterexample) :=
  v.pose .twoHopSimulation (.simulatesTwoHop w a b field) [("field", field.name)]

/-- Checks that a policy uses only one value of a field on every link. -/
def onePerEdge (v : Verifier σ) (w : Wiring) (policy : Policy) (field : Field) :
    Run σ (Option Counterexample) :=
  v.pose .oneTagPerEdge (.onePerEdge w policy field) [("field", field.name)]

/-- Looks for a packet that crosses from the first policy to the second. -/
def isolatedModel (v : Verifier σ) (w : Wiring) (policy₁ policy₂ : Policy) :
    Run σ (Option Counterexample) :=
  v.pose .isolation (.isolation w policy₁ policy₂) []

/-- Whether no packet crosses from the first policy to the second. -/
def isolated (v : Verifier σ) (w : Wiring) (policy₁ policy₂ : Policy) : Run σ Bool := do
  let leak ← v.isolatedModel w policy₁ policy₂
  pure leak.isNone

/-- The way of a packet from the first policy to the second, stage by stage. -/
def leakText (leak : Counterexample) : String :=
  leak.witness.packetText Query.pkt1 ++ "\n---policy1--->\n" ++
    leak.witness.packetText Query.pkt2 ++ "\n---topology-->\n" ++
    leak.witness.packetText Query.pkt3 ++ "\n---policy2--->\n" ++
    leak.witness.packetText Query.pkt4

/-- The way of a packet that crosses from the first policy to the second, or nothing. -/
def isolatedDiagnostic (v : Verifier σ) (w : Wiring) (policy₁ policy₂ : Policy) :
    Run σ String := do
  let leak ← v.isolatedModel w policy₁ policy₂
  pure (leak.elim "" leakText)

/-! ### Sequences of checks -/

/-- Runs checks in order, and stops at the first that finds a counterexample with the words that
    stand beside it. -/
def firstFailure : List (String × Run σ (Option Counterexample)) → Run σ (Option String)
  | [] => pure none
  | (words, check) :: rest => do
    match ← check with
    | some _ => pure (some words)
    | none => firstFailure rest

/-- The report of a sequence of checks, of which the given one failed. -/
def compositeReport (failed : Option String) (field : Field) : Report :=
  let report := match failed with
    | none => Report.plain .compiledCorrectly .holds "compiled policy matches the original"
    | some words =>
      .plain .compiledCorrectly .violated
        ("compiled policy differs from the original: " ++ words)
  report.withContext "field" field.name

/-- Runs checks in order, stops at the first that fails, and reports whether all hold. -/
def allHold (checks : List (String × Run σ (Option Counterexample))) (field : Field) :
    Run σ Bool := do
  let failed ← firstFailure checks
  Run.report (compositeReport failed field)
  pure failed.isNone

/-- Checks that a compiled policy sends what its source sends, up to the tag field. -/
def compiledCorrectly (v : Verifier σ) (source compiled : Policy) : Run σ Bool := do
  let field := v.config.tagField
  Run.log (.enter "compiled_correctly" [("field", .text field.name)])
  allHold
    [("lost behavior", v.simulates source compiled field),
      ("new behavior", v.simulates compiled source field)]
    field

/-- Checks that a compiled policy sends and reports what its source does behind an edge policy,
    up to the tag field, and that it uses one tag on every link. -/
def compiledCorrectlyIn (v : Verifier σ) (w : Wiring) (source compiled : Policy)
    (edges : EdgePolicy) : Run σ Bool := do
  let field := v.config.tagField
  Run.log (.enter "compiled_correctly_in"
    [("field", .text field.name), ("edges", .number edges.size)])
  let source := source.restrictToEdges edges
  allHold
    [("lost behavior", v.simulates source compiled field),
      ("new behavior", v.simulates compiled source field),
      ("lost observation", v.simulatesObserves source compiled field),
      ("new observation", v.simulatesObserves compiled source field),
      ("several tags on one link", v.onePerEdge w compiled field)]
    field

end Verifier

end SlicePolicy
