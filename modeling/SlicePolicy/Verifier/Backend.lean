import SlicePolicy.Query
import SlicePolicy.Verifier.Config

namespace SlicePolicy

/-!
# Solvers

The verifier does not search for solutions itself but asks a backend.

* `Backend` — a solver with states of type `σ`, so that an answer may depend on what was asked
  before.
* `Backend.scripted` — gives answers that are known beforehand, one for each query.
-/

/-- A solver. -/
structure Backend (σ : Type) where
  name : String
  /-- The answer to a query, or the solver's failure, and the state afterwards. -/
  check : Query → Config → σ → Except Error Verdict × σ

namespace Backend

/-- The solver whose state is the list of the answers that it will give; when there are none left
    it fails. -/
def scripted : Backend (List (Except Error Verdict)) where
  name := "scripted"
  check _ _
    | [] => (.error (.backend "script exhausted"), [])
    | answer :: rest => (answer, rest)

end Backend

end SlicePolicy
