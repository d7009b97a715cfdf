namespace SlicePolicy

/-!
# Violated invariants
-/

/-- Which invariant a value breaks, and where. -/
structure Violation where
  typeName : String
  invariant : String
  details : Option String
  deriving DecidableEq, Repr

namespace Violation

/-- The violation in words, with the details in parentheses if there are any. -/
def text (v : Violation) : String :=
  v.typeName ++ ": " ++ v.invariant ++ (v.details.elim "" fun d => " (" ++ d ++ ")")

end Violation

end SlicePolicy
