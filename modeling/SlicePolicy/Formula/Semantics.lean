import SlicePolicy.Formula.Assignment

namespace SlicePolicy

/-!
# The meaning of formulas

`Formula.eval` computes a truth value where the known values allow it and says nothing about
quantifiers. This module says what formulas mean.

* `Valuation D` — values for all fields and variables, from a domain of numbers `D` in which
  different literals are different numbers.
* `Formula.Holds` — truth under a valuation, where quantifiers range over all of `D`.
-/

/-- Values for all fields of all packets and for all variables. -/
structure Valuation (D : Type) where
  /-- The number that a literal stands for. -/
  literal : Value → D
  literal_injective : ∀ {a b : Value}, literal a = literal b → a = b
  field : PacketVar → Field → D
  int : IntVar → D

namespace Valuation

variable {D : Type}

/-- The valuation of packets and variables by packet values. -/
def ofValues (field : PacketVar → Field → Value) (int : IntVar → Value) : Valuation Value :=
  ⟨id, id, field, int⟩

/-- The value of a term. -/
def term (v : Valuation D) : Term → D
  | .const value => v.literal value
  | .field f p => v.field p f
  | .var x => v.int x

/-- The valuation with other values for some variables. -/
def rebind (v : Valuation D) (vars : List IntVar) (other : IntVar → D) : Valuation D :=
  { v with int := fun x => if x ∈ vars then other x else v.int x }

end Valuation

namespace Formula

variable {D : Type}

mutual

/-- The formula is true under the valuation. -/
def Holds (v : Valuation D) : Formula → Prop
  | const b => b = true
  | eq s t => v.term s = v.term t
  | not f => ¬f.Holds v
  | and fs => AllHold v fs
  | or fs => AnyHolds v fs
  | implies p c => p.Holds v → c.Holds v
  | forAll vars f => ∀ other : IntVar → D, f.Holds (v.rebind vars other)

/-- All formulas of a list are true. -/
def AllHold (v : Valuation D) : List Formula → Prop
  | [] => True
  | f :: fs => f.Holds v ∧ AllHold v fs

/-- Some formula of a list is true. -/
def AnyHolds (v : Valuation D) : List Formula → Prop
  | [] => False
  | f :: fs => f.Holds v ∨ AnyHolds v fs

end

theorem allHold_iff {v : Valuation D} {fs : List Formula} :
    AllHold v fs ↔ ∀ f ∈ fs, f.Holds v := by
  induction fs with
  | nil => simp [AllHold]
  | cons f fs ih => simp [AllHold, ih]

theorem anyHolds_iff {v : Valuation D} {fs : List Formula} :
    AnyHolds v fs ↔ ∃ f ∈ fs, f.Holds v := by
  induction fs with
  | nil => simp [AnyHolds]
  | cons f fs ih => simp [AnyHolds, ih]

end Formula

end SlicePolicy
