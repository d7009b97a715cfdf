import SlicePolicy.Formula.Basic

namespace SlicePolicy

/-!
# Evaluation under an assignment

An assignment gives values to some fields of packets and to some integer variables.
`Formula.eval` is the truth value of a formula under an assignment, as far as it is determined: it
is missing if a value that is needed is missing, and for a quantified formula. All parts of a
conjunction or disjunction are needed; of an implication with a false premise the conclusion is not.
-/

/-- Values of some fields of packets and of some variables. -/
structure Assignment where
  field? : PacketVar → Field → Option Value
  int? : IntVar → Option Value

namespace Assignment

/-- The assignment without values. -/
def empty : Assignment := ⟨fun _ _ => none, fun _ => none⟩

instance : EmptyCollection Assignment := ⟨empty⟩

instance : Inhabited Assignment := ⟨empty⟩

/-- The assignment with one field of a packet set. -/
def setField (a : Assignment) (p : PacketVar) (f : Field) (v : Value) : Assignment :=
  { a with field? := fun q g => if q = p ∧ g = f then some v else a.field? q g }

/-- The assignment with some fields of a packet set, one after the other. -/
def setFields (a : Assignment) (p : PacketVar) (fields : List (Field × Value)) : Assignment :=
  fields.foldl (fun a e => a.setField p e.1 e.2) a

/-- The assignment with one variable set. -/
def setInt (a : Assignment) (x : IntVar) (v : Value) : Assignment :=
  { a with int? := fun y => if y = x then some v else a.int? y }

/-- The value of a term. -/
def term? (a : Assignment) : Term → Option Value
  | .const v => some v
  | .field f p => a.field? p f
  | .var x => a.int? x

end Assignment

namespace Formula

mutual

/-- The truth value of a formula, as far as it is determined. -/
def eval (a : Assignment) : Formula → Option Bool
  | const b => some b
  | eq s t => (a.term? s).bind fun v => (a.term? t).map fun w => v = w
  | not f => (f.eval a).map Bool.not
  | and fs => evalAll a fs
  | or fs => evalAny a fs
  | implies p c => (p.eval a).bind fun b => if b then c.eval a else some true
  | forAll _ _ => none

/-- Whether all formulas of a list are true. -/
def evalAll (a : Assignment) : List Formula → Option Bool
  | [] => some true
  | f :: fs => (f.eval a).bind fun b => (evalAll a fs).map (b && ·)

/-- Whether any formula of a list is true. -/
def evalAny (a : Assignment) : List Formula → Option Bool
  | [] => some false
  | f :: fs => (f.eval a).bind fun b => (evalAny a fs).map (b || ·)

end

end Formula

end SlicePolicy
