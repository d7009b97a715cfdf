import SlicePolicy.Field
import SlicePolicy.Location
import Std.Data.TreeSet

namespace SlicePolicy

/-!
# Formulas

The questions put to a solver are formulas over the fields of symbolic packets and over integer
variables: equations, the propositional connectives, and universal quantification over integers.

* `Formula.terms` — the terms in the order in which they stand.
* `Formula.packets` — the packets whose fields are mentioned.
* `Formula.text` — the formula in prefix form.
-/

/-- The name of a symbolic packet. -/
structure PacketVar where
  name : String
  deriving DecidableEq, Repr, Inhabited

instance : Ord PacketVar := ⟨compareOn PacketVar.name⟩

instance : Std.TransOrd PacketVar :=
  inferInstanceAs (Std.TransCmp (compareOn PacketVar.name))

instance : Std.LawfulEqOrd PacketVar where
  eq_of_compare := by
    intro p q h
    have h : compare p.name q.name = .eq := h
    cases p
    cases q
    simpa using h

/-- The name of an integer variable. -/
structure IntVar where
  name : String
  deriving DecidableEq, Repr, Inhabited

/-- An integer: a literal, a field of a packet, or a variable. -/
inductive Term
  | const (value : Value)
  | field (field : Field) (packet : PacketVar)
  | var (var : IntVar)
  deriving DecidableEq, Repr, Inhabited

namespace Term

/-- The packet that a term reads a field of. -/
def packet? : Term → Option PacketVar
  | field _ p => some p
  | _ => none

/-- The term as shown. -/
def text : Term → String
  | const value => value.text
  | field f packet => "(" ++ f.name ++ " " ++ packet.name ++ ")"
  | var v => v.name

end Term

/-- A statement about packets and integers. -/
inductive Formula
  | const (value : Bool)
  | eq (s t : Term)
  | not (f : Formula)
  | and (parts : List Formula)
  | or (parts : List Formula)
  | implies (premise conclusion : Formula)
  | forAll (vars : List IntVar) (body : Formula)
  deriving Inhabited

namespace Formula

/-! ### Equality -/

mutual

/-- Whether two formulas are the same. -/
def same : Formula → Formula → Bool
  | const b, const c => b == c
  | eq s t, eq s' t' => s = s' && t = t'
  | not f, not g => f.same g
  | and fs, and gs => sameParts fs gs
  | or fs, or gs => sameParts fs gs
  | implies p c, implies p' c' => p.same p' && c.same c'
  | forAll vs f, forAll ws g => vs = ws && f.same g
  | _, _ => false

/-- Whether two lists of formulas are the same. -/
def sameParts : List Formula → List Formula → Bool
  | [], [] => true
  | f :: fs, g :: gs => f.same g && sameParts fs gs
  | _, _ => false

end

mutual

theorem same_iff_eq : ∀ f g : Formula, f.same g = true ↔ f = g
  | const _, g => by cases g <;> simp [same]
  | eq _ _, g => by cases g <;> simp [same]
  | not f, g => by cases g <;> simp [same, same_iff_eq f]
  | and fs, g => by cases g <;> simp [same, sameParts_iff_eq fs]
  | or fs, g => by cases g <;> simp [same, sameParts_iff_eq fs]
  | implies p c, g => by cases g <;> simp [same, same_iff_eq p, same_iff_eq c]
  | forAll _ f, g => by cases g <;> simp [same, same_iff_eq f]

theorem sameParts_iff_eq : ∀ fs gs : List Formula, sameParts fs gs = true ↔ fs = gs
  | [], gs => by cases gs <;> simp [sameParts]
  | f :: fs, gs => by cases gs <;> simp [sameParts, same_iff_eq f, sameParts_iff_eq fs]

end

instance : DecidableEq Formula := fun f g => decidable_of_iff _ (same_iff_eq f g)

/-! ### Size and terms -/

mutual

/-- The number of nodes; an equation is one node. -/
def size : Formula → Nat
  | const _ => 1
  | eq _ _ => 1
  | not f => 1 + f.size
  | and fs => 1 + sizeAll fs
  | or fs => 1 + sizeAll fs
  | implies p c => 1 + p.size + c.size
  | forAll _ f => 1 + f.size

/-- The number of nodes of a list of formulas. -/
def sizeAll : List Formula → Nat
  | [] => 0
  | f :: fs => f.size + sizeAll fs

end

mutual

/-- The terms of the equations, in the order in which they stand. -/
def terms : Formula → List Term
  | const _ => []
  | eq s t => [s, t]
  | not f => f.terms
  | and fs => termsAll fs
  | or fs => termsAll fs
  | implies p c => p.terms ++ c.terms
  | forAll _ f => f.terms

/-- The terms of a list of formulas. -/
def termsAll : List Formula → List Term
  | [] => []
  | f :: fs => f.terms ++ termsAll fs

end

/-- The packets whose fields are mentioned. -/
def packets (f : Formula) : Std.TreeSet PacketVar :=
  Std.TreeSet.ofList (f.terms.filterMap Term.packet?)

/-! ### Text -/

/-- A variable as it is bound by a quantifier. -/
def boundText (v : IntVar) : String := "(" ++ v.name ++ " Int)"

mutual

/-- The formula in prefix form. -/
def text : Formula → String
  | const b => if b then "true" else "false"
  | eq s t => "(= " ++ s.text ++ " " ++ t.text ++ ")"
  | not f => "(not " ++ f.text ++ ")"
  | and fs => "(and" ++ textAll fs ++ ")"
  | or fs => "(or" ++ textAll fs ++ ")"
  | implies p c => "(=> " ++ p.text ++ " " ++ c.text ++ ")"
  | forAll vs f =>
    "(forall (" ++ " ".intercalate (vs.map boundText) ++ ") " ++ f.text ++ ")"

/-- A list of formulas, each after a space. -/
def textAll : List Formula → String
  | [] => ""
  | f :: fs => " " ++ f.text ++ textAll fs

end

end Formula

end SlicePolicy
