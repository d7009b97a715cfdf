import SlicePolicy.Formula.Basic

namespace SlicePolicy.Formula

/-!
# Folding constructors

Formulas are built through constructors that fold constants away, so that a question which is
decided by the shapes of its parts alone arrives as `true` or `false`.

* `mkEq`, `mkNot`, `mkAnd`, `mkOr`, `mkImplies`, `mkForAll` — one for each kind of formula.
* `mkAnd` and `mkOr` also take up the parts of a nested conjunction or disjunction.
-/

/-- An equation; literals are compared, and a term equals itself. -/
def mkEq : Term → Term → Formula
  | .const v, .const w => const (v = w)
  | s, t => if s = t then const true else eq s t

/-- A negation; a constant is flipped and a double negation removed. -/
def mkNot : Formula → Formula
  | const b => const !b
  | not f => f
  | f => not f

/-- The parts of a conjunction without constants and nested conjunctions, or nothing if one of
    them is `false`. -/
def conjuncts : List Formula → Option (List Formula)
  | [] => some []
  | const true :: fs => conjuncts fs
  | const false :: _ => none
  | and gs :: fs => (conjuncts fs).map (gs ++ ·)
  | f :: fs => (conjuncts fs).map (f :: ·)

/-- A conjunction; one of a single part is that part. -/
def mkAnd (parts : List Formula) : Formula :=
  match conjuncts parts with
  | none => const false
  | some [] => const true
  | some [f] => f
  | some fs => and fs

/-- The parts of a disjunction without constants and nested disjunctions, or nothing if one of
    them is `true`. -/
def disjuncts : List Formula → Option (List Formula)
  | [] => some []
  | const false :: fs => disjuncts fs
  | const true :: _ => none
  | or gs :: fs => (disjuncts fs).map (gs ++ ·)
  | f :: fs => (disjuncts fs).map (f :: ·)

/-- A disjunction; one of a single part is that part. -/
def mkOr (parts : List Formula) : Formula :=
  match disjuncts parts with
  | none => const true
  | some [] => const false
  | some [f] => f
  | some fs => or fs

/-- An implication; one with a constant side is that side's meaning for the other. -/
def mkImplies : Formula → Formula → Formula
  | const false, _ => const true
  | _, const true => const true
  | const true, c => c
  | p, const false => mkNot p
  | p, c => implies p c

/-- A quantified formula; a constant needs no quantifier, and none is written without variables. -/
def mkForAll (vars : List IntVar) : Formula → Formula
  | const b => const b
  | f => if vars.isEmpty then f else forAll vars f

end SlicePolicy.Formula
