import SlicePolicy.Proofs.Formula.Evaluation

namespace SlicePolicy

/-!
# Folded forms

The parts that a folding constructor gets may be any formulas, bare or folded. What it builds from
them stands for the bare formula of the same parts: it means the same, and evaluation answers at
least as often and never differently. A folded formula can get an answer where the bare one has
none, because folding drops parts whose values are missing.

* `Formula.FoldsTo` — the second formula stands for the first.
* `Formula.FoldsTo.of_evaluates` — the same meaning and an answer wherever there was one are enough.
* `Formula.foldsTo_constructors` — every constructor folds the bare formula of its kind.
-/

/-- The valuation of packets and variables by integers of any size. -/
def Valuation.ofIntegers (field : PacketVar → Field → Int) (int : IntVar → Int) : Valuation Int :=
  ⟨Int64.toInt, Int64.toInt_inj.1, field, int⟩

namespace Formula

/-- The second formula stands for the first. It is true under the same valuations, whatever numbers
    the quantifiers range over, the integers for instance; and each answer that evaluation gives for
    the first formula, it gives for the second. -/
structure FoldsTo (bare folded : Formula) : Prop where
  holds_iff : ∀ {D : Type} (v : Valuation D), folded.Holds v ↔ bare.Holds v
  eval_eq : ∀ (a : Assignment) (b : Bool), bare.eval a = some b → folded.eval a = some b

/-- A formula of the same meaning that evaluates where the first does stands for it: two answers
    would be answers about one valuation. -/
theorem FoldsTo.of_evaluates {bare folded : Formula}
    (hholds : ∀ {D : Type} (v : Valuation D), folded.Holds v ↔ bare.Holds v)
    (hevaluates : ∀ a : Assignment, bare.Evaluates a → folded.Evaluates a) :
    bare.FoldsTo folded where
  holds_iff := hholds
  eval_eq := by
    intro a b hb
    have hbare : bare.Evaluates a := by
      unfold Evaluates
      rw [hb]
      rfl
    exact eval_eq_of_evaluates hb (hevaluates a hbare) (hholds a.valuation)

theorem foldsTo_mkEq (s t : Term) : (eq s t).FoldsTo (mkEq s t) := by
  refine .of_evaluates (fun v => ?_) fun a h => ?_
  · rw [holds_mkEq, holds_eq]
  · exact (inherited_evaluates a).mkEq h

theorem foldsTo_mkNot (f : Formula) : (not f).FoldsTo (mkNot f) := by
  refine .of_evaluates (fun v => ?_) fun a h => ?_
  · rw [holds_mkNot, holds_not]
  · exact (inherited_evaluates a).mkNot h

theorem foldsTo_mkAnd (fs : List Formula) : (and fs).FoldsTo (mkAnd fs) := by
  refine .of_evaluates (fun v => ?_) fun a h => ?_
  · rw [holds_mkAnd, holds_and]
  · exact (inherited_evaluates a).mkAnd h

theorem foldsTo_mkOr (fs : List Formula) : (or fs).FoldsTo (mkOr fs) := by
  refine .of_evaluates (fun v => ?_) fun a h => ?_
  · rw [holds_mkOr, holds_or]
  · exact (inherited_evaluates a).mkOr h

theorem foldsTo_mkImplies (p c : Formula) : (implies p c).FoldsTo (mkImplies p c) := by
  refine .of_evaluates (fun v => ?_) fun a h => ?_
  · rw [holds_mkImplies, holds_implies]
  · exact (inherited_evaluates a).mkImplies h

/-- A quantified formula may lose its quantifier and then evaluate; the bare one never does. -/
theorem foldsTo_mkForAll (vars : List IntVar) (f : Formula) :
    (forAll vars f).FoldsTo (mkForAll vars f) := by
  refine .of_evaluates (fun v => ?_) fun a h => ?_
  · rw [holds_mkForAll, holds_forAll]
  · exact (inherited_evaluates a).mkForAll h

/-- **Folding keeps meanings and answers.** Whatever its arguments are, each constructor gives a
    formula that is true under the same valuations as the bare formula of its kind, and that
    evaluates to the truth value of the bare formula wherever that has one. -/
theorem foldsTo_constructors :
    (∀ s t : Term, (eq s t).FoldsTo (mkEq s t)) ∧
    (∀ f : Formula, (not f).FoldsTo (mkNot f)) ∧
    (∀ fs : List Formula, (and fs).FoldsTo (mkAnd fs)) ∧
    (∀ fs : List Formula, (or fs).FoldsTo (mkOr fs)) ∧
    (∀ p c : Formula, (implies p c).FoldsTo (mkImplies p c)) ∧
    (∀ (vars : List IntVar) (f : Formula), (forAll vars f).FoldsTo (mkForAll vars f)) :=
  ⟨foldsTo_mkEq, foldsTo_mkNot, foldsTo_mkAnd, foldsTo_mkOr, foldsTo_mkImplies, foldsTo_mkForAll⟩

/-- An implication with the conclusion `false` becomes a negation, which takes the negation of the
    premise away. What is left is a bare disjunction, and it says the same about the integers. -/
theorem foldsTo_constructors_cancel :
    let x : PacketVar := ⟨"x"⟩
    let f : Formula := or [or [], eq (.field (.header .vlan) x) (.const 3)]
    let a : Assignment := Assignment.empty.setField x (.header .vlan) 3
    mkImplies (not f) (const false) = f ∧
    (implies (not f) (const false)).eval a = some true ∧ f.eval a = some true ∧
    ∀ (field : PacketVar → Field → Int) (int : IntVar → Int),
      f.Holds (.ofIntegers field int) ↔
        (implies (not f) (const false)).Holds (.ofIntegers field int) := by
  intro x f a
  have heval : (implies (not f) (const false)).eval a = some true := by decide
  obtain ⟨-, -, -, -, himplies, -⟩ := foldsTo_constructors
  have hfold : (implies (not f) (const false)).FoldsTo f := himplies (not f) (const false)
  exact ⟨rfl, heval, hfold.eval_eq a true heval, fun _ _ => hfold.holds_iff _⟩

end Formula

end SlicePolicy
