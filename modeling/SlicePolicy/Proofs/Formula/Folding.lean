import Mathlib.Logic.Basic
import SlicePolicy.Formula.Folding
import SlicePolicy.Formula.Semantics

namespace SlicePolicy.Formula

/-!
# Folding keeps the meaning

A folding constructor builds a smaller formula than the bare one, but one that is true under the
same valuations, over every domain of numbers.

* `holds_and`, `holds_or` — conjunctions and disjunctions through membership.
* `forall_mem_conjuncts`, `forall_mem_disjuncts` — where the parts of a folded formula come from.
* `holds_mkEq`, `holds_mkNot`, `holds_mkImplies`, `holds_mkForAll`, `holds_mkAnd`, `holds_mkOr` — one
  law for each constructor; no later proof looks inside one.
-/

variable {D : Type} {v : Valuation D}

/-! ### Bare formulas -/

@[simp] theorem holds_const (b : Bool) : (const b).Holds v ↔ b = true :=
  Iff.rfl

@[simp] theorem holds_eq (s t : Term) : (eq s t).Holds v ↔ v.term s = v.term t :=
  Iff.rfl

@[simp] theorem holds_not (f : Formula) : (not f).Holds v ↔ ¬f.Holds v :=
  Iff.rfl

/-- A conjunction is true when all its parts are. -/
theorem holds_and (fs : List Formula) : (and fs).Holds v ↔ ∀ f ∈ fs, f.Holds v := by
  rw [Holds, allHold_iff]

/-- A disjunction is true when one of its parts is. -/
theorem holds_or (fs : List Formula) : (or fs).Holds v ↔ ∃ f ∈ fs, f.Holds v := by
  rw [Holds, anyHolds_iff]

@[simp] theorem holds_implies (p c : Formula) :
    (implies p c).Holds v ↔ (p.Holds v → c.Holds v) :=
  Iff.rfl

/-- A quantified formula is true when its body is, whatever the variables are. -/
theorem holds_forAll (vars : List IntVar) (f : Formula) :
    (forAll vars f).Holds v ↔ ∀ other : IntVar → D, f.Holds (v.rebind vars other) :=
  Iff.rfl

/-! ### Equations, negations, implications and quantifiers -/

/-- Folding an equation keeps its meaning: different literals are different numbers. -/
@[simp] theorem holds_mkEq (s t : Term) : (mkEq s t).Holds v ↔ v.term s = v.term t := by
  unfold mkEq
  split
  · -- two literals are compared as values, and different values are different numbers
    next a b =>
    simp only [holds_const, decide_eq_true_eq, Valuation.term]
    exact ⟨congrArg v.literal, v.literal_injective⟩
  · split
    · next h => simp [h]
    · exact holds_eq s t

/-- Folding a negation keeps its meaning. -/
@[simp] theorem holds_mkNot (f : Formula) : (mkNot f).Holds v ↔ ¬f.Holds v := by
  unfold mkNot
  split
  · next b => cases b <;> simp
  · simp
  · exact holds_not f

/-- Folding an implication keeps its meaning. -/
@[simp] theorem holds_mkImplies (p c : Formula) :
    (mkImplies p c).Holds v ↔ (p.Holds v → c.Holds v) := by
  unfold mkImplies
  split
  · -- the premise is `false`
    simp
  · -- the conclusion is `true`
    simp
  · -- the premise is `true`
    simp
  · -- the conclusion is `false`, so the premise has to be so too
    rw [holds_mkNot]
    simp
  · exact holds_implies p c

/-- Variables that do not occur are not changed. -/
theorem rebind_nil (other : IntVar → D) : v.rebind [] other = v := by
  simp [Valuation.rebind]

/-- Folding a quantified formula keeps its meaning. -/
@[simp] theorem holds_mkForAll (vars : List IntVar) (f : Formula) :
    (mkForAll vars f).Holds v ↔ ∀ other : IntVar → D, f.Holds (v.rebind vars other) := by
  unfold mkForAll
  split
  · next b =>
    -- the domain has a number, namely any value of `v`, so the quantifier is not vacuous
    simp only [holds_const]
    exact ⟨fun h _ => h, fun h => h v.int⟩
  · split
    · next h =>
      rw [List.isEmpty_iff.1 h]
      simp only [rebind_nil]
      exact ⟨fun hf _ => hf, fun hf => hf v.int⟩
    · exact holds_forAll vars f

/-! ### Conjunctions and disjunctions -/

/-- The parts of a folded conjunction are those of the nested conjunctions, and the formulas that are
    neither constants nor conjunctions. So all of them have a property as soon as these have it. -/
theorem forall_mem_conjuncts {P Q : Formula → Prop} (hpart : ∀ hs, P (and hs) → ∀ f ∈ hs, Q f)
    (hself : ∀ f, P f → (∀ b, f ≠ const b) → (∀ hs, f ≠ and hs) → Q f) {fs gs : List Formula}
    (hfs : ∀ f ∈ fs, P f) (h : conjuncts fs = some gs) : ∀ g ∈ gs, Q g := by
  fun_induction conjuncts fs generalizing gs with
  | case1 => simp_all
  | case2 fs ih =>
    -- the constant `true` is left out
    exact ih (List.forall_mem_cons.1 hfs).2 h
  | case3 =>
    -- the constant `false` leaves no parts at all
    simp at h
  | case4 hs fs ih =>
    -- a nested conjunction is replaced by its parts
    obtain ⟨rest, hrest, rfl⟩ := Option.map_eq_some_iff.1 h
    obtain ⟨hhs, hfs⟩ := List.forall_mem_cons.1 hfs
    exact List.forall_mem_append.2 ⟨hpart hs hhs, ih hfs hrest⟩
  | case5 f fs htrue hfalse hand ih =>
    obtain ⟨rest, hrest, rfl⟩ := Option.map_eq_some_iff.1 h
    obtain ⟨hf, hfs⟩ := List.forall_mem_cons.1 hfs
    exact List.forall_mem_cons.2
      ⟨hself f hf (Bool.forall_bool.2 ⟨hfalse, htrue⟩) hand, ih hfs hrest⟩

/-- The parts of a folded disjunction are those of the nested disjunctions, and the formulas that are
    neither constants nor disjunctions. -/
theorem forall_mem_disjuncts {P Q : Formula → Prop} (hpart : ∀ hs, P (or hs) → ∀ f ∈ hs, Q f)
    (hself : ∀ f, P f → (∀ b, f ≠ const b) → (∀ hs, f ≠ or hs) → Q f) {fs gs : List Formula}
    (hfs : ∀ f ∈ fs, P f) (h : disjuncts fs = some gs) : ∀ g ∈ gs, Q g := by
  fun_induction disjuncts fs generalizing gs with
  | case1 => simp_all
  | case2 fs ih =>
    -- the constant `false` is left out
    exact ih (List.forall_mem_cons.1 hfs).2 h
  | case3 =>
    -- the constant `true` leaves no parts at all
    simp at h
  | case4 hs fs ih =>
    -- a nested disjunction is replaced by its parts
    obtain ⟨rest, hrest, rfl⟩ := Option.map_eq_some_iff.1 h
    obtain ⟨hhs, hfs⟩ := List.forall_mem_cons.1 hfs
    exact List.forall_mem_append.2 ⟨hpart hs hhs, ih hfs hrest⟩
  | case5 f fs hfalse htrue hor ih =>
    obtain ⟨rest, hrest, rfl⟩ := Option.map_eq_some_iff.1 h
    obtain ⟨hf, hfs⟩ := List.forall_mem_cons.1 hfs
    exact List.forall_mem_cons.2
      ⟨hself f hf (Bool.forall_bool.2 ⟨hfalse, htrue⟩) hor, ih hfs hrest⟩

/-- All parts of a conjunction are true when it does not fold to `false` and the parts that are
    left are true. -/
theorem holds_conjuncts (fs : List Formula) :
    (∃ gs, conjuncts fs = some gs ∧ ∀ g ∈ gs, g.Holds v) ↔ ∀ f ∈ fs, f.Holds v := by
  fun_induction conjuncts fs with
  | case1 => simp
  | case2 fs ih => simpa using ih
  | case3 => simp
  | case4 hs fs ih =>
    -- the parts of a nested conjunction come first
    rw [List.forall_mem_cons, holds_and, ← ih]
    simp only [Option.map_eq_some_iff]
    constructor
    · rintro ⟨_, ⟨gs, hgs, rfl⟩, h⟩
      exact ⟨fun g hg => h g (List.mem_append_left _ hg),
        gs, hgs, fun g hg => h g (List.mem_append_right _ hg)⟩
    · rintro ⟨hhs, gs, hgs, h⟩
      exact ⟨_, ⟨gs, hgs, rfl⟩, List.forall_mem_append.2 ⟨hhs, h⟩⟩
  | case5 f fs _ _ _ ih =>
    rw [List.forall_mem_cons, ← ih]
    simp only [Option.map_eq_some_iff]
    constructor
    · rintro ⟨_, ⟨gs, hgs, rfl⟩, h⟩
      obtain ⟨hf, h⟩ := List.forall_mem_cons.1 h
      exact ⟨hf, gs, hgs, h⟩
    · rintro ⟨hf, gs, hgs, h⟩
      exact ⟨_, ⟨gs, hgs, rfl⟩, List.forall_mem_cons.2 ⟨hf, h⟩⟩

/-- All parts of a disjunction are false when it does not fold to `true` and the parts that are
    left are false. -/
theorem not_holds_disjuncts (fs : List Formula) :
    (∃ gs, disjuncts fs = some gs ∧ ∀ g ∈ gs, ¬g.Holds v) ↔ ∀ f ∈ fs, ¬f.Holds v := by
  fun_induction disjuncts fs with
  | case1 => simp
  | case2 fs ih => simpa using ih
  | case3 => simp
  | case4 hs fs ih =>
    -- the parts of a nested disjunction come first
    rw [List.forall_mem_cons, holds_or, ← ih]
    simp only [Option.map_eq_some_iff]
    constructor
    · rintro ⟨_, ⟨gs, hgs, rfl⟩, h⟩
      exact ⟨fun ⟨g, hg, hv⟩ => h g (List.mem_append_left _ hg) hv,
        gs, hgs, fun g hg => h g (List.mem_append_right _ hg)⟩
    · rintro ⟨hhs, gs, hgs, h⟩
      exact ⟨_, ⟨gs, hgs, rfl⟩,
        List.forall_mem_append.2 ⟨fun g hg hv => hhs ⟨g, hg, hv⟩, h⟩⟩
  | case5 f fs _ _ _ ih =>
    rw [List.forall_mem_cons, ← ih]
    simp only [Option.map_eq_some_iff]
    constructor
    · rintro ⟨_, ⟨gs, hgs, rfl⟩, h⟩
      obtain ⟨hf, h⟩ := List.forall_mem_cons.1 h
      exact ⟨hf, gs, hgs, h⟩
    · rintro ⟨hf, gs, hgs, h⟩
      exact ⟨_, ⟨gs, hgs, rfl⟩, List.forall_mem_cons.2 ⟨hf, h⟩⟩

/-- Folding a conjunction keeps its meaning. -/
@[simp] theorem holds_mkAnd (fs : List Formula) :
    (mkAnd fs).Holds v ↔ ∀ f ∈ fs, f.Holds v := by
  rw [← holds_conjuncts, mkAnd]
  -- no parts, none left, one left, several left
  split
  · next h => simp [h]
  · next h => simp [h]
  · next f h => simp [h]
  · next gs _ _ h => simp [h, holds_and]

/-- Folding a disjunction keeps its meaning. -/
@[simp] theorem holds_mkOr (fs : List Formula) :
    (mkOr fs).Holds v ↔ ∃ f ∈ fs, f.Holds v := by
  -- a disjunction folds as the conjunction of the negations does
  rw [← not_iff_not, not_exists]
  simp only [not_and]
  rw [← not_holds_disjuncts, mkOr]
  split
  · next h => simp [h]
  · next h => simp [h]
  · next f h => simp [h]
  · next gs _ _ h => simp [h, holds_or]

end SlicePolicy.Formula
