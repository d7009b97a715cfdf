import SlicePolicy.Formula.Assignment
import SlicePolicy.Proofs.Formula.Inherited

namespace SlicePolicy

/-!
# Evaluation computes the meaning

An assignment is read as a valuation whose numbers are the packet values and one more, `none`, for
everything that the assignment leaves open. Evaluation then gives the truth value, where it gives
one at all.

* `Assignment.valuation` — that valuation; two open terms have the same number in it, as a term
  and itself have for the folding constructors.
* `Formula.holds_valuation_iff` — evaluation is sound.
* `Formula.Evaluates` — evaluation gives an answer; `Formula.inherited_evaluates` — folding keeps it.
* `Formula.evaluates_mkEq_iff`, `Formula.evaluates_mkAnd_iff` — where folding makes an answer.
* `Formula.eval_eq_of_evaluates` — formulas with one meaning do not get different answers.
-/

/-- The valuation of an assignment: a term without a value has the number `none`, which no literal
    stands for. -/
def Assignment.valuation (a : Assignment) : Valuation (Option Value) where
  literal := some
  literal_injective := Option.some.inj
  field := a.field?
  int := a.int?

@[simp] theorem Assignment.term_valuation (a : Assignment) (t : Term) :
    a.valuation.term t = a.term? t := by
  cases t <;> rfl

namespace Formula

variable {a : Assignment}

/-! ### Soundness -/

mutual

/-- **Soundness of evaluation.** The truth value that evaluation gives is the truth value under the
    valuation of the assignment. -/
theorem holds_valuation_iff : ∀ (f : Formula) {b : Bool}, f.eval a = some b →
    (f.Holds a.valuation ↔ b = true)
  | const c, b, h => by
    rw [eval, Option.some.injEq] at h
    rw [holds_const, h]
  | eq s t, b, h => by
    simp only [eval, Option.bind_eq_some_iff, Option.map_eq_some_iff] at h
    obtain ⟨v, hs, w, ht, rfl⟩ := h
    simp [hs, ht]
  | not f, b, h => by
    simp only [eval, Option.map_eq_some_iff] at h
    obtain ⟨c, hf, rfl⟩ := h
    rw [holds_not, holds_valuation_iff f hf]
    cases c <;> simp
  | and fs, b, h => by
    rw [eval] at h
    rw [holds_and, forall_holds_valuation_iff fs h]
  | or fs, b, h => by
    rw [eval] at h
    rw [holds_or, exists_holds_valuation_iff fs h]
  | implies p c, b, h => by
    simp only [eval, Option.bind_eq_some_iff] at h
    obtain ⟨x, hp, h⟩ := h
    rw [holds_implies, holds_valuation_iff p hp]
    cases x with
    | false =>
      -- the conclusion is not looked at, and need not have a truth value
      simp_all
    | true => simpa using holds_valuation_iff c h
  | forAll _ _, b, h => by
    -- a quantified formula is never evaluated
    simp [eval] at h

/-- All formulas of a list are true exactly when evaluation says so. -/
theorem forall_holds_valuation_iff : ∀ (fs : List Formula) {b : Bool}, evalAll a fs = some b →
    ((∀ f ∈ fs, f.Holds a.valuation) ↔ b = true)
  | [], b, h => by simp_all [evalAll]
  | f :: fs, b, h => by
    simp only [evalAll, Option.bind_eq_some_iff, Option.map_eq_some_iff] at h
    obtain ⟨x, hf, y, hfs, rfl⟩ := h
    rw [List.forall_mem_cons, holds_valuation_iff f hf, forall_holds_valuation_iff fs hfs,
      Bool.and_eq_true]

/-- Some formula of a list is true exactly when evaluation says so. -/
theorem exists_holds_valuation_iff : ∀ (fs : List Formula) {b : Bool}, evalAny a fs = some b →
    ((∃ f ∈ fs, f.Holds a.valuation) ↔ b = true)
  | [], b, h => by simp_all [evalAny]
  | f :: fs, b, h => by
    simp only [evalAny, Option.bind_eq_some_iff, Option.map_eq_some_iff] at h
    obtain ⟨x, hf, y, hfs, rfl⟩ := h
    simp only [List.mem_cons, exists_eq_or_imp]
    rw [holds_valuation_iff f hf, exists_holds_valuation_iff fs hfs, Bool.or_eq_true]

end

/-! ### Definedness -/

/-- Evaluation gives a truth value. -/
def Evaluates (a : Assignment) (f : Formula) : Prop := (f.eval a).isSome

theorem evaluates_const (b : Bool) : (const b).Evaluates a := by
  simp [Evaluates, eval]

/-- An equation evaluates when both sides have values. -/
theorem evaluates_eq {s t : Term} :
    (eq s t).Evaluates a ↔ (a.term? s).isSome ∧ (a.term? t).isSome := by
  cases hs : a.term? s <;> cases ht : a.term? t <;> simp [Evaluates, eval, hs, ht]

theorem evaluates_not {f : Formula} : (not f).Evaluates a ↔ f.Evaluates a := by
  simp [Evaluates, eval]

/-- A conjunction evaluates when all its parts do. -/
theorem evaluates_and {fs : List Formula} : (and fs).Evaluates a ↔ ∀ f ∈ fs, f.Evaluates a := by
  simp only [Evaluates, eval]
  induction fs with
  | nil => simp [evalAll]
  | cons f fs ih =>
    rw [List.forall_mem_cons, ← ih]
    cases hf : f.eval a <;> simp [evalAll, hf]

/-- A disjunction evaluates when all its parts do. -/
theorem evaluates_or {fs : List Formula} : (or fs).Evaluates a ↔ ∀ f ∈ fs, f.Evaluates a := by
  simp only [Evaluates, eval]
  induction fs with
  | nil => simp [evalAny]
  | cons f fs ih =>
    rw [List.forall_mem_cons, ← ih]
    cases hf : f.eval a <;> simp [evalAny, hf]

/-- An implication evaluates when its premise does, and its conclusion too where the premise is
    true. -/
theorem evaluates_implies {p c : Formula} :
    (implies p c).Evaluates a ↔ p.Evaluates a ∧ (p.eval a = some true → c.Evaluates a) := by
  simp only [Evaluates, eval]
  cases p.eval a with
  | none => simp
  | some b => cases b <;> simp

/-- A quantified formula never evaluates. -/
theorem not_evaluates_forAll (vars : List IntVar) (f : Formula) : ¬(forAll vars f).Evaluates a := by
  simp [Evaluates, eval]

/-- Folded formulas evaluate where the bare ones do. -/
theorem inherited_evaluates (a : Assignment) :
    Inherited (fun t => (a.term? t).isSome) (Evaluates a) where
  literal _ := rfl
  const := evaluates_const
  eq hs ht := evaluates_eq.2 ⟨hs, ht⟩
  not_iff := evaluates_not
  and_iff := evaluates_and
  or_iff := evaluates_or
  premise h := (evaluates_implies.1 h).1
  conclusion h := by
    -- the premise is `true`, so the conclusion was needed
    exact (evaluates_implies.1 h).2 (by rw [eval])
  body h := absurd h (not_evaluates_forAll _ _)

/-- A folded equation evaluates when both sides have values, and that of a term with itself always. -/
theorem evaluates_mkEq_iff {s t : Term} :
    (mkEq s t).Evaluates a ↔ s = t ∨ (a.term? s).isSome ∧ (a.term? t).isSome := by
  unfold mkEq
  split
  · -- two literals have values
    exact iff_of_true (evaluates_const _) (.inr ⟨rfl, rfl⟩)
  · split
    · next heq => exact iff_of_true (evaluates_const _) (.inl heq)
    · next hne => rw [evaluates_eq, or_iff_right hne]

/-- The parts that folding leaves of a conjunction evaluate when all its parts do. -/
theorem evaluates_conjuncts {fs gs : List Formula} (h : conjuncts fs = some gs) :
    (∀ g ∈ gs, g.Evaluates a) ↔ ∀ f ∈ fs, f.Evaluates a := by
  fun_induction conjuncts fs generalizing gs with
  | case1 =>
    obtain rfl := Option.some.inj h
    rfl
  | case2 fs ih =>
    -- the constant `true`, which is left out, evaluates
    rw [ih h, List.forall_mem_cons, and_iff_right (evaluates_const true)]
  | case3 => exact absurd h.symm (Option.some_ne_none gs)
  | case4 hs fs ih =>
    -- a nested conjunction evaluates when its parts do
    obtain ⟨rest, hrest, rfl⟩ := Option.map_eq_some_iff.1 h
    rw [List.forall_mem_append, ih hrest, List.forall_mem_cons, evaluates_and]
  | case5 f fs _ _ _ ih =>
    obtain ⟨rest, hrest, rfl⟩ := Option.map_eq_some_iff.1 h
    rw [List.forall_mem_cons, ih hrest, List.forall_mem_cons]

/-- Folding leaves parts of a conjunction unless one of them is the constant `false`. -/
theorem conjuncts_eq_none_iff {fs : List Formula} : conjuncts fs = none ↔ const false ∈ fs := by
  fun_induction conjuncts fs with
  | case1 => simp
  | case2 fs ih => simp [ih]
  | case3 => simp
  | case4 hs fs ih => simp [ih]
  | case5 f fs _ hf _ ih => simp [ih, Ne.symm hf]

/-- A folded conjunction evaluates when all its parts do, and also when one of them is the constant
    `false`. -/
theorem evaluates_mkAnd_iff {fs : List Formula} :
    (mkAnd fs).Evaluates a ↔ const false ∈ fs ∨ ∀ f ∈ fs, f.Evaluates a := by
  rw [← conjuncts_eq_none_iff]
  cases hparts : conjuncts fs with
  | none =>
    rw [mkAnd, hparts]
    exact iff_of_true (evaluates_const false) (.inl rfl)
  | some gs =>
    rw [or_iff_right (Option.some_ne_none gs), ← evaluates_conjuncts hparts, mkAnd, hparts]
    -- none left, one left, several left
    cases gs with
    | nil => exact iff_of_true (evaluates_const true) fun g hg => absurd hg List.not_mem_nil
    | cons g rest =>
      cases rest with
      | nil => exact List.forall_mem_singleton.symm
      | cons g' gs => exact evaluates_and

/-- An answer for one formula is the answer for every formula with the same meaning that has one. -/
theorem eval_eq_of_evaluates {f g : Formula} {b : Bool} (hf : f.eval a = some b)
    (hg : g.Evaluates a) (hiff : g.Holds a.valuation ↔ f.Holds a.valuation) : g.eval a = some b := by
  obtain ⟨c, hc⟩ := Option.isSome_iff_exists.1 hg
  rw [holds_valuation_iff f hf, holds_valuation_iff g hc] at hiff
  have hcb : c = b := Bool.eq_iff_iff.2 hiff
  rw [hc, hcb]

end Formula

end SlicePolicy
