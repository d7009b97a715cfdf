import SlicePolicy.Proofs.Formula.Folding

namespace SlicePolicy.Formula

/-!
# What folded formulas inherit

A folded formula is put together from parts of the bare one. So it has every property that passes
from parts to formulas and back again, if the bare formula has it: that all terms have values, for
instance, or that none of them names a packet that was not declared.

* `Kept` — a property that the constructors keep, from which encodings have it.
* `Inherited` — a property that passes from terms to equations, and between formulas and their parts;
  `Inherited.kept` says that the constructors keep it.
* `Inherited.mkEq`, `Inherited.mkNot`, `Inherited.mkAnd`, `Inherited.mkOr`, `Inherited.mkImplies`,
  `Inherited.mkForAll` — one law for each constructor, from the bare formula to the folded one.
-/

/-- A property of formulas that the constructors of plain formulas keep: what they build from formulas
    that have it, or from terms of a kind, has it too. -/
structure Kept (S : Term → Prop) (P : Formula → Prop) : Prop where
  literal : ∀ c : Value, S (.const c)
  const : ∀ b : Bool, P (const b)
  mkEq : ∀ {s t : Term}, S s → S t → P (mkEq s t)
  mkNot : ∀ {f : Formula}, P f → P (mkNot f)
  mkAnd : ∀ {fs : List Formula}, (∀ f ∈ fs, P f) → P (mkAnd fs)
  mkOr : ∀ {fs : List Formula}, (∀ f ∈ fs, P f) → P (mkOr fs)

/-- A property of formulas that passes from the terms of a kind to their equations, and from the parts
    of a formula to the formula and back. Of an implication or a quantified formula it needs to pass
    to those parts only that folding can leave over. -/
structure Inherited (S : Term → Prop) (P : Formula → Prop) : Prop where
  literal : ∀ c : Value, S (.const c)
  const : ∀ b : Bool, P (const b)
  eq : ∀ {s t : Term}, S s → S t → P (eq s t)
  not_iff : ∀ {f : Formula}, P (not f) ↔ P f
  and_iff : ∀ {fs : List Formula}, P (and fs) ↔ ∀ f ∈ fs, P f
  or_iff : ∀ {fs : List Formula}, P (or fs) ↔ ∀ f ∈ fs, P f
  premise : ∀ {p c : Formula}, P (implies p c) → P p
  conclusion : ∀ {c : Formula}, P (implies (.const true) c) → P c
  body : ∀ {f : Formula}, P (forAll [] f) → P f

namespace Inherited

variable {S : Term → Prop} {P : Formula → Prop} (h : Inherited S P)
include h

theorem mkEq {s t : Term} (heq : P (.eq s t)) : P (Formula.mkEq s t) := by
  unfold Formula.mkEq
  split
  · exact h.const _
  · split
    · exact h.const _
    · exact heq

theorem mkNot {f : Formula} (hnot : P (.not f)) : P (Formula.mkNot f) := by
  unfold Formula.mkNot
  split
  · exact h.const _
  · -- both negations are gone
    exact h.not_iff.1 (h.not_iff.1 hnot)
  · exact hnot

theorem mkAnd {fs : List Formula} (hand : P (.and fs)) : P (Formula.mkAnd fs) := by
  have hparts {gs : List Formula} (hgs : conjuncts fs = some gs) : ∀ g ∈ gs, P g :=
    forall_mem_conjuncts (fun _ => h.and_iff.1) (fun _ hf _ _ => hf) (h.and_iff.1 hand) hgs
  unfold Formula.mkAnd
  split
  · exact h.const _
  · exact h.const _
  · next f hf => exact hparts hf f List.mem_cons_self
  · next gs _ _ hgs => exact h.and_iff.2 (hparts hgs)

theorem mkOr {fs : List Formula} (hor : P (.or fs)) : P (Formula.mkOr fs) := by
  have hparts {gs : List Formula} (hgs : disjuncts fs = some gs) : ∀ g ∈ gs, P g :=
    forall_mem_disjuncts (fun _ => h.or_iff.1) (fun _ hf _ _ => hf) (h.or_iff.1 hor) hgs
  unfold Formula.mkOr
  split
  · exact h.const _
  · exact h.const _
  · next f hf => exact hparts hf f List.mem_cons_self
  · next gs _ _ hgs => exact h.or_iff.2 (hparts hgs)

theorem mkImplies {p c : Formula} (himplies : P (.implies p c)) : P (Formula.mkImplies p c) := by
  have hp : P p := h.premise himplies
  unfold Formula.mkImplies
  split
  · exact h.const _
  · exact h.const _
  · exact h.conclusion himplies
  · exact h.mkNot (h.not_iff.2 hp)
  · exact himplies

theorem mkForAll {vars : List IntVar} {f : Formula} (hforall : P (.forAll vars f)) :
    P (Formula.mkForAll vars f) := by
  unfold Formula.mkForAll
  split
  · exact h.const _
  · split
    · next hempty =>
      rw [List.isEmpty_iff.1 hempty] at hforall
      exact h.body hforall
    · exact hforall

/-- The constructors keep what passes from parts to formulas and back. -/
theorem kept : Kept S P where
  literal := h.literal
  const := h.const
  mkEq hs ht := h.mkEq (h.eq hs ht)
  mkNot hf := h.mkNot (h.not_iff.2 hf)
  mkAnd hfs := h.mkAnd (h.and_iff.2 hfs)
  mkOr hfs := h.mkOr (h.or_iff.2 hfs)

end Inherited

end SlicePolicy.Formula
