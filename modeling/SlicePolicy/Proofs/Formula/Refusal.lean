import Mathlib.Tactic.ByContra
import SlicePolicy.Proofs.Formula.Evaluation

namespace SlicePolicy.Formula

/-!
# When evaluation refuses

Evaluation has no answer at a quantified formula and at an equation of which a side has no value,
and a formula has no answer when a part that is looked at has none. All parts are looked at except
one: behind a false premise the conclusion of an implication is not.

* `HasPart` — a formula and its parts, at any depth; `ComesTo` — those that evaluation looks at.
* `Refused` — where there is no answer; `Skips` — such a part is not looked at.
* `eval_eq_none_iff` — evaluation refuses exactly when it comes to a refused formula.
* `HasPart.not_evaluates_or_skips` — a refused part is skipped or leaves the formula without an
  answer.
* `eval_eq_none_iff_comesTo` — both in one statement.
* `eval_skips_conclusion` — formulas that have refused parts and an answer.
-/

/-! ### Parts -/

/-- The second formula is the first or one of its parts, at any depth. -/
inductive HasPart : Formula → Formula → Prop
  | self (f : Formula) : HasPart f f
  | not {f g : Formula} (h : HasPart f g) : HasPart (not f) g
  | and {fs : List Formula} {f g : Formula} (hf : f ∈ fs) (h : HasPart f g) : HasPart (and fs) g
  | or {fs : List Formula} {f g : Formula} (hf : f ∈ fs) (h : HasPart f g) : HasPart (or fs) g
  | premise {p c g : Formula} (h : HasPart p g) : HasPart (implies p c) g
  | conclusion {p c g : Formula} (h : HasPart c g) : HasPart (implies p c) g
  | body {vars : List IntVar} {f g : Formula} (h : HasPart f g) : HasPart (forAll vars f) g

/-- Evaluating the first formula, one looks at the second: conclusions count behind true premises
    only, and the body of a quantified formula does not count. -/
inductive ComesTo (a : Assignment) : Formula → Formula → Prop
  | self (f : Formula) : ComesTo a f f
  | not {f g : Formula} (h : ComesTo a f g) : ComesTo a (not f) g
  | and {fs : List Formula} {f g : Formula} (hf : f ∈ fs) (h : ComesTo a f g) : ComesTo a (and fs) g
  | or {fs : List Formula} {f g : Formula} (hf : f ∈ fs) (h : ComesTo a f g) : ComesTo a (or fs) g
  | premise {p c g : Formula} (h : ComesTo a p g) : ComesTo a (implies p c) g
  | conclusion {p c g : Formula} (hp : p.eval a = some true) (h : ComesTo a c g) :
    ComesTo a (implies p c) g

/-- The formula is quantified, or an equation over a term without a value. -/
def Refused (a : Assignment) : Formula → Prop
  | eq s t => a.term? s = none ∨ a.term? t = none
  | forAll _ _ => True
  | _ => False

variable {a : Assignment} {f g : Formula}

/-- Evaluation looks at parts only. -/
theorem ComesTo.hasPart (h : ComesTo a f g) : HasPart f g := by
  induction h with
  | self f => exact .self f
  | not _ ih => exact .not ih
  | and hf _ ih => exact .and hf ih
  | or hf _ ih => exact .or hf ih
  | premise _ ih => exact .premise ih
  | conclusion _ _ ih => exact .conclusion ih

/-! ### Answers that are missing -/

theorem not_evaluates_iff : ¬f.Evaluates a ↔ f.eval a = none := by
  rw [Evaluates, Bool.not_eq_true, Option.isSome_eq_false_iff, Option.isNone_iff_eq_none]

/-- At a refused formula there is no answer. -/
theorem Refused.not_evaluates (h : Refused a f) : ¬f.Evaluates a := by
  cases f with
  | eq s t =>
    rw [evaluates_eq]
    rintro ⟨hs, ht⟩
    rcases h with h | h
    · exact Option.isSome_iff_ne_none.1 hs h
    · exact Option.isSome_iff_ne_none.1 ht h
  | forAll vars f => exact not_evaluates_forAll vars f
  | const _ | not _ | and _ | or _ | implies _ _ => exact h.elim

/-- An answer needs the answers of all that evaluation comes to. -/
theorem ComesTo.evaluates (h : ComesTo a f g) (hf : f.Evaluates a) : g.Evaluates a := by
  induction h with
  | self _ => exact hf
  | not _ ih => exact ih (evaluates_not.1 hf)
  | and hmem _ ih => exact ih (evaluates_and.1 hf _ hmem)
  | or hmem _ ih => exact ih (evaluates_or.1 hf _ hmem)
  | premise _ ih => exact ih (evaluates_implies.1 hf).1
  | conclusion hp _ ih => exact ih ((evaluates_implies.1 hf).2 hp)

/-- Where there is no answer, evaluation came to a refused formula. The recursion follows it: into
    the part whose answer is missing, and into a conclusion only if the premise has an answer. -/
theorem exists_refused_of_not_evaluates : ∀ f : Formula, ¬f.Evaluates a →
    ∃ g, ComesTo a f g ∧ Refused a g
  | const b, h => absurd (evaluates_const b) h
  | eq s t, h => by
    refine ⟨eq s t, .self _, ?_⟩
    rw [evaluates_eq, not_and_or, Option.not_isSome_iff_eq_none, Option.not_isSome_iff_eq_none] at h
    exact h
  | not f, h => by
    rw [evaluates_not] at h
    obtain ⟨g, hg, hrefused⟩ := exists_refused_of_not_evaluates f h
    exact ⟨g, .not hg, hrefused⟩
  | and fs, h => by
    rw [evaluates_and] at h
    push Not at h
    obtain ⟨f, hf, hmissing⟩ := h
    obtain ⟨g, hg, hrefused⟩ := exists_refused_of_not_evaluates f hmissing
    exact ⟨g, .and hf hg, hrefused⟩
  | or fs, h => by
    rw [evaluates_or] at h
    push Not at h
    obtain ⟨f, hf, hmissing⟩ := h
    obtain ⟨g, hg, hrefused⟩ := exists_refused_of_not_evaluates f hmissing
    exact ⟨g, .or hf hg, hrefused⟩
  | implies p c, h => by
    rw [evaluates_implies] at h
    by_cases hp : p.Evaluates a
    · have hc : p.eval a = some true ∧ ¬c.Evaluates a := by
        rw [and_iff_right hp] at h
        push Not at h
        exact h
      obtain ⟨g, hg, hrefused⟩ := exists_refused_of_not_evaluates c hc.2
      exact ⟨g, .conclusion hc.1 hg, hrefused⟩
    · obtain ⟨g, hg, hrefused⟩ := exists_refused_of_not_evaluates p hp
      exact ⟨g, .premise hg, hrefused⟩
  | forAll vars f, _ => ⟨forAll vars f, .self _, trivial⟩

/-- **Evaluation refuses exactly when it comes to a refused formula.** -/
theorem eval_eq_none_iff : f.eval a = none ↔ ∃ g, ComesTo a f g ∧ Refused a g := by
  rw [← not_evaluates_iff]
  constructor
  · exact exists_refused_of_not_evaluates f
  · rintro ⟨g, hg, hrefused⟩ hf
    exact hrefused.not_evaluates (hg.evaluates hf)

/-! ### What is not looked at -/

theorem HasPart.trans {e : Formula} (hfg : HasPart f g) (hge : HasPart g e) : HasPart f e := by
  induction hfg with
  | self _ => exact hge
  | not _ ih => exact .not (ih hge)
  | and hmem _ ih => exact .and hmem (ih hge)
  | or hmem _ ih => exact .or hmem (ih hge)
  | premise _ ih => exact .premise (ih hge)
  | conclusion _ ih => exact .conclusion (ih hge)
  | body _ ih => exact .body (ih hge)

/-- Behind a false premise in the formula stands a refused part. -/
def Skips (a : Assignment) (f : Formula) : Prop :=
  ∃ p c g : Formula, HasPart f (implies p c) ∧ p.eval a = some false ∧ HasPart c g ∧ Refused a g

theorem Skips.of_hasPart (h : HasPart f g) (hg : Skips a g) : Skips a f := by
  obtain ⟨p, c, e, hpart, hfalse, hrefused⟩ := hg
  exact ⟨p, c, e, h.trans hpart, hfalse, hrefused⟩

/-- A formula with a refused part has no answer, unless it skips one. -/
theorem HasPart.not_evaluates_or_skips (h : HasPart f g) (hrefused : Refused a g) :
    ¬f.Evaluates a ∨ Skips a f := by
  induction h with
  | self _ => exact .inl hrefused.not_evaluates
  | not _ ih =>
    refine (ih hrefused).imp (fun hmissing => ?_) (.of_hasPart (.not (.self _)))
    rw [evaluates_not]
    exact hmissing
  | and hmem _ ih =>
    refine (ih hrefused).imp (fun hmissing => ?_) (.of_hasPart (.and hmem (.self _)))
    rw [evaluates_and]
    exact fun hall => hmissing (hall _ hmem)
  | or hmem _ ih =>
    refine (ih hrefused).imp (fun hmissing => ?_) (.of_hasPart (.or hmem (.self _)))
    rw [evaluates_or]
    exact fun hall => hmissing (hall _ hmem)
  | premise _ ih =>
    refine (ih hrefused).imp (fun hmissing => ?_) (.of_hasPart (.premise (.self _)))
    rw [evaluates_implies]
    exact fun hboth => hmissing hboth.1
  | @conclusion p c g hpart ih =>
    by_cases hp : p.eval a = some false
    · exact .inr ⟨p, c, g, .self _, hp, hpart, hrefused⟩
    · -- a premise that has an answer is true, so the conclusion is looked at
      refine (ih hrefused).imp (fun hmissing => ?_) (.of_hasPart (.conclusion (.self _)))
      rw [evaluates_implies]
      rintro ⟨hanswer, hconclusion⟩
      obtain ⟨b, hb⟩ := Option.isSome_iff_exists.1 hanswer
      cases b with
      | false => exact hp hb
      | true => exact hmissing (hconclusion hb)
  | body _ _ => exact .inl (not_evaluates_forAll _ _)

/-- **Evaluation refuses where it comes to a refused formula, and skips the other refused parts.**
    There is no answer exactly when evaluation comes to a quantified formula or to an equation over
    a term without a value. A formula with such a part has no answer, or the part stands behind a
    false premise. -/
theorem eval_eq_none_iff_comesTo (a : Assignment) (f : Formula) :
    (f.eval a = none ↔ ∃ g, ComesTo a f g ∧ Refused a g) ∧
    ((∃ g, HasPart f g ∧ Refused a g) ↔ f.eval a = none ∨ Skips a f) := by
  refine ⟨eval_eq_none_iff, ?_⟩
  rw [← not_evaluates_iff]
  constructor
  · rintro ⟨g, hg, hrefused⟩
    exact hg.not_evaluates_or_skips hrefused
  · rintro (hmissing | ⟨p, c, g, hpart, -, hg, hrefused⟩)
    · obtain ⟨g, hg, hrefused⟩ := exists_refused_of_not_evaluates f hmissing
      exact ⟨g, hg.hasPart, hrefused⟩
    · exact ⟨g, hpart.trans (.conclusion hg), hrefused⟩

/-- **A formula with refused parts and an answer.** If the tag is 1 then it is every number; and so
    is the source, which has no value. The tag is 2, so this is true. -/
theorem eval_skips_conclusion :
    let tagIsOne := mkEq (.field (.header .vlan) ⟨"p"⟩) (.const 1)
    let tagIsAll := mkForAll [⟨"v"⟩] (mkEq (.field (.header .vlan) ⟨"p"⟩) (.var ⟨"v"⟩))
    let sourceIsOne := mkEq (.field (.header .srcIp) ⟨"p"⟩) (.const 1)
    let a := Assignment.empty.setField ⟨"p"⟩ (.header .vlan) 2
    (mkImplies tagIsOne tagIsAll).eval a = some true ∧
    HasPart (mkImplies tagIsOne tagIsAll) tagIsAll ∧ Refused a tagIsAll ∧
    (mkImplies tagIsOne sourceIsOne).eval a = some true ∧
    HasPart (mkImplies tagIsOne sourceIsOne) sourceIsOne ∧ Refused a sourceIsOne := by
  exact ⟨by decide, .conclusion (.self _), trivial, by decide, .conclusion (.self _), .inl rfl⟩

end SlicePolicy.Formula
