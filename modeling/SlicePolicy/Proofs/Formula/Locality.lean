import SlicePolicy.Proofs.Formula.Refusal
import SlicePolicy.Proofs.Formula.Scope

namespace SlicePolicy

/-!
# What evaluation looks up

Evaluation looks up one term after the other, until it has an answer or a value is missing. Which
term comes next depends on the values found so far, so assignments that give the same values to
these terms give the same answer. Where there is an answer, each of these terms has a value; then an
assignment that gives more values gives the same ones here, and the same answer.

* `Assignment.ExtendedBy` — an assignment gives all values of another one, and possibly more.
* `Formula.lookups` — the terms that evaluation looks up, in order.
* `Formula.comesTo_of_mem_lookups` — they stand in the equations that evaluation comes to.
* `Formula.eval_eq_of_lookups` — evaluation depends on their values only.
* `Formula.eval_of_keeps` — an answer stays where their values stay.
* `Formula.eval_monotone_and_local` — more values change no answer, and other values play no part.
-/

namespace Assignment

/-- The second assignment gives every value that the first one gives. -/
structure ExtendedBy (a b : Assignment) : Prop where
  field : ∀ {p : PacketVar} {f : Field} {v : Value}, a.field? p f = some v → b.field? p f = some v
  int : ∀ {x : IntVar} {v : Value}, a.int? x = some v → b.int? x = some v

variable {a b : Assignment}

theorem ExtendedBy.term? (h : a.ExtendedBy b) {t : Term} {v : Value} (hv : a.term? t = some v) :
    b.term? t = some v := by
  cases t with
  | const c => exact hv
  | field f p => exact h.field hv
  | var x => exact h.int hv

/-- Setting a field that was open keeps all values. -/
theorem extendedBy_setField {p : PacketVar} {f : Field} (hopen : a.field? p f = none) (v : Value) :
    a.ExtendedBy (a.setField p f v) where
  field {q g w} hw := by
    have hother : ¬(q = p ∧ g = f) := by
      rintro ⟨rfl, rfl⟩
      rw [hopen] at hw
      exact Option.some_ne_none w hw.symm
    show (if q = p ∧ g = f then some v else a.field? q g) = some w
    rw [if_neg hother, hw]
  int hw := hw

end Assignment

namespace Formula

/-! ### Terms that are looked up -/

mutual

/-- The terms that evaluation looks up, in order. The second side of an equation is looked up when
    the first one has a value, a part of a conjunction or disjunction when the parts before it have
    answers, and a conclusion when its premise is true. -/
def lookups (a : Assignment) : Formula → List Term
  | const _ => []
  | eq s t => s :: if (a.term? s).isSome then [t] else []
  | not f => f.lookups a
  | and fs => lookupsAll a fs
  | or fs => lookupsAll a fs
  | implies p c => p.lookups a ++ if p.eval a = some true then c.lookups a else []
  | forAll _ _ => []

/-- The terms that are looked up for a list of formulas, up to the first one without an answer. -/
def lookupsAll (a : Assignment) : List Formula → List Term
  | [] => []
  | f :: fs => f.lookups a ++ if (f.eval a).isSome then lookupsAll a fs else []

end

variable {a b : Assignment} {f g : Formula} {t : Term}

mutual

/-- A term that is looked up stands in an equation that evaluation comes to. -/
theorem comesTo_of_mem_lookups : ∀ f : Formula, t ∈ f.lookups a →
    ∃ s u, ComesTo a f (eq s u) ∧ (t = s ∨ t = u)
  | const _, h => absurd h List.not_mem_nil
  | eq s u, h => by
    refine ⟨s, u, .self _, (List.mem_cons.1 h).imp_right fun hu => ?_⟩
    exact List.mem_singleton.1 (List.mem_ite_nil_right.1 hu).2
  | not f, h => by
    obtain ⟨s, u, hcomes, ht⟩ := comesTo_of_mem_lookups f h
    exact ⟨s, u, .not hcomes, ht⟩
  | and fs, h => by
    obtain ⟨f, hf, s, u, hcomes, ht⟩ := comesTo_of_mem_lookupsAll fs h
    exact ⟨s, u, .and hf hcomes, ht⟩
  | or fs, h => by
    obtain ⟨f, hf, s, u, hcomes, ht⟩ := comesTo_of_mem_lookupsAll fs h
    exact ⟨s, u, .or hf hcomes, ht⟩
  | implies p c, h => by
    rcases List.mem_append.1 h with h | h
    · obtain ⟨s, u, hcomes, ht⟩ := comesTo_of_mem_lookups p h
      exact ⟨s, u, .premise hcomes, ht⟩
    · obtain ⟨hp, h⟩ := List.mem_ite_nil_right.1 h
      obtain ⟨s, u, hcomes, ht⟩ := comesTo_of_mem_lookups c h
      exact ⟨s, u, .conclusion hp hcomes, ht⟩
  | forAll _ _, h => absurd h List.not_mem_nil

/-- A term that is looked up for a list of formulas is one for a formula of the list. -/
theorem comesTo_of_mem_lookupsAll : ∀ fs : List Formula, t ∈ lookupsAll a fs →
    ∃ f ∈ fs, ∃ s u, ComesTo a f (eq s u) ∧ (t = s ∨ t = u)
  | [], h => absurd h List.not_mem_nil
  | f :: fs, h => by
    rcases List.mem_append.1 h with h | h
    · exact ⟨f, List.mem_cons_self, comesTo_of_mem_lookups f h⟩
    · obtain ⟨g, hg, hcomes⟩ := comesTo_of_mem_lookupsAll fs (List.mem_ite_nil_right.1 h).2
      exact ⟨g, List.mem_cons_of_mem f hg, hcomes⟩

end

/-- The terms of a part are terms of the formula. -/
theorem HasPart.terms_subset (h : HasPart f g) : g.terms ⊆ f.terms := by
  induction h with
  | self _ => exact List.Subset.refl _
  | not _ ih => exact ih
  | and hf _ ih => exact fun t ht => mem_termsAll.2 ⟨_, hf, ih ht⟩
  | or hf _ ih => exact fun t ht => mem_termsAll.2 ⟨_, hf, ih ht⟩
  | premise _ ih => exact fun t ht => List.mem_append_left _ (ih ht)
  | conclusion _ ih => exact fun t ht => List.mem_append_right _ (ih ht)
  | body _ ih => exact ih

/-- Only terms of the formula are looked up. -/
theorem mem_terms_of_mem_lookups (h : t ∈ f.lookups a) : t ∈ f.terms := by
  obtain ⟨s, u, hcomes, ht⟩ := comesTo_of_mem_lookups f h
  have hsubset : [s, u] ⊆ f.terms := hcomes.hasPart.terms_subset
  exact hsubset (by simpa using ht)

/-- Where there is an answer, every term that was looked up has a value. -/
theorem isSome_of_mem_lookups (hf : f.Evaluates a) (h : t ∈ f.lookups a) : (a.term? t).isSome := by
  obtain ⟨s, u, hcomes, ht⟩ := comesTo_of_mem_lookups f h
  have hsides : (a.term? s).isSome ∧ (a.term? u).isSome := evaluates_eq.1 (hcomes.evaluates hf)
  rcases ht with rfl | rfl
  · exact hsides.1
  · exact hsides.2

/-! ### Answers depend on what is looked up -/

mutual

/-- **Evaluation depends only on what it looks up.** Assignments that give the same values to the
    terms that are looked up give the same answer, or both none. -/
theorem eval_eq_of_lookups : ∀ f : Formula, (∀ t ∈ f.lookups a, a.term? t = b.term? t) →
    f.eval a = f.eval b
  | const _, _ => rfl
  | eq s t, h => by
    have hs : a.term? s = b.term? s := h s List.mem_cons_self
    rw [eval, eval, ← hs]
    refine Option.bind_congr fun v hv => ?_
    -- the first side has a value, so the second one is looked up
    have ht : t ∈ (eq s t).lookups a := by simp [lookups, hv]
    rw [h t ht]
  | not f, h => congrArg (Option.map Bool.not) (eval_eq_of_lookups f h)
  | and fs, h => (evalAll_eq_of_lookups fs h).1
  | or fs, h => (evalAll_eq_of_lookups fs h).2
  | implies p c, h => by
    have hp : p.eval a = p.eval b :=
      eval_eq_of_lookups p fun t ht => h t (List.mem_append_left _ ht)
    rw [eval, eval, ← hp]
    refine Option.bind_congr fun x hx => ?_
    cases x with
    | false => rfl
    | true =>
      -- behind a true premise, and only there, the terms of the conclusion are looked up
      exact eval_eq_of_lookups c fun t ht =>
        h t (List.mem_append_right _ (List.mem_ite_nil_right.2 ⟨hx, ht⟩))
  | forAll _ _, _ => rfl

/-- All formulas of a list together have the same answer under assignments that agree on what is
    looked up, and so has any of them. -/
theorem evalAll_eq_of_lookups : ∀ fs : List Formula,
    (∀ t ∈ lookupsAll a fs, a.term? t = b.term? t) →
    evalAll a fs = evalAll b fs ∧ evalAny a fs = evalAny b fs
  | [], _ => ⟨rfl, rfl⟩
  | f :: fs, h => by
    have hf : f.eval a = f.eval b :=
      eval_eq_of_lookups f fun t ht => h t (List.mem_append_left _ ht)
    have hfs {x : Bool} (hx : f.eval a = some x) :
        evalAll a fs = evalAll b fs ∧ evalAny a fs = evalAny b fs :=
      evalAll_eq_of_lookups fs fun t ht => h t (List.mem_append_right _
        (List.mem_ite_nil_right.2 ⟨Option.isSome_of_eq_some hx, ht⟩))
    rw [evalAll, evalAll, evalAny, evalAny, ← hf]
    exact ⟨Option.bind_congr fun x hx => by rw [(hfs hx).1],
      Option.bind_congr fun x hx => by rw [(hfs hx).2]⟩

end

/-- An answer stays where the values that were looked up stay. -/
theorem eval_of_keeps {c : Bool} (hf : f.eval a = some c)
    (hkeep : ∀ t ∈ f.lookups a, ∀ v, a.term? t = some v → b.term? t = some v) :
    f.eval b = some c := by
  rw [← hf]
  refine (eval_eq_of_lookups f fun t ht => ?_).symm
  have hevaluates : f.Evaluates a := Option.isSome_of_eq_some hf
  obtain ⟨v, hv⟩ := Option.isSome_iff_exists.1 (isSome_of_mem_lookups hevaluates ht)
  rw [hv, hkeep t ht v hv]

/-- Assignments with the same variables and the same fields of the packets that are mentioned give
    the same values to all terms. -/
theorem term?_eq_of_packets (hfield : ∀ p ∈ f.packets, ∀ g, a.field? p g = b.field? p g)
    (hint : ∀ x, .var x ∈ f.terms → a.int? x = b.int? x) (ht : t ∈ f.terms) :
    a.term? t = b.term? t := by
  cases t with
  | const c => rfl
  | field g p => exact hfield p (mem_packets.2 ⟨_, ht, rfl⟩) g
  | var x => exact hint x ht

/-- **Evaluation is monotone and local.** An answer stays when values are added. Assignments that give
    the same values to the terms of a formula, or none, give it the same answer, or none: values of
    packets that it does not mention play no part, and of its own terms only those that are looked
    up do. -/
theorem eval_monotone_and_local (f : Formula) (a b : Assignment) :
    (a.ExtendedBy b → ∀ c, f.eval a = some c → f.eval b = some c) ∧
    ((∀ t ∈ f.terms, a.term? t = b.term? t) → f.eval a = f.eval b) ∧
    ((∀ p ∈ f.packets, ∀ g, a.field? p g = b.field? p g) →
      (∀ x, .var x ∈ f.terms → a.int? x = b.int? x) → f.eval a = f.eval b) ∧
    ((∀ t ∈ f.lookups a, a.term? t = b.term? t) → f.eval a = f.eval b) := by
  have hlocal (hterms : ∀ t ∈ f.terms, a.term? t = b.term? t) : f.eval a = f.eval b :=
    eval_eq_of_lookups f fun t ht => hterms t (mem_terms_of_mem_lookups ht)
  refine ⟨fun hextended c hf => ?_, hlocal, fun hfield hint => ?_, eval_eq_of_lookups f⟩
  · exact eval_of_keeps hf fun t _ v hv => hextended.term? hv
  · exact hlocal fun t ht => term?_eq_of_packets hfield hint ht

/-- If the tag is 1 then the source is `x`. Only the tag is looked up when it is 2: a source changes
    nothing, and a packet that the formula does not mention changes nothing either. -/
theorem eval_monotone_and_local_untagged :
    let f := implies (eq (.field (.header .vlan) ⟨"p"⟩) (.const 1))
      (eq (.field (.header .srcIp) ⟨"q"⟩) (.var ⟨"x"⟩))
    let a := Assignment.empty.setField ⟨"p"⟩ (.header .vlan) 2
    let sourced := a.setField ⟨"q"⟩ (.header .srcIp) 5
    let other := a.setField ⟨"r"⟩ (.header .vlan) 1
    (a.ExtendedBy sourced ∧ f.eval a = some true ∧ f.eval sourced = some true) ∧
    ((∀ t ∈ f.terms, a.term? t = other.term? t) ∧ f.eval a = f.eval other) ∧
    ((∀ p ∈ f.packets, ∀ g, a.field? p g = other.field? p g) ∧
      (∀ x, .var x ∈ f.terms → a.int? x = other.int? x) ∧ f.eval a = f.eval other) ∧
    ((∀ t ∈ f.lookups a, a.term? t = sourced.term? t) ∧ f.eval a = f.eval sourced) := by
  intro f a sourced other
  have hextended : a.ExtendedBy sourced := Assignment.extendedBy_setField rfl 5
  have htrue : f.eval a = some true := by decide
  have hterms : ∀ t ∈ f.terms, a.term? t = other.term? t := by decide
  have hfield : ∀ p ∈ f.packets, ∀ g, a.field? p g = other.field? p g := by
    intro p hp g
    have hr : p ≠ ⟨"r"⟩ := by
      rintro rfl
      exact absurd (mem_packets.1 hp) (by decide)
    exact (if_neg fun h => hr h.1).symm
  have hlookups : ∀ t ∈ f.lookups a, a.term? t = sourced.term? t := by decide
  obtain ⟨hmonotone, -, -, hlooked⟩ := eval_monotone_and_local f a sourced
  obtain ⟨-, hlocal, hpackets, -⟩ := eval_monotone_and_local f a other
  exact ⟨⟨hextended, htrue, hmonotone hextended true htrue⟩, ⟨hterms, hlocal hterms⟩,
    ⟨hfield, fun _ _ => rfl, hpackets hfield fun _ _ => rfl⟩, hlookups, hlooked hlookups⟩

end Formula

end SlicePolicy
