import SlicePolicy.Proofs.Encoding.Inherited
import SlicePolicy.Proofs.Encoding.Meaning
import SlicePolicy.Proofs.Formula.Evaluation

namespace SlicePolicy

/-!
# Evaluating the forwarding relation

The encoding of a policy can be evaluated under an assignment that gives values to some fields
only. What it answers is what the policy does with the packets that the two views show, and it
answers whenever all fields of both views have values.

* `Assignment.reading` — under an assignment a view shows `View.packet` at `View.location?`.
* `View.Known` — all fields of a view have values; then every encoding over it evaluates.
* `Policy.eval_encodeForwards` — evaluation of the encoding against the outputs of the policy.
-/

/-! ### What a view shows under an assignment -/

/-- The numbers of an assignment's valuation are read as they are: `none` is an unset header. -/
def Assignment.reading (a : Assignment) : a.valuation.Reading where
  value? := id
  injective := id
  value?_literal _ := rfl

theorem Assignment.packet_reading (a : Assignment) (w : View) :
    a.reading.packet w = w.packet a := by
  simp only [Valuation.Reading.packet, term_valuation]
  rfl

/-- Where a view shows a location, its location terms have the values of that location. -/
theorem View.term?_of_location? {a : Assignment} {w : View} {l : Location}
    (h : w.location? a = some l) :
    a.term? (w.term .switch) = some l.switch ∧ a.term? (w.term .port) = some l.port := by
  simp only [location?, Option.bind_eq_some_iff, Option.map_eq_some_iff] at h
  obtain ⟨s, hs, p, hp, rfl⟩ := h
  exact ⟨hs, hp⟩

theorem Assignment.at_reading {a : Assignment} {w : View} {l : Location}
    (h : w.location? a = some l) : a.reading.At w l := by
  simp only [Valuation.Reading.At, term_valuation]
  exact w.term?_of_location? h

/-! ### When the encodings evaluate -/

/-- All fields of the view have values. -/
def View.Known (w : View) (a : Assignment) : Prop := ∀ f : Field, (a.term? (w.term f)).isSome

instance (w : View) (a : Assignment) : Decidable (w.Known a) :=
  decidable_of_iff (∀ f ∈ Field.all, (a.term? (w.term f)).isSome)
    ⟨fun h f => h f (Listed.mem_all f), fun h f _ => h f⟩

variable {a : Assignment}

/-- A predicate over a known view evaluates. -/
theorem Predicate.evaluates_encode {w : View} (hw : w.Known a) (p : Predicate) :
    (p.encode w).Evaluates a :=
  p.inherited_encode (Formula.inherited_evaluates a).kept hw

/-- A policy between known views evaluates. -/
theorem Policy.evaluates_encodeForwards {input output : View} (hin : input.Known a)
    (hout : output.Known a) (p : Policy) : (p.encodeForwards input output).Evaluates a :=
  p.inherited_encodeForwards (Formula.inherited_evaluates a).kept hin hout

/-! ### The forwarding relation -/

/-- **The forwarding relation is exact.** Let both views show a location. An answer of evaluation
    says whether what the second view shows is an output of the policy for what the first view
    shows, unset headers included; and there is an answer if all fields of both views have
    values. -/
theorem Policy.eval_encodeForwards (p : Policy) (input output : View) (a : Assignment)
    {l m : Location} (hl : input.location? a = some l) (hm : output.location? a = some m) :
    (∀ b : Bool, (p.encodeForwards input output).eval a = some b →
      (b = true ↔ (output.packet a, m) ∈ p.outputs (input.packet a) l)) ∧
    (input.Known a → output.Known a → (p.encodeForwards input output).eval a ≠ none) := by
  constructor
  · intro b hb
    rw [← Formula.holds_valuation_iff _ hb,
      p.holds_encodeForwards_iff a.reading (Assignment.at_reading hl) (Assignment.at_reading hm),
      a.packet_reading, a.packet_reading]
  · intro hin hout
    exact Option.isSome_iff_ne_none.1 (p.evaluates_encodeForwards hin hout)

/-- A packet of which only the tag is known is sent out of port 3 with another tag: the second view
    is the same packet with the tag and the port replaced, so the unset headers agree. -/
theorem Policy.eval_encodeForwards_retag :
    let p : Policy := .branch (.test (.header .vlan) 5)
      [⟨1, [2, 3], (∅ : KeyMap Header Value).insert .vlan 9, ∅⟩]
    let x : PacketVar := ⟨"x"⟩
    let output : View := ((View.ofVar x).replace .port (.const 3)).replace (.header .vlan)
      (.var ⟨"tag"⟩)
    let a : Assignment := (Assignment.empty.setFields x
      [(.switch, 1), (.port, 1), (.header .vlan, 5)]).setInt ⟨"tag"⟩ 9
    (View.ofVar x).location? a = some ⟨1, 1⟩ ∧ output.location? a = some ⟨1, 3⟩ ∧
      (p.encodeForwards (.ofVar x) output).eval a = some true ∧
      (output.packet a, ⟨1, 3⟩) ∈ p.outputs ((View.ofVar x).packet a) ⟨1, 1⟩ := by
  refine ⟨by decide, by decide, by decide, ?_⟩
  exact ((Policy.eval_encodeForwards _ _ _ _ (by decide) (by decide)).1 true (by decide)).1 rfl

end SlicePolicy
