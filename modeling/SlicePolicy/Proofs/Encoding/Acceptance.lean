import SlicePolicy.Proofs.Encoding.Forwarding

namespace SlicePolicy

/-!
# Evaluating what predicates accept

The encoding of a predicate can be evaluated under an assignment that gives values to some fields
only. A test of an unset header has no answer, unless folding decided it before: a test of the
wildcard, or of a header in whose place the view has put a literal. Where there is an answer, it is
what the predicate says of the packet with its unset headers.

* `Predicate.eval_encode` — evaluation of the encoding against the predicate itself.
-/

/-- **Acceptance is exact.** Let the view show a location. An answer of evaluation is what the
    predicate says of the packet that the view shows, unset headers included; and there is an answer
    if all fields of the view have values. -/
theorem Predicate.eval_encode (p : Predicate) (w : View) (a : Assignment) {l : Location}
    (hl : w.location? a = some l) :
    (∀ b : Bool, (p.encode w).eval a = some b → b = p.accepts (w.packet a) l) ∧
    (w.Known a → (p.encode w).eval a = some (p.accepts (w.packet a) l)) := by
  have hanswer : ∀ b : Bool, (p.encode w).eval a = some b → b = p.accepts (w.packet a) l := by
    intro b hb
    rw [Bool.eq_iff_iff, ← Formula.holds_valuation_iff _ hb,
      p.holds_encode_iff a.reading (Assignment.at_reading hl), a.packet_reading]
  refine ⟨hanswer, fun hw => ?_⟩
  obtain ⟨b, hb⟩ := Option.isSome_iff_exists.1 (p.evaluates_encode hw)
  rw [hb, hanswer b hb]

/-- With a literal in the place of the tag only one test is left, which reads the only header that has
    a value; the pattern and the test of the wildcard are folded away. Under an assignment for all
    fields the same predicate is evaluated through the packet itself. -/
theorem Predicate.eval_encode_masked :
    let p : Predicate := .diff (.union (.test (.header .vlan) 5) (.located ⟨1, 0⟩))
      (.inter (.test (.header .srcIp) 0) (.test (.header .dstIp) 7))
    let x : PacketVar := ⟨"x"⟩
    let masked : View := (View.ofVar x).replace (.header .vlan) (.const 5)
    let few : Assignment := Assignment.empty.setFields x
      [(.switch, 2), (.port, 1), (.header .dstIp, 4)]
    let full : Assignment := Assignment.empty.setFields x (Field.all.map fun f => (f, 7))
    p.encode masked = .not (.eq (.field (.header .dstIp) x) (.const 7)) ∧
      p.accepts (masked.packet few) ⟨2, 1⟩ = true ∧
      (p.encode (.ofVar x)).eval few = none ∧
      (p.encode (.ofVar x)).eval full = some (p.accepts ((View.ofVar x).packet full) ⟨7, 7⟩) := by
  intro p x masked few full
  have hmasked : (p.encode masked).eval few = some true := by decide
  have hfull : (View.ofVar x).Known full := by decide
  refine ⟨by decide, ?_, by decide, ?_⟩
  · exact ((p.eval_encode masked few (by decide)).1 true hmasked).symm
  · exact (p.eval_encode (.ofVar x) full (by decide)).2 hfull

end SlicePolicy
