import SlicePolicy.Proofs.Encoding.Forwarding
import SlicePolicy.Proofs.Query.Simulation

namespace SlicePolicy

/-!
# Evaluating the observation relation

The encoding of what a policy reports says of a tap, which is a term, that the policy reports the
packet to it. The taps of a policy are gathered twice: as a set, from the actions that are taken on a
packet, and in the encoding, as equations of the tap under the guards of all branches.

* `Policy.evaluates_encodeObserves`, `Policy.eval_encodeObserves` — evaluation of the encoding against
  the taps that see the packet.
* `Policy.observations_exact` — the same, and what it makes of the query about two policies.
-/

variable {a : Assignment} {w : View}

namespace Policy

/-- What a policy reports of a known view evaluates when the tap has a value. -/
theorem evaluates_encodeObserves (hw : w.Known a) {t : Term} (ht : (a.term? t).isSome) (p : Policy) :
    (p.encodeObserves w t).Evaluates a :=
  p.inherited_encodeObserves (Formula.inherited_evaluates a).kept hw ht

/-- Let the view show a location and the tap have a value. An answer of evaluation says whether that
    tap sees what the view shows; and there is an answer if all fields of the view have values. -/
theorem eval_encodeObserves (p : Policy) {l : Location} (hl : w.location? a = some l) {t : Term}
    {c : Value} (ht : a.term? t = some c) :
    (∀ b : Bool, (p.encodeObserves w t).eval a = some b →
      (b = true ↔ c ∈ p.observations (w.packet a) l)) ∧
    (w.Known a → (p.encodeObserves w t).eval a ≠ none) := by
  constructor
  · intro b hb
    rw [← Formula.holds_valuation_iff _ hb, p.holds_encodeObserves_iff a.reading
      (Assignment.at_reading hl), a.packet_reading]
    -- the tap is read as its value, and as no other
    have hread : a.reading.value? (a.valuation.term t) = some c := by
      rw [a.term_valuation]
      exact ht
    simp only [hread, Option.some.injEq, exists_eq_right']
  · intro hw
    have htap : (a.term? t).isSome := by rw [ht]; rfl
    exact Option.isSome_iff_ne_none.1 (p.evaluates_encodeObserves hw htap)

/-- **The observation relation is exact.** Where the view shows a location and the tap has a value,
    an answer of evaluation says whether that tap sees what the view shows, and there is an answer if
    all fields of the view have values. So the query about two policies has a solution exactly when
    the first reports some packet without unset headers to a tap to which the second does not report
    it, whatever value the field gets in the packet or, if it is a location field, in the location. -/
theorem observations_exact :
    (∀ (p : Policy) (w : View) (t : Term) (a : Assignment) (l : Location) (c : Value),
      w.location? a = some l → a.term? t = some c →
        (∀ b : Bool, (p.encodeObserves w t).eval a = some b →
          (b = true ↔ c ∈ p.observations (w.packet a) l)) ∧
        (w.Known a → (p.encodeObserves w t).eval a ≠ none)) ∧
    (∀ (p q : Policy) (f : Field), (Query.simulatesObserves p q f).Satisfiable ↔
      ∃ (x : Packet) (l : Location) (tap : Value), x.Full ∧ tap ∈ p.observations x l ∧
        ∀ c : Value, tap ∉ q.observations (x.set f c) (l.put f c)) := by
  refine ⟨?_, ?_⟩
  · intro p w t a l c hl ht
    exact p.eval_encodeObserves hl ht
  · intro p q f
    exact Query.satisfiable_simulatesObserves_iff_observations

/-- Packets with tag 5 are reported to taps 4 and 7, and all packets at port 1 to tap 9. -/
def sampled : Policy :=
  .union (.branch (.test (.header .vlan) 5) [⟨1, [], ∅, .ofList [4, 7]⟩])
    (.branch (.located ⟨0, 1⟩) [⟨1, [2], ∅, .ofList [9]⟩])

/-- With a literal in the place of the tag nothing is known of the packet but where it is, and tap 9
    sees it while tap 7 does not. Nor does anyone make up for tap 9 by changing the tag of a packet at
    port 1, if the other policy reports to tap 4 there. -/
theorem observations_exact_sampled :
    let x : PacketVar := ⟨"x"⟩
    let w : View := (View.ofVar x).replace (.header .vlan) (.const 6)
    let a : Assignment := Assignment.empty.setFields x [(.switch, 3), (.port, 1)]
    let full : Assignment := Assignment.empty.setFields x (Field.all.map fun f => (f, 5))
    let q : Policy := .branch (.located ⟨0, 1⟩) [⟨1, [2], ∅, .ofList [4]⟩]
    9 ∈ sampled.observations (w.packet a) ⟨3, 1⟩ ∧
      7 ∉ sampled.observations (w.packet a) ⟨3, 1⟩ ∧
      (sampled.encodeObserves (.ofVar x) (.const 4)).eval full ≠ none ∧
      (Query.simulatesObserves sampled q (.header .vlan)).Satisfiable := by
  intro x w a full q
  have hl : w.location? a = some ⟨3, 1⟩ := by decide
  have hnine : (sampled.encodeObserves w (.const 9)).eval a = some true := by decide
  have hseven : (sampled.encodeObserves w (.const 7)).eval a = some false := by decide
  have hfull : (View.ofVar x).Known full := by decide
  have heval := observations_exact.1
  refine ⟨?_, ?_, ?_, ?_⟩
  · exact ((heval sampled w (.const 9) a _ 9 hl rfl).1 true hnine).1 rfl
  · intro hsees
    exact absurd (((heval sampled w (.const 7) a _ 7 hl rfl).1 false hseven).2 hsees) (by decide)
  · exact (heval sampled (.ofVar x) (.const 4) full ⟨5, 5⟩ 4 (by decide) rfl).2 hfull
  · refine (observations_exact.2 sampled q (.header .vlan)).2
      ⟨⟨⟨fun _ => some 0⟩⟩, ⟨3, 1⟩, 9, fun _ => rfl, by decide, fun c => ?_⟩
    show 9 ∉ TapSet.ofList [4]
    decide

end Policy

end SlicePolicy
