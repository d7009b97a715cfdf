import Mathlib.Tactic.ByContra
import SlicePolicy.Proofs.Encoding.Forwarding
import SlicePolicy.Proofs.Query.Solutions

namespace SlicePolicy

/-!
# Evaluating the transfer relation

The encoding of a wiring says of two packets that the second is the first one at the other end of a
link. It compares their headers one by one, so under an assignment that leaves a header open there
is no answer, unless folding decided before that the headers are those of one packet, or that no
link carries anything.

* `Assignment.SameHeaders` — the headers of two packets agree, none of them open.
* `Wiring.evaluates_encodeTransfer_iff` — when there is an answer.
* `Wiring.eval_encodeTransfer` — evaluation of the encoding against the hops of the wiring.
-/

variable {a : Assignment} {sent received : PacketVar} {l m : Location}

/-! ### Headers -/

/-- The assignment gives both packets the same value for every header. A packet also agrees with
    itself where the assignment leaves a header open. -/
def Assignment.SameHeaders (a : Assignment) (sent received : PacketVar) : Prop :=
  sent = received ∨
    ∀ h : Header, ∃ c : Value, a.field? sent (.header h) = some c ∧
      a.field? received (.header h) = some c

/-- All headers of both packets have values, or there is only one packet. -/
def Assignment.Comparable (a : Assignment) (sent received : PacketVar) : Prop :=
  sent = received ∨
    ∀ h : Header, (a.field? sent (.header h)).isSome ∧ (a.field? received (.header h)).isSome

/-- Packets that can be compared have the same headers when the assignment shows one packet for
    both. -/
theorem Assignment.Comparable.packet_eq_iff (hknown : a.Comparable sent received) :
    (View.ofVar sent).packet a = (View.ofVar received).packet a ↔ a.SameHeaders sent received := by
  refine ⟨fun heq => ?_, fun hsame => ?_⟩
  · refine hknown.imp_right fun hset h => ?_
    obtain ⟨c, hc⟩ := Option.isSome_iff_exists.1 (hset h).1
    have hheader : a.field? sent (.header h) = a.field? received (.header h) :=
      congrArg (fun x : Packet => x.headers.get? h) heq
    exact ⟨c, hc, hheader ▸ hc⟩
  · rcases hsame with rfl | hall
    · rfl
    · refine Packet.ext (KeyMap.ext (funext fun h => ?_))
      obtain ⟨c, hsent, hreceived⟩ := hall h
      show a.field? sent (.header h) = a.field? received (.header h)
      rw [hsent, hreceived]

/-! ### When there is an answer -/

/-- Where a packet is evaluates if the packet is shown at a location. -/
theorem evaluates_encodeAt {x : PacketVar} (h : (View.ofVar x).location? a = some l)
    (k : Location) : ∀ f ∈ encodeAt x k, f.Evaluates a := by
  obtain ⟨hswitch, hport⟩ := View.term?_of_location? h
  apply inherited_encodeAt (Formula.inherited_evaluates a).kept
  · exact Option.isSome_iff_exists.2 ⟨l.switch, hswitch⟩
  · exact Option.isSome_iff_exists.2 ⟨l.port, hport⟩

/-- The headers of two packets are compared with an answer when the packets can be compared. -/
theorem evaluates_encodeHeaders_iff :
    (∀ f ∈ encodeHeaders sent received, f.Evaluates a) ↔ a.Comparable sent received := by
  rw [encodeHeaders, List.forall_mem_map]
  simp only [Formula.evaluates_mkEq_iff, Term.field.injEq, true_and]
  rw [Assignment.Comparable]
  by_cases hsame : sent = received
  · simp only [hsame, true_or, implies_true]
  · simp only [hsame, false_or]
    exact ⟨fun hall h => hall h (Listed.mem_all h), fun hall h _ => hall h⟩

namespace Wiring

variable {w : Wiring}

/-- A link carries something from one packet variable to another one. -/
theorem exists_holds_encodeTransfer (hdiffer : sent ≠ received) (hhop : (l, m) ∈ w.hops) :
    ∃ (field : PacketVar → Field → Value) (int : IntVar → Value),
      (w.encodeTransfer sent received).Holds (.ofValues field int) := by
  let field (x : PacketVar) : Point := Packet.blank.pointAt (if x = sent then l else m)
  have hsent : field sent = Packet.blank.pointAt l := by simp only [field, if_pos]
  have hreceived : field received = Packet.blank.pointAt m := by
    simp only [field, if_neg (Ne.symm hdiffer)]
  refine ⟨field, fun _ => wildcard, (Query.holds_transfer_iff w sent received).2 ?_⟩
  rw [hsent, hreceived]
  exact carries_pointAt hhop Packet.blank

/-- The encoding between two packet variables has a part that folded to `false` when no link carries
    anything, and only then. -/
theorem const_false_mem_iff (hdiffer : sent ≠ received) :
    .const false ∈ w.encodeCrossing sent received :: encodeHeaders sent received ↔ w.hops = [] := by
  refine ⟨fun hmem => ?_, fun hnone => ?_⟩
  · by_contra hsome
    obtain ⟨⟨l, m⟩, hhop⟩ := List.exists_mem_of_ne_nil _ hsome
    obtain ⟨field, int, hholds⟩ := exists_holds_encodeTransfer hdiffer hhop
    rw [encodeTransfer_eq, Formula.holds_mkAnd] at hholds
    have hfalse := hholds _ hmem
    exact Bool.false_ne_true ((Formula.holds_const false).1 hfalse)
  · rw [encodeCrossing, hnone]
    exact List.mem_cons_self

/-- **When there is an answer.** Where both packets are shown at locations evaluation gives an
    answer when the packets can be compared, and also when no link carries anything. -/
theorem evaluates_encodeTransfer_iff (hl : (View.ofVar sent).location? a = some l)
    (hm : (View.ofVar received).location? a = some m) :
    (w.encodeTransfer sent received).Evaluates a ↔ w.hops = [] ∨ a.Comparable sent received := by
  have hcrosses : (w.encodeCrossing sent received).Evaluates a :=
    w.inherited_encodeCrossing (Formula.inherited_evaluates a).kept (evaluates_encodeAt hl)
      (evaluates_encodeAt hm)
  rw [encodeTransfer_eq, Formula.evaluates_mkAnd_iff, List.forall_mem_cons, and_iff_right hcrosses,
    evaluates_encodeHeaders_iff]
  by_cases hsame : sent = received
  · exact iff_of_true (.inr (.inl hsame)) (.inr (.inl hsame))
  · rw [const_false_mem_iff hsame]

/-! ### The answer -/

/-- **The transfer relation is exact.** Let both packets be shown at locations. An answer of
    evaluation says whether the locations are the ends of a link and the packets have the same
    headers, where a header that is left open agrees only with itself; and there is an answer if all
    fields of both packets have values. -/
theorem eval_encodeTransfer (w : Wiring) (sent received : PacketVar) (a : Assignment)
    {l m : Location} (hl : (View.ofVar sent).location? a = some l)
    (hm : (View.ofVar received).location? a = some m) :
    (∀ b : Bool, (w.encodeTransfer sent received).eval a = some b →
      (b = true ↔ (l, m) ∈ w.hops ∧ a.SameHeaders sent received)) ∧
    ((View.ofVar sent).Known a → (View.ofVar received).Known a →
      (w.encodeTransfer sent received).eval a ≠ none) := by
  refine ⟨fun b hb => ?_, fun hsent hreceived => ?_⟩
  · have hevaluates : (w.encodeTransfer sent received).Evaluates a := by
      rw [Formula.Evaluates, hb]
      rfl
    rw [← Formula.holds_valuation_iff _ hb, w.holds_encodeTransfer_iff a.reading
      (Assignment.at_reading hl) (Assignment.at_reading hm), a.packet_reading, a.packet_reading]
    -- an answer about a hop was not made by folding the hops away
    refine and_congr_right fun hhop => Assignment.Comparable.packet_eq_iff ?_
    have hanswer := (evaluates_encodeTransfer_iff hl hm).1 hevaluates
    exact hanswer.resolve_left (List.ne_nil_of_mem hhop)
  · have hcomparable : a.Comparable sent received :=
      .inr fun h => ⟨hsent (.header h), hreceived (.header h)⟩
    exact Option.isSome_iff_ne_none.1 ((evaluates_encodeTransfer_iff hl hm).2 (.inr hcomparable))

/-- The link of nodes 1 and 2 is listed twice, node 3 is linked to itself, and its link to node 2
    lacks a port. -/
def looped : Wiring :=
  .ofTable [(1, 2), (1, 2), (3, 3), (2, 3)] [((1, 2), 1), ((2, 1), 1), ((3, 3), 4), ((2, 3), 2)]

/-- A packet with all headers crosses the link of nodes 1 and 2, and there is an answer for the way
    back too. On the loop a packet of which nothing is known but where it is crosses to itself, and
    there is no answer for another packet of which nothing is known. -/
theorem eval_encodeTransfer_looped :
    let x : PacketVar := ⟨"x"⟩
    let y : PacketVar := ⟨"y"⟩
    let full : Assignment :=
      (Assignment.empty.setFields x (Field.all.map fun f => (f, 1))).setFields y
        (Field.all.map fun f => (f, if f = .switch then 2 else 1))
    let bare : Assignment := (Assignment.empty.setFields x [(.switch, 3), (.port, 4)]).setFields y
      [(.switch, 3), (.port, 4)]
    ((⟨1, 1⟩, ⟨2, 1⟩) ∈ looped.hops ∧ full.SameHeaders x y) ∧
      (looped.encodeTransfer y x).eval full ≠ none ∧
      ((⟨3, 4⟩, ⟨3, 4⟩) ∈ looped.hops ∧ bare.SameHeaders x x) ∧
      (looped.encodeTransfer x y).eval bare = none := by
  intro x y full bare
  have hforth : (looped.encodeTransfer x y).eval full = some true := by decide
  have hloop : (looped.encodeTransfer x x).eval bare = some true := by decide
  have hx : (View.ofVar x).Known full := by decide
  have hy : (View.ofVar y).Known full := by decide
  have hatx : (View.ofVar x).location? full = some ⟨1, 1⟩ := by decide
  have haty : (View.ofVar y).location? full = some ⟨2, 1⟩ := by decide
  refine ⟨?_, ?_, ?_, by decide⟩
  · exact ((eval_encodeTransfer looped x y full hatx haty).1 true hforth).1 rfl
  · exact (eval_encodeTransfer looped y x full haty hatx).2 hy hx
  · exact ((eval_encodeTransfer looped x x bare (by decide) (by decide)).1 true hloop).1 rfl

end Wiring

end SlicePolicy
