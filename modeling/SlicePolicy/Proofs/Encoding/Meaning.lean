import SlicePolicy.Encoding
import SlicePolicy.Proofs.Formula.Folding
import SlicePolicy.Proofs.Policy.Branches

namespace SlicePolicy

/-!
# What the encodings mean

Under a valuation, a view shows a packet and, if its location terms are values, a location. The
encodings are true exactly of the packets that the policies treat so.

* `Valuation.Reading` — how the numbers of a domain are read as header values. Over the packet
  values every number is one; over an assignment one more number stands for an unset header.
* `Predicate.holds_encode_iff` — a predicate accepts the packet.
* `Policy.holds_encodeForwards_iff` — a policy sends the second packet when it gets the first.
* `Policy.holds_encodeObserves_iff` — a policy reports the packet to a tap.
* `Wiring.holds_encodeTransfer_iff` — the second packet is the first one across a link.
-/

variable {D : Type} {v : Valuation D}

/-- How the numbers of a domain are read as values of headers: different numbers are read
    differently and a literal as itself. A number that is not a value is an unset header. -/
structure Valuation.Reading (v : Valuation D) where
  value? : D → Option Value
  injective : ∀ {c d : D}, value? c = value? d → c = d
  value?_literal : ∀ c : Value, value? (v.literal c) = some c

namespace Valuation.Reading

variable (r : v.Reading)

/-- The packet that a view shows. -/
def packet (w : View) : Packet := ⟨⟨fun h => r.value? (v.term (w.term (.header h)))⟩⟩

/-- The view shows a packet at the location. -/
def At (w : View) (l : Location) : Prop :=
  r.value? (v.term (w.term .switch)) = some l.switch ∧
    r.value? (v.term (w.term .port)) = some l.port

theorem value?_inj {c d : D} : r.value? c = r.value? d ↔ c = d :=
  ⟨r.injective, congrArg r.value?⟩

/-- A term equals a literal when it is read as its value. -/
theorem term_eq_literal_iff {t : Term} {c : Value} :
    v.term t = v.term (.const c) ↔ r.value? (v.term t) = some c := by
  rw [← r.value?_inj, ← r.value?_literal c]
  rfl

/-- Reading a field through a view is reading it of the packet and the location shown. -/
theorem read_packet {w : View} {l : Location} (hl : r.At w l) (f : Field) :
    (r.packet w).read l f = r.value? (v.term (w.term f)) := by
  cases f with
  | switch => exact hl.1.symm
  | port => exact hl.2.symm
  | header h => rfl

end Valuation.Reading

/-! ### Predicates -/

/-- A test is true when it asks for any value or for the one that is read. -/
theorem holds_encodeTest_iff (r : v.Reading) {c : Value} {t : Term} :
    (encodeTest c t).Holds v ↔ c = wildcard ∨ r.value? (v.term t) = some c := by
  simp [encodeTest, r.term_eq_literal_iff]

/-- **A predicate's encoding is exact.** It is true when the predicate accepts the packet that the
    view shows, where the view shows it. -/
theorem Predicate.holds_encode_iff (r : v.Reading) {w : View} {l : Location} (hl : r.At w l)
    (p : Predicate) : (p.encode w).Holds v ↔ p.accepts (r.packet w) l = true := by
  induction p with
  | top => simp [encode, accepts]
  | bottom => simp [encode, accepts]
  | test f c =>
    rw [encode, holds_encodeTest_iff r, accepts, decide_eq_true_eq, r.read_packet hl]
  | located pattern =>
    -- the encoding compares the other way round than the pattern order
    rw [accepts, decide_eq_true_eq, Location.Covers, encode, Formula.holds_mkAnd]
    simp only [List.forall_mem_cons, holds_encodeTest_iff r, hl.1, hl.2, Option.some.injEq]
    simp [@eq_comm _ l.switch, @eq_comm _ l.port]
  | union p q ihp ihq => simp [encode, accepts, ihp, ihq]
  | inter p q ihp ihq => simp [encode, accepts, ihp, ihq]
  | diff p q ihp ihq => simp [encode, accepts, ihp, ihq]

/-! ### Policies -/

/-- The term that a header has after the changes of an action is read as the changed value. -/
theorem Action.value?_changedTerm (r : v.Reading) (a : Action) (w : View) (h : Header) :
    r.value? (v.term (a.changedTerm w h)) = (a.applyTo (r.packet w)).headers.get? h := by
  simp only [changedTerm, applyTo, KeyMap.get?_overlay]
  cases a.modify.get? h with
  | none => rfl
  | some c => exact r.value?_literal c

/-- An action's encoding is true when the second view shows what the action sends out of the port
    when it gets what the first view shows. -/
theorem Action.holds_encodeSends_iff (r : v.Reading) {input output : View} {m : Location}
    (hm : r.At output m) (a : Action) (port : Value) :
    (a.encodeSends port input output).Holds v ↔
      r.packet output = a.applyTo (r.packet input) ∧ m = ⟨a.switch, port⟩ := by
  have hheaders : (∀ h ∈ Header.all,
      v.term (output.term (.header h)) = v.term (a.changedTerm input h)) ↔
        r.packet output = a.applyTo (r.packet input) := by
    rw [Packet.ext_iff, KeyMap.ext_iff_all]
    refine forall₂_congr fun h _ => ?_
    rw [← r.value?_inj, a.value?_changedTerm r]
    rfl
  have hlocation : r.value? (v.term (output.term .switch)) = some a.switch ∧
      r.value? (v.term (output.term .port)) = some port ↔ m = ⟨a.switch, port⟩ := by
    rw [hm.1, hm.2, Option.some.injEq, Option.some.injEq, Location.mk.injEq]
  simp only [encodeSends, Formula.holds_mkAnd, List.forall_mem_append, List.forall_mem_cons,
    List.forall_mem_map, Formula.holds_mkEq, r.term_eq_literal_iff, hheaders]
  rw [← hlocation]
  simp [and_comm]

/-- **A policy's encoding is exact.** It is true when what the second view shows is an output of
    the policy for what the first view shows. -/
theorem Policy.holds_encodeForwards_iff (r : v.Reading) {input output : View} {l m : Location}
    (hl : r.At input l) (hm : r.At output m) (p : Policy) :
    (p.encodeForwards input output).Holds v ↔
      (r.packet output, m) ∈ p.outputs (r.packet input) l := by
  have hsent (b : Predicate × List Action) :
      (∃ f ∈ b.2.flatMap fun a => a.ports.map fun port => a.encodeSends port input output,
        f.Holds v) ↔
      ∃ a ∈ b.2, ∃ port ∈ a.ports, r.packet output = a.applyTo (r.packet input) ∧
        m = ⟨a.switch, port⟩ := by
    simp only [List.mem_flatMap, List.mem_map]
    constructor
    · rintro ⟨_, ⟨a, ha, port, hport, rfl⟩, h⟩
      exact ⟨a, ha, port, hport, (a.holds_encodeSends_iff r hm port).1 h⟩
    · rintro ⟨a, ha, port, hport, h⟩
      exact ⟨_, ⟨a, ha, port, hport, rfl⟩, (a.holds_encodeSends_iff r hm port).2 h⟩
  rw [encodeForwards, Formula.holds_mkOr, mem_outputs_iff]
  simp only [List.mem_map, exists_exists_and_eq_and, Formula.holds_mkAnd, List.forall_mem_cons,
    Predicate.holds_encode_iff r hl, Formula.holds_mkOr, hsent]
  simp

/-- **An observation's encoding is exact.** It is true when the tap term is read as a tap that sees
    what the view shows. -/
theorem Policy.holds_encodeObserves_iff (r : v.Reading) {w : View} {l : Location} (hl : r.At w l)
    (t : Term) (p : Policy) :
    (p.encodeObserves w t).Holds v ↔
      ∃ c ∈ p.observations (r.packet w) l, r.value? (v.term t) = some c := by
  have htapped (b : Predicate × List Action) :
      (∃ f ∈ b.2.flatMap fun a => a.observe.toList.map fun c => Formula.mkEq t (.const c),
        f.Holds v) ↔
      ∃ a ∈ b.2, ∃ c ∈ a.observe, r.value? (v.term t) = some c := by
    simp only [List.mem_flatMap, List.mem_map]
    constructor
    · rintro ⟨_, ⟨a, ha, c, hc, rfl⟩, h⟩
      exact ⟨a, ha, c, hc, r.term_eq_literal_iff.1 ((Formula.holds_mkEq _ _).1 h)⟩
    · rintro ⟨a, ha, c, hc, h⟩
      exact ⟨_, ⟨a, ha, c, hc, rfl⟩, (Formula.holds_mkEq _ _).2 (r.term_eq_literal_iff.2 h)⟩
  rw [encodeObserves, Formula.holds_mkOr]
  simp only [List.mem_map, exists_exists_and_eq_and, Formula.holds_mkAnd, List.forall_mem_cons,
    Predicate.holds_encode_iff r hl, Formula.holds_mkOr, htapped, mem_observations_iff]
  constructor
  · rintro ⟨b, hb, hguard, ⟨a, ha, c, hc, h⟩, -⟩
    exact ⟨c, ⟨b, hb, hguard, a, ha, hc⟩, h⟩
  · rintro ⟨c, ⟨b, hb, hguard, a, ha, hc⟩, h⟩
    exact ⟨b, hb, hguard, ⟨a, ha, c, hc, h⟩, fun _ hf => absurd hf List.not_mem_nil⟩

/-! ### Links -/

/-- A location's encoding is true when the packet is there. -/
theorem holds_encodeAt_iff (r : v.Reading) {x : PacketVar} {l : Location} (hl : r.At (.ofVar x) l)
    (k : Location) : (∀ f ∈ encodeAt x k, f.Holds v) ↔ l = k := by
  have hswitch : r.value? (v.term (.field .switch x)) = some l.switch := hl.1
  have hport : r.value? (v.term (.field .port x)) = some l.port := hl.2
  cases l
  cases k
  simp [encodeAt, r.term_eq_literal_iff, hswitch, hport]

/-- Two packet variables agree on all headers when they show the same packet. -/
theorem Valuation.Reading.packet_ofVar_eq_iff (r : v.Reading) {x y : PacketVar} :
    r.packet (.ofVar x) = r.packet (.ofVar y) ↔
      ∀ h ∈ Header.all, v.term (.field (.header h) x) = v.term (.field (.header h) y) := by
  rw [Packet.ext_iff, KeyMap.ext_iff_all]
  exact forall₂_congr fun h _ => r.value?_inj

/-- **A wiring's encoding is exact.** It is true when the two locations are the ends of a link and
    the two packets are the same. -/
theorem Wiring.holds_encodeTransfer_iff (r : v.Reading) {sent received : PacketVar}
    {l m : Location} (hl : r.At (.ofVar sent) l) (hm : r.At (.ofVar received) m) (w : Wiring) :
    (w.encodeTransfer sent received).Holds v ↔
      (l, m) ∈ w.hops ∧ r.packet (.ofVar sent) = r.packet (.ofVar received) := by
  have hcrosses : (∃ hop ∈ w.hops, ∀ f ∈ encodeAt sent hop.1 ++ encodeAt received hop.2,
      f.Holds v) ↔ (l, m) ∈ w.hops := by
    simp only [List.forall_mem_append, holds_encodeAt_iff r hl, holds_encodeAt_iff r hm]
    constructor
    · rintro ⟨hop, hhop, rfl, rfl⟩
      exact hhop
    · exact fun h => ⟨(l, m), h, rfl, rfl⟩
  rw [r.packet_ofVar_eq_iff, ← hcrosses, encodeTransfer, Formula.holds_mkAnd,
    List.forall_mem_cons, List.forall_mem_map]
  simp only [Formula.holds_mkOr, List.mem_map, exists_exists_and_eq_and, Formula.holds_mkAnd,
    Formula.holds_mkEq]

end SlicePolicy
