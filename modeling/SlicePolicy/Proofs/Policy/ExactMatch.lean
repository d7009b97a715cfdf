import SlicePolicy.Proofs.LastEntry
import SlicePolicy.Proofs.Network.Point

namespace SlicePolicy

/-!
# Exact matches

An exact match is built from a list of tests. Its header tests are all made; but of the tests of the
switch, and of those of the port, only the last one is, because together they become one pattern. A
test that another value replaces is overruled, and then the exact match accepts packets that the test
refuses.

* `Predicate.accepts_interAll_iff` — an intersection accepts what all of its parts accept.
* `Predicate.Overruled` — a test that is not made.
* `Predicate.accepts_exactly_iff` — an exact match makes all other tests.
* `Predicate.exactly_makes_tests_iff` — which exact matches make every test of their list.
* `Predicate.overruled_test_is_lost` — one that does not.
-/

namespace Predicate

variable {x : Packet} {l : Location} {tests : List (Field × Value)}

/-- An intersection accepts what all of its parts accept. -/
theorem accepts_interAll_iff {ps : List Predicate} :
    (interAll ps).accepts x l = true ↔ ∀ p ∈ ps, p.accepts x l = true := by
  cases ps with
  | nil => simp [interAll, accepts]
  | cons p ps =>
    show (ps.foldl inter p).accepts x l = true ↔ _
    -- the fold carries the intersection of the parts that were passed, here `p`
    induction ps generalizing p with
    | nil => simp
    | cons q ps ih =>
      rw [List.foldl_cons, ih (inter p q)]
      simp only [List.forall_mem_cons, accepts, Bool.and_eq_true, and_assoc]

theorem accepts_test_iff {f : Field} {v : Value} :
    (test f v).accepts x l = true ↔ v = wildcard ∨ x.read l f = some v := by
  rw [accepts, decide_eq_true_eq]

/-! ### The tests that are made -/

/-- A test of the switch or the port that the list asks in vain: the value that it asks of the field
last is another one. A test of the wildcard asks nothing. -/
def Overruled (tests : List (Field × Value)) (e : Field × Value) : Prop :=
  e.1.isLocation = true ∧ e.2 ≠ wildcard ∧ lastAsked e.1 tests ≠ some e.2

instance (tests : List (Field × Value)) (e : Field × Value) : Decidable (Overruled tests e) :=
  inferInstanceAs (Decidable (_ ∧ _ ∧ _))

theorem lastAsked_eq_lastEntry (f : Field) (tests : List (Field × Value)) :
    lastAsked f tests = lastEntry f tests := rfl

/-- The pattern that the list asks for admits a location when the last test of the switch and the last
test of the port do. -/
theorem accepts_askedLocation_iff :
    (∀ pattern ∈ (askedLocation tests).toList, (located pattern).accepts x l = true) ↔
      ∀ (f : Field) (v : Value), f.isLocation = true → lastAsked f tests = some v →
        (test f v).accepts x l = true := by
  have hfields : (∀ (f : Field) (v : Value), f.isLocation = true → lastAsked f tests = some v →
        (test f v).accepts x l = true) ↔
      (∀ v, lastAsked .switch tests = some v → v = wildcard ∨ v = l.switch) ∧
        ∀ v, lastAsked .port tests = some v → v = wildcard ∨ v = l.port := by
    simp only [accepts_test_iff]
    constructor
    · intro h
      refine ⟨fun v hv => ?_, fun v hv => ?_⟩
      · exact (h .switch v rfl hv).imp_right fun hread => (Option.some.inj hread).symm
      · exact (h .port v rfl hv).imp_right fun hread => (Option.some.inj hread).symm
    · rintro ⟨hswitch, hport⟩ f v hf hv
      cases f with
      | switch => exact (hswitch v hv).imp_right fun heq => congrArg some heq.symm
      | port => exact (hport v hv).imp_right fun heq => congrArg some heq.symm
      | header h => exact absurd hf Bool.false_ne_true
  rw [hfields, askedLocation]
  simp only [accepts, decide_eq_true_eq]
  -- a component that the list does not ask for is a wildcard of the pattern
  cases lastAsked .switch tests <;> cases lastAsked .port tests <;> simp [Location.Covers]

/-- **An exact match makes all tests that are not overruled**, and no other. -/
theorem accepts_exactly_iff : (exactly tests).accepts x l = true ↔
    ∀ e ∈ tests, ¬Overruled tests e → (test e.1 e.2).accepts x l = true := by
  have hheaders : (∀ p ∈ (tests.filter fun e => !e.1.isLocation).map fun e => test e.1 e.2,
        p.accepts x l = true) ↔
      ∀ e ∈ tests, e.1.isLocation = false → (test e.1 e.2).accepts x l = true := by
    simp only [List.forall_mem_map, List.mem_filter, Bool.not_eq_true', and_imp]
  rw [exactly, accepts_interAll_iff, List.forall_mem_append, List.forall_mem_map,
    accepts_askedLocation_iff, hheaders]
  constructor
  · rintro ⟨hlast, hheader⟩ e he hmade
    cases hf : e.1.isLocation with
    | false => exact hheader e he hf
    | true =>
      by_cases hany : e.2 = wildcard
      · exact accepts_test_iff.2 (.inl hany)
      · have hcounts : lastAsked e.1 tests = some e.2 :=
          Decidable.byContradiction fun hne => hmade ⟨hf, hany, hne⟩
        exact hlast e.1 e.2 hf hcounts
  · intro hmade
    refine ⟨fun f v _ hv => ?_, fun e he hf => ?_⟩
    · -- the last test of a field is in the list and overruled by none
      exact hmade (f, v) (mem_of_lastEntry hv) fun hoverruled => hoverruled.2.2 hv
    · refine hmade e he fun hoverruled => ?_
      rw [Overruled, hf] at hoverruled
      exact Bool.false_ne_true hoverruled.1

end Predicate

/-! ### Tests that are lost -/

/-- A location field is read as the value that is put into the location. -/
theorem Packet.read_put_self {f : Field} (hf : f.isLocation = true) (x : Packet) (l : Location)
    (v : Value) : x.read (l.put f v) f = some v := by
  cases f with
  | switch => rfl
  | port => rfl
  | header h => exact absurd hf Bool.false_ne_true

/-- Every other field is read as before when a value is put into the location. -/
theorem Packet.read_put_of_ne {f g : Field} (h : g ≠ f) (x : Packet) (l : Location) (v : Value) :
    x.read (l.put f v) g = x.read l g := by
  cases f <;> cases g <;> first | rfl | exact absurd rfl h

namespace Predicate

variable {x : Packet} {l : Location} {tests : List (Field × Value)}

/-- Where an exact match with an overruled test accepts anything, it accepts the same packet where the
overruled test refuses it: at the value that the list asks of the field last. -/
theorem exists_accepts_of_overruled {e : Field × Value} (he : e ∈ tests)
    (hoverruled : Overruled tests e) (haccepts : (exactly tests).accepts x l = true) :
    ∃ l' : Location, (exactly tests).accepts x l' = true ∧ (test e.1 e.2).accepts x l' = false := by
  obtain ⟨hf, hany, hlast⟩ := hoverruled
  obtain ⟨v, hv⟩ := exists_lastEntry_of_mem he
  refine ⟨l.put e.1 v, accepts_exactly_iff.2 fun d hd hmade => ?_, ?_⟩
  · have hd' := accepts_exactly_iff.1 haccepts d hd hmade
    rw [accepts_test_iff] at hd' ⊢
    by_cases hfield : d.1 = e.1
    · -- of the tests of this field only the last one is made, or none is needed
      by_cases hfree : d.2 = wildcard
      · exact .inl hfree
      · have hcounts : lastAsked d.1 tests = some d.2 := by
          refine Decidable.byContradiction fun hne => hmade ⟨?_, hfree, hne⟩
          rw [hfield]
          exact hf
        rw [hfield, lastAsked_eq_lastEntry, hv] at hcounts
        rw [hfield, Packet.read_put_self hf]
        exact .inr hcounts
    · rw [Packet.read_put_of_ne hfield]
      exact hd'
  · rw [← Bool.not_eq_true, accepts_test_iff, Packet.read_put_self hf, not_or]
    rw [lastAsked_eq_lastEntry, hv] at hlast
    exact ⟨hany, hlast⟩

/-- **What an exact match tests.** An exact match accepts a packet exactly when all tests of its list
that are not overruled do; these are all header tests and the last test of the switch and of the port.
It makes every test of its list, for all packets at all locations, exactly when none of them is
overruled or it accepts nothing at all. -/
theorem exactly_makes_tests_iff (tests : List (Field × Value)) :
    (∀ (x : Packet) (l : Location), (exactly tests).accepts x l = true ↔
      ∀ e ∈ tests, ¬Overruled tests e → (test e.1 e.2).accepts x l = true) ∧
    ((∀ (x : Packet) (l : Location), (exactly tests).accepts x l = true ↔
        ∀ e ∈ tests, (test e.1 e.2).accepts x l = true) ↔
      (∀ e ∈ tests, ¬Overruled tests e) ∨
        ∀ (x : Packet) (l : Location), (exactly tests).accepts x l = false) := by
  refine ⟨fun x l => accepts_exactly_iff, ?_, ?_⟩
  · intro hall
    refine Classical.or_iff_not_imp_right.2 fun hsome e he hoverruled => hsome fun x l => ?_
    refine Bool.eq_false_iff.2 fun haccepts => ?_
    obtain ⟨l', haccepts', hrefuses⟩ := exists_accepts_of_overruled he hoverruled haccepts
    rw [(hall x l').1 haccepts' e he] at hrefuses
    exact Bool.false_ne_true hrefuses.symm
  · rintro (hnone | hnothing) x l
    · rw [accepts_exactly_iff]
      exact forall₂_congr fun e he => forall_prop_of_true (hnone e he)
    · rw [hnothing x l]
      refine iff_of_false Bool.false_ne_true fun hall => ?_
      -- with all tests made, those that are not overruled would be
      have haccepts : (exactly tests).accepts x l = true :=
        accepts_exactly_iff.2 fun e he _ => hall e he
      rw [hnothing x l] at haccepts
      exact Bool.false_ne_true haccepts

/-- Tests in any order and with repetitions: every one of them is made. -/
theorem exactly_makes_tests_iff_web :
    let tests : List (Field × Value) := [(.header .dstPort, 80), (.port, 1), (.switch, wildcard),
      (.header .vlan, wildcard), (.switch, 2), (.header .dstPort, 80), (.port, 1)]
    (∀ e ∈ tests, ¬Overruled tests e) ∧
    ∀ (x : Packet) (l : Location), (exactly tests).accepts x l = true ↔
      ∀ e ∈ tests, (test e.1 e.2).accepts x l = true := by
  intro tests
  have hnone : ∀ e ∈ tests, ¬Overruled tests e := by decide
  exact ⟨hnone, (exactly_makes_tests_iff tests).2.2 (.inl hnone)⟩

/-- **An overruled test is lost.** An exact match of two switches accepts at the second one, where the
test of the first one refuses; two values of a header, on the other hand, are both asked for. -/
theorem overruled_test_is_lost :
    (exactly [(.switch, 1), (.switch, 2)]).accepts Packet.blank ⟨2, 1⟩ = true ∧
    (test .switch 1).accepts Packet.blank ⟨2, 1⟩ = false ∧
    (exactly [(.header .vlan, 1), (.header .vlan, 2)]).accepts
      (Packet.blank.set (.header .vlan) 2) ⟨2, 1⟩ = false ∧
    ¬∀ (tests : List (Field × Value)) (x : Packet) (l : Location),
      (exactly tests).accepts x l = true ↔ ∀ e ∈ tests, (test e.1 e.2).accepts x l = true := by
  refine ⟨by decide, by decide, by decide, fun hall => ?_⟩
  have hmade := (hall [(.switch, 1), (.switch, 2)] Packet.blank ⟨2, 1⟩).1 (by decide)
  exact absurd (hmade (.switch, 1) List.mem_cons_self) (by decide)

end Predicate

end SlicePolicy
