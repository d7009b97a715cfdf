import SlicePolicy.Proofs.Addressing.FirstRefusal

namespace SlicePolicy

/-!
# Different policies have different physical forms

A physical form has the shape of its policy, and the address map is injective on switches and on
ports, so the policy can be read off its physical form: leaf by leaf, where a test or a pattern has
to be told from one with wildcards, and action by action. All that can go wrong is that something
concrete becomes a wildcard.

* `AddressMap.Faithful` — nothing concrete becomes a wildcard. Maps without physical zeros are so
  (`AddressMap.Concrete.faithful`).
* `AddressMap.Faithful.physicalPattern_injective` — patterns; `Predicate.eq_of_physical`,
  `Action.eq_of_physical`, `Policy.eq_of_physical` — guards, actions and policies.
* `Policy.physical_injective_iff` — different policies have different physical forms in faithful
  maps, and in no others.
-/

/-! ### Maps that keep concrete addresses concrete -/

namespace AddressMap

/-- The physical switch of a concrete switch is concrete, and the physical port of a port that is
    concrete in both components has a concrete number. -/
structure Faithful (m : AddressMap) : Prop where
  switch_ne : ∀ {s c : Value}, s ≠ wildcard → m.switches[s]? = some c → c ≠ wildcard
  port_ne : ∀ {l l' : Location}, l.switch ≠ wildcard → l.port ≠ wildcard →
    m.ports[l]? = some l' → l'.port ≠ wildcard

variable {m : AddressMap}

theorem Concrete.faithful (hm : m.Concrete) : m.Faithful where
  switch_ne _ hs := hm.switch_ne hs
  port_ne _ _ hl := (hm.port_ne hl).2

namespace Faithful

variable (hm : m.Faithful)
include hm

/-- The physical form of a pattern has its wildcards, and no others. -/
theorem wildcards_physicalPattern {k c : Location} (hk : m.physicalPattern k = .ok c) :
    (c.switch = wildcard ↔ k.switch = wildcard) ∧ (c.port = wildcard ↔ k.port = wildcard) := by
  rcases physicalPattern_eq_ok_iff.1 hk with ⟨-, -, rfl⟩ | ⟨hs, hp, hc, hcp⟩ | ⟨hs, hp, hc⟩
  · exact ⟨Iff.rfl, Iff.rfl⟩
  · exact ⟨iff_of_false (hm.switch_ne hs hc) hs, iff_of_true hcp hp⟩
  · have hswitch : m.switches[k.switch]? = some c.switch := switches_of_ports hc
    exact ⟨iff_of_false (hm.switch_ne hs hswitch) hs, iff_of_false (hm.port_ne hs hp hc) hp⟩

/-- Patterns with the same physical form are the same. They have the same wildcards, and what they
    name is looked up in one of two injective maps. -/
theorem physicalPattern_injective {k l c : Location} (hk : m.physicalPattern k = .ok c)
    (hl : m.physicalPattern l = .ok c) : k = l := by
  obtain ⟨hkSwitch, hkPort⟩ := hm.wildcards_physicalPattern hk
  obtain ⟨hlSwitch, hlPort⟩ := hm.wildcards_physicalPattern hl
  have hswitch : k.switch = wildcard ↔ l.switch = wildcard := hkSwitch.symm.trans hlSwitch
  have hport : k.port = wildcard ↔ l.port = wildcard := hkPort.symm.trans hlPort
  rw [physicalPattern_eq_ok_iff] at hk hl
  by_cases hs : k.switch = wildcard
  · -- both admit everything, and are kept as they are
    obtain ⟨-, hkc⟩ : k.port = wildcard ∧ c = k := by simpa [hs] using hk
    obtain ⟨-, hlc⟩ : l.port = wildcard ∧ c = l := by simpa [hswitch.1 hs] using hl
    exact hkc.symm.trans hlc
  · have hs' : l.switch ≠ wildcard := mt hswitch.2 hs
    by_cases hp : k.port = wildcard
    · -- both name a switch
      have hp' : l.port = wildcard := hport.1 hp
      obtain ⟨hkc, -⟩ : m.switches[k.switch]? = some c.switch ∧ c.port = wildcard := by
        simpa [hs, hp] using hk
      obtain ⟨hlc, -⟩ : m.switches[l.switch]? = some c.switch ∧ c.port = wildcard := by
        simpa [hs', hp'] using hl
      cases k
      cases l
      rw [Location.mk.injEq]
      exact ⟨switches_injective hkc hlc, hp.trans hp'.symm⟩
    · -- both name a port
      have hkc : m.ports[k]? = some c := by simpa [hs, hp] using hk
      have hlc : m.ports[l]? = some c := by simpa [hs', mt hport.2 hp] using hl
      exact ports_injective hkc hlc

end Faithful

end AddressMap

/-! ### Reading a policy off its physical form -/

/-- The physical form of a test of the switch is the test of the switch of a physical pattern. -/
theorem Predicate.exists_physicalPattern_of_test_switch {m : AddressMap} {s : Value} {r : Predicate}
    (hr : (test .switch s).physical m = .ok r) :
    ∃ c : Value, m.physicalPattern ⟨s, wildcard⟩ = .ok ⟨c, wildcard⟩ ∧ r = test .switch c := by
  by_cases hs : s = wildcard
  · rw [hs, physical_test_wildcard, Except.ok.injEq] at hr
    refine ⟨wildcard, ?_, hr.symm⟩
    exact AddressMap.physicalPattern_eq_ok_iff.2 (.inl ⟨hs, rfl, by rw [hs]⟩)
  · obtain ⟨c, hc, rfl⟩ := (physical_test_switch hs).1 hr
    refine ⟨c, ?_, rfl⟩
    exact AddressMap.physicalPattern_eq_ok_iff.2 (.inr (.inl ⟨hs, rfl, hc, rfl⟩))

section

variable {m : AddressMap} (hm : m.Faithful)
include hm

/-- Tests of one field with the same physical form are the same. A test of the wildcard is kept, and
    a test of a concrete switch becomes one of another concrete switch. -/
theorem Predicate.eq_of_physical_test {f : Field} {v w : Value} {r : Predicate}
    (hv : (test f v).physical m = .ok r) (hw : (test f w).physical m = .ok r) : v = w := by
  cases f with
  | switch =>
    -- the test is that of a pattern with any port
    obtain ⟨c, hc, rfl⟩ := exists_physicalPattern_of_test_switch hv
    obtain ⟨d, hd, heq⟩ := exists_physicalPattern_of_test_switch hw
    rw [← (Predicate.test.inj heq).2] at hd
    exact (Location.mk.inj (hm.physicalPattern_injective hc hd)).1
  | port =>
    have hvz : v = wildcard := not_not.1 fun hne => physical_test_port hne r hv
    have hwz : w = wildcard := not_not.1 fun hne => physical_test_port hne r hw
    exact hvz.trans hwz.symm
  | header h =>
    rw [physical_test_header, Except.ok.injEq] at hv hw
    exact (Predicate.test.inj (hv.trans hw.symm)).2

/-- **Guards with the same physical form are the same.** The induction is on one of them; the other
    has the shape of the physical form, and so that of the first. -/
theorem Predicate.eq_of_physical {p q r : Predicate} (hp : p.physical m = .ok r)
    (hq : q.physical m = .ok r) : p = q := by
  induction p generalizing q r with
  | top =>
    cases hp
    cases sameShape_physical hq
    rfl
  | bottom =>
    cases hp
    cases sameShape_physical hq
    rfl
  | test f v =>
    cases sameShape_physical hp
    cases sameShape_physical hq
    rw [eq_of_physical_test hm hp hq]
  | located k =>
    obtain ⟨k', hk, rfl⟩ := map_eq_ok_iff.1 hp
    cases sameShape_physical hq
    obtain ⟨l', hl, heq⟩ := map_eq_ok_iff.1 hq
    rw [Predicate.located.inj heq] at hl
    rw [hm.physicalPattern_injective hk hl]
  | union p₁ p₂ ih₁ ih₂ | inter p₁ p₂ ih₁ ih₂ | diff p₁ p₂ ih₁ ih₂ =>
    simp only [physical, bind_eq_ok_iff, pure_eq_ok_iff] at hp
    obtain ⟨r₁, hp₁, r₂, hp₂, rfl⟩ := hp
    cases sameShape_physical hq
    simp only [physical, bind_eq_ok_iff, pure_eq_ok_iff] at hq
    obtain ⟨_, hq₁, _, hq₂, heq⟩ := hq
    cases heq
    rw [ih₁ hp₁ hq₁, ih₂ hp₂ hq₂]

/-- Actions with the same physical form are the same. Ports of one switch with the same physical
    number have the same physical port, because that lies on the physical switch. -/
theorem Action.eq_of_physical {a b r : Action} (ha : a.physical m = .ok r)
    (hb : b.physical m = .ok r) : a = b := by
  obtain ⟨hmodify, hobserve⟩ := modify_physical ha
  obtain ⟨hmodify', hobserve'⟩ := modify_physical hb
  obtain ⟨hswitch, hports⟩ : a.switch = b.switch ∧ a.ports = b.ports := by
    rcases physical_eq_ok_iff.1 ha with ⟨hs, hnone, rfl⟩ | ⟨hs, hc, hports, -⟩
    · rcases physical_eq_ok_iff.1 hb with ⟨hs', hnone', rfl⟩ | ⟨hs', hc', -⟩
      · exact ⟨rfl, rfl⟩
      · -- a concrete switch does not become any switch
        rw [AddressMap.physicalSwitch_eq_ok_iff] at hc'
        exact absurd hs (hm.switch_ne hs' hc')
    · rw [AddressMap.physicalSwitch_eq_ok_iff] at hc
      rcases physical_eq_ok_iff.1 hb with ⟨hs', hnone', rfl⟩ | ⟨hs', hc', hports', -⟩
      · exact absurd hs' (hm.switch_ne hs hc)
      · rw [AddressMap.physicalSwitch_eq_ok_iff] at hc'
        have hsame : a.switch = b.switch := AddressMap.switches_injective hc hc'
        have hunique : Relator.LeftUnique fun port port' =>
            m.physicalLocation ⟨b.switch, port⟩ = .ok ⟨r.switch, port'⟩ := by
          intro port₁ port₂ port' h₁ h₂
          rw [AddressMap.physicalLocation_eq_ok_iff] at h₁ h₂
          exact (Location.mk.inj (AddressMap.ports_injective h₁ h₂)).2
        rw [hsame] at hports
        exact ⟨hsame, List.left_unique_forall₂' hunique hports hports'⟩
  cases a
  cases b
  rw [Action.mk.injEq]
  exact ⟨hswitch, hports, hmodify.symm.trans hmodify', hobserve.symm.trans hobserve'⟩

/-- **Policies with the same physical form are the same.** -/
theorem Policy.eq_of_physical {p q r : Policy} (hp : p.physical m = .ok r)
    (hq : q.physical m = .ok r) : p = q := by
  induction p generalizing q r with
  | bottom =>
    cases hp
    cases sameShape_physical hq
    rfl
  | branch guard acts =>
    simp only [physical, bind_eq_ok_iff, pure_eq_ok_iff, mapM_eq_ok_iff] at hp
    obtain ⟨guard', hguard, acts', hacts, rfl⟩ := hp
    cases sameShape_physical hq
    simp only [physical, bind_eq_ok_iff, pure_eq_ok_iff, mapM_eq_ok_iff] at hq
    obtain ⟨_, hguard', _, hacts', heq⟩ := hq
    cases heq
    have hunique : Relator.LeftUnique fun a a' => Action.physical m a = .ok a' :=
      fun _ _ _ ha hb => Action.eq_of_physical hm ha hb
    rw [Predicate.eq_of_physical hm hguard hguard',
      List.left_unique_forall₂' hunique hacts hacts']
  | union p₁ p₂ ih₁ ih₂ =>
    simp only [physical, bind_eq_ok_iff, pure_eq_ok_iff] at hp
    obtain ⟨r₁, hp₁, r₂, hp₂, rfl⟩ := hp
    cases sameShape_physical hq
    simp only [physical, bind_eq_ok_iff, pure_eq_ok_iff] at hq
    obtain ⟨_, hq₁, _, hq₂, heq⟩ := hq
    cases heq
    rw [ih₁ hp₁ hq₁, ih₂ hp₂ hq₂]

end

/-! ### Maps in which policies collide -/

variable {m : AddressMap}

/-- A guard without actions has the physical form of the guard, without actions. -/
theorem Policy.physical_guard {p r : Predicate} (hr : p.physical m = .ok r) :
    (branch p []).physical m = .ok (branch r []) := by
  simp only [physical, bind_eq_ok_iff, pure_eq_ok_iff, mapM_eq_ok_iff]
  exact ⟨r, hr, [], .nil, rfl⟩

/-- **Different policies have different physical forms.** In a map without physical zeros no two
    policies have the same physical form. The maps in which this is so are those in which nothing
    concrete becomes a wildcard. -/
theorem Policy.physical_injective_iff (m : AddressMap) :
    (m.Concrete → ∀ p q phys : Policy, p.physical m = .ok phys → q.physical m = .ok phys → p = q) ∧
    ((∀ p q phys : Policy, p.physical m = .ok phys → q.physical m = .ok phys → p = q) ↔
      m.Faithful) := by
  refine ⟨fun hm p q phys hp hq => eq_of_physical hm.faithful hp hq, fun hinjective => ?_,
    fun hm p q phys hp hq => eq_of_physical hm hp hq⟩
  have hguards {p q r : Predicate} (hp : p.physical m = .ok r) (hq : q.physical m = .ok r) :
      p = q :=
    (Policy.branch.inj (hinjective _ _ _ (physical_guard hp) (physical_guard hq))).1
  constructor
  · -- the test of the switch becomes the test of any switch, which is kept
    rintro s c hs hc rfl
    have hform : (Predicate.test .switch s).physical m = .ok (.test .switch wildcard) :=
      (Predicate.physical_test_switch hs).2 ⟨wildcard, hc, rfl⟩
    exact hs (Predicate.test.inj (hguards hform (Predicate.physical_test_wildcard .switch))).2
  · -- the test of the port becomes the test of its switch
    rintro l ⟨s', n⟩ hs hp hl rfl
    have hform : (Predicate.located l).physical m = .ok (.located ⟨s', wildcard⟩) :=
      map_eq_ok_iff.2 ⟨_, AddressMap.physicalPattern_eq_ok_iff.2 (.inr (.inr ⟨hs, hp, hl⟩)), rfl⟩
    have hswitch : m.switches[l.switch]? = some s' := AddressMap.switches_of_ports hl
    have hform' : (Predicate.located ⟨l.switch, wildcard⟩).physical m
        = .ok (.located ⟨s', wildcard⟩) :=
      map_eq_ok_iff.2 ⟨_, AddressMap.physicalPattern_eq_ok_iff.2
        (.inr (.inl ⟨hs, rfl, hswitch, rfl⟩)), rfl⟩
    have hsame : l = ⟨l.switch, wildcard⟩ := Predicate.located.inj (hguards hform hform')
    exact hp (congrArg Location.port hsame)

/-- Only the policy itself becomes this physical policy, in which the ports of a switch have traded
    places. -/
theorem Policy.physical_injective_iff_retag :
    TwoRooms.map.Concrete ∧ TwoRooms.map.Faithful ∧
    TwoRooms.policy.physical TwoRooms.map = .ok TwoRooms.policy' ∧
    ∀ q : Policy, q.physical TwoRooms.map = .ok TwoRooms.policy' → q = TwoRooms.policy := by
  obtain ⟨hsame, hiff⟩ := physical_injective_iff TwoRooms.map
  have hinjective := hsame TwoRooms.concrete
  refine ⟨TwoRooms.concrete, hiff.1 hinjective, rfl, fun q hq => ?_⟩
  exact hinjective q TwoRooms.policy TwoRooms.policy' hq rfl

end SlicePolicy
