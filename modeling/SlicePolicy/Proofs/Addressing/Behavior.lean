import SlicePolicy.Proofs.Addressing.Tests

namespace SlicePolicy

/-!
# Physical forms of policies behave the same

At the physical port of a port of the slice, the physical form of a policy takes the physical forms
of the actions that the policy takes at the port itself, so it sends the same packets out of the
physical ports and reports to the same taps.

* `AddressMap.Relocates` — something that is sent, and the same at the physical port.
* `Action.ports_physical`, `Action.outputs_physical` — the ports of a physical action and what it
  sends.
* `Policy.branches_physical`, `Policy.actions_physical` — the branches of a physical policy, and which
  actions it takes.
* `Policy.behavior_physical` — the whole behavior, in maps without physical zeros.
-/

/-- The second is the first, sent out of the physical port. -/
def AddressMap.Relocates (m : AddressMap) (o o' : Packet × Location) : Prop :=
  o'.1 = o.1 ∧ m.ports[o.2]? = some o'.2

variable {m : AddressMap}

/-! ### Actions -/

namespace Action

/-- An action on any switch has no ports and is its own physical form. Any other gets its physical
    switch and, in their order, the physical ports of its ports, and keeps the rest. -/
theorem physical_eq_ok_iff {a a' : Action} : a.physical m = .ok a' ↔
    (a.switch = wildcard ∧ a.ports = [] ∧ a' = a) ∨
    (a.switch ≠ wildcard ∧ m.physicalSwitch a.switch = .ok a'.switch ∧
      List.Forall₂ (fun port port' => m.physicalLocation ⟨a.switch, port⟩ = .ok ⟨a'.switch, port'⟩)
        a.ports a'.ports ∧
      a'.modify = a.modify ∧ a'.observe = a.observe) := by
  unfold physical
  by_cases hs : a.switch = wildcard
  · rw [if_pos hs]
    cases hports : a.ports with
    | nil => simp [hs, eq_comm]
    | cons port ports => simp [hs]
  · rw [if_neg hs, bind_eq_ok_iff]
    simp only [bind_eq_ok_iff, mapM_eq_ok_iff, pure_eq_ok_iff, map_eq_ok_iff]
    -- a physical port lies on the physical switch, so its number says all
    have hport {s : Value} (hswitch : m.physicalSwitch a.switch = .ok s) (port port' : Value) :
        (∃ l', m.physicalLocation ⟨a.switch, port⟩ = .ok l' ∧ l'.port = port') ↔
          m.physicalLocation ⟨a.switch, port⟩ = .ok ⟨s, port'⟩ := by
      constructor
      · rintro ⟨l', hl, rfl⟩
        have hs' := AddressMap.switches_of_ports (AddressMap.physicalLocation_eq_ok_iff.1 hl)
        rw [AddressMap.physicalSwitch_eq_ok_iff, hs'] at hswitch
        rw [← Option.some.inj hswitch]
        exact hl
      · exact fun hl => ⟨_, hl, rfl⟩
    constructor
    · rintro ⟨s, hswitch, ports, hports, rfl⟩
      simp only [hport hswitch] at hports
      exact .inr ⟨hs, hswitch, hports, rfl, rfl⟩
    · rintro (⟨hzero, -⟩ | ⟨-, hswitch, hports, hmodify, hobserve⟩)
      · exact absurd hzero hs
      · simp only [← hport hswitch] at hports
        refine ⟨a'.switch, hswitch, a'.ports, hports, ?_⟩
        rw [← hmodify, ← hobserve]

/-- The physical form of an action changes and reports packets as the action does. -/
theorem modify_physical {a a' : Action} (ha : a.physical m = .ok a') :
    a'.modify = a.modify ∧ a'.observe = a.observe := by
  rcases physical_eq_ok_iff.1 ha with ⟨-, -, rfl⟩ | ⟨-, -, -, hrest⟩
  · exact ⟨rfl, rfl⟩
  · exact hrest

/-- The ports of the physical form of an action are the physical ports of its ports, in the same
    order. -/
theorem ports_physical {a a' : Action} (ha : a.physical m = .ok a') :
    List.Forall₂ (fun port port' => m.ports[(⟨a.switch, port⟩ : Location)]? = some ⟨a'.switch, port'⟩)
      a.ports a'.ports := by
  rcases physical_eq_ok_iff.1 ha with ⟨-, hports, rfl⟩ | ⟨-, -, hports, -⟩
  · rw [hports]
    exact .nil
  · exact hports.imp fun _ _ hport => AddressMap.physicalLocation_eq_ok_iff.1 hport

/-- The physical form of an action sends the same packets out of the physical ports, in the same
    order. -/
theorem outputs_physical {a a' : Action} (ha : a.physical m = .ok a') (x : Packet) :
    List.Forall₂ m.Relocates (a.outputs x) (a'.outputs x) := by
  have hpacket : a'.applyTo x = a.applyTo x := by
    rw [applyTo, applyTo, (modify_physical ha).1]
  rw [outputs, outputs, hpacket, List.forall₂_map_left_iff, List.forall₂_map_right_iff]
  exact (ports_physical ha).imp fun _ _ hport => ⟨rfl, hport⟩

end Action

/-! ### Policies -/

namespace Policy

/-- The branches of the physical form are those of the policy, with physical guards and actions. -/
theorem branches_physical {p phys : Policy} (hphys : p.physical m = .ok phys) :
    List.Forall₂ (fun b b' => b.1.physical m = .ok b'.1 ∧
      List.Forall₂ (fun a a' => a.physical m = .ok a') b.2 b'.2) p.branches phys.branches := by
  induction p generalizing phys with
  | bottom =>
    cases hphys
    exact .nil
  | branch guard acts =>
    simp only [physical, bind_eq_ok_iff, pure_eq_ok_iff, mapM_eq_ok_iff] at hphys
    obtain ⟨guard', hguard, acts', hacts, rfl⟩ := hphys
    exact .cons ⟨hguard, hacts⟩ .nil
  | union p q ihp ihq =>
    simp only [physical, bind_eq_ok_iff, pure_eq_ok_iff] at hphys
    obtain ⟨p', hp, q', hq, rfl⟩ := hphys
    exact List.rel_append (ihp hp) (ihq hq)

/-- In an unambiguous map the physical form of a policy takes, at a physical port, the physical forms
    of the actions that the policy takes at the port itself, because its guards accept the same. -/
theorem actions_physical (hm : m.Unambiguous) {p phys : Policy} (hphys : p.physical m = .ok phys)
    {l l' : Location} (hl : m.ports[l]? = some l') (x : Packet) :
    List.Forall₂ (fun a a' => a.physical m = .ok a') (p.actions x l) (phys.actions x l') := by
  rw [actions_eq_branches, actions_eq_branches]
  refine List.rel_flatMap (branches_physical hphys) fun b b' hb => ?_
  rw [Predicate.accepts_physical hm hb.1 hl x]
  -- either both guards accept, and all actions are taken, or neither does
  split
  · exact hb.2
  · exact .nil

/-- Physical forms of actions report to the same taps. -/
theorem taps_physical {acts acts' : List Action}
    (hacts : List.Forall₂ (fun a a' => a.physical m = .ok a') acts acts') :
    acts'.flatMap (fun a => a.observe.toList) = acts.flatMap fun a => a.observe.toList := by
  induction hacts with
  | nil => rfl
  | cons ha _ ih => rw [List.flatMap_cons, List.flatMap_cons, (Action.modify_physical ha).2, ih]

/-- **The physical form of a policy behaves as the policy.** In a map without physical zeros, take a
    policy that has a physical form, and a port of the slice. At the physical port the physical form
    sends what the policy sends at the port itself: as many packets, in the same order, each out of
    the physical port of the port that the policy sends it out of. The taps are the same. -/
theorem behavior_physical (m : AddressMap) (hm : m.Concrete) (p phys : Policy)
    (hphys : p.physical m = .ok phys) (x : Packet) (l l' : Location)
    (hl : m.ports[l]? = some l') :
    List.Forall₂ m.Relocates (p.outputs x l) (phys.outputs x l') ∧
      phys.observations x l' = p.observations x l := by
  have hacts := actions_physical hm.unambiguous hphys hl x
  constructor
  · exact List.rel_flatMap hacts fun a a' ha => a.outputs_physical ha x
  · rw [observations, observations, taps_physical hacts]

end Policy

/-! ### An instance: a policy of the slice on two switches -/

namespace TwoRooms

/-- What the guard selects is retagged, sent out of both ports of the first switch and reported;
    what comes in at the second switch goes back as it is. -/
def policy : Policy :=
  .union (.branch guard [⟨1, [2, 1], (∅ : KeyMap Header Value).insert .vlan 9, .ofList [4]⟩])
    (.branch (.located ⟨2, 1⟩) [.forward 2 1])

/-- The policy at the physical switches, where the ports of the first have traded places. -/
def policy' : Policy :=
  .union (.branch guard' [⟨100, [1, 2], (∅ : KeyMap Header Value).insert .vlan 9, .ofList [4]⟩])
    (.branch (.located ⟨200, 1⟩) [.forward 200 1])

end TwoRooms

/-- A packet that comes in at the second port of the first switch, which is the first physical
    port, is sent out of both, in the order of the slice's own ports, and reported. -/
theorem Policy.behavior_physical_retag :
    TwoRooms.map.Concrete ∧ TwoRooms.policy.physical TwoRooms.map = .ok TwoRooms.policy' ∧
    TwoRooms.map.ports[(⟨1, 2⟩ : Location)]? = some ⟨100, 1⟩ ∧
    (TwoRooms.policy.outputs Packet.blank ⟨1, 2⟩).map
      (fun o => (o.1.get? (.header .vlan), o.2)) = [(some 9, ⟨1, 2⟩), (some 9, ⟨1, 1⟩)] ∧
    List.Forall₂ TwoRooms.map.Relocates (TwoRooms.policy.outputs Packet.blank ⟨1, 2⟩)
      (TwoRooms.policy'.outputs Packet.blank ⟨100, 1⟩) ∧
    TwoRooms.policy'.observations Packet.blank ⟨100, 1⟩ = .ofList [4] := by
  obtain ⟨houtputs, htaps⟩ := behavior_physical TwoRooms.map TwoRooms.concrete TwoRooms.policy
    TwoRooms.policy' rfl Packet.blank ⟨1, 2⟩ ⟨100, 1⟩ rfl
  exact ⟨TwoRooms.concrete, rfl, rfl, by decide, houtputs, htaps.trans (by decide)⟩

end SlicePolicy
