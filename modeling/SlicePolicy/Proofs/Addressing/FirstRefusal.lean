import SlicePolicy.Proofs.Addressing.Behavior

namespace SlicePolicy

/-!
# Which policies have a physical form

A policy has a physical form when everything in it that names a switch or a port has a physical
counterpart. Otherwise the refusal is that of the first thing that has none, where the policy is read
from left to right: branch by branch, in a branch the guard before the actions, in an action the
switch before the ports.

* `Address`, `Address.refusal?` — what needs a counterpart, and why it may have none.
* `Policy.addresses` — all of it, in order; `Predicate.leaves` — the tests that a guard is made of.
* `Predicate.refusal?_physical`, `Action.refusal?_physical`, `Policy.refusal?_physical` — the first
  refusal is that of the physical form.
* `Policy.SameShape` — the same policy but for addresses.
* `Policy.physical_or_first_refusal` — which policies have a physical form, its shape, and the refusal of
  the others.
-/

/-! ### Addresses -/

/-- Something in a policy that needs a physical counterpart. -/
inductive Address
  /-- The pattern that a leaf of a guard tests. -/
  | pattern (k : Location)
  /-- The first port of an action on any switch. -/
  | onAnySwitch (n : Value)
  /-- The switch of an action. -/
  | switch (s : Value)
  /-- A port of an action. -/
  | port (l : Location)
  deriving DecidableEq

namespace Address

variable {m : AddressMap}

/-- Where a refusal is reported. -/
def location : Address → Location
  | pattern k => k
  | onAnySwitch n => ⟨wildcard, n⟩
  | switch s => ⟨s, wildcard⟩
  | port l => l

/-- Why there is no counterpart. In a pattern a concrete port has to come with a concrete switch, and a
switch alone is looked up among the switches; the ports of an action are looked up as they are. -/
def failure? (m : AddressMap) : Address → Option AddressFailure
  | pattern k =>
    if k.switch = wildcard then
      if k.port = wildcard then none else some .wildcardSwitch
    else if k.port = wildcard then
      if k.switch ∈ m.switches then none else some .unmappedSwitch
    else if k ∈ m.ports then none else some .unmappedPort
  | onAnySwitch _ => some .wildcardSwitch
  | switch s => if s ∈ m.switches then none else some .unmappedSwitch
  | port l => if l ∈ m.ports then none else some .unmappedPort

/-- The refusal of an address that has no counterpart. -/
def refusal? (m : AddressMap) (a : Address) : Option Error :=
  (a.failure? m).map (.unaddressable a.location)

end Address

namespace AddressMap

variable {m : AddressMap}

theorem refusal?_physicalSwitch {s : Value} :
    refusal? (m.physicalSwitch s) = (Address.switch s).refusal? m := by
  simp only [physicalSwitch, Address.refusal?, Address.failure?,
    Std.TreeMap.mem_iff_isSome_getElem?]
  cases m.switches[s]? <;> rfl

theorem refusal?_physicalLocation {l : Location} :
    refusal? (m.physicalLocation l) = (Address.port l).refusal? m := by
  simp only [physicalLocation, Address.refusal?, Address.failure?,
    Std.TreeMap.mem_iff_isSome_getElem?]
  cases m.ports[l]? <;> rfl

/-- The physical form of a pattern is refused as the address of the pattern. -/
theorem refusal?_physicalPattern {k : Location} :
    refusal? (m.physicalPattern k) = (Address.pattern k).refusal? m := by
  obtain ⟨s, port⟩ := k
  rw [physicalPattern, Address.refusal?, Address.failure?]
  by_cases hs : s = wildcard <;> by_cases hport : port = wildcard
  · simp [hs, hport, SlicePolicy.refusal?]
  · simp [hs, hport, SlicePolicy.refusal?, Address.location]
  · -- a switch alone is reported with any port
    simp only [hs, hport, if_false, if_true, refusal?_map, refusal?_physicalSwitch]
    rfl
  · simp only [hs, hport, if_false, refusal?_physicalLocation]
    rfl

end AddressMap

/-! ### Guards -/

namespace Predicate

variable {m : AddressMap}

/-- The tests that a predicate is made of, from left to right. -/
def leaves : Predicate → List Predicate
  | top => [top]
  | bottom => [bottom]
  | test f v => [test f v]
  | located k => [located k]
  | union p q | inter p q | diff p q => p.leaves ++ q.leaves

/-- The pattern that a leaf tests. A test of the switch is a pattern with any port, one of the port a
pattern with any switch; headers have no address. -/
def pattern? : Predicate → Option Location
  | test .switch v => some ⟨v, wildcard⟩
  | test .port v => some ⟨wildcard, v⟩
  | located k => some k
  | _ => none

/-- The patterns of the leaves. -/
def addresses (p : Predicate) : List Address := (p.leaves.filterMap pattern?).map .pattern

/-- A predicate is refused as the first of its leaves that is. -/
theorem refusal?_physical_leaves {p : Predicate} :
    refusal? (p.physical m) = p.leaves.findSome? fun leaf => refusal? (leaf.physical m) := by
  induction p with
  | top | bottom | test | located => exact List.findSome?_singleton.symm
  | union p q ihp ihq | inter p q ihp ihq | diff p q ihp ihq =>
    rw [physical, refusal?_bind₂, ihp, ihq, leaves, List.findSome?_append]

/-- A predicate has a physical form when all of its leaves have one. -/
theorem exists_physical_iff {p : Predicate} : (∃ q, p.physical m = .ok q) ↔
    ∀ leaf ∈ p.leaves, ∃ leaf', leaf.physical m = .ok leaf' := by
  rw [← refusal?_eq_none_iff, refusal?_physical_leaves, List.findSome?_eq_none_iff]
  exact forall₂_congr fun _ _ => refusal?_eq_none_iff

/-- A predicate is refused as the first of its patterns that is. -/
theorem refusal?_physical {p : Predicate} :
    refusal? (p.physical m) = p.addresses.findSome? (Address.refusal? m) := by
  induction p with
  | top | bottom => rfl
  | test f v =>
    by_cases hv : v = wildcard
    · -- the pattern of a wildcard admits everything
      rw [hv, physical_test_wildcard]
      cases f <;> rfl
    · cases f with
      | switch | port =>
        rw [physical, if_neg hv, refusal?_bind_pure, AddressMap.refusal?_physicalPattern]
        exact List.findSome?_singleton.symm
      | header h =>
        rw [physical_test_header]
        rfl
  | located k =>
    rw [physical, refusal?_map, AddressMap.refusal?_physicalPattern]
    exact List.findSome?_singleton.symm
  | union p q ihp ihq | inter p q ihp ihq | diff p q ihp ihq =>
    rw [physical, refusal?_bind₂, ihp, ihq, addresses, addresses, addresses, leaves,
      List.filterMap_append, List.map_append, List.findSome?_append]

end Predicate

/-! ### Actions -/

namespace Action

variable {m : AddressMap}

/-- The addresses of an action: the switch and then the ports; or, on any switch, the first port, if
there is one. -/
def addresses (a : Action) : List Address :=
  if a.switch = wildcard then a.ports.head?.toList.map .onAnySwitch
  else .switch a.switch :: a.ports.map fun port => .port ⟨a.switch, port⟩

/-- An action is refused as the first of its addresses that is. -/
theorem refusal?_physical {a : Action} :
    refusal? (a.physical m) = a.addresses.findSome? (Address.refusal? m) := by
  unfold physical addresses
  by_cases hs : a.switch = wildcard
  · rw [if_pos hs, if_pos hs]
    cases a.ports with
    | nil => rfl
    | cons port ports =>
      rw [hs]
      rfl
  · rw [if_neg hs, if_neg hs, refusal?_bind₂, refusal?_mapM, AddressMap.refusal?_physicalSwitch,
      List.findSome?_cons, List.findSome?_map]
    simp only [refusal?_map, AddressMap.refusal?_physicalLocation]
    cases Address.refusal? m (.switch a.switch) <;> rfl

/-- An action has a physical form when it is on any switch and has no ports, or when its switch and all
of its ports have counterparts. -/
theorem exists_physical_iff {a : Action} : (∃ a', a.physical m = .ok a') ↔
    (a.switch = wildcard ∧ a.ports = []) ∨
    (a.switch ≠ wildcard ∧ (∃ s, m.physicalSwitch a.switch = .ok s) ∧
      ∀ port ∈ a.ports, ∃ l, m.physicalLocation ⟨a.switch, port⟩ = .ok l) := by
  simp only [← refusal?_eq_none_iff, refusal?_physical, AddressMap.refusal?_physicalSwitch,
    AddressMap.refusal?_physicalLocation, List.findSome?_eq_none_iff]
  unfold addresses
  by_cases hs : a.switch = wildcard
  · rw [if_pos hs]
    cases a.ports <;> simp [hs, Address.refusal?, Address.failure?]
  · rw [if_neg hs, List.forall_mem_cons, List.forall_mem_map]
    simp only [hs, false_and, false_or, ne_eq, not_false_eq_true, true_and]

end Action

/-! ### Policies -/

namespace Policy

variable {m : AddressMap}

/-- All addresses of a policy: branch by branch, those of the guard and then those of the actions. -/
def addresses (p : Policy) : List Address :=
  p.branches.flatMap fun b => b.1.addresses ++ b.2.flatMap Action.addresses

/-- A policy is refused as the first of its branches that is, and a branch as its guard or else the
first of its actions that is. -/
theorem refusal?_physical_branches {p : Policy} :
    refusal? (p.physical m) = p.branches.findSome? fun b =>
      (refusal? (b.1.physical m)).or (b.2.findSome? fun a => refusal? (a.physical m)) := by
  induction p with
  | bottom => rfl
  | branch guard acts =>
    rw [physical, refusal?_bind₂, refusal?_mapM]
    exact List.findSome?_singleton.symm
  | union p q ihp ihq => rw [physical, refusal?_bind₂, ihp, ihq, branches, List.findSome?_append]

/-- **A policy is refused as the first of its addresses that is.** -/
theorem refusal?_physical {p : Policy} :
    refusal? (p.physical m) = p.addresses.findSome? (Address.refusal? m) := by
  rw [refusal?_physical_branches, addresses, findSome?_flatMap]
  simp only [List.findSome?_append, findSome?_flatMap, Predicate.refusal?_physical,
    Action.refusal?_physical]

/-- A policy has a physical form when all the leaves of its guards and all its actions have one. -/
theorem exists_physical_iff {p : Policy} : (∃ phys, p.physical m = .ok phys) ↔
    ∀ b ∈ p.branches, (∀ leaf ∈ b.1.leaves, ∃ leaf', leaf.physical m = .ok leaf') ∧
      ∀ a ∈ b.2, ∃ a', a.physical m = .ok a' := by
  rw [← refusal?_eq_none_iff, refusal?_physical_branches, List.findSome?_eq_none_iff]
  refine forall₂_congr fun b _ => ?_
  rw [Option.or_eq_none_iff, refusal?_eq_none_iff, Predicate.exists_physical_iff,
    List.findSome?_eq_none_iff]
  exact and_congr_right fun _ => forall₂_congr fun _ _ => refusal?_eq_none_iff

end Policy

/-! ### Shapes -/

/-- The same tests in the same places; only a test of the switch or the port, or the pattern of a test
of both, may be another one. -/
inductive Predicate.SameShape : Predicate → Predicate → Prop
  | top : SameShape .top .top
  | bottom : SameShape .bottom .bottom
  | test {f : Field} {v v' : Value} (h : f.isLocation = false → v' = v) :
    SameShape (.test f v) (.test f v')
  | located (k k' : Location) : SameShape (.located k) (.located k')
  | union {p q p' q' : Predicate} (hp : SameShape p p') (hq : SameShape q q') :
    SameShape (.union p q) (.union p' q')
  | inter {p q p' q' : Predicate} (hp : SameShape p p') (hq : SameShape q q') :
    SameShape (.inter p q) (.inter p' q')
  | diff {p q p' q' : Predicate} (hp : SameShape p p') (hq : SameShape q q') :
    SameShape (.diff p q) (.diff p' q')

/-- The same changes, the same taps and as many ports. -/
structure Action.SameShape (a a' : Action) : Prop where
  modify_eq : a'.modify = a.modify
  observe_eq : a'.observe = a.observe
  length_eq : a'.ports.length = a.ports.length

/-- The same tree, with as many actions in every branch; guards and actions have the same shape. -/
inductive Policy.SameShape : Policy → Policy → Prop
  | bottom : SameShape .bottom .bottom
  | branch {guard guard' : Predicate} {acts acts' : List Action} (hguard : guard.SameShape guard')
    (hacts : List.Forall₂ Action.SameShape acts acts') :
    SameShape (.branch guard acts) (.branch guard' acts')
  | union {p q p' q' : Policy} (hp : SameShape p p') (hq : SameShape q q') :
    SameShape (.union p q) (.union p' q')

section

variable {m : AddressMap}

/-- The physical form of a predicate has its shape. -/
theorem Predicate.sameShape_physical {p q : Predicate} (hq : p.physical m = .ok q) :
    p.SameShape q := by
  induction p generalizing q with
  | top =>
    cases hq
    exact .top
  | bottom =>
    cases hq
    exact .bottom
  | test f v =>
    by_cases hv : v = wildcard
    · rw [hv, physical_test_wildcard, Except.ok.injEq] at hq
      rw [hv, ← hq]
      exact .test fun _ => rfl
    · cases f with
      | switch =>
        obtain ⟨c, _, rfl⟩ := (physical_test_switch hv).1 hq
        exact .test fun h => absurd h.symm Bool.false_ne_true
      | port => exact absurd hq (physical_test_port hv q)
      | header h =>
        rw [physical_test_header, Except.ok.injEq] at hq
        rw [← hq]
        exact .test fun _ => rfl
  | located k =>
    obtain ⟨k', _, rfl⟩ := map_eq_ok_iff.1 hq
    exact .located k k'
  | union p q ihp ihq | inter p q ihp ihq | diff p q ihp ihq =>
    simp only [physical, bind_eq_ok_iff, pure_eq_ok_iff] at hq
    obtain ⟨p', hp', q', hq', rfl⟩ := hq
    constructor
    · exact ihp hp'
    · exact ihq hq'

theorem Action.sameShape_physical {a a' : Action} (ha : a.physical m = .ok a') : a.SameShape a' where
  modify_eq := (modify_physical ha).1
  observe_eq := (modify_physical ha).2
  length_eq := (ports_physical ha).length_eq.symm

/-- The physical form of a policy has its shape. -/
theorem Policy.sameShape_physical {p phys : Policy} (hphys : p.physical m = .ok phys) :
    p.SameShape phys := by
  induction p generalizing phys with
  | bottom =>
    cases hphys
    exact .bottom
  | branch guard acts =>
    simp only [physical, bind_eq_ok_iff, pure_eq_ok_iff, mapM_eq_ok_iff] at hphys
    obtain ⟨guard', hguard, acts', hacts, rfl⟩ := hphys
    exact .branch (Predicate.sameShape_physical hguard)
      (hacts.imp fun _ _ ha => Action.sameShape_physical ha)
  | union p q ihp ihq =>
    simp only [physical, bind_eq_ok_iff, pure_eq_ok_iff] at hphys
    obtain ⟨p', hp', q', hq', rfl⟩ := hphys
    exact .union (ihp hp') (ihq hq')

end

/-! ### All or nothing -/

/-- **A policy has a physical form or is refused with the first address that has none.** It has one
exactly when every leaf of every guard has a physical form and every action is on a switch that has a
counterpart, with ports that have counterparts, or on any switch and without ports. Otherwise the
refusal is that of the first address that is refused, from left to right. The physical form has the
shape of the policy. -/
theorem Policy.physical_or_first_refusal (m : AddressMap) (p : Policy) :
    ((∃ phys, p.physical m = .ok phys) ↔ ∀ b ∈ p.branches,
      (∀ leaf ∈ b.1.leaves, ∃ leaf', leaf.physical m = .ok leaf') ∧
      ∀ a ∈ b.2, (a.switch = wildcard ∧ a.ports = []) ∨
        (a.switch ≠ wildcard ∧ (∃ s, m.physicalSwitch a.switch = .ok s) ∧
          ∀ port ∈ a.ports, ∃ l, m.physicalLocation ⟨a.switch, port⟩ = .ok l)) ∧
    (∀ e : Error, p.physical m = .error e ↔
      p.addresses.findSome? (Address.refusal? m) = some e) ∧
    ∀ phys : Policy, p.physical m = .ok phys → p.SameShape phys := by
  refine ⟨?_, fun e => ?_, fun phys hphys => sameShape_physical hphys⟩
  · simp only [exists_physical_iff, Action.exists_physical_iff]
  · rw [← refusal?_physical, refusal?_eq_some_iff]

namespace TwoRooms

/-- In the first branch an action without ports is on any switch, and the next one sends out of a port
that is not there. The last branch tests a port of any switch. -/
def lost : Policy :=
  .union
    (.union (.branch (.diff (.located ⟨1, 1⟩) (.test .switch wildcard))
      [.dropOn wildcard, .sendTo 2 [1, 9]]) .bottom)
    (.branch (.inter .top (.located ⟨wildcard, 9⟩)) [.forward 1 1])

end TwoRooms

/-- Of the two addresses without counterparts the port of the action is reported. A policy all of whose
addresses have counterparts has a physical form, with as many ports, changes and taps. -/
theorem Policy.physical_or_first_refusal_lost :
    TwoRooms.lost.addresses.findSome? (Address.refusal? TwoRooms.map)
      = some (.unaddressable ⟨2, 9⟩ .unmappedPort) ∧
    TwoRooms.lost.physical TwoRooms.map = .error (.unaddressable ⟨2, 9⟩ .unmappedPort) ∧
    TwoRooms.policy.physical TwoRooms.map = .ok TwoRooms.policy' ∧
    (∀ b ∈ TwoRooms.policy.branches, ∀ leaf ∈ b.1.leaves,
      ∃ leaf', leaf.physical TwoRooms.map = .ok leaf') ∧
    TwoRooms.policy.SameShape TwoRooms.policy' := by
  obtain ⟨-, hrefused, -⟩ := physical_or_first_refusal TwoRooms.map TwoRooms.lost
  obtain ⟨hbuilt, -, hshape⟩ := physical_or_first_refusal TwoRooms.map TwoRooms.policy
  have hphys : TwoRooms.policy.physical TwoRooms.map = .ok TwoRooms.policy' := rfl
  refine ⟨rfl, (hrefused _).2 rfl, hphys, fun b hb => ?_, hshape _ hphys⟩
  exact (hbuilt.1 ⟨_, hphys⟩ b hb).1

end SlicePolicy
