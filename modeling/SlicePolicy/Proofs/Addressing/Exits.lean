import SlicePolicy.Proofs.Addressing.Behavior

namespace SlicePolicy

/-!
# Where physical policies send

A physical policy can be given packets at any location, also where the slice has no port, and with
physical zeros its guards may accept there. Whatever it sends still leaves by the ports of the slice,
because every port of its actions is the physical port of a port of the policy's own actions.

* `Exit`, `Policy.exits` — the ports of all actions of a policy, each behind its guard, in the order
  in which packets are sent out of them.
* `Policy.outputs_eq_exits` — a policy sends by the exits whose guards accept.
* `Policy.exits_physical` — the exits of the physical form are those of the policy, one by one.
* `Policy.outputs_physical_on_ports` — what the physical form sends, at any location at all.
-/

/-! ### Exits -/

/-- A port of an action of a policy, and the guard of the branch in which the action stands. -/
structure Exit where
  guard : Predicate
  action : Action
  port : Value

namespace Exit

/-- Where packets leave. -/
def location (e : Exit) : Location := ⟨e.action.switch, e.port⟩

/-- What leaves for a packet. -/
def output (e : Exit) (x : Packet) : Packet × Location := (e.action.applyTo x, e.location)

/-- The ports of the actions of a branch. -/
def ofBranch (b : Predicate × List Action) : List Exit :=
  b.2.flatMap fun a => a.ports.map fun port => ⟨b.1, a, port⟩

/-- Whether the physical form of the guard accepts the packet at a physical location. -/
def opens (m : AddressMap) (x : Packet) (l : Location) (e : Exit) : Bool :=
  match e.guard.physical m with
  | .ok guard' => guard'.accepts x l
  | .error _ => false

/-- The second exit is the first one in physical form: it has the physical guard and the physical
    action, and lies at the physical port. -/
structure Becomes (m : AddressMap) (e e' : Exit) : Prop where
  guard_eq : e.guard.physical m = .ok e'.guard
  action_eq : e.action.physical m = .ok e'.action
  port_eq : m.ports[e.location]? = some e'.location

theorem guard_of_mem_ofBranch {b : Predicate × List Action} {e : Exit} (he : e ∈ ofBranch b) :
    e.guard = b.1 := by
  obtain ⟨a, -, hport⟩ := List.mem_flatMap.1 he
  obtain ⟨port, -, rfl⟩ := List.mem_map.1 hport
  rfl

/-- By the exits of a branch leaves what its actions send. -/
theorem map_output_ofBranch (b : Predicate × List Action) (x : Packet) :
    (ofBranch b).map (·.output x) = b.2.flatMap fun a => a.outputs x := by
  rw [ofBranch, List.map_flatMap]
  refine congrArg (List.flatMap · _) (funext fun a => ?_)
  rw [List.map_map]
  rfl

end Exit

namespace Policy

/-- The exits of all branches, from left to right. -/
def exits (p : Policy) : List Exit := p.branches.flatMap Exit.ofBranch

/-- A policy sends by the exits whose guards accept, in their order. -/
theorem outputs_eq_exits (p : Policy) (x : Packet) (l : Location) :
    p.outputs x l = (p.exits.filter fun e => e.guard.accepts x l).map (·.output x) := by
  rw [outputs, actions_eq_branches, List.flatMap_assoc, exits, List.filter_flatMap, List.map_flatMap]
  -- it is enough to look at one branch, where all exits have the same guard
  refine congrArg (List.flatMap · _) (funext fun b => ?_)
  have hguard : ∀ e ∈ Exit.ofBranch b, e.guard.accepts x l = b.1.accepts x l := by
    intro e he
    rw [Exit.guard_of_mem_ofBranch he]
  rw [List.filter_congr hguard]
  by_cases haccepts : b.1.accepts x l = true
  · simp [haccepts, Exit.map_output_ofBranch]
  · simp [haccepts]

end Policy

/-! ### Physical forms -/

variable {m : AddressMap}

/-- The guard of an exit opens it where the guard of its physical form accepts. -/
theorem Exit.Becomes.opens_eq {e e' : Exit} (h : e.Becomes m e') (x : Packet) (l : Location) :
    e.opens m x l = e'.guard.accepts x l := by
  rw [opens, h.guard_eq]

/-- By the physical form of an exit the same leaves, at the physical port. -/
theorem Exit.Becomes.relocates {e e' : Exit} (h : e.Becomes m e') (x : Packet) :
    m.Relocates (e.output x) (e'.output x) := by
  refine ⟨?_, h.port_eq⟩
  show e'.action.applyTo x = e.action.applyTo x
  rw [Action.applyTo, Action.applyTo, (Action.modify_physical h.action_eq).1]

namespace Policy

/-- The exits of the physical form are the physical forms of the exits, in the same order. -/
theorem exits_physical {p phys : Policy} (hphys : p.physical m = .ok phys) :
    List.Forall₂ (Exit.Becomes m) p.exits phys.exits := by
  refine List.rel_flatMap (branches_physical hphys) fun b b' hb => ?_
  refine List.rel_flatMap hb.2 fun a a' ha => ?_
  rw [List.forall₂_map_left_iff, List.forall₂_map_right_iff]
  exact (Action.ports_physical ha).imp fun _ _ hport => ⟨hb.1, ha, hport⟩

/-- **A physical policy stays on the ports of its slice.** Give the physical form of a policy any
    packet at any location. It sends, in their order, what leaves by the policy's exits that open
    there, each at the physical port of its exit. So everything leaves by the physical port of a
    port of the slice, namely the port of the action that it comes from. -/
theorem outputs_physical_on_ports (m : AddressMap) (p phys : Policy)
    (hphys : p.physical m = .ok phys) (x : Packet) (l : Location) :
    List.Forall₂ m.Relocates ((p.exits.filter (·.opens m x l)).map (·.output x))
      (phys.outputs x l) ∧
    ∀ o ∈ phys.outputs x l, ∃ e ∈ p.exits, e.opens m x l = true ∧
      o.1 = e.action.applyTo x ∧ m.ports[e.location]? = some o.2 := by
  have hopen : List.Forall₂ (Exit.Becomes m) (p.exits.filter (·.opens m x l))
      (phys.exits.filter fun e => e.guard.accepts x l) :=
    List.rel_filter (fun _ _ he => Bool.eq_iff_iff.1 (he.opens_eq x l)) (exits_physical hphys)
  rw [outputs_eq_exits]
  constructor
  · rw [List.forall₂_map_left_iff, List.forall₂_map_right_iff]
    exact hopen.imp fun _ _ he => he.relocates x
  · intro o ho
    obtain ⟨e', he', rfl⟩ := List.mem_map.1 ho
    obtain ⟨e, he, hbecomes⟩ := forall₂_exists_of_mem hopen.flip he'
    obtain ⟨hmem, hopens⟩ := List.mem_filter.1 he
    exact ⟨e, hmem, hopens, hbecomes.relocates x⟩

end Policy

/-! ### An instance: a slice with a switch on the physical zero -/

namespace ZeroSwitch

/-- The first switch lies on the physical switch zero, which guards take for any switch. -/
def switches : List (Value × Value) := [(1, 0), (2, 7)]

/-- The ports of both switches. -/
def ports : List (Location × Location) :=
  [(⟨1, 1⟩, ⟨0, 5⟩), (⟨1, 2⟩, ⟨0, 6⟩), (⟨2, 1⟩, ⟨7, 5⟩)]

/-- Where the slice lies. -/
def map : AddressMap := ⟨.ofList switches, .ofList ports, rfl⟩

/-- Everything at the first switch is retagged and sent out of both of its ports; what comes in at
    the second switch goes back. -/
def policy : Policy :=
  .union
    (.branch (.diff (.test .switch 1) (.located ⟨2, 1⟩))
      [⟨1, [2, 1], (∅ : KeyMap Header Value).insert .vlan 9, ∅⟩])
    (.branch (.located ⟨2, 1⟩) [.forward 2 1])

/-- The physical form of the policy, whose first guard accepts all that the second does not. -/
def policy' : Policy :=
  .union
    (.branch (.diff (.test .switch 0) (.located ⟨7, 5⟩))
      [⟨0, [6, 5], (∅ : KeyMap Header Value).insert .vlan 9, ∅⟩])
    (.branch (.located ⟨7, 5⟩) [.forward 7 5])

end ZeroSwitch

/-- At a location that is no port of the slice the policy itself sends nothing. Its physical form
    sends two packets, and they leave by the physical ports of the first switch. -/
theorem Policy.outputs_physical_on_ports_zero :
    ZeroSwitch.policy.physical ZeroSwitch.map = .ok ZeroSwitch.policy' ∧
    ZeroSwitch.policy.outputs Packet.blank ⟨33, 4⟩ = [] ∧
    (ZeroSwitch.policy'.outputs Packet.blank ⟨33, 4⟩).map Prod.snd = [⟨0, 6⟩, ⟨0, 5⟩] ∧
    List.Forall₂ ZeroSwitch.map.Relocates
      ((ZeroSwitch.policy.exits.filter (·.opens ZeroSwitch.map Packet.blank ⟨33, 4⟩)).map
        (·.output Packet.blank))
      (ZeroSwitch.policy'.outputs Packet.blank ⟨33, 4⟩) ∧
    ∀ o ∈ ZeroSwitch.policy'.outputs Packet.blank ⟨33, 4⟩, ∃ e ∈ ZeroSwitch.policy.exits,
      e.opens ZeroSwitch.map Packet.blank ⟨33, 4⟩ = true ∧
      o.1 = e.action.applyTo Packet.blank ∧ ZeroSwitch.map.ports[e.location]? = some o.2 := by
  exact ⟨rfl, by decide, by decide,
    outputs_physical_on_ports ZeroSwitch.map ZeroSwitch.policy ZeroSwitch.policy' rfl _ _⟩

end SlicePolicy
