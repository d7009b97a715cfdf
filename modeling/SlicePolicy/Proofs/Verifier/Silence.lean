import SlicePolicy.Proofs.Verifier.Equivalence

namespace SlicePolicy

/-!
# Policies that send nothing

A policy can be silent because it has no branches, because no packet passes its guards, or because
its actions have no ports. The queries do not see which. A compiler that drops everything is caught
by them unless there was nothing to drop.

* `Policy.Silent` — nothing is sent for any packet; `Policy.silent_iff_forwards` — points are
  enough.
* `Policy.simulatedUpTo_bottom_iff` — the policy without branches simulates the silent policies.
* `Policy.silent_iff_not_satisfiable` — the queries and the checks.
-/

namespace Policy

variable {a : Policy} {f : Field}

/-- Nothing is sent for any packet, with any headers unset, at any location. -/
def Silent (a : Policy) : Prop := ∀ (x : Packet) (l : Location), a.outputs x l = []

/-- A policy that sends nothing for packets without unset headers sends nothing at all: what is sent
    for a packet is sent for its point. -/
theorem silent_iff_forwards : a.Silent ↔ ¬∃ x y : Point, a.Forwards x y := by
  constructor
  · rintro hsilent ⟨x, y, hxy⟩
    rw [Forwards, hsilent] at hxy
    exact List.not_mem_nil hxy
  · intro hnone x l
    by_contra hsome
    obtain ⟨⟨y, m⟩, hy⟩ := List.exists_mem_of_ne_nil _ hsome
    exact hnone ⟨x.pointAt l, y.pointAt m, forwards_pointAt hy⟩

theorem silent_bottom : bottom.Silent := fun _ _ => rfl

/-- Up to any field the policy without branches simulates those that are silent, and no others. -/
theorem simulatedUpTo_bottom_iff : SimulatedUpTo f a bottom ↔ a.Silent := by
  rw [simulatedUpTo_iff_forwards, silent_iff_forwards]
  constructor
  · rintro hsim ⟨x, y, hxy⟩
    obtain ⟨t, t', hb⟩ := hsim x y hxy
    exact silent_iff_forwards.1 silent_bottom ⟨_, _, hb⟩
  · exact fun hnone x y hxy => absurd ⟨x, y, hxy⟩ hnone

/-- A silent policy is simulated by every policy. -/
theorem Silent.simulatedUpTo (ha : a.Silent) (f : Field) (b : Policy) : SimulatedUpTo f a b := by
  rw [simulatedUpTo_iff_forwards]
  exact fun x y hxy => absurd ⟨x, y, hxy⟩ (silent_iff_forwards.1 ha)

/-- **Only a silent policy may be compiled to the one that drops everything.** The query about
    forwarding has no solution exactly when the policy is silent, and for any field the two
    simulation queries against the policy without branches have none exactly then. So with a backend
    that decides, the check for forwarding finds nothing, and the empty compilation passes, exactly
    for the silent policies. -/
theorem silent_iff_not_satisfiable (a : Policy) :
    (¬(Query.notEmpty a).Satisfiable ↔ a.Silent) ∧
    (∀ f : Field, ¬(Query.simulates a .bottom f).Satisfiable ∧
      ¬(Query.simulates .bottom a f).Satisfiable ↔ a.Silent) ∧
    ∀ {σ : Type} (v : Verifier σ), v.backend.Decides → ∀ s : σ,
      ((v.notEmpty a s).result = .ok none ↔ a.Silent) ∧
      ((v.compiledCorrectly a .bottom s).result = .ok true ↔ a.Silent) := by
  have hquery : ¬(Query.notEmpty a).Satisfiable ↔ a.Silent := by
    rw [Query.satisfiable_notEmpty_iff, silent_iff_forwards]
  have hboth (f : Field) : SimulatedUpTo f a .bottom ∧ SimulatedUpTo f .bottom a ↔ a.Silent := by
    rw [simulatedUpTo_bottom_iff, and_iff_left (silent_bottom.simulatedUpTo f a)]
  refine ⟨hquery, fun f => ?_, fun v hv s => ⟨?_, ?_⟩⟩
  · rw [Query.not_satisfiable_simulates_iff, Query.not_satisfiable_simulates_iff]
    exact hboth f
  · rw [← hquery]
    exact Verifier.pose_decides hv _ _ _ s
  · rw [compiledCorrectly_iff_simulatedUpTo hv]
    exact hboth v.config.tagField

end Policy

/-! ### An instance: nothing passes the guard, or nothing is sent -/

namespace DeadEnds

/-- No packet has two tags; and the packets that the other branch takes are only reported. -/
def policy : Policy :=
  .union
    (.branch (.inter (.test (.header .vlan) 1) (.test (.header .vlan) 2)) [.forward 1 2])
    (.branch .top [(Action.dropOn 1).reportingTo [4]])

theorem silent : policy.Silent := by
  intro x l
  rw [List.eq_nil_iff_forall_not_mem]
  rintro ⟨y, m⟩ hy
  simp only [policy, Policy.mem_outputs_union, Policy.mem_outputs_branch, List.mem_singleton,
    exists_eq_left, Action.mem_outputs_iff] at hy
  rcases hy with ⟨hguard, -⟩ | ⟨-, port, hport, -⟩
  · -- the tag would be 1 and 2
    obtain ⟨hone, htwo⟩ : x.headers.get? .vlan = some 1 ∧ x.headers.get? .vlan = some 2 := by
      simpa [Predicate.accepts, Packet.read, wildcard] using hguard
    exact absurd (hone.symm.trans htwo) (by decide)
  · exact List.not_mem_nil hport

end DeadEnds

/-- Dropping everything is a compilation of this policy, though not of one that forwards. -/
theorem Policy.silent_iff_not_satisfiable_deadEnds :
    ¬(Query.notEmpty DeadEnds.policy).Satisfiable ∧
    ¬(Query.simulates DeadEnds.policy .bottom .switch).Satisfiable ∧
    (∃ v : Verifier Unit, v.backend.Decides ∧
      (v.notEmpty DeadEnds.policy ()).result = .ok none ∧
      (v.compiledCorrectly DeadEnds.policy .bottom ()).result = .ok true ∧
      (v.compiledCorrectly OtherPorts.near .bottom ()).result ≠ .ok true) := by
  obtain ⟨hquery, hqueries, hchecks⟩ := silent_iff_not_satisfiable DeadEnds.policy
  obtain ⟨v, hv⟩ := Verifier.exists_decides
  obtain ⟨hempty, hcompiled⟩ := hchecks v hv ()
  have hnear : ¬OtherPorts.near.Silent := fun hsilent => by
    have hsent : (OtherPorts.ping, ⟨1, 1⟩) ∈ OtherPorts.near.outputs OtherPorts.ping ⟨1, 2⟩ :=
      OtherPorts.mem_outputs_near.2 ⟨rfl, rfl, rfl⟩
    rw [hsilent] at hsent
    exact List.not_mem_nil hsent
  refine ⟨hquery.2 DeadEnds.silent, ((hqueries .switch).2 DeadEnds.silent).1, v, hv,
    hempty.2 DeadEnds.silent, hcompiled.2 DeadEnds.silent, ?_⟩
  rw [ne_eq, ((silent_iff_not_satisfiable OtherPorts.near).2.2 v hv ()).2]
  exact hnear

end SlicePolicy
