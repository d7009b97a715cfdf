import Mathlib.Tactic.ByContra
import SlicePolicy.Proofs.Query.Solutions
import SlicePolicy.Proofs.Verifier.Verdict

namespace SlicePolicy

/-!
# Simulation up to a field

A policy is simulated up to a field if everything that it sends or reports is sent or reported by
another policy as well, where the field may have any values before and after. The field is replaced
wherever it is: a header in the packet, a location field in the location.

* `Policy.SimulatedUpTo`, `Policy.ObservedUpTo` — what the two queries ask about, without points.
* `Query.satisfiable_simulates_iff_outputs`, `Query.satisfiable_simulatesObserves_iff_observations`
  — a solution is an output, or a report, that the second policy lacks.
* `Policy.simulates_iff_simulatedUpTo` — what the check answers, also where no backend is asked.
-/

namespace Policy

/-- The second policy sends all that the first sends, with some values of the field in the packet
    and in what is sent for it. -/
def SimulatedUpTo (f : Field) (a b : Policy) : Prop :=
  ∀ (x y : Packet) (l m : Location), x.Full → (y, m) ∈ a.outputs x l →
    ∃ t t' : Value, (y.set f t', m.put f t') ∈ b.outputs (x.set f t) (l.put f t)

/-- The second policy reports all that the first reports, with some value of the field. -/
def ObservedUpTo (f : Field) (a b : Policy) : Prop :=
  ∀ (x : Packet) (l : Location) (tap : Value), x.Full → tap ∈ a.observations x l →
    ∃ t : Value, tap ∈ b.observations (x.set f t) (l.put f t)

end Policy

/-! ### Solutions -/

namespace Query

variable {a b : Policy} {f : Field}

/-- A solution of the simulation query is an output of the first policy that the second policy
    lacks, whatever the values of the field. -/
theorem satisfiable_simulates_iff_outputs : (simulates a b f).Satisfiable ↔
    ∃ (x y : Packet) (l m : Location), x.Full ∧ y.Full ∧ (y, m) ∈ a.outputs x l ∧
      ∀ t t' : Value, (y.set f t', m.put f t') ∉ b.outputs (x.set f t) (l.put f t) := by
  rw [satisfiable_simulates_iff]
  constructor
  · rintro ⟨x, y, hxy, hlacks⟩
    refine ⟨x.packet, y.packet, x.location, y.location, x.full_packet, y.full_packet, hxy, ?_⟩
    intro t t' hb
    exact hlacks t t' (Policy.forwards_put_iff.2 hb)
  · rintro ⟨x, y, l, m, hx, hy, hxy, hlacks⟩
    -- nothing is unset, so the packets are those of their points
    refine ⟨x.pointAt l, y.pointAt m, Policy.forwards_pointAt hxy, ?_⟩
    intro t t' hb
    have hsent := Policy.forwards_put_iff.1 hb
    rw [hx.packet_pointAt, hy.packet_pointAt] at hsent
    exact hlacks t t' hsent

/-- There is no solution exactly when the first policy is simulated by the second. -/
theorem not_satisfiable_simulates_iff :
    ¬(simulates a b f).Satisfiable ↔ Policy.SimulatedUpTo f a b := by
  rw [satisfiable_simulates_iff_outputs]
  constructor
  · intro hnone x y l m hx hxy
    -- what is sent for a packet without unset headers has none either
    by_contra hlacks
    push Not at hlacks
    exact hnone ⟨x, y, l, m, hx, Policy.full_of_mem_outputs hx hxy, hxy, hlacks⟩
  · rintro hsim ⟨x, y, l, m, hx, _, hxy, hlacks⟩
    obtain ⟨t, t', hb⟩ := hsim x y l m hx hxy
    exact hlacks t t' hb

/-- A solution of the observation query is a report of the first policy that the second policy
    does not make, whatever the value of the field. -/
theorem satisfiable_simulatesObserves_iff_observations :
    (simulatesObserves a b f).Satisfiable ↔
      ∃ (x : Packet) (l : Location) (tap : Value), x.Full ∧ tap ∈ a.observations x l ∧
        ∀ t : Value, tap ∉ b.observations (x.set f t) (l.put f t) := by
  rw [satisfiable_simulatesObserves_iff]
  constructor
  · rintro ⟨x, tap, htap, hlacks⟩
    refine ⟨x.packet, x.location, tap, x.full_packet, htap, ?_⟩
    intro t hb
    exact hlacks t (Policy.reports_put_iff.2 hb)
  · rintro ⟨x, l, tap, hx, htap, hlacks⟩
    refine ⟨x.pointAt l, tap, ?_, ?_⟩
    · rw [Policy.Reports, hx.packet_pointAt]
      exact htap
    · intro t hb
      have hseen := Policy.reports_put_iff.1 hb
      rw [hx.packet_pointAt] at hseen
      exact hlacks t hseen

/-- There is no solution exactly when the reports of the first policy are made by the second. -/
theorem not_satisfiable_simulatesObserves_iff :
    ¬(simulatesObserves a b f).Satisfiable ↔ Policy.ObservedUpTo f a b := by
  rw [satisfiable_simulatesObserves_iff_observations]
  constructor
  · intro hnone x l tap hx htap
    by_contra hlacks
    push Not at hlacks
    exact hnone ⟨x, l, tap, hx, htap, hlacks⟩
  · rintro hobs ⟨x, l, tap, hx, htap, hlacks⟩
    obtain ⟨t, hb⟩ := hobs x l tap hx htap
    exact hlacks t hb

end Query

/-! ### The check -/

/-- **The simulation check means what it says.** A solution of its query is an output of the first
    policy, for a packet without unset headers, that the second policy lacks for all values of the
    field before and after. So with a backend that decides, the check finds nothing exactly when the
    second policy simulates the first up to the field. Where an assertion folds to `false` this is
    so with every backend, because none is asked. -/
theorem Policy.simulates_iff_simulatedUpTo (a b : Policy) (f : Field) :
    ((Query.simulates a b f).Satisfiable ↔
      ∃ (x y : Packet) (l m : Location), x.Full ∧ y.Full ∧ (y, m) ∈ a.outputs x l ∧
        ∀ t t' : Value, (y.set f t', m.put f t') ∉ b.outputs (x.set f t) (l.put f t)) ∧
    (∀ {σ : Type} (v : Verifier σ), v.backend.Decides → ∀ s : σ,
      (v.simulates a b f s).result = .ok none ↔ SimulatedUpTo f a b) ∧
    ((Query.simulates a b f).isTriviallyUnsat = true → SimulatedUpTo f a b ∧
      ∀ {σ : Type} (v : Verifier σ) (s : σ),
        (v.simulates a b f s).result = .ok none ∧ (v.simulates a b f s).asked = []) := by
  refine ⟨Query.satisfiable_simulates_iff_outputs, ?_, ?_⟩
  · intro σ v hv s
    rw [← Query.not_satisfiable_simulates_iff]
    exact Verifier.pose_decides hv _ _ _ s
  · intro htrivial
    have hnone := Query.not_satisfiable_of_isTriviallyUnsat htrivial
    refine ⟨Query.not_satisfiable_simulates_iff.1 hnone, fun v s => ⟨?_, ?_⟩⟩
    · exact Verifier.result_pose_of_unsat
        (Verifier.verdict_of_isTriviallyUnsat htrivial s) _ _
    · rw [Verifier.simulates, Verifier.asked_pose, if_pos htrivial]

/-! ### An instance: the same forwarding through other ports -/

namespace OtherPorts

/-- Packets come in at port 2 and leave by port 1. -/
def near : Policy := .branch (.located ⟨1, 2⟩) [.forward 1 1]

/-- Packets come in at port 7 and leave by port 9. -/
def far : Policy := .branch (.located ⟨1, 7⟩) [.forward 1 9]

theorem mem_outputs_near {x y : Packet} {l m : Location} :
    (y, m) ∈ near.outputs x l ↔ l = ⟨1, 2⟩ ∧ y = x ∧ m = ⟨1, 1⟩ := by
  simp only [near, Policy.mem_outputs_branch, List.mem_singleton, exists_eq_left,
    Action.mem_outputs_forward]
  rw [Predicate.accepts_located_iff (by decide) (by decide)]

theorem mem_outputs_far {x y : Packet} {l m : Location} :
    (y, m) ∈ far.outputs x l ↔ l = ⟨1, 7⟩ ∧ y = x ∧ m = ⟨1, 9⟩ := by
  simp only [far, Policy.mem_outputs_branch, List.mem_singleton, exists_eq_left,
    Action.mem_outputs_forward]
  rw [Predicate.accepts_located_iff (by decide) (by decide)]

/-- The port is a field like others: up to it the two policies do the same. -/
theorem simulatedUpTo_port : Policy.SimulatedUpTo .port near far := by
  intro x y l m _ hxy
  obtain ⟨rfl, rfl, rfl⟩ := mem_outputs_near.1 hxy
  exact ⟨7, 9, mem_outputs_far.2 ⟨rfl, rfl, rfl⟩⟩

/-- A packet with the same value in all headers. -/
def ping : Packet := ⟨⟨fun _ => some 3⟩⟩

end OtherPorts

/-- Up to the port the check finds nothing, up to the tag its query has a solution, and nothing is
    asked about a policy that sends nothing. -/
theorem Policy.simulates_iff_simulatedUpTo_ports :
    (∃ v : Verifier Unit, v.backend.Decides ∧
      (v.simulates OtherPorts.near OtherPorts.far .port ()).result = .ok none) ∧
    (Query.simulates OtherPorts.near OtherPorts.far (.header .vlan)).Satisfiable ∧
    (Query.simulates .bottom OtherPorts.far .port).isTriviallyUnsat = true ∧
    SimulatedUpTo .port .bottom OtherPorts.far := by
  refine ⟨?_, ?_, rfl, ?_⟩
  · obtain ⟨backend, hbackend⟩ := Backend.exists_decides
    refine ⟨{ backend, config := .standard, valid := rfl }, hbackend, ?_⟩
    exact ((simulates_iff_simulatedUpTo OtherPorts.near OtherPorts.far .port).2.1 _ hbackend ()).2
      OtherPorts.simulatedUpTo_port
  · refine (simulates_iff_simulatedUpTo OtherPorts.near OtherPorts.far (.header .vlan)).1.2
      ⟨OtherPorts.ping, OtherPorts.ping, ⟨1, 2⟩, ⟨1, 1⟩, fun _ => rfl, fun _ => rfl, ?_, ?_⟩
    · exact OtherPorts.mem_outputs_near.2 ⟨rfl, rfl, rfl⟩
    · -- the tag does not move the packet to the other port
      intro t t' hb
      have hl : (⟨1, 2⟩ : Location) = ⟨1, 7⟩ := (OtherPorts.mem_outputs_far.1 hb).1
      exact absurd hl (by decide)
  · exact ((simulates_iff_simulatedUpTo .bottom OtherPorts.far .port).2.2 rfl).1

end SlicePolicy
