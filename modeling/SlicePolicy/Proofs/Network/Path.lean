import SlicePolicy.Proofs.Network.Point

namespace SlicePolicy

/-!
# Paths through a network

A packet goes through a network leg by leg: a node sends something for what it gets, and a link
carries that, unchanged, to the next node.

* `Leg`, `Leg.Of` — what happens at one node, and that a policy does it.
* `Wiring.Joins` — the second leg starts where a link ends that the first leg sends into.
* `Wiring.Path` — the paths of a policy, of any length.
-/

/-- What happens to a packet at one node. -/
structure Leg where
  packet : Packet
  /-- Where the packet arrives. -/
  arrival : Location
  /-- What is sent for it. -/
  sent : Packet
  /-- Where that leaves. -/
  departure : Location

/-- The leg is what the policy does. -/
def Leg.Of (p : Policy) (leg : Leg) : Prop :=
  (leg.sent, leg.departure) ∈ p.outputs leg.packet leg.arrival

instance (p : Policy) (leg : Leg) : Decidable (leg.Of p) :=
  inferInstanceAs (Decidable (_ ∈ p.outputs _ _))

/-- Two nodes that are linked by their first ports. -/
def Wiring.twoNodes : Wiring := .ofTable [(1, 2)] [((1, 2), 1), ((2, 1), 1)]

/-- What the first leg sends arrives, over a link, as the packet of the second leg. -/
def Wiring.Joins (w : Wiring) (s t : Leg) : Prop :=
  (s.departure, t.arrival) ∈ w.hops ∧ t.packet = s.sent

/-- The paths of a policy: at every node the policy sends the packet on, and links join the
    nodes. -/
inductive Wiring.Path (w : Wiring) (p : Policy) : List Leg → Prop
  | last {leg : Leg} (hleg : leg.Of p) : Path w p [leg]
  | hop {s t : Leg} {legs : List Leg} (hs : s.Of p) (hst : w.Joins s t)
      (hrest : Path w p (t :: legs)) : Path w p (s :: t :: legs)

/-- A path starts with a leg of the policy. -/
theorem Wiring.Path.head_of {w : Wiring} {p : Policy} {leg : Leg} {legs : List Leg}
    (hpath : w.Path p (leg :: legs)) : leg.Of p := by
  cases hpath with
  | last hleg => exact hleg
  | hop hleg _ _ => exact hleg

/-- A policy that does the leg sends a packet without unset headers for one without. -/
theorem Leg.Of.full_sent {p : Policy} {leg : Leg} (h : leg.Of p) (hfull : leg.packet.Full) :
    leg.sent.Full :=
  Policy.full_of_mem_outputs hfull h

/-- On a path no header is unset if none was at its start. -/
theorem Wiring.Path.full {w : Wiring} {p : Policy} {s : Leg} {legs : List Leg}
    (hpath : w.Path p (s :: legs)) (hs : s.packet.Full) : ∀ leg ∈ s :: legs, leg.packet.Full := by
  induction legs generalizing s with
  | nil => simpa using hs
  | cons t legs ih =>
    cases hpath with
    | hop hleg hst hrest =>
      have ht : t.packet.Full := by
        rw [hst.2]
        exact hleg.full_sent hs
      exact List.forall_mem_cons.2 ⟨hs, ih hrest ht⟩

end SlicePolicy
