import SlicePolicy.Policy

namespace SlicePolicy

/-!
# Admission at the edge

An edge policy says, for some locations or patterns of locations, which packets may enter there.
Restricting a policy adds one admission test to every guard.

* `EdgePolicy.admission` — at a listed location the predicate listed for it has to accept; where
  nothing is listed everything is admitted. A packet that several keys cover needs only one of
  them to accept.
* `Policy.restrictToEdges` — an empty edge policy leaves the policy as it is.
-/

/-- Which packets may enter at which locations. -/
abbrev EdgePolicy := Std.TreeMap Location Predicate

namespace EdgePolicy

/-- The packets at a key that its predicate accepts. -/
def admittedAtEdges (edges : EdgePolicy) : Predicate :=
  .unionAll (edges.toList.map fun e => .inter (.located e.1) e.2)

/-- The packets at any of the keys. -/
def listed (edges : EdgePolicy) : Predicate :=
  .unionAll (edges.keys.map .located)

/-- The packets that the edge policy lets pass. -/
def admission (edges : EdgePolicy) : Predicate :=
  .union edges.admittedAtEdges (.diff .top edges.listed)

end EdgePolicy

namespace Policy

/-- The policy on the packets that the edge policy lets pass. -/
def restrictToEdges (p : Policy) (edges : EdgePolicy) : Policy :=
  if edges.isEmpty then p else p.mapGuards fun guard => .inter guard edges.admission

end Policy

end SlicePolicy
