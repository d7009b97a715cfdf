import SlicePolicy.Action
import SlicePolicy.Predicate

namespace SlicePolicy

/-!
# Policies

A policy is a sum of branches, each with a guard and the actions taken on the packets that the
guard selects. Branches do not exclude each other: the actions of all that match are taken, from
left to right.

* `Policy.actions`, `Policy.outputs`, `Policy.observations` — what happens to a packet.
* `Policy.branches` — the branches from left to right.
-/

/-- What a network does with packets. -/
inductive Policy
  | bottom
  | branch (guard : Predicate) (actions : List Action)
  | union (p q : Policy)
  deriving DecidableEq, Inhabited

namespace Policy

/-- The union of a list, from left to right; nothing happens if the list is empty. -/
def unionAll : List Policy → Policy
  | [] => bottom
  | p :: ps => ps.foldl union p

/-- The actions taken on a packet at a location. -/
def actions (packet : Packet) (location : Location) : Policy → List Action
  | bottom => []
  | branch guard acts => if guard.accepts packet location then acts else []
  | union p q => p.actions packet location ++ q.actions packet location

/-- The packets sent, each with the location where it leaves. -/
def outputs (p : Policy) (packet : Packet) (location : Location) : List (Packet × Location) :=
  (p.actions packet location).flatMap fun a => a.outputs packet

/-- The taps that see the packet. -/
def observations (p : Policy) (packet : Packet) (location : Location) : TapSet :=
  TapSet.ofList ((p.actions packet location).flatMap fun a => a.observe.toList)

/-- The guards with their actions, from left to right. -/
def branches : Policy → List (Predicate × List Action)
  | bottom => []
  | branch guard acts => [(guard, acts)]
  | union p q => p.branches ++ q.branches

/-- The policy with every guard replaced. -/
def mapGuards (f : Predicate → Predicate) : Policy → Policy
  | bottom => bottom
  | branch guard acts => branch (f guard) acts
  | union p q => union (p.mapGuards f) (q.mapGuards f)

/-- The policy as shown: one line for each branch, except that nothing is grouped. -/
def text : Policy → String
  | bottom => "drop"
  | branch guard acts =>
    guard.text ++ " => [" ++ "; ".intercalate (acts.map Action.text) ++ "]"
  | union p q => p.text ++ "\n+ " ++ q.text

end Policy

end SlicePolicy
