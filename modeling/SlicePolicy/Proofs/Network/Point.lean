import SlicePolicy.Proofs.Policy.UnsetHeaders
import SlicePolicy.Wiring

namespace SlicePolicy

/-!
# Packets in flight

The packets that a query speaks about have a value for every field, the location fields included.
A point is such a packet at its place; a policy takes points to points, and so does a link.

* `Point`, `Point.put` — values of all fields, and another value for one of them.
* `Point.packet_put`, `Point.location_put` — a packet or its location gets the other value.
* `Policy.Forwards`, `Wiring.Carries` — one hop inside a node, one hop over a link.
* `Policy.Reports` — what a tap sees of a point.
* `Packet.pointAt` — a packet at a location as a point, where an unset header is zero.
* `Policy.forwards_pointAt` — what a policy sends for a packet, it sends for the point of the packet;
  `Packet.Full.packet_pointAt` leads back to packets without unset headers.
* `Point.forall_iff`, `Policy.exists_point_of_mem_outputs` — points are the packets without unset
  headers, each at its location, and a policy sends points for points.
-/

/-- The location with another value for a location field; a header leaves it as it is. -/
def Location.put (l : Location) (f : Field) (c : Value) : Location :=
  match f with
  | .switch => { l with switch := c }
  | .port => { l with port := c }
  | .header _ => l

@[simp] theorem Location.put_header (l : Location) (h : Header) (c : Value) :
    l.put (.header h) c = l := rfl

/-- A packet with a value for every header, at a location: the values of all fields. -/
def Point : Type := Field → Value

namespace Point

/-- The packet, which has no unset headers. -/
def packet (x : Point) : Packet := ⟨⟨fun h => some (x (.header h))⟩⟩

/-- Where the packet is. -/
def location (x : Point) : Location := ⟨x .switch, x .port⟩

/-- The point with another value for a field. -/
def put (x : Point) (f : Field) (c : Value) : Point := fun g => if g = f then c else x g

theorem full_packet (x : Point) : x.packet.Full := fun _ => rfl

/-- Every field of the packet is read as its value. -/
theorem read_packet (x : Point) (f : Field) : x.packet.read x.location f = some (x f) := by
  cases f <;> rfl

@[simp] theorem put_self (x : Point) (f : Field) (c : Value) : x.put f c f = c := if_pos rfl

/-- Putting in the value that is there changes nothing. -/
@[simp] theorem put_own (x : Point) (f : Field) : x.put f (x f) = x := by
  funext g
  show (if g = f then x f else x g) = x g
  by_cases h : g = f
  · rw [if_pos h, h]
  · rw [if_neg h]

/-- Of two values put in for one field the last one counts. -/
@[simp] theorem put_put (x : Point) (f : Field) (c d : Value) : (x.put f c).put f d = x.put f d := by
  funext g
  show (if g = f then d else if g = f then c else x g) = if g = f then d else x g
  by_cases h : g = f
  · rw [if_pos h, if_pos h]
  · rw [if_neg h, if_neg h, if_neg h]

/-- What is put into a point is put into its packet, unless it is for the location. -/
@[simp] theorem packet_put (x : Point) (f : Field) (c : Value) :
    (x.put f c).packet = x.packet.set f c := by
  cases f with
  | switch => rfl
  | port => rfl
  | header h =>
    refine Packet.ext (KeyMap.ext (funext fun k => ?_))
    show some (if Field.header k = .header h then c else x (.header k))
      = if k = h then some c else some (x (.header k))
    simp only [Field.header.injEq]
    by_cases hk : k = h <;> simp [hk]

/-- What is put into a point is put into its location, unless it is for a header. -/
@[simp] theorem location_put (x : Point) (f : Field) (c : Value) :
    (x.put f c).location = x.location.put f c := by
  cases f <;> rfl

end Point

/-- The policy sends the second point when it gets the first. -/
def Policy.Forwards (p : Policy) (x y : Point) : Prop :=
  (y.packet, y.location) ∈ p.outputs x.packet x.location

/-- The policy reports the point to the tap. -/
def Policy.Reports (p : Policy) (x : Point) (t : Value) : Prop :=
  t ∈ p.observations x.packet x.location

/-- The second point is the first one across a link. -/
def Wiring.Carries (w : Wiring) (x y : Point) : Prop :=
  (x.location, y.location) ∈ w.hops ∧ x.packet = y.packet

/-! ### Packets as points -/

/-- The packet at the location, with zero in the place of every unset header. -/
def Packet.pointAt (x : Packet) (l : Location) : Point := fun f => (x.read l f).getD wildcard

namespace Packet

@[simp] theorem packet_pointAt (x : Packet) (l : Location) : (x.pointAt l).packet = x.complete := rfl

@[simp] theorem location_pointAt (x : Packet) (l : Location) : (x.pointAt l).location = l := rfl

/-- A packet without unset headers is the packet of its point. -/
theorem Full.packet_pointAt {x : Packet} (hx : x.Full) (l : Location) : (x.pointAt l).packet = x := by
  rw [Packet.packet_pointAt, hx.complete_eq]

/-- A field of a packet without unset headers is read as the value of the point. -/
theorem Full.read_eq {x : Packet} (hx : x.Full) (l : Location) (f : Field) :
    x.read l f = some (x.pointAt l f) := by
  rw [← Point.read_packet, hx.packet_pointAt, location_pointAt]

theorem get?_set_self (x : Packet) (h : Header) (c : Value) :
    (x.set (.header h) c).headers.get? h = some c := by
  rw [headers_set, KeyMap.get?_insert_self]

/-- Of two values set for one header the last one counts. -/
theorem set_set (x : Packet) (h : Header) (c d : Value) :
    (x.set (.header h) c).set (.header h) d = x.set (.header h) d := by
  refine Packet.ext (KeyMap.ext (funext fun k => ?_))
  simp only [headers_set, KeyMap.get?_insert]
  -- behind the second value neither the first one nor what was there before is seen
  by_cases hk : k = h
  · rw [if_pos hk, if_pos hk]
  · rw [if_neg hk, if_neg hk, if_neg hk]

/-- Setting a header leaves no header unset that was set. -/
theorem Full.set {x : Packet} (hx : x.Full) (h : Header) (c : Value) :
    (x.set (.header h) c).Full := by
  intro k
  rw [headers_set, KeyMap.get?_insert]
  by_cases hk : k = h
  · rw [if_pos hk, Option.isSome_some]
  · rw [if_neg hk]
    exact hx k

end Packet

namespace Policy

/-- Putting a value into points is putting it into their packets and locations. -/
theorem forwards_put_iff {b : Policy} {x y : Point} {f : Field} {t t' : Value} :
    b.Forwards (x.put f t) (y.put f t') ↔
      (y.packet.set f t', y.location.put f t') ∈ b.outputs (x.packet.set f t) (x.location.put f t) := by
  rw [Forwards, Point.packet_put, Point.packet_put, Point.location_put, Point.location_put]

theorem reports_put_iff {b : Policy} {x : Point} {f : Field} {t tap : Value} :
    b.Reports (x.put f t) tap ↔ tap ∈ b.observations (x.packet.set f t) (x.location.put f t) := by
  rw [Reports, Point.packet_put, Point.location_put]

variable {p : Policy} {x y : Packet} {l m : Location}

/-- What a policy sends for a packet, it sends for the point of the packet. -/
theorem forwards_pointAt (h : (y, m) ∈ p.outputs x l) : p.Forwards (x.pointAt l) (y.pointAt m) := by
  show (y.complete, m) ∈ p.outputs x.complete l
  rw [outputs_complete]
  exact List.mem_map.2 ⟨(y, m), h, rfl⟩

/-- What a policy sends for a point is a point. -/
theorem exists_point_of_mem_outputs {z : Point} {o : Packet × Location}
    (h : o ∈ p.outputs z.packet z.location) : ∃ u : Point, o = (u.packet, u.location) := by
  obtain ⟨y, m⟩ := o
  have hy : y.Full := full_of_mem_outputs z.full_packet h
  refine ⟨y.pointAt m, ?_⟩
  rw [hy.packet_pointAt, Packet.location_pointAt]

end Policy

/-- What holds of all points holds of all packets without unset headers, wherever they are. -/
theorem Point.forall_iff {P : Packet → Location → Prop} :
    (∀ x : Point, P x.packet x.location) ↔ ∀ (x : Packet) (l : Location), x.Full → P x l := by
  refine ⟨fun h x l hx => ?_, fun h x => h x.packet x.location x.full_packet⟩
  have hpoint : P (x.pointAt l).packet (x.pointAt l).location := h (x.pointAt l)
  rw [hx.packet_pointAt] at hpoint
  exact hpoint

/-- A link carries a packet, whatever its headers, from one end to the other. -/
theorem Wiring.carries_pointAt {w : Wiring} {l m : Location} (h : (l, m) ∈ w.hops) (x : Packet) :
    w.Carries (x.pointAt l) (x.pointAt m) := ⟨h, rfl⟩

end SlicePolicy
