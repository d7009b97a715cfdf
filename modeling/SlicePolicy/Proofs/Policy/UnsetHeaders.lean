import SlicePolicy.Proofs.Policy.Branches

namespace SlicePolicy

/-!
# Unset headers

No test asks for the value zero: in a test zero is the wildcard. So a packet with some headers
unset is treated as the one that has zero there.

* `Packet.complete` — the packet with zero in the place of every unset header;
  `Packet.complete_eq_overwrite` — it is the packet with these headers overwritten.
* `Predicate.accepts_complete`, `Policy.actions_complete` — nothing is decided differently.
* `Policy.outputs_complete` — what is sent is completed, and nothing else about it changes.
* `Packet.Full` — no header is unset; policies keep that.
* `Policy.treats_unset_as_zero` — all of this in one statement.
-/

namespace Packet

/-- The packet with zero in the place of every unset header. -/
def complete (x : Packet) : Packet := ⟨⟨fun h => some ((x.headers.get? h).getD wildcard)⟩⟩

/-- No header is unset. -/
def Full (x : Packet) : Prop := ∀ h : Header, (x.headers.get? h).isSome

/-- A packet without unset headers is complete already. -/
theorem Full.complete_eq {x : Packet} (hx : x.Full) : x.complete = x := by
  refine Packet.ext (KeyMap.ext (funext fun h => ?_))
  obtain ⟨c, hc⟩ := Option.isSome_iff_exists.1 (hx h)
  show some ((x.headers.get? h).getD wildcard) = x.headers.get? h
  rw [hc, Option.getD_some]

/-- A completed packet has no unset headers. -/
theorem full_complete (x : Packet) : x.complete.Full := fun _ => rfl

/-- The headers that are unset, in their order. -/
def unset (x : Packet) : List Header := Header.all.filter fun h => (x.headers.get? h).isNone

theorem mem_unset {x : Packet} {h : Header} : h ∈ x.unset ↔ x.headers.get? h = none := by
  have hall : h ∈ Header.all := Listed.mem_all h
  rw [unset, List.mem_filter, Option.isNone_iff_eq_none, and_iff_right hall]

/-- Overwriting some headers with one value leaves the others as they are. -/
theorem headers_overwrite_map (x : Packet) (hs : List Header) (c : Value) (k : Header) :
    (x.overwrite (hs.map fun h => (.header h, c))).headers.get? k
      = if k ∈ hs then some c else x.headers.get? k := by
  induction hs generalizing x with
  | nil => rfl
  | cons h hs ih =>
    show ((x.set (.header h) c).overwrite _).headers.get? k = _
    rw [ih, headers_set, KeyMap.get?_insert]
    by_cases hk : k = h
    · rw [if_pos hk, ite_self, if_pos (List.mem_cons.2 (.inl hk))]
    · simp only [List.mem_cons, hk, false_or, if_false]

/-- Completing a packet is overwriting its unset headers with zero. -/
theorem complete_eq_overwrite (x : Packet) :
    x.complete = x.overwrite (x.unset.map fun h => (.header h, 0)) := by
  refine Packet.ext (KeyMap.ext (funext fun k => ?_))
  rw [headers_overwrite_map]
  show some ((x.headers.get? k).getD wildcard) = _
  cases hk : x.headers.get? k with
  | none =>
    rw [if_pos (mem_unset.2 hk)]
    rfl
  | some c =>
    have hset : k ∉ x.unset := by
      rw [mem_unset, hk]
      exact Option.some_ne_none c
    rw [if_neg hset, Option.getD_some]

/-- A concrete value is read of the completed packet only where it was set. -/
theorem read_complete_eq_some_iff {x : Packet} {l : Location} {f : Field} {c : Value}
    (hc : c ≠ wildcard) : x.complete.read l f = some c ↔ x.read l f = some c := by
  cases f with
  | switch => rfl
  | port => rfl
  | header h =>
    show some ((x.headers.get? h).getD wildcard) = some c ↔ x.headers.get? h = some c
    cases x.headers.get? h with
    | none => simp [Ne.symm hc]
    | some d => simp

end Packet

/-- A predicate does not tell an unset header from zero. -/
theorem Predicate.accepts_complete (p : Predicate) (x : Packet) (l : Location) :
    p.accepts x.complete l = p.accepts x l := by
  induction p with
  | top => rfl
  | bottom => rfl
  | test f c =>
    -- a test of zero accepts everything, and no other test sees the zeros that are filled in
    by_cases hc : c = wildcard
    · simp [accepts, hc]
    · simp only [accepts, hc, false_or, Packet.read_complete_eq_some_iff hc]
  | located pattern => rfl
  | union p q ihp ihq => rw [accepts, accepts, ihp, ihq]
  | inter p q ihp ihq => rw [accepts, accepts, ihp, ihq]
  | diff p q ihp ihq => rw [accepts, accepts, ihp, ihq]

namespace Action

/-- Completing a packet and changing it can be done in either order. -/
theorem applyTo_complete (a : Action) (x : Packet) :
    a.applyTo x.complete = (a.applyTo x).complete := by
  refine Packet.ext (KeyMap.ext (funext fun h => ?_))
  simp only [applyTo, Packet.complete, KeyMap.get?_overlay]
  cases a.modify.get? h <;> rfl

/-- Changes unset no header. -/
theorem full_applyTo (a : Action) {x : Packet} (hx : x.Full) : (a.applyTo x).Full := by
  intro h
  simp only [applyTo, KeyMap.get?_overlay, Option.isSome_or, hx h, Bool.or_true]

end Action

namespace Policy

/-- A policy takes the same actions whether a header is unset or zero. -/
theorem actions_complete (p : Policy) (x : Packet) (l : Location) :
    p.actions x.complete l = p.actions x l := by
  simp only [actions_eq_branches, Predicate.accepts_complete]

/-- A policy sends completed packets for a completed packet, at the same locations and in the same
    order. -/
theorem outputs_complete (p : Policy) (x : Packet) (l : Location) :
    p.outputs x.complete l = (p.outputs x l).map fun o => (o.1.complete, o.2) := by
  rw [outputs, outputs, actions_complete, List.map_flatMap]
  -- the same actions are taken, so it is enough to look at each of them
  refine congrArg (List.flatMap · _) (funext fun a => ?_)
  simp only [Action.outputs, List.map_map, a.applyTo_complete]
  rfl

/-- A policy sends packets without unset headers for a packet without unset headers. -/
theorem full_of_mem_outputs {p : Policy} {x y : Packet} {l m : Location} (hx : x.Full)
    (hy : (y, m) ∈ p.outputs x l) : y.Full := by
  obtain ⟨_, _, _, a, _, _, _, rfl, _⟩ := mem_outputs_iff.1 hy
  exact a.full_applyTo hx

/-- **Unset headers are zeros.** Let the unset headers of a packet be overwritten with zero. The
    packet has no unset headers then, and every policy takes the same actions on it, wherever it is,
    and reports it to the same taps; what is sent for it are the packets that were sent before, in
    the same order and to the same locations, with zero in the place of their unset headers. -/
theorem treats_unset_as_zero (p : Policy) (x : Packet) (l : Location) :
    x.complete = x.overwrite (x.unset.map fun h => (.header h, 0)) ∧ x.complete.Full ∧
      p.actions x.complete l = p.actions x l ∧
      p.observations x.complete l = p.observations x l ∧
      p.outputs x.complete l = (p.outputs x l).map fun o => (o.1.complete, o.2) := by
  have hactions : p.actions x.complete l = p.actions x l := p.actions_complete x l
  refine ⟨x.complete_eq_overwrite, x.full_complete, hactions, ?_, p.outputs_complete x l⟩
  rw [observations, observations, hactions]

end Policy

end SlicePolicy
