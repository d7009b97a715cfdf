import SlicePolicy.Proofs.Query.Solutions

namespace SlicePolicy

/-!
# Queries about links

Three queries ask for packets that cross a link. Their solutions are points, which have a value for
every field; here they are told as what policies do with packets, so that nothing symbolic is left.

* `Policy.LeaksInto` — the first policy sends something into a link and the second takes it up.
* `Policy.MixesOn` — a policy sends two values of a field into one link.
* `Query.satisfiable_isolation_iff_leaksInto`, `Query.satisfiable_onePerEdge_iff_mixesOn` — the
  queries that ask for these.
* `Query.satisfiable_simulatesTwoHop_iff_outputs` — the query for a lost path over one link, whatever
  the field.
-/

namespace Policy

/-- A packet that the first policy sends leaves by an end of a link, and the second policy sends
    something for it at the other end. Any headers may be unset. -/
def LeaksInto (w : Wiring) (a b : Policy) : Prop :=
  ∃ (x y : Packet) (k l m : Location),
    (y, l) ∈ a.outputs x k ∧ (l, m) ∈ w.hops ∧ b.outputs y m ≠ []

/-- Two packets that the policy sends leave by the same end of a link, with different values of the
    field, and the policy sends something for the first of them at the other end. No header is unset
    in the packets that come in, and so none in those that leave. -/
def MixesOn (w : Wiring) (f : Field) (p : Policy) : Prop :=
  ∃ (x y x' y' : Packet) (k l m k' : Location), x.Full ∧ x'.Full ∧
    (y, l) ∈ p.outputs x k ∧ (l, m) ∈ w.hops ∧ p.outputs y m ≠ [] ∧
    (y', l) ∈ p.outputs x' k' ∧ y.read l f ≠ y'.read l f

end Policy

namespace Query

variable {w : Wiring} {a b : Policy} {f : Field}

/-- A solution of the isolation query is a leak. The packets of a solution have no unset headers, but
    a leak of any packet will do: no policy notices the zeros that are filled in. -/
theorem satisfiable_isolation_iff_leaksInto :
    (isolation w a b).Satisfiable ↔ a.LeaksInto w b := by
  rw [satisfiable_isolation_iff]
  constructor
  · rintro ⟨x, y, z, u, hxy, hyz, hzu⟩
    refine ⟨x.packet, y.packet, x.location, y.location, z.location, hxy, hyz.1, ?_⟩
    rw [hyz.2]
    exact List.ne_nil_of_mem hzu
  · rintro ⟨x, y, k, l, m, hxy, hlink, htaken⟩
    obtain ⟨⟨u, n⟩, hu⟩ := List.exists_mem_of_ne_nil _ htaken
    exact ⟨x.pointAt k, y.pointAt l, y.pointAt m, u.pointAt n, Policy.forwards_pointAt hxy,
      Wiring.carries_pointAt hlink y, Policy.forwards_pointAt hu⟩

/-- A solution of the one-tag query is a link on which the policy mixes values of the field. -/
theorem satisfiable_onePerEdge_iff_mixesOn :
    (onePerEdge w a f).Satisfiable ↔ a.MixesOn w f := by
  rw [satisfiable_onePerEdge_iff]
  constructor
  · rintro ⟨x, y, z, u, x', y', hxy, hyz, hzu, hxy', hlocation, hdiffer⟩
    refine ⟨x.packet, y.packet, x'.packet, y'.packet, x.location, y.location, z.location,
      x'.location, x.full_packet, x'.full_packet, hxy, hyz.1, ?_, ?_, ?_⟩
    · rw [hyz.2]
      exact List.ne_nil_of_mem hzu
    · rw [hlocation]
      exact hxy'
    · -- both packets leave at one location, where their fields are those of their points
      have hread' : y'.packet.read y.location f = some (y' f) := by
        rw [hlocation]
        exact y'.read_packet f
      rw [y.read_packet, hread', ne_eq, Option.some.injEq]
      exact hdiffer
  · rintro ⟨x, y, x', y', k, l, m, k', hx, hx', hxy, hlink, htaken, hxy', hdiffer⟩
    obtain ⟨⟨u, n⟩, hu⟩ := List.exists_mem_of_ne_nil _ htaken
    have hy : y.Full := Policy.full_of_mem_outputs hx hxy
    have hy' : y'.Full := Policy.full_of_mem_outputs hx' hxy'
    rw [hy.read_eq, hy'.read_eq, ne_eq, Option.some.injEq] at hdiffer
    exact ⟨x.pointAt k, y.pointAt l, y.pointAt m, u.pointAt n, x'.pointAt k', y'.pointAt l,
      Policy.forwards_pointAt hxy, Wiring.carries_pointAt hlink y, Policy.forwards_pointAt hu,
      Policy.forwards_pointAt hxy', rfl, hdiffer⟩

/-- A solution of the two-hop query is a path of the first policy over one link that the second
    policy does not have, whatever the values of the field before, on and behind the link. -/
theorem satisfiable_simulatesTwoHop_iff_outputs :
    (simulatesTwoHop w a b f).Satisfiable ↔
      ∃ (x y u : Packet) (k l m n : Location), x.Full ∧
        (y, l) ∈ a.outputs x k ∧ (l, m) ∈ w.hops ∧ (u, n) ∈ a.outputs y m ∧
        ∀ t₁ t₂ t₃ : Value,
          ¬((y.set f t₂, l.put f t₂) ∈ b.outputs (x.set f t₁) (k.put f t₁) ∧
            (u.set f t₃, n.put f t₃) ∈ b.outputs (y.set f t₂) (m.put f t₂)) := by
  rw [satisfiable_simulatesTwoHop_iff]
  simp only [Policy.forwards_put_iff]
  constructor
  · rintro ⟨x, y, z, u, hxy, hyz, hzu, hlost⟩
    -- the link carries the packet unchanged
    rw [Policy.Forwards, ← hyz.2] at hzu
    rw [← hyz.2] at hlost
    exact ⟨x.packet, y.packet, u.packet, x.location, y.location, z.location, u.location,
      x.full_packet, hxy, hyz.1, hzu, hlost⟩
  · rintro ⟨x, y, u, k, l, m, n, hx, hxy, hlink, hyu, hlost⟩
    have hy : y.Full := Policy.full_of_mem_outputs hx hxy
    have hu : u.Full := Policy.full_of_mem_outputs hy hyu
    refine ⟨x.pointAt k, y.pointAt l, y.pointAt m, u.pointAt n, Policy.forwards_pointAt hxy,
      Wiring.carries_pointAt hlink y, Policy.forwards_pointAt hyu, ?_⟩
    -- nothing is unset, so the packets are those of their points
    rw [hx.packet_pointAt, hy.packet_pointAt, hy.packet_pointAt, hu.packet_pointAt]
    exact hlost

end Query

end SlicePolicy
