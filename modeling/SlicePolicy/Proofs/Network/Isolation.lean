import Mathlib.Tactic.ByContra
import SlicePolicy.Proofs.Network.Path
import SlicePolicy.Proofs.Query.Links

namespace SlicePolicy

/-!
# Isolation along a run

Two policies run in one network. The isolation check looks at a single link: does the second policy
send on anything that the first one sends? If it does not, a packet that the first policy sends
stays with the first policy for ever.

* `Policy.outputs_eq_nil_of_isolation` — one step: what the first policy sends meets a second policy
  that does nothing, also if some headers are unset.
* `Policy.isolated_path` — the whole run.
-/

variable {w : Wiring} {p₁ p₂ : Policy}

/-- **One step.** If the isolation check finds nothing, the second policy sends nothing for what the
    first policy sends into a link, also if some headers are unset. -/
theorem Policy.outputs_eq_nil_of_isolation (hcheck : ¬(Query.isolation w p₁ p₂).Satisfiable)
    {leg : Leg} (hleg : leg.Of p₁) {l : Location} (hlink : (leg.departure, l) ∈ w.hops) :
    p₂.outputs leg.sent l = [] := by
  rw [Query.satisfiable_isolation_iff_leaksInto] at hcheck
  by_contra hne
  exact hcheck ⟨leg.packet, leg.sent, leg.arrival, leg.departure, l, hleg, hlink, hne⟩

/-- A leg of both policies together belongs to the first one if the second one sends nothing. -/
theorem Leg.Of.of_union {leg : Leg} (hleg : leg.Of (p₁.union p₂))
    (hsilent : p₂.outputs leg.packet leg.arrival = []) : leg.Of p₁ := by
  rw [Leg.Of, Policy.outputs_union, hsilent, List.append_nil] at hleg
  exact hleg

/-- **A whole run.** If the first leg of a run belongs to the first policy, so does every later one,
    and the second policy sends nothing where it starts. The induction is on the run; what a leg
    hands to the next is that the first policy has sent the packet. -/
theorem Policy.silent_of_path (hcheck : ¬(Query.isolation w p₁ p₂).Satisfiable) {s : Leg}
    {legs : List Leg} (hpath : w.Path (p₁.union p₂) (s :: legs)) (hs : s.Of p₁) :
    ∀ leg ∈ legs, p₂.outputs leg.packet leg.arrival = [] ∧ leg.Of p₁ := by
  induction legs generalizing s with
  | nil => simp
  | cons t legs ih =>
    cases hpath with
    | hop _ hst hrest =>
      have hsilent : p₂.outputs t.packet t.arrival = [] := by
        rw [hst.2]
        exact outputs_eq_nil_of_isolation hcheck hs hst.1
      have ht : t.Of p₁ := hrest.head_of.of_union hsilent
      exact List.forall_mem_cons.2 ⟨⟨hsilent, ht⟩, ih hrest ht⟩

/-- **Isolation over one link is isolation over any number of links.** Let the isolation check find
    nothing, and take a run of both policies together that starts with something that the first
    policy sends. Then on all the rest of the run the second policy sends nothing and the first
    policy sends everything, and the second policy sends nothing wherever the run could go on. -/
theorem Policy.isolated_path (w : Wiring) (p₁ p₂ : Policy)
    (hcheck : ¬(Query.isolation w p₁ p₂).Satisfiable) (s : Leg) (legs : List Leg)
    (hpath : w.Path (p₁.union p₂) (s :: legs)) (hs : s.Of p₁) :
    (∀ leg ∈ legs, p₂.outputs leg.packet leg.arrival = [] ∧ leg.Of p₁) ∧
      ∀ leg ∈ s :: legs, ∀ l : Location, (leg.departure, l) ∈ w.hops →
        p₂.outputs leg.sent l = [] := by
  have hrest := silent_of_path hcheck hpath hs
  refine ⟨hrest, fun leg hleg l hlink => ?_⟩
  have hof : leg.Of p₁ := by
    rcases List.mem_cons.1 hleg with rfl | hmem
    · exact hs
    · exact (hrest leg hmem).2
  exact outputs_eq_nil_of_isolation hcheck hof hlink

/-! ### An instance: two slices on one link -/

namespace TwoSlices

/-- Both nodes send the packets of one tag to each other, unchanged. -/
def slice (tag : Value) : Policy :=
  .union (.branch (.inter (.test (.header .vlan) tag) (.test .switch 1)) [.forward 1 1])
    (.branch (.inter (.test (.header .vlan) tag) (.test .switch 2)) [.forward 2 1])

/-- A slice takes only packets of its tag and leaves the tag as it is. -/
theorem tag_of_mem_outputs {tag : Value} (htag : tag ≠ wildcard) {x y : Packet} {l m : Location}
    (h : (y, m) ∈ (slice tag).outputs x l) : y = x ∧ x.headers.get? .vlan = some tag := by
  simp only [slice, Policy.mem_outputs_union, Policy.mem_outputs_branch, List.mem_singleton,
    exists_eq_left, Predicate.accepts, Bool.and_eq_true, decide_eq_true_eq, htag, false_or,
    Action.mem_outputs_forward] at h
  rcases h with ⟨⟨htagged, _⟩, hy, _⟩ | ⟨⟨htagged, _⟩, hy, _⟩
  · exact ⟨hy, htagged⟩
  · exact ⟨hy, htagged⟩

/-- Slices with different tags are isolated. -/
theorem isolated_of_ne {s t : Value} (hs : s ≠ wildcard) (ht : t ≠ wildcard) (hne : s ≠ t) :
    ¬(Query.isolation .twoNodes (slice s) (slice t)).Satisfiable := by
  rw [Query.satisfiable_isolation_iff]
  rintro ⟨x, y, z, u, hxy, hyz, hzu⟩
  obtain ⟨hyx, hx⟩ := tag_of_mem_outputs hs hxy
  obtain ⟨_, hz⟩ := tag_of_mem_outputs ht hzu
  -- the link carries the packet unchanged, so it would have both tags
  rw [← hyx, hyz.2, hz, Option.some.injEq] at hx
  exact hne hx.symm

theorem isolated : ¬(Query.isolation .twoNodes (slice 1) (slice 2)).Satisfiable :=
  isolated_of_ne (by decide) (by decide) (by decide)

/-- A packet with nothing but a tag. -/
def ping : Packet := Packet.blank.set (.header .vlan) 1

/-- The packet goes to the second node. -/
def there : Leg := ⟨ping, ⟨1, 5⟩, ping, ⟨1, 1⟩⟩

/-- The packet comes back to the first node. -/
def back : Leg := ⟨ping, ⟨2, 1⟩, ping, ⟨2, 1⟩⟩

end TwoSlices

/-- A packet of the first slice, with all other headers unset, stays in the first slice. -/
theorem Policy.isolated_path_ping :
    let p₁ := TwoSlices.slice 1
    let p₂ := TwoSlices.slice 2
    let legs := [TwoSlices.back]
    ¬(Query.isolation Wiring.twoNodes p₁ p₂).Satisfiable ∧
    Wiring.twoNodes.Path (p₁.union p₂) (TwoSlices.there :: legs) ∧ TwoSlices.there.Of p₁ ∧
    (∀ leg ∈ legs, p₂.outputs leg.packet leg.arrival = [] ∧ leg.Of p₁) ∧
    ∀ leg ∈ TwoSlices.there :: legs, ∀ l : Location, (leg.departure, l) ∈ Wiring.twoNodes.hops →
      p₂.outputs leg.sent l = [] := by
  have hpath : Wiring.twoNodes.Path ((TwoSlices.slice 1).union (TwoSlices.slice 2))
      [TwoSlices.there, TwoSlices.back] :=
    .hop (by decide) ⟨by decide, rfl⟩ (.last (by decide))
  have hfirst : TwoSlices.there.Of (TwoSlices.slice 1) := by decide
  exact ⟨TwoSlices.isolated, hpath, hfirst,
    Policy.isolated_path _ _ _ TwoSlices.isolated _ _ hpath hfirst⟩

end SlicePolicy
