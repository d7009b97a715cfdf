import Mathlib.Tactic.ByContra
import SlicePolicy.Proofs.Network.Isolation
import SlicePolicy.Proofs.Policy.Admission
import SlicePolicy.Proofs.Verifier.Verdict

namespace SlicePolicy

/-!
# Isolation, pair by pair

A union sends what its parts send and nothing else, so a leak between two unions is a leak between a
part of the one and a part of the other. A restricted policy sends at most what the policy sends, so
restricting opens no leak.

* `Policy.SendsWithin` — a policy sends nothing that another one does not send.
* `Query.isolation_mono` — a leak stays when policies send more.
* `Query.satisfiable_isolation_unionAll_iff` — a leak between unions.
* `Policy.isolation_unionAll_iff` — what the query and the check decide for unions and for restricted
  policies.
-/

namespace Policy

variable {p a b : Policy} {ps : List Policy} {edges : EdgePolicy} {x y : Point}

/-- A union sends a point when one of its parts does. -/
theorem forwards_unionAll_iff : (unionAll ps).Forwards x y ↔ ∃ p ∈ ps, p.Forwards x y := by
  rw [Forwards, outputs_unionAll, List.mem_flatMap]
  rfl

/-- Every point that the first policy sends, the second sends for the same point. -/
def SendsWithin (a b : Policy) : Prop := ∀ x y : Point, a.Forwards x y → b.Forwards x y

theorem SendsWithin.refl (p : Policy) : p.SendsWithin p := fun _ _ h => h

/-- A restricted policy sends at most what the policy sends, whatever may enter. -/
theorem sendsWithin_restrictToEdges (p : Policy) (edges : EdgePolicy) :
    (p.restrictToEdges edges).SendsWithin p := by
  intro x y hsent
  by_cases hadmits : edges.Admits x.packet x.location
  · rw [Forwards, outputs, actions_restrictToEdges hadmits] at hsent
    exact hsent
  · rw [Forwards, outputs, actions_restrictToEdges_of_not_admits hadmits] at hsent
    exact absurd hsent List.not_mem_nil

end Policy

/-! ### Leaks -/

namespace Query

variable {w : Wiring} {a a' b b' : Policy} {ps qs : List Policy}

/-- A leak stays a leak when both policies send more. -/
theorem isolation_mono (ha : a.SendsWithin a') (hb : b.SendsWithin b')
    (hleak : (isolation w a b).Satisfiable) : (isolation w a' b').Satisfiable := by
  rw [satisfiable_isolation_iff] at hleak ⊢
  obtain ⟨x, y, z, u, hxy, hyz, hzu⟩ := hleak
  exact ⟨x, y, z, u, ha x y hxy, hyz, hb z u hzu⟩

/-- A leak between two unions is a leak between a part of the one and a part of the other. -/
theorem satisfiable_isolation_unionAll_iff :
    (isolation w (.unionAll ps) (.unionAll qs)).Satisfiable ↔
      ∃ p ∈ ps, ∃ q ∈ qs, (isolation w p q).Satisfiable := by
  simp only [satisfiable_isolation_iff, Policy.forwards_unionAll_iff]
  constructor
  · rintro ⟨x, y, z, u, ⟨p, hp, hxy⟩, hyz, q, hq, hzu⟩
    exact ⟨p, hp, q, hq, x, y, z, u, hxy, hyz, hzu⟩
  · rintro ⟨p, hp, q, hq, x, y, z, u, hxy, hyz, hzu⟩
    exact ⟨x, y, z, u, ⟨p, hp, hxy⟩, hyz, q, hq, hzu⟩

/-- Unions are isolated when all pairs of their parts are. -/
theorem not_satisfiable_isolation_unionAll_iff :
    ¬(isolation w (.unionAll ps) (.unionAll qs)).Satisfiable ↔
      ∀ p ∈ ps, ∀ q ∈ qs, ¬(isolation w p q).Satisfiable := by
  rw [satisfiable_isolation_unionAll_iff]
  push Not
  rfl

end Query

/-! ### The query and the check -/

/-- **Isolation is decided pair by pair.** In every network the query for two unions has no solution
exactly when the query has none for any pair of their parts, also where a union is empty; with a
backend that decides, the check says so. Where the query of two policies has no solution, it has none
either when one of them is restricted, or both, whatever may enter at the edges. -/
theorem Policy.isolation_unionAll_iff (w : Wiring) :
    (∀ ps qs : List Policy,
      (¬(Query.isolation w (unionAll ps) (unionAll qs)).Satisfiable ↔
        ∀ p ∈ ps, ∀ q ∈ qs, ¬(Query.isolation w p q).Satisfiable) ∧
      ∀ {σ : Type} (v : Verifier σ), v.backend.Decides → ∀ s : σ,
        (v.isolated w (unionAll ps) (unionAll qs) s).result = .ok true ↔
          ∀ p ∈ ps, ∀ q ∈ qs, (v.isolated w p q s).result = .ok true) ∧
    ∀ a b : Policy, ¬(Query.isolation w a b).Satisfiable → ∀ edges edges' : EdgePolicy,
      ¬(Query.isolation w (a.restrictToEdges edges) b).Satisfiable ∧
      ¬(Query.isolation w a (b.restrictToEdges edges')).Satisfiable ∧
      ¬(Query.isolation w (a.restrictToEdges edges) (b.restrictToEdges edges')).Satisfiable := by
  refine ⟨fun ps qs => ⟨Query.not_satisfiable_isolation_unionAll_iff, fun v hv s => ?_⟩, ?_⟩
  · simp only [Verifier.isolated_iff hv]
    exact Query.not_satisfiable_isolation_unionAll_iff
  · intro a b hsealed edges edges'
    have ha : (a.restrictToEdges edges).SendsWithin a := sendsWithin_restrictToEdges a edges
    have hb : (b.restrictToEdges edges').SendsWithin b := sendsWithin_restrictToEdges b edges'
    refine ⟨?_, ?_, ?_⟩
    · exact mt (Query.isolation_mono ha (.refl b)) hsealed
    · exact mt (Query.isolation_mono (.refl a) hb) hsealed
    · exact mt (Query.isolation_mono ha hb) hsealed

/-! ### An instance: slices that share a network -/

namespace TwoSlices

/-- A packet of a slice leaks into the slice itself. -/
theorem leaks_self : (Query.isolation .twoNodes (slice 3) (slice 3)).Satisfiable := by
  rw [Query.satisfiable_isolation_iff_leaksInto]
  exact ⟨Packet.blank.set (.header .vlan) 3, Packet.blank.set (.header .vlan) 3, ⟨1, 5⟩, ⟨1, 1⟩,
    ⟨2, 1⟩, by decide, by decide, by decide⟩

/-- Each of the first two slices has another tag than each of the other two. -/
theorem isolated_pairs :
    ∀ p ∈ [slice 1, slice 3], ∀ q ∈ [slice 2, slice 4],
      ¬(Query.isolation .twoNodes p q).Satisfiable := by
  simp only [List.forall_mem_cons, List.not_mem_nil, false_imp_iff, implies_true, and_true]
  exact ⟨⟨isolated_of_ne (by decide) (by decide) (by decide),
      isolated_of_ne (by decide) (by decide) (by decide)⟩,
    isolated_of_ne (by decide) (by decide) (by decide),
    isolated_of_ne (by decide) (by decide) (by decide)⟩

end TwoSlices

/-- Two slices together are isolated from two others, also when only web traffic may enter at the
first port. They are not isolated from a union that has one of them as a part, and nothing leaks out
of the union of no policies. -/
theorem Policy.isolation_unionAll_iff_slices :
    let ps := [TwoSlices.slice 1, TwoSlices.slice 3]
    let qs := [TwoSlices.slice 2, TwoSlices.slice 4]
    (∀ p ∈ ps, ∀ q ∈ qs, ¬(Query.isolation .twoNodes p q).Satisfiable) ∧
    ¬(Query.isolation .twoNodes (unionAll ps) (unionAll qs)).Satisfiable ∧
    ¬(Query.isolation .twoNodes ((unionAll ps).restrictToEdges WebPort.tagged)
      (unionAll qs)).Satisfiable ∧
    (∃ v : Verifier Unit, v.backend.Decides ∧
      (v.isolated .twoNodes (unionAll []) (unionAll qs) ()).result = .ok true) ∧
    (Query.isolation .twoNodes (unionAll ps)
      (unionAll [TwoSlices.slice 2, TwoSlices.slice 3])).Satisfiable := by
  intro ps qs
  obtain ⟨hunions, hrestricted⟩ := isolation_unionAll_iff .twoNodes
  have hsealed : ¬(Query.isolation .twoNodes (unionAll ps) (unionAll qs)).Satisfiable :=
    (hunions ps qs).1.2 TwoSlices.isolated_pairs
  refine ⟨TwoSlices.isolated_pairs, hsealed, (hrestricted _ _ hsealed WebPort.tagged ∅).1, ?_, ?_⟩
  · obtain ⟨v, hv⟩ := Verifier.exists_decides
    exact ⟨v, hv, ((hunions [] qs).2 v hv ()).2 fun p hp => absurd hp List.not_mem_nil⟩
  · by_contra hnone
    have hpairs := (hunions ps [TwoSlices.slice 2, TwoSlices.slice 3]).1.1 hnone
    exact hpairs (TwoSlices.slice 3) (by simp [ps]) (TwoSlices.slice 3) (by simp) TwoSlices.leaks_self

end SlicePolicy
