import SlicePolicy.Proofs.Verifier.TaggedSlice

namespace SlicePolicy

/-!
# Compiled policies are equivalent

Simulation up to a field chooses values of the field before and after. One simulation after another
chooses twice for the same packet and the same output, and what was chosen last counts, so two
simulations make one. A compiled policy passes when each policy simulates the other; hence passing
is an equivalence of policies, and a policy that was compiled in steps passes against its source.

* `Policy.simulatedUpTo_iff_forwards` — simulation up to a field in terms of points.
* `Policy.SimulatedUpTo.refl`, `Policy.SimulatedUpTo.trans` — a preorder for every field.
* `Policy.compiledCorrectly_equivalence` — the queries and the check.
-/

namespace Policy

variable {a b c : Policy} {f : Field}

/-- Every hop of the first policy is a hop of the second, up to the field before and after. -/
theorem simulatedUpTo_iff_forwards : SimulatedUpTo f a b ↔
    ∀ x y : Point, a.Forwards x y → ∃ t t' : Value, b.Forwards (x.put f t) (y.put f t') := by
  rw [← Query.not_satisfiable_simulates_iff, Query.satisfiable_simulates_iff]
  push Not
  rfl

/-- A policy simulates itself: the field gets the values that it has. -/
theorem SimulatedUpTo.refl (f : Field) (a : Policy) : SimulatedUpTo f a a := by
  rw [simulatedUpTo_iff_forwards]
  intro x y hxy
  refine ⟨x f, y f, ?_⟩
  rw [Point.put_own, Point.put_own]
  exact hxy

/-- One simulation after another: the values that the second one chooses replace those of the
    first. -/
theorem SimulatedUpTo.trans (hab : SimulatedUpTo f a b) (hbc : SimulatedUpTo f b c) :
    SimulatedUpTo f a c := by
  rw [simulatedUpTo_iff_forwards] at hab hbc ⊢
  intro x y hxy
  obtain ⟨t, t', hb⟩ := hab x y hxy
  obtain ⟨u, u', hc⟩ := hbc _ _ hb
  -- of two values put into one field the last one stays
  rw [Point.put_put, Point.put_put] at hc
  exact ⟨u, u', hc⟩

/-- With a backend that decides, a compiled policy passes exactly when each policy simulates the
    other up to the tag field. -/
theorem compiledCorrectly_iff_simulatedUpTo {σ : Type} {v : Verifier σ} (hv : v.backend.Decides)
    (a b : Policy) (s : σ) : (v.compiledCorrectly a b s).result = .ok true ↔
      SimulatedUpTo v.config.tagField a b ∧ SimulatedUpTo v.config.tagField b a := by
  rw [Verifier.compiledCorrectly_iff hv, Query.not_satisfiable_simulates_iff,
    Query.not_satisfiable_simulates_iff]

/-- **Passing is an equivalence.** For every field the simulation query of a policy against itself
    has no solution, and queries without solutions compose. So with a backend that decides, the
    check of compiled policies is reflexive, symmetric and transitive, whatever state the backend is
    in at each check. -/
theorem compiledCorrectly_equivalence :
    (∀ (f : Field) (a : Policy), ¬(Query.simulates a a f).Satisfiable) ∧
    (∀ (f : Field) (a b c : Policy), ¬(Query.simulates a b f).Satisfiable →
      ¬(Query.simulates b c f).Satisfiable → ¬(Query.simulates a c f).Satisfiable) ∧
    ∀ {σ : Type} (v : Verifier σ), v.backend.Decides →
      (∀ (a : Policy) (s : σ), (v.compiledCorrectly a a s).result = .ok true) ∧
      (∀ (a b : Policy) (s s' : σ), (v.compiledCorrectly a b s).result = .ok true →
        (v.compiledCorrectly b a s').result = .ok true) ∧
      (∀ (a b c : Policy) (s s' s'' : σ), (v.compiledCorrectly a b s).result = .ok true →
        (v.compiledCorrectly b c s').result = .ok true →
          (v.compiledCorrectly a c s'').result = .ok true) := by
  simp only [Query.not_satisfiable_simulates_iff]
  refine ⟨SimulatedUpTo.refl, fun f a b c => SimulatedUpTo.trans, ?_⟩
  intro σ v hv
  simp only [compiledCorrectly_iff_simulatedUpTo hv]
  refine ⟨?_, ?_, ?_⟩
  · intro a _
    exact ⟨.refl _ a, .refl _ a⟩
  · rintro a b _ _ ⟨hab, hba⟩
    exact ⟨hba, hab⟩
  · rintro a b c _ _ _ ⟨hab, hba⟩ ⟨hbc, hcb⟩
    exact ⟨hab.trans hbc, hcb.trans hba⟩

end Policy

/-! ### An instance: one slice with tags of its own in two ways -/

namespace TwoTags

/-- The slice with other tags: the first branch takes tag 11 and sends it on, the second takes any
    packet. -/
def retagged : Policy :=
  .union
    (.branch (.inter (.diff (.located ⟨2, 2⟩) (.test (.header .dstMac) 5))
        (.test (.header .vlan) 11))
      [⟨2, [1], (∅ : KeyMap Header Value).insert .srcMac 4, .ofList [6]⟩, .forward 2 3])
    (.branch (.located ⟨2, 3⟩) [(Action.dropOn 2).reportingTo [8]])

theorem retagged_plain : plain.Tagged .vlan retagged :=
  .union (.branch (.testAfter 11) (.cons .same (.cons .same .nil)))
    (.branch .same (.cons .same .nil))

end TwoTags

/-- Two compilations of a slice pass against each other, by way of the slice. -/
theorem Policy.compiledCorrectly_equivalence_retagged :
    (∃ v : Verifier Unit, v.backend.Decides ∧
      (v.compiledCorrectly TwoTags.tagged TwoTags.retagged ()).result = .ok true) ∧
    ¬(Query.simulates TwoTags.tagged TwoTags.retagged (.header .vlan)).Satisfiable := by
  have homits : TwoTags.plain.Omits .vlan := by decide
  have htagged := TwoTags.tagged_plain
  have hretagged := TwoTags.retagged_plain
  obtain ⟨-, hqueries, hchecks⟩ := compiledCorrectly_equivalence
  constructor
  · obtain ⟨backend, hbackend⟩ := Backend.exists_decides
    let v : Verifier Unit := { backend, config := .standard, valid := rfl }
    obtain ⟨-, hsymm, htrans⟩ := hchecks v hbackend
    have hfirst : (v.compiledCorrectly TwoTags.plain TwoTags.tagged ()).result = .ok true :=
      (compiledCorrectly_iff_simulatedUpTo hbackend _ _ ()).2
        ⟨htagged.simulatedUpTo homits, htagged.untagged_simulatedUpTo homits⟩
    have hsecond : (v.compiledCorrectly TwoTags.plain TwoTags.retagged ()).result = .ok true :=
      (compiledCorrectly_iff_simulatedUpTo hbackend _ _ ()).2
        ⟨hretagged.simulatedUpTo homits, hretagged.untagged_simulatedUpTo homits⟩
    exact ⟨v, hbackend, htrans _ _ _ () () () (hsymm _ _ () () hfirst) hsecond⟩
  · exact hqueries (.header .vlan) TwoTags.tagged TwoTags.plain TwoTags.retagged
      (Query.not_satisfiable_simulates_iff.2 (htagged.untagged_simulatedUpTo homits))
      (Query.not_satisfiable_simulates_iff.2 (hretagged.simulatedUpTo homits))

end SlicePolicy
