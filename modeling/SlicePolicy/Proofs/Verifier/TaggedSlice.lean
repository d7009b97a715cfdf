import SlicePolicy.Proofs.Policy.Tagging
import SlicePolicy.Proofs.Query.Simulation

namespace SlicePolicy

/-!
# Tagged slices are judged correct

A compiled policy that differs from the original one by tags only does the same up to the tag, so
none of the queries that look for a difference has a solution.

* `Policy.Tagged.simulatedUpTo`, `Policy.Tagged.untagged_simulatedUpTo` — forwarding, in both
  directions.
* `Policy.Tagged.observedUpTo`, `Policy.Tagged.untagged_observedUpTo` — reports, in both directions.
* `Policy.Tagged.compiledIn` — the check in a network asks only for one tag on each link.
* `Policy.tagged_compiledCorrectly` — the queries and the check.
-/

namespace Policy

variable {h : Header} {p p' : Policy}

namespace Tagged

/-- What the policy sends is sent with tags as well: the guard asks for the tag of the packet, and
    the action decides which tag it leaves with. -/
theorem simulatedUpTo (htag : p.Tagged h p') (hp : p.Omits h) : SimulatedUpTo (.header h) p p' := by
  intro x y l m _ hxy
  obtain ⟨a, ha, hy⟩ := mem_outputs_iff_actions.1 hxy
  obtain ⟨homits, a', haa', c, ha'⟩ := htag.exists_tagged hp ha
  obtain ⟨c', hy'⟩ := haa'.exists_mem_outputs_set homits hy c
  exact ⟨c, c', mem_outputs_iff_actions.2 ⟨a', ha', hy'⟩⟩

/-- What is sent with tags the policy sends as well: any tag will do, if the packet keeps it. -/
theorem untagged_simulatedUpTo (htag : p.Tagged h p') (hp : p.Omits h) :
    SimulatedUpTo (.header h) p' p := by
  intro x y l m _ hxy
  obtain ⟨a', ha', hy⟩ := mem_outputs_iff_actions.1 hxy
  obtain ⟨a, homits, haa', ha⟩ := htag.exists_untagged hp ha'
  exact ⟨wildcard, wildcard,
    mem_outputs_iff_actions.2 ⟨a, ha wildcard, haa'.mem_outputs_set homits hy wildcard⟩⟩

/-- What the policy reports is reported with a tag as well. -/
theorem observedUpTo (htag : p.Tagged h p') (hp : p.Omits h) : ObservedUpTo (.header h) p p' := by
  intro x l tap _ htap
  obtain ⟨a, ha, htap⟩ := mem_observations_iff_actions.1 htap
  obtain ⟨-, a', haa', c, ha'⟩ := htag.exists_tagged hp ha
  rw [← haa'.observe_eq] at htap
  exact ⟨c, mem_observations_iff_actions.2 ⟨a', ha', htap⟩⟩

/-- What is reported with a tag the policy reports with any tag. -/
theorem untagged_observedUpTo (htag : p.Tagged h p') (hp : p.Omits h) :
    ObservedUpTo (.header h) p' p := by
  intro x l tap _ htap
  obtain ⟨a', ha', htap⟩ := mem_observations_iff_actions.1 htap
  obtain ⟨a, -, haa', ha⟩ := htag.exists_untagged hp ha'
  rw [haa'.observe_eq] at htap
  exact ⟨wildcard, mem_observations_iff_actions.2 ⟨a, ha wildcard, htap⟩⟩

/-- In a network a tagged policy is compiled well if it uses one tag on each link. -/
theorem compiledIn (htag : p.Tagged h p') (hp : p.Omits h) {w : Wiring}
    (hone : ¬(Query.onePerEdge w p' (.header h)).Satisfiable) : CompiledIn w p p' (.header h) where
  noLostBehavior := Query.not_satisfiable_simulates_iff.2 (htag.simulatedUpTo hp)
  noNewBehavior := Query.not_satisfiable_simulates_iff.2 (htag.untagged_simulatedUpTo hp)
  noLostObservation := Query.not_satisfiable_simulatesObserves_iff.2 (htag.observedUpTo hp)
  noNewObservation := Query.not_satisfiable_simulatesObserves_iff.2 (htag.untagged_observedUpTo hp)
  oneTag := hone

end Tagged

/-- **Tagging is judged correct.** Take a policy that leaves a header alone, and add tests of the
    header to some of its guards and changes of it to some of its actions, with any values. The
    four queries that look for a difference up to the header have no solutions. So the check of the
    tagged policy against the original one passes, with every backend that answers at least such
    queries rightly. -/
theorem tagged_compiledCorrectly (h : Header) (p p' : Policy) (hp : p.Omits h)
    (htag : p.Tagged h p') :
    ¬(Query.simulates p p' (.header h)).Satisfiable ∧
    ¬(Query.simulates p' p (.header h)).Satisfiable ∧
    ¬(Query.simulatesObserves p p' (.header h)).Satisfiable ∧
    ¬(Query.simulatesObserves p' p (.header h)).Satisfiable ∧
    ∀ {σ : Type} (v : Verifier σ), v.backend.Refutes → v.config.tagField = .header h →
      ∀ s : σ, (v.compiledCorrectly p p' s).result = .ok true := by
  have hlost := Query.not_satisfiable_simulates_iff.2 (htag.simulatedUpTo hp)
  have hnew := Query.not_satisfiable_simulates_iff.2 (htag.untagged_simulatedUpTo hp)
  refine ⟨hlost, hnew, ?_, ?_, ?_⟩
  · exact Query.not_satisfiable_simulatesObserves_iff.2 (htag.observedUpTo hp)
  · exact Query.not_satisfiable_simulatesObserves_iff.2 (htag.untagged_observedUpTo hp)
  · intro σ v hv hfield s
    rw [← hfield] at hlost hnew
    exact Verifier.compiledCorrectly_of_not_satisfiable hv hlost hnew s

end Policy

/-! ### An instance: a slice with two branches -/

namespace TwoTags

/-- What is not for host 5 is sent on, once with a new source and once as it is; what comes in by
    the third port is only reported. -/
def plain : Policy :=
  .union
    (.branch (.diff (.located ⟨2, 2⟩) (.test (.header .dstMac) 5))
      [⟨2, [1], (∅ : KeyMap Header Value).insert .srcMac 4, .ofList [6]⟩, .forward 2 3])
    (.branch (.located ⟨2, 3⟩) [(Action.dropOn 2).reportingTo [8]])

/-- The first branch takes tag 2, which its first action trades for tag 9; the second branch takes
    tag 7. -/
def tagged : Policy :=
  .union
    (.branch (.inter (.diff (.located ⟨2, 2⟩) (.test (.header .dstMac) 5)) (.test (.header .vlan) 2))
      [⟨2, [1], ((∅ : KeyMap Header Value).insert .srcMac 4).insert .vlan 9, .ofList [6]⟩,
        .forward 2 3])
    (.branch (.inter (.test (.header .vlan) 7) (.located ⟨2, 3⟩))
      [(Action.dropOn 2).reportingTo [8]])

theorem tagged_plain : plain.Tagged .vlan tagged :=
  .union (.branch (.testAfter 2) (.cons (.rewrite 9) (.cons .same .nil)))
    (.branch (.testBefore 7) (.cons .same .nil))

end TwoTags

/-- A verifier with the usual settings passes a slice whose branches have different tags. -/
theorem Policy.tagged_compiledCorrectly_twoTags :
    TwoTags.plain.Omits .vlan ∧ TwoTags.plain.Tagged .vlan TwoTags.tagged ∧
    ∃ v : Verifier Unit, v.backend.Refutes ∧ v.config.tagField = .header .vlan ∧
      (v.compiledCorrectly TwoTags.plain TwoTags.tagged ()).result = .ok true := by
  have homits : TwoTags.plain.Omits .vlan := by decide
  obtain ⟨backend, hbackend⟩ := Backend.exists_decides
  let v : Verifier Unit := { backend, config := .standard, valid := rfl }
  refine ⟨homits, TwoTags.tagged_plain, v, hbackend.refutes, rfl, ?_⟩
  obtain ⟨-, -, -, -, hpasses⟩ :=
    tagged_compiledCorrectly .vlan TwoTags.plain TwoTags.tagged homits TwoTags.tagged_plain
  exact hpasses _ hbackend.refutes rfl ()

end SlicePolicy
