import SlicePolicy.Proofs.Network.Isolation
import SlicePolicy.Proofs.Network.TagPath
import SlicePolicy.Proofs.Verifier.Verdict

namespace SlicePolicy

/-!
# What the checks of links decide

Three checks look across a link: for a leak from one policy into another, for two tags on one link,
and for a path over one link that a compiled policy does not have. Each of them finds something
exactly when there is such a thing in the network, and with a backend that decides the answer of the
check says so.

* `Policy.isolated_iff_not_leaksInto` — isolation, for packets with any headers unset.
* `Policy.onePerEdge_iff_not_mixesOn` — one value of a field on each link, for every field.
* `Policy.simulatesTwoHop_iff_not_losesPath` — paths over one link, up to a header.
-/

namespace Policy

/-! ### Isolation -/

/-- **The isolation check is exact.** Its query has a solution exactly when the first policy sends a
    packet into a link, whatever headers are unset, for which the second policy sends something at
    the other end. So the check says that the policies are isolated exactly when nothing leaks. -/
theorem isolated_iff_not_leaksInto (w : Wiring) (a b : Policy) :
    ((Query.isolation w a b).Satisfiable ↔ a.LeaksInto w b) ∧
    ∀ {σ : Type} (v : Verifier σ), v.backend.Decides → ∀ s : σ,
      (v.isolated w a b s).result = .ok true ↔ ¬a.LeaksInto w b := by
  refine ⟨Query.satisfiable_isolation_iff_leaksInto, fun v hv s => ?_⟩
  rw [Verifier.isolated_iff hv, Query.satisfiable_isolation_iff_leaksInto]

/-- Two slices with different tags are isolated. A policy that takes everything gets what the first
    slice sends, also if only the tag of the packet is set. -/
theorem isolated_iff_not_leaksInto_slices :
    (∃ v : Verifier Unit, v.backend.Decides ∧
      (v.isolated .twoNodes (TwoSlices.slice 1) (TwoSlices.slice 2) ()).result = .ok true) ∧
    (Query.isolation .twoNodes (TwoSlices.slice 1) Bounce.plain).Satisfiable := by
  constructor
  · obtain ⟨v, hv⟩ := Verifier.exists_decides
    obtain ⟨hquery, hcheck⟩ :=
      isolated_iff_not_leaksInto .twoNodes (TwoSlices.slice 1) (TwoSlices.slice 2)
    have hsealed : ¬(TwoSlices.slice 1).LeaksInto .twoNodes (TwoSlices.slice 2) :=
      fun hleak => TwoSlices.isolated (hquery.2 hleak)
    exact ⟨v, hv, (hcheck v hv ()).2 hsealed⟩
  · have hleak : (TwoSlices.slice 1).LeaksInto .twoNodes Bounce.plain :=
      ⟨TwoSlices.ping, TwoSlices.ping, ⟨1, 5⟩, ⟨1, 1⟩, ⟨2, 1⟩, by decide, by decide, by decide⟩
    exact (isolated_iff_not_leaksInto .twoNodes (TwoSlices.slice 1) Bounce.plain).1.2 hleak

/-! ### One tag on each link -/

/-- **The one-tag check is exact.** Its query has a solution exactly when the policy sends two
    packets into one link with different values of the field and sends on one of them behind it. So
    the check finds nothing exactly when there are no such packets, also where an assertion folds to
    `false` and no backend is asked. -/
theorem onePerEdge_iff_not_mixesOn (w : Wiring) (p : Policy) (f : Field) :
    ((Query.onePerEdge w p f).Satisfiable ↔ p.MixesOn w f) ∧
    ∀ {σ : Type} (v : Verifier σ), v.backend.Decides → ∀ s : σ,
      (v.onePerEdge w p f s).result = .ok none ↔ ¬p.MixesOn w f := by
  refine ⟨Query.satisfiable_onePerEdge_iff_mixesOn, fun v hv s => ?_⟩
  rw [← Query.satisfiable_onePerEdge_iff_mixesOn]
  exact Verifier.pose_decides hv _ _ _ s

/-- Nodes that tag all they send use one tag on their link; nodes that send everything as it comes
    do not. -/
theorem onePerEdge_iff_not_mixesOn_bounce :
    (∃ v : Verifier Unit, v.backend.Decides ∧
      (v.onePerEdge .twoNodes Bounce.tagged (.header .vlan) ()).result = .ok none) ∧
    (Query.onePerEdge .twoNodes Bounce.plain (.header .vlan)).Satisfiable := by
  constructor
  · obtain ⟨v, hv⟩ := Verifier.exists_decides
    obtain ⟨hquery, hcheck⟩ := onePerEdge_iff_not_mixesOn .twoNodes Bounce.tagged (.header .vlan)
    have hone : ¬Bounce.tagged.MixesOn .twoNodes (.header .vlan) :=
      fun hmixes => Bounce.onePerEdge (hquery.2 hmixes)
    exact ⟨v, hv, (hcheck v hv ()).2 hone⟩
  · -- a packet with tag 3, and the same packet with tag 4
    let other : Packet := Bounce.ping.set (.header .vlan) 4
    have hfull : Bounce.ping.Full := fun _ => rfl
    have hmixes : Bounce.plain.MixesOn .twoNodes (.header .vlan) :=
      ⟨Bounce.ping, Bounce.ping, other, other, ⟨1, 1⟩, ⟨1, 1⟩, ⟨2, 1⟩, ⟨1, 1⟩, hfull,
        hfull.set .vlan 4, by decide, by decide, by decide, by decide, by decide⟩
    exact (onePerEdge_iff_not_mixesOn .twoNodes Bounce.plain (.header .vlan)).1.2 hmixes

/-! ### Paths over one link -/

/-- **The two-hop check is exact.** Its query has a solution exactly when the first policy has a path
    over one link, of packets without unset headers, and no three values of the header make the
    second policy do both legs of it with the same value at both ends of the link. So the check
    finds nothing exactly when no path over one link is lost. -/
theorem simulatesTwoHop_iff_not_losesPath (w : Wiring) (a b : Policy) (f : Header) :
    ((Query.simulatesTwoHop w a b (.header f)).Satisfiable ↔ a.LosesPath w f b) ∧
    ∀ {σ : Type} (v : Verifier σ), v.backend.Decides → ∀ s : σ,
      (v.simulatesTwoHop w a b (.header f) s).result = .ok none ↔ ¬a.LosesPath w f b := by
  refine ⟨satisfiable_simulatesTwoHop_iff_losesPath, fun v hv s => ?_⟩
  rw [← satisfiable_simulatesTwoHop_iff_losesPath]
  exact Verifier.pose_decides hv _ _ _ s

/-- The tagged nodes lose no path up to their tag. Up to another header they lose the path of a packet
    that comes without the tag, because they change it. -/
theorem simulatesTwoHop_iff_not_losesPath_bounce :
    (∃ v : Verifier Unit, v.backend.Decides ∧
      (v.simulatesTwoHop .twoNodes Bounce.plain Bounce.tagged (.header .vlan) ()).result
        = .ok none) ∧
    (Query.simulatesTwoHop .twoNodes Bounce.plain Bounce.tagged (.header .srcMac)).Satisfiable := by
  constructor
  · obtain ⟨v, hv⟩ := Verifier.exists_decides
    obtain ⟨hquery, hcheck⟩ :=
      simulatesTwoHop_iff_not_losesPath .twoNodes Bounce.plain Bounce.tagged .vlan
    have hkept : ¬Bounce.plain.LosesPath .twoNodes .vlan Bounce.tagged :=
      fun hlost => Bounce.twoHop (hquery.2 hlost)
    exact ⟨v, hv, (hcheck v hv ()).2 hkept⟩
  · have hlost : Bounce.plain.LosesPath .twoNodes .srcMac Bounce.tagged := by
      refine ⟨Bounce.there, Bounce.back, by decide, ⟨by decide, rfl⟩, by decide, fun _ => rfl, ?_⟩
      rintro t₁ t₂ t₃ ⟨hfirst, -⟩
      -- what the first node sends has tag 7, and the packet on the path has tag 3
      have htag : some (3 : Value) = some 7 := Bounce.tag_of_mem_outputs hfirst
      exact absurd htag (by decide)
    exact (simulatesTwoHop_iff_not_losesPath .twoNodes Bounce.plain Bounce.tagged .srcMac).1.2 hlost

end Policy

end SlicePolicy
