import SlicePolicy.Proofs.Network.TagPath
import SlicePolicy.Proofs.Policy.Admission
import SlicePolicy.Proofs.Verifier.TaggedSlice
import SlicePolicy.Topology

namespace SlicePolicy

/-!
# What the check of a compiled policy says about links

The check of a compiled policy in a network compares the policies node by node, where the tags
before and after a node are free, and asks for one tag on each link. A tag that the next node
ignores does not count there, so a compiled policy passes even if one node sends with a tag that
the next node drops. The two-hop check is the one that finds this, and only this: once a compiled
policy passes, no path over a link is lost exactly when every path is taken up again with the tag
that is in use on its link.

* `Policy.TagInUse` — a policy sends a tag into a link and sends the packet on behind it.
* `Policy.TagInUse.tag_eq` — the tag in use is the only tag that is sent into the link.
* `Policy.retagged_of_simulates` — the simulation check in terms of packets.
* `Policy.compiledIn_links` — what a compiled policy that passes does on links.
* `DroppedTag.passes_and_loses` — a compiled policy that passes and loses a path.
-/

variable {w : Wiring} {a b : Policy} {f : Header}

/-- The policy sends something with the tag into the link, and sends it on at the other end. -/
def Policy.TagInUse (w : Wiring) (b : Policy) (f : Header) (m l : Location) (c : Value) : Prop :=
  (m, l) ∈ w.hops ∧ ∃ (x y : Packet) (k : Location), x.Full ∧ (y, m) ∈ b.outputs x k ∧
    y.headers.get? f = some c ∧ b.outputs y l ≠ []

/-- Wherever a path of the first policy crosses a link, the second policy goes on behind the link
    with the tag that is in use on it. -/
def Policy.TakesUp (w : Wiring) (a b : Policy) (f : Header) : Prop :=
  ∀ s t : Leg, s.Of a → w.Joins s t → t.Of a → s.packet.Full →
    ∃ c d : Value, TagInUse w b f s.departure t.arrival c ∧ t.Retagged b f c d

/-- If the one-tag check finds nothing, everything that is sent into a link has the tag that is in
    use there. -/
theorem Policy.TagInUse.tag_eq (hone : ¬(Query.onePerEdge w b (.header f)).Satisfiable)
    {m l k : Location} {c : Value} (huse : TagInUse w b f m l c) {x y : Packet} (hx : x.Full)
    (hy : (y, m) ∈ b.outputs x k) : y.headers.get? f = some c := by
  obtain ⟨hlink, x', y', k', hx', hy', htag, hnext⟩ := huse
  obtain ⟨⟨u, n⟩, hu⟩ := List.exists_mem_of_ne_nil _ hnext
  rw [← htag]
  exact (tag_eq_of_onePerEdge hone hx' hx hy' hlink hu hy).symm

/-- If the simulation check finds nothing, every leg of the first policy is done by the second, with
    some tags before and after. -/
theorem Policy.retagged_of_simulates (hcheck : ¬(Query.simulates a b (.header f)).Satisfiable)
    {leg : Leg} (hleg : leg.Of a) (hfull : leg.packet.Full) :
    ∃ t t' : Value, leg.Retagged b f t t' := by
  exact Query.not_satisfiable_simulates_iff.1 hcheck leg.packet leg.sent leg.arrival leg.departure
    hfull hleg

/-! ### Paths over one link -/

/-- If no path over a link is lost, each is taken up with the tag in use. -/
theorem Policy.takesUp_of_twoHop (htwo : ¬(Query.simulatesTwoHop w a b (.header f)).Satisfiable) :
    TakesUp w a b f := by
  intro s t hs hst ht hfull
  obtain ⟨t₁, c, d, hfirst, hsecond⟩ := retagged_of_twoHop htwo hs hst ht hfull
  -- what the first node sends with tag `c` is sent on, so `c` is in use
  have hnext : b.outputs (s.sent.set (.header f) c) t.arrival ≠ [] := by
    rw [← hst.2]
    exact List.ne_nil_of_mem hsecond
  have huse : TagInUse w b f s.departure t.arrival c :=
    ⟨hst.1, _, _, _, hfull.set f t₁, hfirst, Packet.get?_set_self _ _ _, hnext⟩
  exact ⟨c, d, huse, hsecond⟩

/-- If every path over a link is taken up with the tag in use, none is lost: the first node does its
    leg with some tag, and sends the one that is in use because there is no other. -/
theorem Policy.twoHop_of_takesUp (hsim : ¬(Query.simulates a b (.header f)).Satisfiable)
    (hone : ¬(Query.onePerEdge w b (.header f)).Satisfiable) (htakes : TakesUp w a b f) :
    ¬(Query.simulatesTwoHop w a b (.header f)).Satisfiable := by
  rw [satisfiable_simulatesTwoHop_iff_losesPath]
  rintro ⟨s, t, hs, hst, ht, hfull, hlost⟩
  obtain ⟨c, d, huse, hsecond⟩ := htakes s t hs hst ht hfull
  obtain ⟨t₁, t₂, hfirst⟩ := retagged_of_simulates hsim hs hfull
  have htag : t₂ = c := by
    have hsent := huse.tag_eq hone (hfull.set f t₁) hfirst
    rw [Packet.get?_set_self] at hsent
    exact Option.some.inj hsent
  rw [← htag] at hsecond
  exact hlost t₁ t₂ d ⟨hfirst, hsecond⟩

/-- **A compiled policy on links.** Let none of the queries of the check have a solution, so that
    the compiled policy passes. Then at most one tag is in use on a link, and no path of the original
    policy over a link is lost exactly when the second node of every such path takes up the packet
    with the tag that is in use on the link. -/
theorem Policy.compiledIn_links (w : Wiring) (source compiled : Policy) (edges : EdgePolicy)
    (f : Header)
    (h : CompiledIn w (source.restrictToEdges edges) compiled (.header f)) :
    (∀ {σ : Type} (v : Verifier σ), v.backend.Decides → v.config.tagField = .header f →
      ∀ state : σ, (v.compiledCorrectlyIn w source compiled edges state).result = .ok true) ∧
    (∀ (m l : Location) (c c' : Value), TagInUse w compiled f m l c →
      TagInUse w compiled f m l c' → c = c') ∧
    (¬(Query.simulatesTwoHop w (source.restrictToEdges edges) compiled (.header f)).Satisfiable ↔
      TakesUp w (source.restrictToEdges edges) compiled f) := by
  refine ⟨?_, ?_, ?_⟩
  · intro σ v hv htag state
    rw [Verifier.compiledCorrectlyIn_iff hv, htag]
    exact h
  · intro m l c c' hc hc'
    obtain ⟨_, x, y, k, hx, hy, hyc', _⟩ := hc'
    have hyc : y.headers.get? f = some c := hc.tag_eq h.oneTag hx hy
    exact Option.some.inj (hyc.symm.trans hyc')
  · exact ⟨takesUp_of_twoHop, twoHop_of_takesUp h.noLostBehavior h.oneTag⟩

/-! ### An instance: two nodes that send everything to each other -/

namespace Bounce

theorem tagged_plain : plain.Tagged .vlan tagged :=
  .union (.branch .same (.cons (.rewrite 7) .nil))
    (.branch (.testAfter 7) (.cons (.rewrite 7) .nil))

theorem compiledIn : Policy.CompiledIn .twoNodes plain tagged (.header .vlan) :=
  tagged_plain.compiledIn (by decide) onePerEdge

end Bounce

/-- The nodes that tag all they send pass with a backend that is never wrong, and their tag is taken
    up on every path. -/
theorem Policy.compiledIn_links_bounce :
    CompiledIn .twoNodes (Bounce.plain.restrictToEdges ∅) Bounce.tagged (.header .vlan) ∧
    (∃ v : Verifier Unit, v.backend.Decides ∧ v.config.tagField = .header .vlan ∧
      (v.compiledCorrectlyIn .twoNodes Bounce.plain Bounce.tagged ∅ ()).result = .ok true) ∧
    (∀ (m l : Location) (c c' : Value), TagInUse .twoNodes Bounce.tagged .vlan m l c →
      TagInUse .twoNodes Bounce.tagged .vlan m l c' → c = c') ∧
    TakesUp .twoNodes (Bounce.plain.restrictToEdges ∅) Bounce.tagged .vlan := by
  have h : CompiledIn .twoNodes (Bounce.plain.restrictToEdges ∅) Bounce.tagged
      (.header .vlan) := by
    rw [restrictToEdges_empty]
    exact Bounce.compiledIn
  obtain ⟨hpasses, hunique, htwo⟩ := compiledIn_links _ _ _ _ _ h
  obtain ⟨backend, hbackend⟩ := Backend.exists_decides
  let v : Verifier Unit := { backend, config := .standard, valid := rfl }
  refine ⟨h, ⟨v, hbackend, rfl, hpasses v hbackend rfl ()⟩, hunique, ?_⟩
  refine htwo.1 ?_
  rw [restrictToEdges_empty]
  exact Bounce.twoHop

/-! ### A path that the check does not see

The first switch sends with tag 1 and the second takes up only tag 2, so the second drops what the
first sends. Node by node both do what the original does, up to the tag, and no tag that crosses the
link counts, because none of them is sent on.
-/

namespace DroppedTag

/-- Two switches with one link. -/
def network : Topology := .after [.addSwitch 1, .addSwitch 2, .addLink 1 2]

/-- Packets come in at the first switch, and leave from the second. -/
def plain : Policy :=
  .union (.branch (.located ⟨1, 2⟩) [.forward 1 1]) (.branch (.located ⟨2, 1⟩) [.forward 2 2])

/-- The packets have tag 1 on the link, where the second switch expects tag 2. -/
def tagged : Policy :=
  .union (.branch (.located ⟨1, 2⟩) [.forwardWith 1 1 .vlan 1])
    (.branch (.inter (.located ⟨2, 1⟩) (.test (.header .vlan) 2)) [.forward 2 2])

theorem tagged_plain : plain.Tagged .vlan tagged :=
  .union (.branch .same (.cons (.rewrite 1) .nil)) (.branch (.testAfter 2) (.cons .same .nil))

theorem mem_outputs_tagged {x y : Packet} {l m : Location} :
    (y, m) ∈ tagged.outputs x l ↔
      l = ⟨1, 2⟩ ∧ y = x.set (.header .vlan) 1 ∧ m = ⟨1, 1⟩ ∨
        (l = ⟨2, 1⟩ ∧ x.headers.get? .vlan = some 2) ∧ y = x ∧ m = ⟨2, 2⟩ := by
  have hsecond : (Predicate.inter (.located ⟨2, 1⟩) (.test (.header .vlan) 2)).accepts x l = true ↔
      l = ⟨2, 1⟩ ∧ x.headers.get? .vlan = some 2 := by
    rw [Predicate.accepts, Bool.and_eq_true, Predicate.accepts_located_iff (by decide) (by decide)]
    simp [Predicate.accepts, Packet.read, wildcard]
  simp only [tagged, Policy.mem_outputs_union, Policy.mem_outputs_branch, List.mem_singleton,
    exists_eq_left, Action.mem_outputs_forward, Action.mem_outputs_forwardWith]
  rw [Predicate.accepts_located_iff (by decide) (by decide), hsecond]

/-- Where a packet leaves decides about its tag. -/
theorem tag_of_mem_outputs {x y : Packet} {l m : Location} (h : (y, m) ∈ tagged.outputs x l) :
    y.headers.get? .vlan = some (if m = ⟨1, 1⟩ then 1 else 2) := by
  rcases mem_outputs_tagged.1 h with ⟨_, rfl, rfl⟩ | ⟨⟨_, htag⟩, rfl, rfl⟩
  · rfl
  · exact htag

theorem onePerEdge : ¬(Query.onePerEdge network.wiring tagged (.header .vlan)).Satisfiable := by
  rw [Query.satisfiable_onePerEdge_iff]
  rintro ⟨x, y, z, u, x', y', hxy, -, -, hxy', hlocation, h⟩
  have hy := tag_of_mem_outputs hxy
  have hy' := tag_of_mem_outputs hxy'
  rw [hlocation, ← hy'] at hy
  exact h (Option.some.inj hy)

theorem compiledIn : Policy.CompiledIn network.wiring plain tagged (.header .vlan) :=
  tagged_plain.compiledIn (by decide) onePerEdge

/-- A packet comes in at the first switch and is sent into the link. -/
def first : Leg := ⟨Bounce.ping, ⟨1, 2⟩, Bounce.ping, ⟨1, 1⟩⟩

/-- A packet comes out of the link and leaves from the second switch. -/
def second : Leg := ⟨Bounce.ping, ⟨2, 1⟩, Bounce.ping, ⟨2, 2⟩⟩

/-- The packet crosses the link with tag 1, and only tag 2 would be taken up. -/
theorem twoHop : (Query.simulatesTwoHop network.wiring plain tagged (.header .vlan)).Satisfiable := by
  by_contra hcheck
  have hjoins : network.wiring.Joins first second := ⟨by decide, rfl⟩
  obtain ⟨t₁, t₂, t₃, hfirst, hsecond⟩ :=
    Policy.retagged_of_twoHop hcheck (s := first) (t := second) (by decide) hjoins (by decide)
      fun _ => rfl
  have hone : some t₂ = some 1 := tag_of_mem_outputs hfirst
  have htwo : some t₂ = some 2 := by
    rcases mem_outputs_tagged.1 hsecond with ⟨hl, _⟩ | ⟨⟨_, htag⟩, _⟩
    · exact absurd hl (by decide)
    · exact htag
  rw [hone] at htwo
  exact absurd htwo (by decide)

/-- **A path that the check does not see.** The compiled policy passes with every backend that is
    never wrong, and the two-hop query has a solution. -/
theorem passes_and_loses :
    Policy.CompiledIn network.wiring (plain.restrictToEdges ∅) tagged (.header .vlan) ∧
    (∀ {σ : Type} (v : Verifier σ), v.backend.Decides → v.config.tagField = .header .vlan →
      ∀ state : σ, (v.compiledCorrectlyIn network.wiring plain tagged ∅ state).result = .ok true) ∧
    (Query.simulatesTwoHop network.wiring (plain.restrictToEdges ∅) tagged
      (.header .vlan)).Satisfiable := by
  have hpasses : Policy.CompiledIn network.wiring (plain.restrictToEdges ∅) tagged
      (.header .vlan) := by
    rw [Policy.restrictToEdges_empty]
    exact compiledIn
  refine ⟨hpasses, ?_, ?_⟩
  · intro σ v hv htag state
    rw [Verifier.compiledCorrectlyIn_iff hv, htag]
    exact hpasses
  · rw [Policy.restrictToEdges_empty]
    exact twoHop

end DroppedTag

end SlicePolicy
