import Mathlib.Tactic.ByContra
import SlicePolicy.Proofs.Query.Solutions
import SlicePolicy.Proofs.Verifier.Verdict

namespace SlicePolicy

/-!
# Refinement

A policy is refined by another one that sends all that it sends and, for a packet for which it sends
anything at all, nothing else. For the other packets the second policy may send what it likes, so
refinement is not symmetric; but policies that refine each other send the same for every packet.

* `Policy.RefinedBy`, `Policy.SendsSame` — refinement, and sending the same.
* `Policy.refinedBy_iff_silent_or_same` — where a refined policy is silent anything may be sent;
  `Policy.sendsSame_iff_refinedBy` — refinement in both directions is sending the same.
* `Policy.refinedBy_iff_forwards` — refinement is a property of points, which a query asks about.
* `Policy.equivalent_iff_refinedBy` — what the query of two policies decides, in one direction and in
  both, and what the check answers.
-/

namespace Policy

variable {a b : Policy}

/-- The second policy sends all that the first sends, and nothing else for a packet for which the
    first sends something. No header of the packet is unset. -/
def RefinedBy (a b : Policy) : Prop :=
  ∀ (x : Packet) (l : Location), x.Full →
    a.outputs x l ⊆ b.outputs x l ∧ (a.outputs x l ≠ [] → b.outputs x l ⊆ a.outputs x l)

/-- The policies send the same for every packet without unset headers; how often and in which order
    does not count. -/
def SendsSame (a b : Policy) : Prop :=
  ∀ (x : Packet) (l : Location), x.Full →
    ∀ o : Packet × Location, o ∈ a.outputs x l ↔ o ∈ b.outputs x l

/-- A refined policy is silent wherever it does not send the same. -/
theorem refinedBy_iff_silent_or_same : RefinedBy a b ↔
    ∀ (x : Packet) (l : Location), x.Full →
      a.outputs x l = [] ∨ ∀ o : Packet × Location, o ∈ a.outputs x l ↔ o ∈ b.outputs x l := by
  refine forall₂_congr fun x l => imp_congr_right fun _ => ⟨?_, ?_⟩
  · intro hrefined
    by_cases hsilent : a.outputs x l = []
    · exact .inl hsilent
    · have hsub : a.outputs x l ⊆ b.outputs x l := hrefined.1
      have hnothingNew : b.outputs x l ⊆ a.outputs x l := hrefined.2 hsilent
      exact .inr fun o => ⟨fun ho => hsub ho, fun ho => hnothingNew ho⟩
  · intro h
    rcases h with hsilent | hsame
    · rw [hsilent]
      exact ⟨List.nil_subset _, fun hne => absurd rfl hne⟩
    · exact ⟨fun o ho => (hsame o).1 ho, fun _ o ho => (hsame o).2 ho⟩

/-- Sending the same is refinement in both directions. -/
theorem sendsSame_iff_refinedBy : SendsSame a b ↔ RefinedBy a b ∧ RefinedBy b a := by
  refine ⟨fun hsame => ⟨?_, ?_⟩, ?_⟩
  · exact refinedBy_iff_silent_or_same.2 fun x l hx => .inr (hsame x l hx)
  · exact refinedBy_iff_silent_or_same.2 fun x l hx => .inr fun o => (hsame x l hx o).symm
  · intro hrefined x l hx o
    -- what is sent at all is lost in neither direction, so nothing new is asked about
    have hkept : a.outputs x l ⊆ b.outputs x l := (hrefined.1 x l hx).1
    have hback : b.outputs x l ⊆ a.outputs x l := (hrefined.2 x l hx).1
    exact ⟨fun ho => hkept ho, fun ho => hback ho⟩

/-! ### Refinement of points -/

/-- The outputs of a point are outputs of another policy when the points among them are. -/
theorem outputs_subset_iff_forwards {x : Point} :
    a.outputs x.packet x.location ⊆ b.outputs x.packet x.location ↔
      ∀ y : Point, a.Forwards x y → b.Forwards x y := by
  refine ⟨fun hsub y hy => hsub hy, fun hall o ho => ?_⟩
  obtain ⟨y, rfl⟩ := exists_point_of_mem_outputs ho
  exact hall y ho

/-- A policy sends something for a point when it sends a point. -/
theorem outputs_ne_nil_iff_forwards {x : Point} :
    a.outputs x.packet x.location ≠ [] ↔ ∃ y : Point, a.Forwards x y := by
  refine ⟨fun hne => ?_, fun ⟨y, hy⟩ => List.ne_nil_of_mem hy⟩
  obtain ⟨o, ho⟩ := List.exists_mem_of_ne_nil _ hne
  obtain ⟨y, rfl⟩ := exists_point_of_mem_outputs ho
  exact ⟨y, ho⟩

/-- Refinement is a property of points. -/
theorem refinedBy_iff_forwards : RefinedBy a b ↔ ∀ x : Point,
    (∀ y : Point, a.Forwards x y → b.Forwards x y) ∧
      ((∃ z : Point, a.Forwards x z) → ∀ y : Point, b.Forwards x y → a.Forwards x y) := by
  rw [RefinedBy, ← Point.forall_iff]
  simp only [outputs_subset_iff_forwards, outputs_ne_nil_iff_forwards]

end Policy

/-- There is no solution exactly when the first policy is refined by the second. -/
theorem Query.not_satisfiable_equivalent_iff {a b : Policy} :
    ¬(equivalent a b).Satisfiable ↔ a.RefinedBy b := by
  rw [satisfiable_equivalent_iff, Policy.refinedBy_iff_forwards, not_or]
  have hkept : (¬∃ x y : Point, a.Forwards x y ∧ ¬b.Forwards x y) ↔
      ∀ x y : Point, a.Forwards x y → b.Forwards x y := by
    push Not
    rfl
  have hnothingNew : (¬∃ x y z : Point, b.Forwards x y ∧ a.Forwards x z ∧ ¬a.Forwards x y) ↔
      ∀ x : Point, (∃ z, a.Forwards x z) → ∀ y, b.Forwards x y → a.Forwards x y := by
    push Not
    refine forall_congr' fun x => ⟨?_, ?_⟩
    · intro h hsome y hy
      obtain ⟨z, hz⟩ := hsome
      exact h y z hy hz
    · intro h y z hy hz
      exact h ⟨z, hz⟩ y hy
  rw [hkept, hnothingNew, forall_and]

/-! ### The check -/

/-- **The equivalence query is exact.** It has no solution exactly when the first policy is refined
    by the second. So the queries of two policies in either order have no solutions exactly when the
    two send the same, and with a backend that decides the check finds nothing exactly when the first
    policy is refined by the second. -/
theorem Policy.equivalent_iff_refinedBy (a b : Policy) :
    (¬(Query.equivalent a b).Satisfiable ↔ RefinedBy a b) ∧
    (¬(Query.equivalent a b).Satisfiable ∧ ¬(Query.equivalent b a).Satisfiable ↔ SendsSame a b) ∧
    ∀ {σ : Type} (v : Verifier σ), v.backend.Decides → ∀ s : σ,
      (v.equivalent a b s).result = .ok none ↔ RefinedBy a b := by
  refine ⟨Query.not_satisfiable_equivalent_iff, ?_, fun v hv s => ?_⟩
  · rw [Query.not_satisfiable_equivalent_iff, Query.not_satisfiable_equivalent_iff,
      sendsSame_iff_refinedBy]
  · rw [← Query.not_satisfiable_equivalent_iff]
    exact Verifier.pose_decides hv _ _ _ s

/-! ### An instance: one port and all ports -/

namespace OnePort

/-- Packets that come in at port 2 leave by port 1. -/
def narrow : Policy := .branch (.located ⟨1, 2⟩) [.forward 1 1]

/-- Packets that come in at any port leave by port 1. -/
def wide : Policy := .branch (.located ⟨1, wildcard⟩) [.forward 1 1]

/-- Where the first policy is not silent, both forward the packet as it is. -/
theorem narrow_refinedBy_wide : narrow.RefinedBy wide := by
  refine Policy.refinedBy_iff_silent_or_same.2 fun x l _ => ?_
  rw [narrow, wide, Policy.outputs_located_forward, Policy.outputs_located_forward]
  by_cases hport : (⟨1, 2⟩ : Location).Covers l
  · have hswitch : (⟨1, wildcard⟩ : Location).Covers l := ⟨hport.1, .inl rfl⟩
    rw [if_pos hport, if_pos hswitch]
    exact .inr fun o => Iff.rfl
  · rw [if_neg hport]
    exact .inl rfl

/-- The second policy sends twice what comes in at port 2 when it is joined with the first, but
    nothing that it does not send alone. -/
theorem sendsSame_union : (wide.union narrow).SendsSame wide := by
  intro x l hx o
  have hnarrow : narrow.outputs x l ⊆ wide.outputs x l := (narrow_refinedBy_wide x l hx).1
  rw [Policy.outputs_union, List.mem_append]
  exact or_iff_left_of_imp fun ho => hnarrow ho

/-- A packet with the same value in all headers. -/
def ping : Packet := ⟨⟨fun _ => some 3⟩⟩

end OnePort

/-- The check finds nothing for the policy of one port against that of all ports, and in the other
    order its query has a solution, which comes in at another port. Neither order has a solution for a
    policy that sends the same more often. -/
theorem Policy.equivalent_iff_refinedBy_ports :
    (∃ v : Verifier Unit, v.backend.Decides ∧
      (v.equivalent OnePort.narrow OnePort.wide ()).result = .ok none) ∧
    (Query.equivalent OnePort.wide OnePort.narrow).Satisfiable ∧
    ¬(Query.equivalent (OnePort.wide.union OnePort.narrow) OnePort.wide).Satisfiable ∧
    ¬(Query.equivalent OnePort.wide (OnePort.wide.union OnePort.narrow)).Satisfiable := by
  refine ⟨?_, ?_, ?_⟩
  · obtain ⟨v, hv⟩ := Verifier.exists_decides
    have hcheck := (equivalent_iff_refinedBy OnePort.narrow OnePort.wide).2.2 v hv ()
    exact ⟨v, hv, hcheck.2 OnePort.narrow_refinedBy_wide⟩
  · by_contra hnone
    have hrefined := (equivalent_iff_refinedBy OnePort.wide OnePort.narrow).1.1 hnone
    have hkept := (hrefined OnePort.ping ⟨1, 3⟩ fun _ => rfl).1
    have hsent :
        (OnePort.ping, (⟨1, 1⟩ : Location)) ∈ OnePort.wide.outputs OnePort.ping ⟨1, 3⟩ := by
      decide
    exact absurd (hkept hsent) (by decide)
  · exact (equivalent_iff_refinedBy (OnePort.wide.union OnePort.narrow) OnePort.wide).2.1.2
      OnePort.sendsSame_union

end SlicePolicy
