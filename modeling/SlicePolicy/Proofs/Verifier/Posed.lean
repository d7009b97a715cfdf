import SlicePolicy.Proofs.Verifier.Turns

namespace SlicePolicy

/-!
# What checks pose

A check builds its queries from policies, fields and links, and asks the backend nothing else. So what
holds of the query of every kind of check, whatever it is made of, holds of all that a verifier builds
and asks.

* `Query.All` — a property of the queries of all kinds of checks.
* `Verifier.Poses` — a check builds queries with a property, and asks no others.
* `Verifier.poses_pose`, `Verifier.Poses.map`, `Verifier.poses_of_follows` — single checks, checks that
  look at a result, and sequences of checks.
* `Verifier.AllPose`, `Verifier.allPose` — all checks of a verifier.
-/

/-- The query of every kind of check has the property, whatever it is made of. -/
structure Query.All (P : CheckKind → Query → Prop) : Prop where
  notEmpty : ∀ p : Policy, P .notEmpty (.notEmpty p)
  equivalent : ∀ a b : Policy, P .equivalence (.equivalent a b)
  simulates : ∀ (a b : Policy) (f : Field), P .simulation (.simulates a b f)
  simulatesObserves : ∀ (a b : Policy) (f : Field),
    P .observationSimulation (.simulatesObserves a b f)
  simulatesTwoHop : ∀ (w : Wiring) (a b : Policy) (f : Field),
    P .twoHopSimulation (.simulatesTwoHop w a b f)
  onePerEdge : ∀ (w : Wiring) (p : Policy) (f : Field), P .oneTagPerEdge (.onePerEdge w p f)
  isolation : ∀ (w : Wiring) (a b : Policy), P .isolation (.isolation w a b)

namespace Verifier

variable {σ α : Type} {P : CheckKind → Query → Prop}

/-- A check builds the queries of a list, which have the property, and asks the backend nothing
    else. -/
structure Poses (P : CheckKind → Query → Prop) (x : Run σ α) (checks : List (CheckKind × Query)) :
    Prop where
  holds : ∀ c ∈ checks, P c.1 c.2
  asked_mem : ∀ (s : σ), ∀ q ∈ (x s).asked, ∃ c ∈ checks, c.2 = q

/-! ### Checks one by one -/

theorem poses_pose (v : Verifier σ) {kind : CheckKind} {q : Query}
    {context : List (String × String)} (h : P kind q) :
    Poses P (v.pose kind q context) [(kind, q)] where
  holds := List.forall_mem_singleton.2 h
  asked_mem s q' hasked := by
    rw [asked_pose] at hasked
    split at hasked
    · exact absurd hasked List.not_mem_nil
    · exact ⟨_, List.mem_singleton_self _, (List.mem_singleton.1 hasked).symm⟩

/-- Looking at a result asks nothing. -/
theorem Poses.map {β : Type} {x : Run σ α} {checks : List (CheckKind × Query)} (h : Poses P x checks)
    (g : α → β) : Poses P (x >>= fun a => pure (g a)) checks where
  holds := h.holds
  asked_mem s q hq := h.asked_mem s q (by rwa [Run.asked_bind_pure] at hq)

/-- A sequence of checks asks the queries of the turns that it takes. -/
theorem poses_of_follows {v : Verifier σ} {f : Field} {checks : List (CheckKind × Query)}
    {x : Run σ Bool} (hchecks : ∀ c ∈ checks, P c.1 c.2) (h : ∀ s, v.Follows f checks s (x s)) :
    Poses P x checks where
  holds := hchecks
  asked_mem s _ hq := (h s).exists_of_mem_asked hq

/-! ### All checks -/

/-- All that the verifier builds and asks has the property, whatever it checks. -/
structure AllPose (P : CheckKind → Query → Prop) (v : Verifier σ) : Prop where
  notEmpty : ∀ a, Poses P (v.notEmpty a) [(.notEmpty, .notEmpty a)]
  equivalent : ∀ a b, Poses P (v.equivalent a b) [(.equivalence, .equivalent a b)]
  simulates : ∀ a b f, Poses P (v.simulates a b f) [(.simulation, .simulates a b f)]
  simulatesObserves : ∀ a b f,
    Poses P (v.simulatesObserves a b f) [(.observationSimulation, .simulatesObserves a b f)]
  simulatesTwoHop : ∀ w a b f,
    Poses P (v.simulatesTwoHop w a b f) [(.twoHopSimulation, .simulatesTwoHop w a b f)]
  onePerEdge : ∀ w a f, Poses P (v.onePerEdge w a f) [(.oneTagPerEdge, .onePerEdge w a f)]
  isolatedModel : ∀ w a b, Poses P (v.isolatedModel w a b) [(.isolation, .isolation w a b)]
  isolated : ∀ w a b, Poses P (v.isolated w a b) [(.isolation, .isolation w a b)]
  isolatedDiagnostic : ∀ w a b,
    Poses P (v.isolatedDiagnostic w a b) [(.isolation, .isolation w a b)]
  compiledCorrectly : ∀ a b,
    Poses P (v.compiledCorrectly a b) (obligations a b v.config.tagField)
  compiledCorrectlyIn : ∀ w a b edges, Poses P (v.compiledCorrectlyIn w a b edges)
    (obligationsIn w (a.restrictToEdges edges) b v.config.tagField)

/-- What is checked of a compiled policy has a property of all queries. -/
theorem forall_obligations (h : Query.All P) (a b : Policy) (f : Field) :
    ∀ c ∈ obligations a b f, P c.1 c.2 := by
  rw [← List.forall_iff_forall_mem]
  exact ⟨h.simulates a b f, h.simulates b a f⟩

/-- What is checked of a compiled policy in a network has a property of all queries. -/
theorem forall_obligationsIn (h : Query.All P) (w : Wiring) (a b : Policy) (f : Field) :
    ∀ c ∈ obligationsIn w a b f, P c.1 c.2 := by
  rw [← List.forall_iff_forall_mem]
  exact ⟨h.simulates a b f, h.simulates b a f, h.simulatesObserves a b f,
    h.simulatesObserves b a f, h.onePerEdge w b f⟩

/-- **All checks.** A property of the queries of all kinds of checks is one of all that a verifier
    builds and asks. -/
theorem allPose (h : Query.All P) (v : Verifier σ) : v.AllPose P := by
  have hisolated (w : Wiring) (a b : Policy) :
      Poses P (v.isolatedModel w a b) [(.isolation, .isolation w a b)] :=
    v.poses_pose (h.isolation w a b)
  exact
    { notEmpty := fun a => v.poses_pose (h.notEmpty a)
      equivalent := fun a b => v.poses_pose (h.equivalent a b)
      simulates := fun a b f => v.poses_pose (h.simulates a b f)
      simulatesObserves := fun a b f => v.poses_pose (h.simulatesObserves a b f)
      simulatesTwoHop := fun w a b f => v.poses_pose (h.simulatesTwoHop w a b f)
      onePerEdge := fun w a f => v.poses_pose (h.onePerEdge w a f)
      isolatedModel := hisolated
      isolated := fun w a b => (hisolated w a b).map _
      isolatedDiagnostic := fun w a b => (hisolated w a b).map _
      compiledCorrectly := fun a b =>
        poses_of_follows (forall_obligations h a b _) (v.follows_compiledCorrectly a b)
      compiledCorrectlyIn := fun w a b edges =>
        poses_of_follows (forall_obligationsIn h w _ b _)
          (v.follows_compiledCorrectlyIn w a b edges) }

end Verifier

end SlicePolicy
