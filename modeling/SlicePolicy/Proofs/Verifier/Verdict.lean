import SlicePolicy.Proofs.Formula.Folding
import SlicePolicy.Proofs.Verifier.Runs

namespace SlicePolicy

/-!
# What the checks decide

A check with a backend that is never wrong decides whether its query has a solution, from every
state of the backend; a sequence of checks decides whether none of its queries has one.

* `Backend.Decides` — the backend answers that a query is unsatisfiable exactly when it is;
  `Backend.Refutes` — it does so at least when it is.
* `Run.Decides` — a run finds no counterexample when a property holds.
* `Verifier.pose_decides`, `Verifier.firstFailure_decides_cons` — a single check, and one check more
  in a sequence; `Verifier.isolated_iff` — the one that answers yes or no.
* `Verifier.compiledCorrectly_of_not_satisfiable`, `Verifier.compiledCorrectly_iff` — the check of a
  compiled policy.
* `Verifier.compiledCorrectlyIn_iff` — the check of a compiled policy against a network.
-/

variable {σ α β : Type}

/-- The backend answers that a query is unsatisfiable exactly when it is. -/
def Backend.Decides (backend : Backend σ) : Prop :=
  ∀ (query : Query) (config : Config) (s : σ),
    (backend.check query config s).1 = .ok .unsat ↔ ¬query.Satisfiable

/-- The backend answers that a query is unsatisfiable whenever it is; what else it answers is left
    open. -/
def Backend.Refutes (backend : Backend σ) : Prop :=
  ∀ (query : Query) (config : Config) (s : σ),
    ¬query.Satisfiable → (backend.check query config s).1 = .ok .unsat

theorem Backend.Decides.refutes {backend : Backend σ} (h : backend.Decides) : backend.Refutes :=
  fun query config s => (h query config s).2

/-- There is a backend that decides, though not one that can be run. -/
theorem Backend.exists_decides : ∃ backend : Backend Unit, backend.Decides := by
  classical
  let check (query : Query) (_ : Config) (s : Unit) : Except Error Verdict × Unit :=
    (.ok (if query.Satisfiable then .sat ∅ else .unsat), s)
  refine ⟨⟨"oracle", check⟩, fun query config s => ?_⟩
  by_cases h : query.Satisfiable <;> simp [check, h]

/-- There is a verifier whose backend decides. -/
theorem Verifier.exists_decides : ∃ v : Verifier Unit, v.backend.Decides := by
  obtain ⟨backend, hbackend⟩ := Backend.exists_decides
  exact ⟨{ backend, config := .standard, valid := rfl }, hbackend⟩

/-- From every state the run ends well and finds nothing when the property holds, and only then. -/
def Run.Decides (x : Run σ (Option α)) (holds : Prop) : Prop :=
  ∀ s : σ, (x s).result = .ok none ↔ holds

/-! ### A single check -/

/-- A query with an assertion that is plainly false has no solution. -/
theorem Query.not_satisfiable_of_isTriviallyUnsat {q : Query} (h : q.isTriviallyUnsat = true) :
    ¬q.Satisfiable := by
  rintro ⟨field, int, hq⟩
  have hholds := hq (.const false) (isTriviallyUnsat_iff.1 h)
  exact Bool.false_ne_true ((Formula.holds_const false).1 hholds)

namespace Verifier

variable {v : Verifier σ}

/-- The verdict is "unsatisfiable" when the query is, also where the backend is not asked. -/
theorem verdict_eq_unsat_iff (hv : v.backend.Decides) (q : Query) (s : σ) :
    v.verdict q s = .ok .unsat ↔ ¬q.Satisfiable := by
  unfold verdict
  by_cases htrivial : q.isTriviallyUnsat = true
  · rw [if_pos htrivial]
    exact iff_of_true rfl (Query.not_satisfiable_of_isTriviallyUnsat htrivial)
  · rw [if_neg htrivial]
    exact hv q v.config s

/-- Only one verdict means that there is no counterexample. -/
theorem resultOf_eq_none_iff {kind : CheckKind} {q : Query} {verdict : Verdict} :
    resultOf kind q verdict = .ok none ↔ verdict = .unsat := by
  cases verdict <;> simp [resultOf]

/-- **A check decides its query.** -/
theorem pose_decides (hv : v.backend.Decides) (kind : CheckKind) (q : Query)
    (context : List (String × String)) : (v.pose kind q context).Decides (¬q.Satisfiable) := by
  intro s
  rw [← verdict_eq_unsat_iff hv q s, result_pose]
  cases v.verdict q s with
  | error e => simp [Except.bind]
  | ok verdict =>
    rw [Except.ok.injEq]
    exact resultOf_eq_none_iff

/-- The check of isolation decides its query. -/
theorem isolated_iff (hv : v.backend.Decides) (w : Wiring) (a b : Policy) (s : σ) :
    (v.isolated w a b s).result = .ok true ↔ ¬(Query.isolation w a b).Satisfiable := by
  have hleak : (v.isolatedModel w a b).Decides _ := pose_decides hv .isolation (.isolation w a b) []
  rw [← hleak s, result_isolated]
  cases (v.isolatedModel w a b s).result with
  | error e => simp [Except.map]
  | ok leak => simp [Except.map]

/-- The verdict on a query that is plainly unsatisfiable is so with every backend. -/
theorem verdict_of_isTriviallyUnsat {q : Query} (htrivial : q.isTriviallyUnsat = true)
    (s : σ) : v.verdict q s = .ok .unsat := by
  unfold verdict
  rw [if_pos htrivial]

/-- A check finds nothing if the verdict on its query is "unsatisfiable". -/
theorem result_pose_of_unsat {q : Query} {s : σ} (hverdict : v.verdict q s = .ok .unsat)
    (kind : CheckKind) (context : List (String × String)) :
    (v.pose kind q context s).result = .ok none := by
  rw [result_pose, hverdict]
  rfl

/-- A check of a query without solutions finds nothing, if the backend answers at least such queries
    rightly. -/
theorem pose_decides_of_not_satisfiable (hv : v.backend.Refutes) {q : Query} (hq : ¬q.Satisfiable)
    (kind : CheckKind) (context : List (String × String)) :
    (v.pose kind q context).Decides True := by
  intro s
  refine iff_of_true (result_pose_of_unsat ?_ kind context) trivial
  by_cases htrivial : q.isTriviallyUnsat = true
  · exact verdict_of_isTriviallyUnsat htrivial s
  · unfold verdict
    rw [if_neg htrivial]
    exact hv q v.config s hq

/-! ### Sequences of checks -/

theorem firstFailure_decides_nil : (firstFailure (σ := σ) []).Decides True :=
  fun _ => iff_of_true rfl trivial

/-- Nothing fails in a sequence when its first check finds nothing and nothing fails in the rest. -/
theorem firstFailure_decides_cons {words : String} {check : Run σ (Option Counterexample)}
    {checks : List (String × Run σ (Option Counterexample))} {p q : Prop} (hcheck : check.Decides p)
    (hchecks : (firstFailure checks).Decides q) :
    (firstFailure ((words, check) :: checks)).Decides (p ∧ q) := by
  intro s
  have hp := hcheck s
  unfold firstFailure
  cases h : (check s).result with
  | error e =>
    rw [Run.result_bind_of_error h]
    simp only [h, reduceCtorEq, false_iff] at hp ⊢
    exact fun hpq => hp hpq.1
  | ok found =>
    rw [Run.result_bind_of_ok h]
    cases found with
    | some leak =>
      simp only [h, Except.ok.injEq, reduceCtorEq, false_iff] at hp
      show Except.ok (some words) = Except.ok none ↔ _
      simp [hp]
    | none =>
      rw [and_iff_right (hp.1 h)]
      exact hchecks _

/-- A sequence of checks holds when none of them fails. -/
theorem allHold_iff {checks : List (String × Run σ (Option Counterexample))} {p : Prop}
    (hchecks : (firstFailure checks).Decides p) (field : Field) (s : σ) :
    (allHold checks field s).result = .ok true ↔ p := by
  rw [← hchecks s]
  unfold allHold
  cases h : (firstFailure checks s).result with
  | error e =>
    rw [Run.result_bind_of_error h]
    simp
  | ok failed =>
    rw [Run.result_bind_of_ok h]
    show Except.ok failed.isNone = Except.ok true ↔ _
    simp

end Verifier

/-- The check of a compiled policy passes if none of its two queries has a solution and the backend
    answers at least such queries rightly. -/
theorem Verifier.compiledCorrectly_of_not_satisfiable {v : Verifier σ} (hv : v.backend.Refutes)
    {source compiled : Policy}
    (hlost : ¬(Query.simulates source compiled v.config.tagField).Satisfiable)
    (hnew : ¬(Query.simulates compiled source v.config.tagField).Satisfiable) (s : σ) :
    (v.compiledCorrectly source compiled s).result = .ok true := by
  have hchecks : (firstFailure
      [("lost behavior", v.simulates source compiled v.config.tagField),
        ("new behavior", v.simulates compiled source v.config.tagField)]).Decides _ :=
    firstFailure_decides_cons (pose_decides_of_not_satisfiable hv hlost _ _) <|
      firstFailure_decides_cons (pose_decides_of_not_satisfiable hv hnew _ _)
        firstFailure_decides_nil
  exact (allHold_iff hchecks _ s).2 ⟨trivial, trivial, trivial⟩

/-- With a backend that decides, a compiled policy passes exactly when neither of the two queries has
    a solution. -/
theorem Verifier.compiledCorrectly_iff {v : Verifier σ} (hv : v.backend.Decides)
    (source compiled : Policy) (s : σ) :
    (v.compiledCorrectly source compiled s).result = .ok true ↔
      ¬(Query.simulates source compiled v.config.tagField).Satisfiable ∧
        ¬(Query.simulates compiled source v.config.tagField).Satisfiable := by
  have hchecks : (firstFailure
      [("lost behavior", v.simulates source compiled v.config.tagField),
        ("new behavior", v.simulates compiled source v.config.tagField)]).Decides _ :=
    firstFailure_decides_cons (pose_decides hv _ _ _) <|
      firstFailure_decides_cons (pose_decides hv _ _ _) firstFailure_decides_nil
  refine (allHold_iff hchecks _ s).trans ?_
  rw [and_true]

/-! ### The check of a compiled policy in a network -/

/-- The policies send and report the same up to the field, and the second uses one value of the
    field on every link: none of the queries that ask for a difference has a solution. -/
structure Policy.CompiledIn (w : Wiring) (source compiled : Policy) (f : Field) : Prop where
  noLostBehavior : ¬(Query.simulates source compiled f).Satisfiable
  noNewBehavior : ¬(Query.simulates compiled source f).Satisfiable
  noLostObservation : ¬(Query.simulatesObserves source compiled f).Satisfiable
  noNewObservation : ¬(Query.simulatesObserves compiled source f).Satisfiable
  oneTag : ¬(Query.onePerEdge w compiled f).Satisfiable

/-- **The check decides all of its queries.** A compiled policy passes when none of them has a
    solution, the original policy being restricted to what may enter. -/
theorem Verifier.compiledCorrectlyIn_iff {v : Verifier σ} (hv : v.backend.Decides) (w : Wiring)
    (source compiled : Policy) (edges : EdgePolicy) (s : σ) :
    (v.compiledCorrectlyIn w source compiled edges s).result = .ok true ↔
      Policy.CompiledIn w (source.restrictToEdges edges) compiled v.config.tagField := by
  let source' := source.restrictToEdges edges
  let f := v.config.tagField
  have hchecks : (firstFailure
      [("lost behavior", v.simulates source' compiled f),
        ("new behavior", v.simulates compiled source' f),
        ("lost observation", v.simulatesObserves source' compiled f),
        ("new observation", v.simulatesObserves compiled source' f),
        ("several tags on one link", v.onePerEdge w compiled f)]).Decides _ :=
    firstFailure_decides_cons (pose_decides hv _ _ _) <|
      firstFailure_decides_cons (pose_decides hv _ _ _) <|
      firstFailure_decides_cons (pose_decides hv _ _ _) <|
      firstFailure_decides_cons (pose_decides hv _ _ _) <|
      firstFailure_decides_cons (pose_decides hv _ _ _) firstFailure_decides_nil
  refine (allHold_iff hchecks f s).trans ?_
  constructor
  · rintro ⟨h₁, h₂, h₃, h₄, h₅, -⟩
    exact ⟨h₁, h₂, h₃, h₄, h₅⟩
  · rintro ⟨h₁, h₂, h₃, h₄, h₅⟩
    exact ⟨h₁, h₂, h₃, h₄, h₅, trivial⟩

end SlicePolicy
