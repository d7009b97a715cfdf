import SlicePolicy.Verifier

namespace SlicePolicy

/-!
# One run after another, and one check

What can be seen of a run: its result, the queries it asks and the reports it delivers. This module
says what a run shows that consists of two, and what a single check shows.

* `Run.inTurn` — several runs, none of which ends the others.
* `Run.result_bind`, `Run.signals_bind` — one run after another; a failure is the end.
* `Run.result_bind_pure`, `Run.signals_bind_pure` — looking at a result shows nothing.
* `Query.isTriviallyUnsat_iff` — the queries that are not put to the backend.
* `Verifier.verdict` — the verdict on a query: that of the backend, unless the query is plainly
  unsatisfiable; `Verifier.answers` — there is one.
* `Verifier.pose_eq` — all that a check does; `Verifier.result_pose`, `Verifier.state_pose`,
  `Verifier.asked_pose` and `Verifier.reports_pose` take it apart.
-/

variable {σ α β : Type}

namespace Run

/-- What runs do one after another, each in the state that the one before left behind, whatever
    their results are. -/
def inTurn : List (Run σ α) → σ → List (Episode σ α)
  | [], _ => []
  | x :: xs, s => x s :: inTurn xs (x s).state

/-- One run after another has the result of the second, unless the first one fails. -/
theorem result_bind (x : Run σ α) (next : α → Run σ β) (s : σ) :
    ((x >>= next) s).result =
      match (x s).result with
      | .ok a => (next a (x s).state).result
      | .error e => .error e := by
  show (andThen x next s).result = _
  simp only [andThen]
  cases (x s).result <;> rfl

/-- After a run that ends well, the result is that of the next run. -/
theorem result_bind_of_ok {x : Run σ α} {next : α → Run σ β} {s : σ} {a : α}
    (h : (x s).result = .ok a) : ((x >>= next) s).result = (next a (x s).state).result := by
  rw [result_bind, h]

/-- After a run that fails there is no other. -/
theorem result_bind_of_error {x : Run σ α} {next : α → Run σ β} {s : σ} {e : Error}
    (h : (x s).result = .error e) : ((x >>= next) s).result = .error e := by
  rw [result_bind, h]

/-- Of one run after another, the signals of the first come first, and those of the second only if
    there is one. -/
theorem signals_bind (x : Run σ α) (next : α → Run σ β) (s : σ) :
    ((x >>= next) s).signals = (x s).signals ++
      match (x s).result with
      | .ok a => (next a (x s).state).signals
      | .error _ => [] := by
  show (andThen x next s).signals = _
  simp only [andThen]
  cases (x s).result with
  | ok a => rfl
  | error e => exact (List.append_nil _).symm

/-- Looking at a result leaves the failures as they are. -/
theorem result_bind_pure (x : Run σ α) (g : α → β) (s : σ) :
    ((x >>= fun a => pure (g a)) s).result = (x s).result.map g := by
  rw [result_bind]
  cases (x s).result <;> rfl

/-- Looking at a result leaves the state as it is. -/
theorem state_bind_pure (x : Run σ α) (g : α → β) (s : σ) :
    ((x >>= fun a => pure (g a)) s).state = (x s).state := by
  show (andThen x _ s).state = _
  simp only [andThen]
  cases (x s).result <;> rfl

/-- Looking at a result shows nothing. -/
theorem signals_bind_pure (x : Run σ α) (g : α → β) (s : σ) :
    ((x >>= fun a => pure (g a)) s).signals = (x s).signals := by
  rw [signals_bind]
  cases (x s).result with
  | ok a => exact List.append_nil _
  | error e => exact List.append_nil _

/-- Looking at a result reports nothing. -/
theorem reports_bind_pure (x : Run σ α) (g : α → β) (s : σ) :
    ((x >>= fun a => pure (g a)) s).reports = (x s).reports :=
  congrArg (List.filterMap Signal.report?) (signals_bind_pure x g s)

/-- Looking at a result asks nothing. -/
theorem asked_bind_pure (x : Run σ α) (g : α → β) (s : σ) :
    ((x >>= fun a => pure (g a)) s).asked = (x s).asked :=
  congrArg (List.filterMap Signal.asked?) (signals_bind_pure x g s)

end Run

/-! ### A single check -/

/-- A query is plainly unsatisfiable when an assertion is `false`. -/
theorem Query.isTriviallyUnsat_iff {q : Query} :
    q.isTriviallyUnsat = true ↔ .const false ∈ q.assertions := by
  unfold isTriviallyUnsat
  rw [List.any_eq_true]
  constructor
  · rintro ⟨f, hf, hfalse⟩
    exact of_decide_eq_true hfalse ▸ hf
  · intro h
    exact ⟨_, h, decide_eq_true rfl⟩

namespace Verifier

/-- There is a verdict on the query when its turn comes: an assertion is plainly false, or the
    backend gives an answer. -/
def answers (v : Verifier σ) (q : Query) (s : σ) : Bool :=
  q.isTriviallyUnsat || (v.backend.check q v.config s).1.isOk

/-- The verdict on the query when its turn comes, or the failure of the backend. -/
def verdict (v : Verifier σ) (q : Query) (s : σ) : Except Error Verdict :=
  if q.isTriviallyUnsat then .ok .unsat else (v.backend.check q v.config s).1

/-- The state in which the verdict on the query leaves the backend. -/
def stateAfter (v : Verifier σ) (q : Query) (s : σ) : σ :=
  if q.isTriviallyUnsat then s else (v.backend.check q v.config s).2

/-- The report of a check with a verdict, and with the time that it took. -/
def reportWith (kind : CheckKind) (q : Query) (context : List (String × String))
    (verdict : Verdict) (milliseconds : Nat) : Report :=
  context.foldl (fun r e => r.withContext e.1 e.2)
    ((reportOf kind q verdict).withElapsed milliseconds)

/-- Context changes neither what was checked nor how it came out. -/
theorem kind_outcome_foldl (context : List (String × String)) (r : Report) :
    let r' := context.foldl (fun r e => r.withContext e.1 e.2) r
    r'.kind = r.kind ∧ r'.outcome = r.outcome := by
  induction context generalizing r with
  | nil => exact ⟨rfl, rfl⟩
  | cons e context ih => exact ih (r.withContext e.1 e.2)

/-- What a verdict says about the property that was checked. -/
def outcomeOf : Verdict → CheckOutcome
  | .unsat => .holds
  | .sat _ => .violated
  | .unknown _ => .unknown

/-- The report of a check says what was checked and how it came out. -/
theorem kind_outcome_reportWith (kind : CheckKind) (q : Query) (context : List (String × String))
    (verdict : Verdict) (milliseconds : Nat) :
    let r := reportWith kind q context verdict milliseconds
    r.kind = kind ∧ r.outcome = outcomeOf verdict := by
  obtain ⟨hkind, houtcome⟩ :=
    kind_outcome_foldl context ((reportOf kind q verdict).withElapsed milliseconds)
  refine ⟨hkind.trans ?_, houtcome.trans ?_⟩
  · cases verdict <;> rfl
  · cases verdict <;> rfl

variable (v : Verifier σ)

/-- **Asking for a verdict.** The verdict is that of the backend, which is asked once and is left in
    the state after its answer; if an assertion is plainly false it is not asked, and stays as it
    is. -/
theorem decide_eq (q : Query) (s : σ) : v.decide q s =
    ⟨v.verdict q s, v.stateAfter q s, if q.isTriviallyUnsat then [] else [.asked q]⟩ := by
  unfold decide verdict stateAfter
  by_cases htrivial : q.isTriviallyUnsat = true
  · simp only [if_pos htrivial]
    rfl
  · simp only [if_neg htrivial]
    rfl

/-- What a check logs before it has a verdict: its span, and the size of the query. -/
def opening (kind : CheckKind) (q : Query) : List Signal :=
  [.log (.enter "check" [("kind", .text kind.name), ("backend", .text v.backend.name)]),
    .log (.event .trace [("size", .number q.size), ("packets", .number q.packets.length)]
      "posing query")]

/-- **A single check.** After its opening the backend gets the query, unless an assertion is plainly
    false. If there is a verdict, a report says which, and the result is what the verdict means; if
    there is none the check fails as the backend did. -/
theorem pose_eq (kind : CheckKind) (q : Query) (context : List (String × String)) (s : σ) :
    v.pose kind q context s =
      ⟨(v.verdict q s).bind (resultOf kind q), v.stateAfter q s,
        v.opening kind q ++ ((if q.isTriviallyUnsat then [] else [.asked q]) ++
          match v.verdict q s with
          | .ok verdict =>
            [.report (reportWith kind q context verdict (v.elapsedMilliseconds q s))]
          | .error _ => [])⟩ := by
  -- after the opening the check is the verdict with its time, and then the report on it
  have htimed : v.timed q s =
      ⟨(v.verdict q s).map fun verdict => (verdict, v.elapsedMilliseconds q s), v.stateAfter q s,
        if q.isTriviallyUnsat then [] else [.asked q]⟩ := by
    unfold timed
    rw [decide_eq]
  let rest : Verdict × Nat → Run σ (Option Counterexample) := fun answer => do
    Run.report (reportWith kind q context answer.1 answer.2)
    Run.ofExcept (resultOf kind q answer.1)
  have hrest : v.pose kind q context s =
      let e := Run.andThen (v.timed q) rest s
      ⟨e.result, e.state, v.opening kind q ++ e.signals⟩ := rfl
  rw [hrest, Run.andThen, htimed]
  cases v.verdict q s with
  | error e => simp only [Except.map, Except.bind, List.append_nil]
  | ok verdict => rfl

/-- A check has the result that the verdict on its query means; logs and reports play no part. -/
theorem result_pose (kind : CheckKind) (q : Query) (context : List (String × String)) (s : σ) :
    (v.pose kind q context s).result = (v.verdict q s).bind (resultOf kind q) := by
  rw [pose_eq]

/-- A check leaves the backend in the state after its answer. -/
theorem state_pose (kind : CheckKind) (q : Query) (context : List (String × String)) (s : σ) :
    (v.pose kind q context s).state = v.stateAfter q s := by
  rw [pose_eq]

/-- **A check asks once, or not at all.** The backend gets the query of the check, unless an
    assertion is plainly false. -/
theorem asked_pose (kind : CheckKind) (q : Query) (context : List (String × String)) (s : σ) :
    (v.pose kind q context s).asked = if q.isTriviallyUnsat then [] else [q] := by
  unfold Episode.asked
  rw [pose_eq]
  cases q.isTriviallyUnsat <;> cases v.verdict q s <;> rfl

/-- **A check reports once, or not at all.** The report says how the check came out; where the
    backend fails there is none. -/
theorem reports_pose (kind : CheckKind) (q : Query) (context : List (String × String)) (s : σ) :
    (v.pose kind q context s).reports =
      match v.verdict q s with
      | .ok verdict => [reportWith kind q context verdict (v.elapsedMilliseconds q s)]
      | .error _ => [] := by
  unfold Episode.reports
  rw [pose_eq]
  cases q.isTriviallyUnsat <;> cases v.verdict q s <;> rfl

/-- The check of isolation says whether a leak was found. -/
theorem result_isolated (w : Wiring) (a b : Policy) (s : σ) :
    (v.isolated w a b s).result = (v.isolatedModel w a b s).result.map Option.isNone :=
  Run.result_bind_pure _ _ s

/-- The verdict is there exactly when the query is plainly unsatisfiable or the backend answers. -/
theorem isOk_verdict (q : Query) (s : σ) : (v.verdict q s).isOk = v.answers q s := by
  unfold verdict answers
  by_cases htrivial : q.isTriviallyUnsat = true
  · rw [if_pos htrivial, htrivial]
    rfl
  · rw [if_neg htrivial, Bool.eq_false_iff.2 htrivial]
    rfl

end Verifier

end SlicePolicy
