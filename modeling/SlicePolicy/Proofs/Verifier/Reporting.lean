import SlicePolicy.Proofs.Verifier.Turns

namespace SlicePolicy

/-!
# One report for each check

Whoever watches a verifier counts on a report for every check. A check keeps to this as long as its
backend answers, also if the answer is that it gave up; when the backend fails, the check ends
without a report. A sequence of checks has a report of its own exactly when it has a result: the
failure of one of its checks is the end of it, and then only the reports of the checks so far are
delivered.

* `Verifier.ReportsOnce` — one report of the kind of the check, or none where there is no verdict.
* `Verifier.reportsOnce_pose` — every check of a single query.
* `Verifier.ReportsEach` — one report for every turn of a sequence, and one with its result.
* `Verifier.Follows.reportsEach` — every sequence of checks.
* `Verifier.reports_of_checks` — all checks of a verifier.
* `Verifier.unreported_failures` — a check and a sequence that fail without their report.
-/

namespace Verifier

variable {σ : Type}

/-- There is one report, of the kind of the check, if there is a verdict on the query, and none
    otherwise. -/
def ReportsOnce (v : Verifier σ) (kind : CheckKind) (q : Query) (s : σ) (reports : List Report) :
    Prop :=
  reports.map Report.kind = if v.answers q s then [kind] else []

/-- A check of a single query reports once. -/
theorem reportsOnce_pose (v : Verifier σ) (kind : CheckKind) (q : Query)
    (context : List (String × String)) (s : σ) :
    v.ReportsOnce kind q s (v.pose kind q context s).reports := by
  unfold ReportsOnce
  rw [reports_pose, ← isOk_verdict]
  cases v.verdict q s with
  | error e => rfl
  | ok verdict => exact congrArg (fun k => [k]) (kind_outcome_reportWith kind q context verdict _).1

/-- A check that only looks at what the check of a query finds reports once. -/
theorem reportsOnce_pose_pure {α : Type} (v : Verifier σ) (kind : CheckKind) (q : Query)
    (context : List (String × String)) (g : Option Counterexample → α) (s : σ) :
    v.ReportsOnce kind q s ((v.pose kind q context >>= fun found => pure (g found)) s).reports := by
  rw [Run.reports_bind_pure]
  exact v.reportsOnce_pose kind q context s

/-! ### Sequences of checks -/

/-- A turn has a report of its kind if there is a verdict in it, and no report otherwise. -/
theorem Turn.kind_report? (v : Verifier σ) (f : Field) (t : Turn σ) :
    (t.report? v f).map Report.kind = if v.answers t.query t.state then some t.kind else none := by
  unfold report? verdict
  rw [← isOk_verdict]
  cases v.verdict t.query t.state with
  | error e => rfl
  | ok verdict => exact congrArg some (kind_outcome_reportWith _ _ _ verdict _).1

/-- There is one report for every turn taken in which there is a verdict, of its kind and in order,
    and at the end one of the kind of sequences if the episode has a result. -/
def ReportsEach (v : Verifier σ) (checks : List (CheckKind × Query)) (s : σ)
    (e : Episode σ Bool) : Prop :=
  e.reports.map Report.kind =
    (taken v (v.turns checks s)).filterMap
        (fun t => if v.answers t.query t.state then some t.kind else none) ++
      if e.result.isOk then [.compiledCorrectly] else []

/-- The report of a sequence on the whole goes with its result. -/
theorem map_fst_summary (result : Except Error Bool) :
    (summary result).map Prod.fst = if result.isOk then [.compiledCorrectly] else [] := by
  cases result with
  | error err => rfl
  | ok holds => cases holds <;> rfl

/-- An episode that follows its turns reports for each of them. -/
theorem Follows.reportsEach {v : Verifier σ} {f : Field} {checks : List (CheckKind × Query)} {s : σ}
    {e : Episode σ Bool} (h : v.Follows f checks s e) : v.ReportsEach checks s e := by
  obtain ⟨own, hreports, hown⟩ := h.reports_eq
  have hkinds : own.map Report.kind = if e.result.isOk then [.compiledCorrectly] else [] := by
    rw [← map_fst_summary, ← hown, List.map_map]
    rfl
  unfold ReportsEach
  rw [hreports, List.map_append, hkinds, List.map_filterMap]
  simp only [Turn.kind_report?]

/-! ### All checks -/

/-- **What every check reports.** Each check of a single query delivers one report of its own kind
    if there is a verdict, and none if the backend fails. Each sequence of checks delivers one report
    for every turn taken in which there is a verdict, in order, and then one report of its own kind
    exactly when it has a result. -/
theorem reports_of_checks (v : Verifier σ) (s : σ) :
    (∀ p : Policy, v.ReportsOnce .notEmpty (.notEmpty p) s (v.notEmpty p s).reports) ∧
    (∀ a b : Policy, v.ReportsOnce .equivalence (.equivalent a b) s (v.equivalent a b s).reports) ∧
    (∀ (a b : Policy) (f : Field),
      v.ReportsOnce .simulation (.simulates a b f) s (v.simulates a b f s).reports) ∧
    (∀ (a b : Policy) (f : Field), v.ReportsOnce .observationSimulation (.simulatesObserves a b f) s
      (v.simulatesObserves a b f s).reports) ∧
    (∀ (w : Wiring) (a b : Policy) (f : Field),
      v.ReportsOnce .twoHopSimulation (.simulatesTwoHop w a b f) s
        (v.simulatesTwoHop w a b f s).reports) ∧
    (∀ (w : Wiring) (p : Policy) (f : Field),
      v.ReportsOnce .oneTagPerEdge (.onePerEdge w p f) s (v.onePerEdge w p f s).reports) ∧
    (∀ (w : Wiring) (a b : Policy),
      v.ReportsOnce .isolation (.isolation w a b) s (v.isolatedModel w a b s).reports ∧
      v.ReportsOnce .isolation (.isolation w a b) s (v.isolated w a b s).reports ∧
      v.ReportsOnce .isolation (.isolation w a b) s (v.isolatedDiagnostic w a b s).reports) ∧
    (∀ source compiled : Policy,
      let f := v.config.tagField
      v.ReportsEach (obligations source compiled f) s (v.compiledCorrectly source compiled s)) ∧
    (∀ (w : Wiring) (source compiled : Policy) (edges : EdgePolicy),
      let f := v.config.tagField
      v.ReportsEach (obligationsIn w (source.restrictToEdges edges) compiled f) s
        (v.compiledCorrectlyIn w source compiled edges s)) := by
  refine ⟨?_, ?_, ?_, ?_, ?_, ?_, ?_, ?_, ?_⟩
  · intro p
    exact v.reportsOnce_pose _ _ _ s
  · intro a b
    exact v.reportsOnce_pose _ _ _ s
  · intro a b f
    exact v.reportsOnce_pose _ _ _ s
  · intro a b f
    exact v.reportsOnce_pose _ _ _ s
  · intro w a b f
    exact v.reportsOnce_pose _ _ _ s
  · intro w p f
    exact v.reportsOnce_pose _ _ _ s
  · intro w a b
    exact ⟨v.reportsOnce_pose _ _ _ s, v.reportsOnce_pose_pure _ _ _ _ s,
      v.reportsOnce_pose_pure _ _ _ _ s⟩
  · intro source compiled
    exact (v.follows_compiledCorrectly source compiled s).reportsEach
  · intro w source compiled edges
    exact (v.follows_compiledCorrectlyIn w source compiled edges s).reportsEach

/-- **Failures without a report.** When the backend fails, the check for a packet that is forwarded
    delivers no report at all. When it gives up on the first check of a compiled policy, that check
    has a report, and the check of the compiled policy has none. -/
theorem unreported_failures :
    let v : Verifier (List (Except Error Verdict)) :=
      { backend := .scripted, config := .standard, valid := rfl }
    let p : Policy := .branch (.located ⟨1, 1⟩) [.forward 1 2]
    (v.notEmpty p [.error (.backend "boom")]).reports = [] ∧
    (v.compiledCorrectly p p [.ok (.unknown "timeout")]).reports.map Report.kind
      = [.simulation] ∧
    ¬∀ (p : Policy) (s : List (Except Error Verdict)),
      ((v.notEmpty p s).reports.map Report.kind).count .notEmpty = 1 ∧
        ((v.compiledCorrectly p p s).reports.map Report.kind).count .compiledCorrectly = 1 := by
  intro v p
  have hsilent : (v.notEmpty p [.error (.backend "boom")]).reports = [] := by rfl
  refine ⟨hsilent, by rfl, ?_⟩
  intro h
  have hone := (h p [.error (.backend "boom")]).1
  rw [hsilent] at hone
  exact absurd hone (by decide)

end Verifier

end SlicePolicy
