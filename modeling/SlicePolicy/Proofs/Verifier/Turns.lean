import Mathlib.Data.List.Basic
import Mathlib.Data.List.TakeWhile
import SlicePolicy.Proofs.Verifier.Runs

namespace SlicePolicy

/-!
# Sequences of checks, turn by turn

A sequence of checks gives one check after another its turn, and stops at the first that does not
come back without a finding. What the sequence does is told here without the sequence, by what the
backend answers: let every query have its turn, each in the state in which the backend was left by the
turn before; then take the turns up to the first in which something is found or fails.

* `Verifier.Turn`, `Verifier.turns` — every query has its turn.
* `Verifier.stop?`, `Verifier.taken` — the turn that stops the sequence, and the turns up to it.
* `Backend.after` — the state of the backend when it has answered some queries.
* `Verifier.Follows` — result, queries, reports and final state of an episode are those of the turns
  taken.
* `Verifier.follows_allHold` — sequences of checks follow their turns.
* `Verifier.compiledChecks_follow` — so do the two checks of compiled policies, whatever the backend
  answers; `Verifier.compiledChecks_follow_scripts` shows four scripts.
-/

/-- The state of a backend when it has answered some queries, one after the other. -/
def Backend.after {σ : Type} (backend : Backend σ) (config : Config) (queries : List Query) (s : σ) :
    σ :=
  queries.foldl (fun s q => (backend.check q config s).2) s

theorem Backend.after_append {σ : Type} (backend : Backend σ) (config : Config)
    (first second : List Query) (s : σ) : backend.after config (first ++ second) s =
      backend.after config second (backend.after config first s) :=
  List.foldl_append

namespace Verifier

variable {σ : Type}

/-- A check of a sequence when its turn comes: what is checked, and the state of the backend. -/
structure Turn (σ : Type) where
  kind : CheckKind
  query : Query
  state : σ

namespace Turn

variable (v : Verifier σ) (f : Field) (t : Turn σ)

/-- The verdict on the query, unless the backend fails. -/
def verdict : Except Error Verdict := v.verdict t.query t.state

/-- What the verdict means for the check. -/
def result : Except Error (Option Counterexample) := (t.verdict v).bind (resultOf t.kind t.query)

/-- The queries that the backend gets: the one of the turn, unless it is plainly unsatisfiable. -/
def asked : List Query := if t.query.isTriviallyUnsat then [] else [t.query]

/-- The report of the turn, if there is a verdict. -/
def report? : Option Report :=
  (t.verdict v).toOption.map fun verdict =>
    reportWith t.kind t.query [("field", f.name)] verdict (v.elapsedMilliseconds t.query t.state)

/-- Whether the check ends without a finding. -/
def isClean : Bool :=
  match t.result v with
  | .ok none => true
  | _ => false

/-- What happens in the turn. -/
def episode : Episode σ (Option Counterexample) :=
  v.pose t.kind t.query [("field", f.name)] t.state

variable {v f t}

theorem isClean_iff : t.isClean v = true ↔ t.result v = .ok none := by
  unfold isClean
  split
  · next h => exact iff_of_true rfl h
  · next h => exact iff_of_false Bool.false_ne_true h

theorem result_episode : (t.episode v f).result = t.result v := v.result_pose _ _ _ _

theorem state_episode : (t.episode v f).state = v.stateAfter t.query t.state :=
  v.state_pose _ _ _ _

theorem asked_episode : (t.episode v f).asked = t.asked := v.asked_pose _ _ _ _

theorem reports_episode : (t.episode v f).reports = (t.report? v f).toList := by
  unfold episode report? verdict
  rw [reports_pose]
  cases v.verdict t.query t.state <;> rfl

/-- No query is asked but that of the turn. -/
theorem eq_of_mem_asked {q : Query} (hq : q ∈ t.asked) : q = t.query := by
  unfold asked at hq
  split at hq
  · exact absurd hq List.not_mem_nil
  · exact List.mem_singleton.1 hq

/-- After a turn the backend has answered what it was asked in it. -/
theorem stateAfter_eq_after :
    v.stateAfter t.query t.state = v.backend.after v.config t.asked t.state := by
  unfold stateAfter asked
  split
  · rfl
  · rfl

end Turn

/-! ### Turns -/

section Turns

variable (v : Verifier σ)

/-- Every check of a list has its turn, in the state in which the turn before left the backend. -/
def turns : List (CheckKind × Query) → σ → List (Turn σ)
  | [], _ => []
  | (kind, query) :: checks, s => ⟨kind, query, s⟩ :: turns checks (v.stateAfter query s)

/-- The first turn with a finding or a failure. -/
def stop? (ts : List (Turn σ)) : Option (Turn σ) := ts.find? fun t => !t.isClean v

/-- The turns that are taken if the first with a finding or a failure is the last. -/
def taken (ts : List (Turn σ)) : List (Turn σ) :=
  ts.takeWhile (fun t => t.isClean v) ++ (stop? v ts).toList

/-- What the turns taken mean together. -/
def outcome (ts : List (Turn σ)) : Except Error Bool :=
  match stop? v ts with
  | none => .ok true
  | some t => (t.result v).map fun _ => false

/-- In the turns of a list of checks happens what the checks do in turn. -/
theorem map_episode_turns (f : Field) (checks : List (CheckKind × Query)) (s : σ) :
    (v.turns checks s).map (Turn.episode v f) =
      Run.inTurn (checks.map fun c => v.pose c.1 c.2 [("field", f.name)]) s := by
  induction checks generalizing s with
  | nil => rfl
  | cons c checks ih =>
    rw [List.map_cons, Run.inTurn, state_pose]
    exact congrArg (_ :: ·) (ih _)

variable {v} {t : Turn σ} {ts : List (Turn σ)}

theorem stop?_cons_of_clean (h : t.isClean v = true) : stop? v (t :: ts) = stop? v ts := by
  unfold stop?
  rw [List.find?_cons_of_neg]
  simp [h]

theorem stop?_cons_of_not_clean (h : t.isClean v = false) : stop? v (t :: ts) = some t := by
  unfold stop?
  rw [List.find?_cons_of_pos]
  simp [h]

theorem taken_cons_of_clean (h : t.isClean v = true) :
    taken v (t :: ts) = t :: taken v ts := by
  unfold taken
  rw [stop?_cons_of_clean h, List.takeWhile_cons_of_pos h, List.cons_append]

theorem taken_cons_of_not_clean (h : t.isClean v = false) : taken v (t :: ts) = [t] := by
  unfold taken
  rw [stop?_cons_of_not_clean h, List.takeWhile_cons_of_neg (by simp [h])]
  rfl

theorem isClean_of_stop? (h : stop? v ts = some t) : t.isClean v = false := by
  simpa using List.find?_some h

/-- No turn stops the others when all are clean. -/
theorem stop?_eq_none_iff : stop? v ts = none ↔ ∀ t ∈ ts, t.isClean v = true := by
  unfold stop?
  rw [List.find?_eq_none]
  simp

/-- A turn that is taken is clean, or the one that stops the others. -/
theorem stop?_of_mem_taken (ht : t ∈ taken v ts) (hclean : t.isClean v = false) :
    stop? v ts = some t := by
  rcases List.mem_append.1 ht with hbefore | hlast
  · have htrue := List.mem_takeWhile_imp hbefore
    rw [hclean] at htrue
    exact absurd htrue Bool.false_ne_true
  · exact Option.mem_toList.1 hlast

/-- No turn is taken that is not in the list. -/
theorem mem_of_mem_taken (ht : t ∈ taken v ts) : t ∈ ts := by
  rcases List.mem_append.1 ht with hbefore | hlast
  · exact (List.takeWhile_prefix _).subset hbefore
  · exact List.mem_of_find?_eq_some (Option.mem_toList.1 hlast)

/-- In each turn one of the checks is made. -/
theorem mem_of_mem_turns {checks : List (CheckKind × Query)} {s : σ}
    (ht : t ∈ v.turns checks s) : (t.kind, t.query) ∈ checks := by
  induction checks generalizing s with
  | nil => exact absurd ht List.not_mem_nil
  | cons c checks ih =>
    rcases List.mem_cons.1 ht with rfl | hrest
    · exact List.mem_cons_self
    · exact List.mem_cons_of_mem _ (ih hrest)

/-- Together the turns hold when all are clean. -/
theorem outcome_eq_true_iff :
    outcome v ts = .ok true ↔ ∀ t ∈ ts, t.result v = .ok none := by
  have hall : (∀ t ∈ ts, t.result v = .ok none) ↔ stop? v ts = none := by
    rw [stop?_eq_none_iff]
    exact forall₂_congr fun t _ => Turn.isClean_iff.symm
  rw [hall]
  unfold outcome
  cases stop? v ts with
  | none => exact iff_of_true rfl rfl
  | some t =>
    cases h : t.result v <;> simp [h, Except.map]

/-- Together the turns do not hold when one with a counterexample stops them. -/
theorem outcome_eq_false_iff : outcome v ts = .ok false ↔
    ∃ (t : Turn σ) (leak : Counterexample),
      stop? v ts = some t ∧ t.result v = .ok (some leak) := by
  unfold outcome
  cases hstop : stop? v ts with
  | none => simp
  | some t =>
    have hclean := isClean_of_stop? hstop
    simp only [Option.some.injEq, exists_and_left, exists_eq_left']
    cases hresult : t.result v with
    | error err => simp [Except.map]
    | ok found =>
      cases found with
      | some leak => simp [Except.map]
      | none =>
        -- a clean turn stops nothing
        rw [Turn.isClean_iff.2 hresult] at hclean
        exact absurd hclean Bool.noConfusion

/-- Together the turns fail when one that fails stops them. -/
theorem outcome_eq_error_iff {err : Error} : outcome v ts = .error err ↔
    ∃ t : Turn σ, stop? v ts = some t ∧ t.result v = .error err := by
  unfold outcome
  cases stop? v ts with
  | none => simp
  | some t =>
    simp only [Option.some.injEq, exists_eq_left']
    cases t.result v <;> simp [Except.map]

end Turns

/-! ### What a sequence does -/

/-- Kind and outcome of the report of a sequence with a result; one that fails has no report. -/
def summary : Except Error Bool → List (CheckKind × CheckOutcome)
  | .ok true => [(.compiledCorrectly, .holds)]
  | .ok false => [(.compiledCorrectly, .violated)]
  | .error _ => []

/-- The episode is that of the checks when each has its turn, up to the first that does not end
    without a finding. -/
structure Follows (v : Verifier σ) (f : Field) (checks : List (CheckKind × Query)) (s : σ)
    (e : Episode σ Bool) : Prop where
  /-- The sequence holds when all checks end without a finding. -/
  result_true_iff : e.result = .ok true ↔ ∀ t ∈ v.turns checks s, t.result v = .ok none
  /-- The sequence does not hold when the first check that ends otherwise has a counterexample. -/
  result_false_iff : e.result = .ok false ↔ ∃ (t : Turn σ) (leak : Counterexample),
    stop? v (v.turns checks s) = some t ∧ t.result v = .ok (some leak)
  /-- The sequence fails with the failure of the first check that ends otherwise. -/
  result_error_iff : ∀ err : Error, e.result = .error err ↔ ∃ t : Turn σ,
    stop? v (v.turns checks s) = some t ∧ t.result v = .error err
  /-- A verdict that the backend could not reach ends the sequence with that failure. -/
  error_of_unknown : ∀ t ∈ taken v (v.turns checks s), ∀ reason : String,
    t.verdict v = .ok (.unknown reason) → e.result = .error (.solverUnknown t.kind.name reason)
  /-- The backend is asked once in each turn taken, unless the query is plainly unsatisfiable. -/
  asked_eq : e.asked = (taken v (v.turns checks s)).flatMap Turn.asked
  /-- At the end the backend has answered what it was asked, and nothing else. -/
  state_eq : e.state = v.backend.after v.config e.asked s
  /-- The reports are those of the turns taken in which there is a verdict, and at the end one on
      the whole if that has a result. -/
  reports_eq : ∃ own : List Report,
    e.reports = (taken v (v.turns checks s)).filterMap (Turn.report? v f) ++ own ∧
      own.map (fun r => (r.kind, r.outcome)) = summary e.result

section Sequence

variable {v : Verifier σ} {f : Field} {check : Run σ (Option Counterexample)} {s : σ}

/-- After a check without a finding comes the rest of the sequence. -/
theorem firstFailure_cons_of_clean (words : String)
    (rest : List (String × Run σ (Option Counterexample))) (h : (check s).result = .ok none) :
    let later := firstFailure rest (check s).state
    firstFailure ((words, check) :: rest) s =
      ⟨later.result, later.state, (check s).signals ++ later.signals⟩ := by
  intro later
  show Run.andThen check _ s = _
  simp only [Run.andThen]
  rw [h]

/-- After a check with a finding, or one that fails, nothing comes. -/
theorem firstFailure_cons_of_not_clean (words : String)
    (rest : List (String × Run σ (Option Counterexample))) (h : (check s).result ≠ .ok none) :
    let e := firstFailure ((words, check) :: rest) s
    e.signals = (check s).signals ∧ e.state = (check s).state ∧
      e.result.map Option.isNone = (check s).result.map fun _ => false := by
  show (Run.andThen check _ s).signals = _ ∧ (Run.andThen check _ s).state = _ ∧
    (Run.andThen check _ s).result.map _ = _
  simp only [Run.andThen]
  cases hresult : (check s).result with
  | error err => exact ⟨rfl, rfl, rfl⟩
  | ok found =>
    cases found with
    | none => exact absurd hresult h
    | some leak => exact ⟨List.append_nil _, rfl, rfl⟩

/-- The checks of a list, beside the words for their failure. -/
def posed (v : Verifier σ) (f : Field) (steps : List (String × CheckKind × Query)) :
    List (String × Run σ (Option Counterexample)) :=
  steps.map fun e => (e.1, v.pose e.2.1 e.2.2 [("field", f.name)])

/-- **The turns of a sequence.** Its signals are those of the turns taken, it leaves the backend as
    these do, and it finds no failure when they say so. -/
theorem firstFailure_turns (steps : List (String × CheckKind × Query)) (s : σ) :
    let ts := v.turns (steps.map Prod.snd) s
    let e := firstFailure (posed v f steps) s
    e.signals = (taken v ts).flatMap (fun t => (t.episode v f).signals) ∧
      e.state = v.backend.after v.config ((taken v ts).flatMap Turn.asked) s ∧
      e.result.map Option.isNone = outcome v ts := by
  -- over the checks, for every state: the rest starts where this turn leaves the backend
  induction steps generalizing s with
  | nil => exact ⟨rfl, rfl, rfl⟩
  | cons step steps ih =>
    obtain ⟨words, kind, query⟩ := step
    let t : Turn σ := ⟨kind, query, s⟩
    intro ts e
    have hts : ts = t :: v.turns (steps.map Prod.snd) (v.stateAfter query s) := rfl
    have hstate : (t.episode v f).state = v.stateAfter query s := Turn.state_episode
    have hafter : v.stateAfter query s = v.backend.after v.config t.asked s :=
      Turn.stateAfter_eq_after (t := t)
    rw [hts]
    by_cases hclean : t.isClean v = true
    · obtain ⟨hsignals, hlast, hresult⟩ := ih (v.stateAfter query s)
      have hnone : (t.episode v f).result = .ok none :=
        Turn.result_episode.trans (Turn.isClean_iff.1 hclean)
      have he : e = _ := firstFailure_cons_of_clean words (posed v f steps) hnone
      have hstate' : (v.pose kind query [("field", f.name)] s).state = v.stateAfter query s := hstate
      rw [he, taken_cons_of_clean hclean, List.flatMap_cons, List.flatMap_cons, outcome,
        stop?_cons_of_clean hclean, hstate', Backend.after_append, ← hafter]
      exact ⟨congrArg ((t.episode v f).signals ++ ·) hsignals, hlast, hresult⟩
    · -- the sequence ends with this turn
      have hsome : (t.episode v f).result ≠ .ok none := by
        rw [Turn.result_episode]
        exact fun h => hclean (Turn.isClean_iff.2 h)
      obtain ⟨hsignals, hlast, hresult⟩ :=
        firstFailure_cons_of_not_clean words (posed v f steps) hsome
      rw [Bool.not_eq_true] at hclean
      rw [taken_cons_of_not_clean hclean, List.flatMap_singleton, List.flatMap_singleton, outcome,
        stop?_cons_of_not_clean hclean, ← hafter]
      refine ⟨hsignals, hlast.trans hstate, hresult.trans ?_⟩
      exact congrArg (Except.map fun _ => false) Turn.result_episode

/-- A sequence of checks shows the signals of the turns taken and its report, leaves the backend as
    the turns do, and comes out as they do. -/
theorem allHold_turns (steps : List (String × CheckKind × Query)) (s : σ) :
    let ts := v.turns (steps.map Prod.snd) s
    let e := allHold (posed v f steps) f s
    e.state = v.backend.after v.config ((taken v ts).flatMap Turn.asked) s ∧
      e.result = outcome v ts ∧ ∃ own : List Report,
        e.signals = (taken v ts).flatMap (fun t => (t.episode v f).signals) ++ own.map .report ∧
          own.map (fun r => (r.kind, r.outcome)) = summary e.result := by
  intro ts e
  obtain ⟨hsignals, hlast, hresult⟩ := firstFailure_turns (v := v) (f := f) steps s
  rw [← hsignals, ← hlast, ← hresult]
  show (Run.andThen _ _ s).state = _ ∧ (Run.andThen _ _ s).result = _ ∧ ∃ own : List Report,
    (Run.andThen _ _ s).signals = _ ∧ own.map _ = summary (Run.andThen _ _ s).result
  simp only [Run.andThen]
  cases (firstFailure (posed v f steps) s).result with
  | error err => exact ⟨rfl, rfl, [], (List.append_nil _).symm, rfl⟩
  | ok failed =>
    refine ⟨rfl, rfl, [compositeReport failed f], rfl, ?_⟩
    cases failed <;> rfl

/-- Of a sequence of checks the backend is asked what the turns taken ask. -/
theorem asked_allHold (steps : List (String × CheckKind × Query)) (s : σ) :
    (allHold (posed v f steps) f s).asked =
      (taken v (v.turns (steps.map Prod.snd) s)).flatMap Turn.asked := by
  obtain ⟨-, -, own, hsignals, -⟩ := allHold_turns (v := v) (f := f) steps s
  unfold Episode.asked
  rw [hsignals, List.filterMap_append, List.filterMap_flatMap]
  -- a report is not a question, so the turns are all that is asked
  have hnone : (own.map Signal.report).filterMap Signal.asked? = [] := by
    rw [List.filterMap_map]
    exact List.filterMap_eq_nil_iff.2 fun _ _ => rfl
  rw [hnone, List.append_nil]
  exact congrArg (List.flatMap · _) (funext fun t => Turn.asked_episode)

/-- **Sequences of checks follow their turns.** -/
theorem follows_allHold (steps : List (String × CheckKind × Query)) (s : σ) :
    v.Follows f (steps.map Prod.snd) s (allHold (posed v f steps) f s) := by
  obtain ⟨hstate, hresult, own, hsignals, hown⟩ := allHold_turns (v := v) (f := f) steps s
  refine ⟨?_, ?_, ?_, ?_, asked_allHold steps s, ?_, own, ?_, hown⟩
  · rw [hresult, outcome_eq_true_iff]
  · rw [hresult, outcome_eq_false_iff]
  · intro err
    rw [hresult, outcome_eq_error_iff]
  · intro t ht reason hverdict
    have hfails : t.result v = .error (.solverUnknown t.kind.name reason) := by
      rw [Turn.result, hverdict]
      rfl
    have hclean : t.isClean v = false := by simp [Turn.isClean, hfails]
    rw [hresult, outcome_eq_error_iff]
    exact ⟨t, stop?_of_mem_taken ht hclean, hfails⟩
  · rw [asked_allHold, hstate]
  · unfold Episode.reports
    rw [hsignals, List.filterMap_append, List.filterMap_flatMap]
    have hall : (own.map Signal.report).filterMap Signal.report? = own := by
      rw [List.filterMap_map]
      exact List.filterMap_some
    rw [hall, List.filterMap_eq_flatMap_toList]
    exact congrArg (List.flatMap · _ ++ own) (funext fun t => Turn.reports_episode)

/-- The result is what the turns mean together. -/
theorem Follows.result_eq {checks : List (CheckKind × Query)} {e : Episode σ Bool}
    (h : v.Follows f checks s e) : e.result = outcome v (v.turns checks s) := by
  cases houtcome : outcome v (v.turns checks s) with
  | error err => exact (h.result_error_iff err).2 (outcome_eq_error_iff.1 houtcome)
  | ok holds =>
    cases holds with
    | true => exact h.result_true_iff.2 (outcome_eq_true_iff.1 houtcome)
    | false => exact h.result_false_iff.2 (outcome_eq_false_iff.1 houtcome)

/-- The reports say what was checked in the turns taken and how it came out, and how the whole came
    out. -/
theorem Follows.map_reports {checks : List (CheckKind × Query)} {e : Episode σ Bool}
    (h : v.Follows f checks s e) : e.reports.map (fun r => (r.kind, r.outcome)) =
      (taken v (v.turns checks s)).filterMap
        (fun t => (t.verdict v).toOption.map fun verdict => (t.kind, outcomeOf verdict)) ++
      summary e.result := by
  obtain ⟨own, hreports, hown⟩ := h.reports_eq
  rw [hreports, List.map_append, hown, List.map_filterMap]
  refine congrArg (· ++ _) (List.filterMap_congr fun t _ => ?_)
  unfold Turn.report?
  rw [Option.map_map]
  refine congrArg (Option.map · _) (funext fun verdict => ?_)
  obtain ⟨hkind, houtcome⟩ := kind_outcome_reportWith t.kind t.query [("field", f.name)] verdict
    (v.elapsedMilliseconds t.query t.state)
  exact Prod.ext hkind houtcome

/-- What is logged before a sequence starts does not count. -/
theorem Follows.after_log {checks : List (CheckKind × Query)} {record : LogRecord}
    {x : Run σ Bool} (h : v.Follows f checks s (x s)) :
    v.Follows f checks s ((Run.log record >>= fun _ => x) s) :=
  ⟨h.result_true_iff, h.result_false_iff, h.result_error_iff, h.error_of_unknown, h.asked_eq,
    h.state_eq, h.reports_eq⟩

/-- A sequence of checks asks nothing but the queries of its checks. -/
theorem Follows.exists_of_mem_asked {checks : List (CheckKind × Query)} {e : Episode σ Bool}
    (h : v.Follows f checks s e) {q : Query} (hq : q ∈ e.asked) : ∃ c ∈ checks, c.2 = q := by
  rw [h.asked_eq] at hq
  obtain ⟨t, ht, hq⟩ := List.mem_flatMap.1 hq
  exact ⟨_, mem_of_mem_turns (mem_of_mem_taken ht), (Turn.eq_of_mem_asked hq).symm⟩

end Sequence

/-! ### The checks of compiled policies -/

/-- What is checked of a compiled policy: it sends what its source sends, and nothing else. -/
def obligations (source compiled : Policy) (f : Field) : List (CheckKind × Query) :=
  [(.simulation, .simulates source compiled f), (.simulation, .simulates compiled source f)]

/-- What is checked of a compiled policy in a network: it sends and reports what its source does,
    and uses one tag on each link. -/
def obligationsIn (w : Wiring) (source compiled : Policy) (f : Field) : List (CheckKind × Query) :=
  [(.simulation, .simulates source compiled f), (.simulation, .simulates compiled source f),
    (.observationSimulation, .simulatesObserves source compiled f),
    (.observationSimulation, .simulatesObserves compiled source f),
    (.oneTagPerEdge, .onePerEdge w compiled f)]

theorem follows_compiledCorrectly (v : Verifier σ) (source compiled : Policy) (s : σ) :
    v.Follows v.config.tagField (obligations source compiled v.config.tagField) s
      (v.compiledCorrectly source compiled s) := by
  -- the span comes first, then the sequence
  apply Follows.after_log
  exact follows_allHold
    [("lost behavior", .simulation, .simulates source compiled v.config.tagField),
      ("new behavior", .simulation, .simulates compiled source v.config.tagField)] s

theorem follows_compiledCorrectlyIn (v : Verifier σ) (w : Wiring) (source compiled : Policy)
    (edges : EdgePolicy) (s : σ) :
    v.Follows v.config.tagField
      (obligationsIn w (source.restrictToEdges edges) compiled v.config.tagField) s
      (v.compiledCorrectlyIn w source compiled edges s) := by
  let source' := source.restrictToEdges edges
  let f := v.config.tagField
  apply Follows.after_log
  exact follows_allHold
    [("lost behavior", .simulation, .simulates source' compiled f),
      ("new behavior", .simulation, .simulates compiled source' f),
      ("lost observation", .observationSimulation, .simulatesObserves source' compiled f),
      ("new observation", .observationSimulation, .simulatesObserves compiled source' f),
      ("several tags on one link", .oneTagPerEdge, .onePerEdge w compiled f)] s

/-- **The checks of compiled policies follow their turns.** In a network the turns are, in this
    order, the simulation of the restricted source by the compiled policy and back, the simulation
    of what they report and back, and the check of tags on links; without a network they are the two
    simulations. Each check does what its turns say: it holds when all turns do, stops at the first
    that does not, asks and reports nothing after it, and adds a report of its own only to a
    result. -/
theorem compiledChecks_follow (v : Verifier σ) (w : Wiring) (source compiled : Policy)
    (edges : EdgePolicy) (s : σ) :
    let f := v.config.tagField
    let source' := source.restrictToEdges edges
    ((v.turns (obligationsIn w source' compiled f) s).map (Turn.episode v f) =
        Run.inTurn [v.simulates source' compiled f, v.simulates compiled source' f,
          v.simulatesObserves source' compiled f, v.simulatesObserves compiled source' f,
          v.onePerEdge w compiled f] s ∧
      v.Follows f (obligationsIn w source' compiled f) s
        (v.compiledCorrectlyIn w source compiled edges s)) ∧
    ((v.turns (obligations source compiled f) s).map (Turn.episode v f) =
        Run.inTurn [v.simulates source compiled f, v.simulates compiled source f] s ∧
      v.Follows f (obligations source compiled f) s (v.compiledCorrectly source compiled s)) := by
  intro f source'
  refine ⟨⟨?_, ?_⟩, ⟨?_, ?_⟩⟩
  · exact v.map_episode_turns f (obligationsIn w source' compiled f) s
  · exact v.follows_compiledCorrectlyIn w source compiled edges s
  · exact v.map_episode_turns f (obligations source compiled f) s
  · exact v.follows_compiledCorrectly source compiled s

/-- Four scripts for the check of a policy without taps against itself in a network. If the solver
    refutes three queries the policy passes, because those for its reports are plainly unsatisfiable
    and are not put to the solver. A counterexample, an answer that is none, and a failure end the
    check, and the rest of the script is left over. -/
theorem compiledChecks_follow_scripts :
    let v : Verifier (List (Except Error Verdict)) :=
      { backend := .scripted, config := .standard, valid := rfl }
    let p : Policy := .branch (.located ⟨1, 1⟩) [.forward 1 2]
    let w : Wiring := .ofTable [(1, 2)] [((1, 2), 2), ((2, 1), 1)]
    let check := v.compiledCorrectlyIn w p p ∅
    let sends := Query.simulates p p (.header .vlan)
    let tags := Query.onePerEdge w p (.header .vlan)
    let passed := check [.ok .unsat, .ok .unsat, .ok .unsat, .ok (.sat ∅)]
    let violated := check [.ok .unsat, .ok (.sat ∅), .ok .unsat]
    let undecided := check [.ok .unsat, .ok (.unknown "timeout"), .ok .unsat]
    let failed := check [.error (.backend "boom"), .ok .unsat]
    (passed.result = .ok true ∧ passed.asked = [sends, sends, tags] ∧
      passed.state = [.ok (.sat ∅)] ∧ passed.reports.map (fun r => (r.kind, r.outcome)) =
        [(.simulation, .holds), (.simulation, .holds), (.observationSimulation, .holds),
          (.observationSimulation, .holds), (.oneTagPerEdge, .holds), (.compiledCorrectly, .holds)]) ∧
    (violated.result = .ok false ∧ violated.asked = [sends, sends] ∧
      violated.state = [.ok .unsat] ∧ violated.reports.map (fun r => (r.kind, r.outcome)) =
        [(.simulation, .holds), (.simulation, .violated), (.compiledCorrectly, .violated)]) ∧
    (undecided.result = .error (.solverUnknown "simulation" "timeout") ∧
      undecided.asked = [sends, sends] ∧ undecided.state = [.ok .unsat] ∧
      undecided.reports.map (fun r => (r.kind, r.outcome)) =
        [(.simulation, .holds), (.simulation, .unknown)]) ∧
    (failed.result = .error (.backend "boom") ∧ failed.asked = [sends] ∧
      failed.state = [.ok .unsat] ∧ failed.reports = []) := by
  intro v p w check sends tags passed violated undecided failed
  let taps := Query.simulatesObserves p p (.header .vlan)
  let checks : List (CheckKind × Query) := [(.simulation, sends), (.simulation, sends),
    (.observationSimulation, taps), (.observationSimulation, taps), (.oneTagPerEdge, tags)]
  have follows (script : List (Except Error Verdict)) :
      v.Follows (.header .vlan) checks script (check script) :=
    (compiledChecks_follow v w p p ∅ script).1.2
  -- all that matters of the queries is which of them are put to the solver
  have hsends : sends.isTriviallyUnsat = false := by decide +kernel
  have htaps : taps.isTriviallyUnsat = true := by decide +kernel
  have htags : tags.isTriviallyUnsat = false := by decide +kernel
  have hcheck (q : Query) (a : Except Error Verdict) (rest : List (Except Error Verdict)) :
      v.backend.check q v.config (a :: rest) = (a, rest) := rfl
  have shown {script : List (Except Error Verdict)} {e : Episode _ Bool}
      (h : v.Follows (.header .vlan) checks script e) :
      let ts := v.turns checks script
      e.result = outcome v ts ∧ e.asked = (taken v ts).flatMap Turn.asked ∧
        e.state = v.backend.after v.config ((taken v ts).flatMap Turn.asked) script ∧
        e.reports.map (fun r => (r.kind, r.outcome)) = _ ++ summary (outcome v ts) :=
    ⟨h.result_eq, h.asked_eq, h.asked_eq ▸ h.state_eq, h.result_eq ▸ h.map_reports⟩
  have hpassed := shown (follows [.ok .unsat, .ok .unsat, .ok .unsat, .ok (.sat ∅)])
  have hviolated := shown (follows [.ok .unsat, .ok (.sat ∅), .ok .unsat])
  have hundecided := shown (follows [.ok .unsat, .ok (.unknown "timeout"), .ok .unsat])
  have hfailed := shown (follows [.error (.backend "boom"), .ok .unsat])
  clear_value sends taps tags
  simp [checks, turns, taken, stop?, outcome, Turn.isClean, Turn.result, Turn.asked, Turn.verdict,
    Verifier.verdict, stateAfter, Backend.after, resultOf, Except.bind, Except.map,
    Except.toOption, outcomeOf, summary, hcheck, hsends, htaps, htags]
    at hpassed hviolated hundecided hfailed
  exact ⟨hpassed, hviolated, hundecided, hfailed⟩

end Verifier

end SlicePolicy
