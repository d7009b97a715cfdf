import Mathlib.Data.List.Forall2

namespace SlicePolicy

/-!
# Computations that can be refused

What the steps of a computation in `Except` did when its result is `ok`, and which of them is the
first that was refused when it is not.

* `bind_eq_ok_iff`, `map_eq_ok_iff`, `map_eq_error_iff` — one step.
* `mapM_eq_ok_iff`, `mapM_eq_error_iff`, `mapM_map` — a step for every element of a list, in order.
* `refusal?` — what a computation was refused with; `refusal?_bind₂`, `refusal?_mapM` — of several
  steps the first one that is refused counts.
* `forall₂_exists_of_mem` — the partner of an element in the list of the results.
-/

variable {ε α β : Type}

/-- One computation after another succeeds when both do. -/
theorem bind_eq_ok_iff {x : Except ε α} {next : α → Except ε β} {b : β} :
    x >>= next = .ok b ↔ ∃ a : α, x = .ok a ∧ next a = .ok b := by
  cases x with
  | error e => simp [bind, Except.bind]
  | ok a => simp [bind, Except.bind]

/-- A function of a result succeeds when the result is there. -/
theorem map_eq_ok_iff {x : Except ε α} {f : α → β} {b : β} :
    x.map f = .ok b ↔ ∃ a : α, x = .ok a ∧ f a = b := by
  cases x with
  | error e => simp [Except.map]
  | ok a => simp [Except.map]

/-- A function of a result is refused as the result is. -/
theorem map_eq_error_iff {x : Except ε α} {f : α → β} {e : ε} :
    x.map f = .error e ↔ x = .error e := by
  cases x with
  | error e => simp [Except.map]
  | ok a => simp [Except.map]

theorem pure_eq_ok_iff {a b : α} : (pure a : Except ε α) = .ok b ↔ a = b := by
  show Except.ok a = Except.ok b ↔ a = b
  rw [Except.ok.injEq]

/-- A list of computations succeeds when each of them does; the results are in the same order. -/
theorem mapM_eq_ok_iff {f : α → Except ε β} {as : List α} {bs : List β} :
    as.mapM f = .ok bs ↔ List.Forall₂ (fun a b => f a = .ok b) as bs := by
  induction as generalizing bs with
  | nil =>
    rw [List.mapM_nil, pure_eq_ok_iff, List.forall₂_nil_left_iff]
    exact eq_comm
  | cons a as ih =>
    simp only [List.mapM_cons, bind_eq_ok_iff, pure_eq_ok_iff, ih, List.forall₂_cons_left_iff]
    constructor
    · rintro ⟨b, hb, bs', hbs, rfl⟩
      exact ⟨b, bs', hb, hbs, rfl⟩
    · rintro ⟨b, bs', hb, hbs, rfl⟩
      exact ⟨b, hb, bs', hbs, rfl⟩

/-- A function of every result is a function of the list of the results. -/
theorem mapM_map {γ : Type} (f : α → Except ε β) (g : β → γ) (as : List α) :
    (as.mapM fun a => (f a).map g) = (as.mapM f).map (List.map g) := by
  induction as with
  | nil => rfl
  | cons a as ih =>
    rw [List.mapM_cons, List.mapM_cons, ih]
    cases f a with
    | error e => rfl
    | ok b => cases as.mapM f <;> rfl

/-- A list of computations is refused with the first of them that is. -/
theorem mapM_eq_error_iff {f : α → Except ε β} {as : List α} {e : ε} :
    as.mapM f = .error e ↔ ∃ a, (as.find? fun a => !(f a).isOk) = some a ∧ f a = .error e := by
  induction as with
  | nil =>
    rw [List.mapM_nil]
    simp [pure, Except.pure]
  | cons a as ih =>
    rw [List.mapM_cons]
    cases ha : f a with
    | error e' =>
      -- the rest is not looked at
      simp [bind, Except.bind, ha, Except.isOk, Except.toBool]
    | ok b =>
      have hrest : (as.mapM f >>= fun bs => pure (b :: bs)) = (as.mapM f).map (b :: ·) := rfl
      rw [List.find?_cons_of_neg (by simp [ha, Except.isOk, Except.toBool]), ← ih]
      exact (congrArg (· = Except.error e) hrest).to_iff.trans map_eq_error_iff

/-! ### The first refusal -/

/-- What a computation was refused with, if it was refused. -/
def refusal? : Except ε α → Option ε
  | .ok _ => none
  | .error e => some e

theorem refusal?_eq_some_iff {x : Except ε α} {e : ε} : refusal? x = some e ↔ x = .error e := by
  cases x <;> simp [refusal?]

theorem refusal?_eq_none_iff {x : Except ε α} : refusal? x = none ↔ ∃ a : α, x = .ok a := by
  cases x <;> simp [refusal?]

/-- A function of a result is refused as the result is. -/
theorem refusal?_map {x : Except ε α} {f : α → β} : refusal? (x.map f) = refusal? x := by
  cases x <;> rfl

theorem refusal?_bind_pure {x : Except ε α} {f : α → β} :
    refusal? (x >>= fun a => pure (f a)) = refusal? x := by
  cases x <;> rfl

/-- A function of two results is refused as the first of them that is. -/
theorem refusal?_bind₂ {γ : Type} {x : Except ε α} {y : Except ε β} {f : α → β → γ} :
    refusal? (x >>= fun a => y >>= fun b => pure (f a b)) = (refusal? x).or (refusal? y) := by
  cases x <;> cases y <;> rfl

/-- A list of computations is refused as the first of them that is. -/
theorem refusal?_mapM {f : α → Except ε β} {as : List α} :
    refusal? (as.mapM f) = as.findSome? fun a => refusal? (f a) := by
  induction as with
  | nil => rfl
  | cons a as ih =>
    rw [List.mapM_cons, refusal?_bind₂, ih, List.findSome?_cons]
    cases refusal? (f a) <;> rfl

/-- The first find in a list of lists is the first of the finds in the lists. -/
theorem findSome?_flatMap {γ : Type} {f : β → Option γ} {g : α → List β} {as : List α} :
    (as.flatMap g).findSome? f = as.findSome? fun a => (g a).findSome? f := by
  induction as with
  | nil => rfl
  | cons a as ih =>
    rw [List.flatMap_cons, List.findSome?_append, ih, List.findSome?_cons]
    cases (g a).findSome? f <;> rfl

/-! ### Related lists -/

/-- What stands in the first of two related lists is related to something in the second. -/
theorem forall₂_exists_of_mem {R : α → β → Prop} {as : List α} {bs : List β}
    (hR : List.Forall₂ R as bs) {a : α} (ha : a ∈ as) : ∃ b ∈ bs, R a b := by
  induction hR with
  | nil => exact absurd ha List.not_mem_nil
  | cons hab _ ih =>
    rcases List.mem_cons.1 ha with rfl | ha
    · exact ⟨_, List.mem_cons_self, hab⟩
    · obtain ⟨b, hb, hab⟩ := ih ha
      exact ⟨b, List.mem_cons_of_mem _ hb, hab⟩

end SlicePolicy
