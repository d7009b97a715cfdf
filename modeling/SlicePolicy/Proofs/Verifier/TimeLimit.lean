import Mathlib.Order.Bounds.Defs
import SlicePolicy.Verifier.Config

namespace SlicePolicy

/-!
# The time limit of a solver

Settings give a time limit down to the nanosecond, and the solver's timer counts milliseconds. The
solver gets the whole milliseconds of the limit, and one if there are none: a limit never becomes
zero, which would mean that there is no limit. But a fraction after the first millisecond is cut
off, so such limits are shortened.

* `Config.validate_eq_ok_iff` — which settings are accepted.
* `Config.timeoutMilliseconds_of_validate` — what the solver gets then; the bound of its timer plays no
  part.
* `Duration.isGreatest_wholeMilliseconds`, `Duration.isLeast_wholeMilliseconds_iff` — rounding down, and
  when that is rounding up.
* `Config.timeLimit_rounding` — the time limit of accepted settings.
-/

namespace Duration

variable (t : Duration)

/-- The whole milliseconds of a duration, but at least one. -/
def wholeMilliseconds : Nat := max t.milliseconds 1

theorem wholeMilliseconds_pos : 0 < t.wholeMilliseconds :=
  Nat.lt_of_lt_of_le Nat.zero_lt_one (Nat.le_max_right _ _)

/-- Up to the first millisecond there is one, and later what division gives. -/
theorem wholeMilliseconds_eq_iff (m : Nat) : t.wholeMilliseconds = m ↔
    0 < m ∧ (t.nanoseconds ≤ millisecond ∧ m = 1 ∨
      m * millisecond ≤ t.nanoseconds ∧ t.nanoseconds < (m + 1) * millisecond) := by
  unfold wholeMilliseconds milliseconds millisecond
  omega

/-- The whole milliseconds are the largest number that is not longer than the duration, if it has
    one. -/
theorem isGreatest_wholeMilliseconds :
    IsGreatest {n | n * millisecond ≤ max t.nanoseconds millisecond} t.wholeMilliseconds := by
  obtain ⟨hpos, hm⟩ := (t.wholeMilliseconds_eq_iff _).1 rfl
  constructor
  · show t.wholeMilliseconds * millisecond ≤ max t.nanoseconds millisecond
    rcases hm with ⟨-, hone⟩ | ⟨hle, -⟩
    · rw [hone, Nat.one_mul]
      exact Nat.le_max_right _ _
    · exact Nat.le_trans hle (Nat.le_max_left _ _)
  · intro n hn
    have hn : n * millisecond ≤ max t.nanoseconds millisecond := hn
    unfold millisecond at hn hm
    omega

/-- The whole milliseconds are shorter than the duration when a fraction comes after the first. -/
theorem wholeMilliseconds_lt_iff : t.wholeMilliseconds * millisecond < t.nanoseconds ↔
    millisecond < t.nanoseconds ∧ ¬millisecond ∣ t.nanoseconds := by
  obtain ⟨hpos, hm⟩ := (t.wholeMilliseconds_eq_iff _).1 rfl
  unfold millisecond at hm ⊢
  omega

/-- The whole milliseconds are the smallest number that is not shorter than the duration when it is
    no longer than one of them, or has no fraction. -/
theorem isLeast_wholeMilliseconds_iff (hpos : 0 < t.nanoseconds) :
    IsLeast {n | t.nanoseconds ≤ n * millisecond} t.wholeMilliseconds ↔
      t.nanoseconds ≤ millisecond ∨ millisecond ∣ t.nanoseconds := by
  have hshort : ¬t.wholeMilliseconds * millisecond < t.nanoseconds ↔
      t.nanoseconds ≤ millisecond ∨ millisecond ∣ t.nanoseconds := by
    rw [wholeMilliseconds_lt_iff]
    omega
  rw [← hshort, Nat.not_lt]
  refine ⟨And.left, fun hle => ⟨hle, ?_⟩⟩
  -- one millisecond less would be too short
  intro n hn
  have hn : t.nanoseconds ≤ n * millisecond := hn
  obtain ⟨-, hm⟩ := (t.wholeMilliseconds_eq_iff _).1 rfl
  unfold millisecond at hn hm
  omega

end Duration

namespace Config

open Duration (millisecond)

variable {c : Config} {t : Duration}

/-- Nothing is wrong with a limit that is positive and that the timer can hold. -/
theorem timeoutFault?_eq_none_iff :
    timeoutFault? t = none ↔ 0 < t.nanoseconds ∧ t.milliseconds ≤ maxMilliseconds := by
  unfold timeoutFault?
  split
  · next hzero => simp [hzero]
  · next hpos =>
    split
    · next hlong => simp [Nat.not_le.2 hlong]
    · next hfits => exact iff_of_true rfl ⟨Nat.pos_of_ne_zero hpos, Nat.not_lt.1 hfits⟩

/-- Settings are accepted when nothing is wrong with the limit, and packets carry the tag field. -/
theorem validate_eq_ok_iff : c.validate = .ok () ↔
    (∀ t, c.timeout = some t → 0 < t.nanoseconds ∧ t.milliseconds ≤ maxMilliseconds) ∧
      c.tagField.isLocation = false := by
  have hlimit : c.timeout.bind timeoutFault? = none ↔
      ∀ t, c.timeout = some t → 0 < t.nanoseconds ∧ t.milliseconds ≤ maxMilliseconds := by
    rw [Option.bind_eq_none_iff]
    exact forall₂_congr fun t _ => timeoutFault?_eq_none_iff
  rw [← hlimit]
  unfold validate
  split
  · next fault hfault => simp [hfault]
  · next hnone =>
    rw [hnone]
    unfold tagFault?
    cases c.tagField.isLocation <;> simp

/-- The timer can hold the whole milliseconds of a limit of accepted settings. -/
theorem wholeMilliseconds_le_of_validate (hvalid : c.validate = .ok ()) (ht : c.timeout = some t) :
    t.wholeMilliseconds ≤ maxMilliseconds := by
  have hfits : t.milliseconds ≤ maxMilliseconds := ((validate_eq_ok_iff.1 hvalid).1 t ht).2
  exact Nat.max_le.2 ⟨hfits, by decide⟩

/-- Accepted settings give the solver the whole milliseconds of the limit. -/
theorem timeoutMilliseconds_of_validate (hvalid : c.validate = .ok ()) :
    c.timeoutMilliseconds = c.timeout.map Duration.wholeMilliseconds := by
  unfold timeoutMilliseconds
  refine Option.map_congr fun t ht => ?_
  show min t.wholeMilliseconds maxMilliseconds = t.wholeMilliseconds
  exact Nat.min_eq_left (wholeMilliseconds_le_of_validate hvalid ht)

/-- **The time limit of accepted settings.** The solver gets a positive number of milliseconds that
    its timer can hold: the largest that is not longer than the limit, or one if the limit is shorter.
    So what it gets is the limit rounded up exactly for limits without a fraction and for those up to
    the first millisecond. All other limits are shortened. -/
theorem timeLimit_rounding (hvalid : c.validate = .ok ()) (ht : c.timeout = some t) :
    ∃ m, c.timeoutMilliseconds = some m ∧ 0 < m ∧ m ≤ maxMilliseconds ∧
      IsGreatest {n | n * millisecond ≤ max t.nanoseconds millisecond} m ∧
      (IsLeast {n | t.nanoseconds ≤ n * millisecond} m ↔
        t.nanoseconds ≤ millisecond ∨ millisecond ∣ t.nanoseconds) ∧
      (m * millisecond < t.nanoseconds ↔
        millisecond < t.nanoseconds ∧ ¬millisecond ∣ t.nanoseconds) := by
  have hpos : 0 < t.nanoseconds := ((validate_eq_ok_iff.1 hvalid).1 t ht).1
  refine ⟨t.wholeMilliseconds, ?_, t.wholeMilliseconds_pos,
    wholeMilliseconds_le_of_validate hvalid ht, t.isGreatest_wholeMilliseconds,
    t.isLeast_wholeMilliseconds_iff hpos, t.wholeMilliseconds_lt_iff⟩
  rw [timeoutMilliseconds_of_validate hvalid, ht]
  rfl

/-- A nanosecond more than the timer can hold is accepted, and cut off. -/
theorem timeLimit_rounding_longest :
    let limit := maxMilliseconds * millisecond + 1
    (bounded ⟨limit⟩).validate = .ok () ∧
    (bounded ⟨limit⟩).timeoutMilliseconds = some maxMilliseconds ∧
    maxMilliseconds * millisecond < limit ∧
    ¬IsLeast {n | limit ≤ n * millisecond} maxMilliseconds := by
  have hvalid : (bounded ⟨maxMilliseconds * millisecond + 1⟩).validate = .ok () := by rfl
  have hm : (bounded ⟨maxMilliseconds * millisecond + 1⟩).timeoutMilliseconds
      = some maxMilliseconds := by rfl
  obtain ⟨m, hm', -, -, -, hleast, hshort⟩ := timeLimit_rounding hvalid rfl
  obtain rfl : m = maxMilliseconds := Option.some.inj (hm'.symm.trans hm)
  refine ⟨hvalid, hm, hshort.2 (by decide), fun h => ?_⟩
  exact absurd (hleast.1 h) (by decide)

/-- A limit of one and a half milliseconds is accepted, and the solver gets only one. -/
theorem fraction_is_cut_off :
    (bounded ⟨1500000⟩).validate = .ok () ∧
    (bounded ⟨1500000⟩).timeoutMilliseconds = some 1 ∧ 1 * millisecond < 1500000 ∧
    ¬IsLeast {n | 1500000 ≤ n * millisecond} 1 := by
  refine ⟨by rfl, by rfl, by decide, ?_⟩
  rintro ⟨hle, -⟩
  have hle : 1500000 ≤ 1 * millisecond := hle
  exact absurd hle (by decide)

end Config

end SlicePolicy
