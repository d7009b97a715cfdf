import SlicePolicy.Json
import SlicePolicy.Json.Reader.Basic

namespace SlicePolicy.Json.Reader

/-!
# Reading back strings and numbers

The readers of the values without parts, on what was written for such a value with any text behind it.
A string ends with its quote, whatever comes next. A number ends where its digits end, so the text
behind it must not go on with the numeral.

* `run_bind_ok` — a reader that succeeded is followed by the next one.
* `take_run`, `next_run`, `expect_run`, `peek_run` — single characters.
* `Ends` — what stands behind a value.
* `integer_run`, `string_run` — reading a written number and a written string.
-/

variable {α β : Type}

/-- What the first of two readers takes off is not there for the second one. -/
theorem run_bind_ok {r : Reader α} {next : α → Reader β} {cs cs' : List Char} {a : α}
    (h : r.run cs = .ok (a, cs')) : (r >>= next).run cs = (next a).run cs' := by
  rw [StateT.run_bind, h]
  rfl

theorem run_map_ok {r : Reader α} {f : α → β} {cs cs' : List Char} {a : α}
    (h : r.run cs = .ok (a, cs')) : (f <$> r).run cs = .ok (f a, cs') := by
  rw [StateT.run_map, h]
  rfl

/-! ### Characters -/

theorem take_run (c : Char) (cs : List Char) : take.run (c :: cs) = .ok (c, cs) := rfl

theorem blanks_run {c : Char} (hc : isBlank c = false) (cs : List Char) :
    blanks.run (c :: cs) = .ok ((), c :: cs) := by
  show Except.ok ((), (c :: cs).dropWhile isBlank) = _
  rw [List.dropWhile_cons, hc]
  rfl

theorem peek_run {c : Char} (hc : isBlank c = false) (cs : List Char) :
    peek.run (c :: cs) = .ok (some c, c :: cs) := by
  rw [peek, run_bind_ok (blanks_run hc cs)]
  rfl

theorem next_run {c : Char} (hc : isBlank c = false) (cs : List Char) :
    next.run (c :: cs) = .ok (c, cs) := by
  rw [next, run_bind_ok (blanks_run hc cs), take_run]

theorem expect_run {c : Char} (hc : isBlank c = false) (cs : List Char) :
    (expect c).run (c :: cs) = .ok ((), cs) := by
  rw [expect, run_bind_ok (next_run hc cs), if_pos rfl]
  rfl

theorem discard_take_run (c : Char) (cs : List Char) :
    (discard take : Reader Unit).run (c :: cs) = .ok ((), cs) := rfl

/-- What may stand behind a value: nothing, or a character that goes on with the value around it. -/
def Ends (rest : List Char) : Prop := ∀ c ∈ rest.head?, c = ',' ∨ c = ']' ∨ c = '\x7d'

theorem ends_nil : Ends [] := fun _ hc => absurd hc (by simp)

theorem ends_cons {c : Char} {cs : List Char} (h : c = ',' ∨ c = ']' ∨ c = '\x7d') :
    Ends (c :: cs) := by
  intro d hd
  rw [List.head?_cons, Option.mem_some_iff] at hd
  rw [← hd]
  exact h

/-! ### Integers -/

theorem isBlank_of_isDigit {c : Char} (hc : c.isDigit = true) : isBlank c = false := by
  rw [← Bool.not_eq_true]
  intro hblank
  simp only [isBlank, Bool.or_eq_true, decide_eq_true_eq] at hblank
  rcases hblank with ((rfl | rfl) | rfl) | rfl <;> exact absurd hc (by decide)

/-- A number is written as its digits, with a sign if it is negative. -/
theorem toList_integer (i : Int) : (Text.integer i).toList
    = if i < 0 then '-' :: Text.digits i.natAbs else Text.digits i.natAbs := by
  rw [Text.integer]
  split
  · simp only [Text.natural, String.toList_append, String.toList_ofList]
    rfl
  · rw [Text.natural, String.toList_ofList]

theorem isDigit_of_mem_digits {n : Nat} {c : Char} (hc : c ∈ Text.digits n) : c.isDigit = true :=
  Nat.isDigit_of_mem_toDigits (by decide) (by decide) hc

/-- There is a first digit. -/
theorem exists_digits_eq_cons (n : Nat) :
    ∃ (c : Char) (cs : List Char), Text.digits n = c :: cs ∧ c.isDigit = true := by
  obtain ⟨c, cs, hdigits⟩ := List.exists_cons_of_ne_nil (Nat.toDigits_ne_nil (n := n) (b := 10))
  have hdigits : Text.digits n = c :: cs := hdigits
  exact ⟨c, cs, hdigits, isDigit_of_mem_digits (hdigits ▸ List.mem_cons_self)⟩

/-- A numeral has no leading zero, unless it is zero. -/
theorem head?_toDigits {n : Nat} (hn : 0 < n) : (Nat.toDigits 10 n).head? ≠ some '0' := by
  induction n using Nat.strongRecOn with
  | ind n ih =>
    by_cases hsmall : n < 10
    · rw [Nat.toDigits_of_lt_base hsmall]
      have hdigit : ∀ d, d < 10 → 0 < d → [d.digitChar].head? ≠ some '0' := by decide
      exact hdigit n hsmall hn
    · -- the leading digit is that of the number without its last digit
      have hrest := ih (n / 10) (by omega) (by omega)
      obtain ⟨c, cs, hdigits, -⟩ := exists_digits_eq_cons (n / 10)
      rw [Text.digits] at hdigits
      rw [hdigits] at hrest
      rw [Nat.toDigits_of_base_le (by decide) (by omega), hdigits]
      exact hrest

/-- The digits of a value, with its sign, are the value. -/
theorem integerOf?_digits (v : Value) :
    integerOf? (decide (v.toInt < 0)) (Text.digits v.toInt.natAbs) = some v := by
  have hvalue : Nat.ofDigitChars 10 (Text.digits v.toInt.natAbs) 0 = v.toInt.natAbs :=
    Nat.ofDigitChars_ten_toDigits
  have hsigned : (if decide (v.toInt < 0) = true then -(v.toInt.natAbs : Int)
      else (v.toInt.natAbs : Int)) = v.toInt := by
    by_cases hneg : v.toInt < 0
    · rw [if_pos (decide_eq_true hneg)]
      omega
    · rw [if_neg (by simpa using hneg)]
      omega
  have hwellFormed : ((Text.digits v.toInt.natAbs).isEmpty ||
      (1 < (Text.digits v.toInt.natAbs).length &&
        (Text.digits v.toInt.natAbs).head? = some '0') ||
      (decide (v.toInt < 0) && v.toInt.natAbs = 0)) = false := by
    have hnil : Text.digits v.toInt.natAbs ≠ [] := Nat.toDigits_ne_nil
    have hlead : 1 < (Text.digits v.toInt.natAbs).length →
        (Text.digits v.toInt.natAbs).head? ≠ some '0' := by
      intro hlong
      refine head?_toDigits (Nat.pos_of_ne_zero fun hzero => ?_)
      rw [Text.digits, hzero, Nat.toDigits_zero] at hlong
      exact absurd hlong (by decide)
    have hneg : v.toInt < 0 → v.toInt.natAbs ≠ 0 := by omega
    simp only [Bool.or_eq_false_iff, Bool.and_eq_false_imp, decide_eq_true_eq,
      decide_eq_false_iff_not, List.isEmpty_eq_false_iff]
    exact ⟨⟨hnil, hlead⟩, hneg⟩
  have hrange : Int64.minValue.toInt ≤ v.toInt ∧ v.toInt ≤ Int64.maxValue.toInt :=
    ⟨v.minValue_le_toInt, v.toInt_le⟩
  rw [integerOf?]
  simp only [hvalue, hsigned, hwellFormed]
  rw [if_neg Bool.false_ne_true, if_pos hrange, Int64.ofInt_toInt]

/-- No digit stands behind a value. -/
theorem Ends.not_digit {rest : List Char} (h : Ends rest) : rest.takeWhile Char.isDigit = [] := by
  cases rest with
  | nil => rfl
  | cons c cs =>
    have hc : c.isDigit = false := by
      rcases h c rfl with rfl | rfl | rfl <;> decide
    rw [List.takeWhile_cons, hc]
    rfl

/-- What stands behind a value does not make a fraction of a numeral. -/
theorem Ends.not_fractional {rest : List Char} (h : Ends rest) : isFractional rest = false := by
  cases rest with
  | nil => rfl
  | cons c cs => rcases h c rfl with rfl | rfl | rfl <;> rfl

/-- Digits are taken off up to the end of the value. -/
theorem digits_run {ds rest : List Char} (hds : ∀ c ∈ ds, c.isDigit = true) (hrest : Ends rest) :
    digits.run (ds ++ rest) = .ok (ds, rest) := by
  have hdrop : rest.dropWhile Char.isDigit = rest := by
    have hsplit := List.takeWhile_append_dropWhile (p := Char.isDigit) (l := rest)
    rwa [hrest.not_digit, List.nil_append] at hsplit
  show Except.ok ((ds ++ rest).takeWhile Char.isDigit, (ds ++ rest).dropWhile Char.isDigit) = _
  rw [List.takeWhile_append_of_pos hds, List.dropWhile_append_of_pos hds, hrest.not_digit, hdrop,
    List.append_nil]

theorem get_run (cs : List Char) : (get : Reader (List Char)).run cs = .ok (cs, cs) := rfl

/-- What `integer` does behind the sign: the digits make the value. -/
theorem unsigned_run {negative : Bool} {ds rest : List Char} {v : Value}
    (hds : ∀ c ∈ ds, c.isDigit = true) (hrest : Ends rest) (hvalue : integerOf? negative ds = some v) :
    (do
      let ds ← digits
      if isFractional (← get) then malformed
      else match integerOf? negative ds with
        | some v => return v
        | none => malformed : Reader Value).run (ds ++ rest) = .ok (v, rest) := by
  rw [run_bind_ok (digits_run hds hrest), run_bind_ok (get_run rest), hrest.not_fractional,
    if_neg Bool.false_ne_true, hvalue]
  rfl

/-- **Numbers.** A written number is read as the number. -/
theorem integer_run (v : Value) {rest : List Char} (hrest : Ends rest) :
    integer.run ((Text.integer v.toInt).toList ++ rest) = .ok (v, rest) := by
  have hdigits : ∀ c ∈ Text.digits v.toInt.natAbs, c.isDigit = true := fun c hc =>
    isDigit_of_mem_digits hc
  have hvalue := integerOf?_digits v
  rw [toList_integer]
  by_cases hneg : v.toInt < 0
  · rw [decide_eq_true hneg] at hvalue
    rw [if_pos hneg, List.cons_append, integer, run_bind_ok (peek_run (by decide) _)]
    dsimp only
    rw [if_pos rfl, run_bind_ok (discard_take_run _ _)]
    exact unsigned_run hdigits hrest hvalue
  · rw [decide_eq_false hneg] at hvalue
    -- the first character is a digit, so there is no sign and no blank to pass over
    obtain ⟨c, ds, htext, hc⟩ := exists_digits_eq_cons v.toInt.natAbs
    have hsign : ¬some c = some '-' := by
      rintro ⟨⟩
      exact absurd hc (by decide)
    rw [if_neg hneg, htext, List.cons_append, integer,
      run_bind_ok (peek_run (isBlank_of_isDigit hc) _)]
    dsimp only
    rw [if_neg hsign, decide_eq_false hsign, ← List.cons_append, ← htext]
    exact unsigned_run hdigits hrest hvalue

/-! ### Strings -/

theorem hexDigit_run {c : Char} {n : Nat} (h : hexDigit? c = some n) (cs : List Char) :
    hexDigit.run (c :: cs) = .ok (n, cs) := by
  rw [hexDigit, run_bind_ok (take_run c cs), h]
  rfl

/-- A control character is written with its number. -/
theorem numericEscape_run {n : Nat} (hn : n < 0x20) (cs : List Char) :
    numericEscape.run ('0' :: '0' :: twoHex n ++ cs) = .ok (Char.ofNat n, cs) := by
  have hhigh : hexDigit? (Nat.digitChar (n / 16)) = some (n / 16) := by
    have hall : ∀ d, d < 2 → hexDigit? (Nat.digitChar d) = some d := by decide
    exact hall _ (by omega)
  have hlow : hexDigit? (Nat.digitChar (n % 16)) = some (n % 16) := by
    have hall : ∀ d, d < 16 → hexDigit? (Nat.digitChar d) = some d := by decide
    exact hall _ (by omega)
  have hfour : fourHex.run ('0' :: '0' :: twoHex n ++ cs) = .ok (n, cs) := by
    show fourHex.run ('0' :: '0' :: Nat.digitChar (n / 16) :: Nat.digitChar (n % 16) :: cs) = _
    rw [fourHex, run_bind_ok (hexDigit_run rfl _), run_bind_ok (hexDigit_run rfl _),
      run_bind_ok (hexDigit_run hhigh _), run_bind_ok (hexDigit_run hlow _)]
    show Except.ok (((0 * 16 + 0) * 16 + n / 16) * 16 + n % 16, cs) = _
    rw [show ((0 * 16 + 0) * 16 + n / 16) * 16 + n % 16 = n by omega]
  rw [numericEscape, run_bind_ok hfour, if_neg (by omega), if_neg (by omega)]
  rfl

/-- A character is read as it was written, escaped or not. -/
theorem stringChar_run (c : Char) (cs : List Char) :
    stringChar.run (escapeChar c ++ cs) = .ok (some c, cs) := by
  unfold escapeChar
  split
  · rfl
  · rfl
  · rfl
  · rfl
  · rfl
  · rfl
  · rfl
  · next hquote hbackslash _ _ _ _ _ =>
    by_cases hc : c.toNat < 0x20
    · -- a control character without a name of its own
      have hescape := numericEscape_run hc cs
      rw [Char.ofNat_toNat] at hescape
      rw [if_pos hc]
      show ((do return some (← numericEscape)) : Reader (Option Char)).run
        ('0' :: '0' :: twoHex c.toNat ++ cs) = _
      rw [run_bind_ok hescape]
      rfl
    · rw [if_neg hc, List.singleton_append, stringChar, run_bind_ok (take_run _ _)]
      split
      · exact absurd rfl hquote
      · exact absurd rfl hbackslash
      · rw [if_neg hc]
        rfl

/-- The characters of a string are read up to the quote behind them, given steps enough. -/
theorem stringRest_run (cs rest : List Char) {n : Nat} (hn : cs.length < n) :
    (stringRest n).run (cs.flatMap escapeChar ++ '"' :: rest) = .ok (cs, rest) := by
  induction cs generalizing n with
  | nil =>
    cases n with
    | zero => exact absurd hn (Nat.not_lt_zero _)
    | succ n => rfl
  | cons c cs ih =>
    cases n with
    | zero => exact absurd hn (Nat.not_lt_zero _)
    | succ n =>
      rw [List.length_cons] at hn
      rw [List.flatMap_cons, List.append_assoc, stringRest, run_bind_ok (stringChar_run c _)]
      dsimp only
      rw [run_bind_ok (ih (by omega))]
      rfl

theorem escapeChar_ne_nil (c : Char) : escapeChar c ≠ [] := by
  unfold escapeChar
  split
  case h_8 => split <;> exact List.cons_ne_nil _ _
  all_goals exact List.cons_ne_nil _ _

/-- A written string is not shorter than the string. -/
theorem length_le_length_flatMap_escapeChar (cs : List Char) :
    cs.length ≤ (cs.flatMap escapeChar).length := by
  induction cs with
  | nil => exact Nat.le_refl _
  | cons c cs ih =>
    have hc : 0 < (escapeChar c).length := List.length_pos_iff.2 (escapeChar_ne_nil c)
    rw [List.length_cons, List.flatMap_cons, List.length_append]
    omega

theorem toList_quote (s : String) :
    (quote s).toList = '"' :: (s.toList.flatMap escapeChar ++ ['"']) := by
  simp only [quote, String.toList_append, String.toList_ofList]
  rfl

/-- **Strings.** A written string is read as the string, whatever stands behind it. -/
theorem string_run (s : String) (cs : List Char) :
    string.run ((quote s).toList ++ cs) = .ok (s, cs) := by
  have htext : (quote s).toList ++ cs = '"' :: (s.toList.flatMap escapeChar ++ '"' :: cs) := by
    rw [toList_quote, List.cons_append, List.append_assoc, List.singleton_append]
  have hsteps : s.toList.length < (s.toList.flatMap escapeChar ++ '"' :: cs).length := by
    have hle := length_le_length_flatMap_escapeChar s.toList
    rw [List.length_append, List.length_cons]
    omega
  rw [htext, string, run_bind_ok (expect_run (by decide) _), run_bind_ok (get_run _),
    run_bind_ok (stringRest_run s.toList cs hsteps), String.ofList_toList]
  rfl

end SlicePolicy.Json.Reader
