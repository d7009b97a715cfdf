import SlicePolicy.Location
import SlicePolicy.Proofs.Json.Scanning

namespace SlicePolicy.Text

/-!
# Texts that say where they end

Written values can be told apart in the middle of a text if what stands behind them cannot be taken
for a part of them: a numeral ends where no digit follows, a name where no letter follows. A text
that is put together from such pieces and from fixed words is taken apart again piece by piece.

* `Delimited` — written values can be told apart in front of certain texts.
* `Delimited.after`, `Delimited.before`, `Delimited.pair`, `Delimited.comap` — a fixed word in
  front, a fixed word behind, one piece after the other, and values that are determined by their
  pieces.
* `Delimited.join`, `Delimited.intercalate` — pieces in a row, without and with separators.
* `delimited_value`, `delimited_word` — numerals and words.
-/

variable {α β : Type}

/-- Two texts that begin with written values and go on with texts of some kind are equal only if the
    values are, and the rests too. -/
def Delimited (Stop : List Char → Prop) (text : α → String) : Prop :=
  ∀ ⦃a b : α⦄ ⦃r s : List Char⦄, Stop r → Stop s →
    (text a).toList ++ r = (text b).toList ++ s → a = b ∧ r = s

/-- The text does not begin with such a character. -/
def Stops (p : Char → Bool) (r : List Char) : Prop := ∀ c ∈ r.head?, p c = false

/-- The text begins with the character. -/
def StartsWith (c : Char) (r : List Char) : Prop := r.head? = some c

theorem stops_cons {p : Char → Bool} {c : Char} {cs : List Char} :
    Stops p (c :: cs) ↔ p c = false := by
  simp [Stops]

theorem StartsWith.exists_cons {c : Char} {r : List Char} (h : StartsWith c r) :
    ∃ cs, r = c :: cs :=
  List.head?_eq_some_iff.1 h

theorem StartsWith.stops {p : Char → Bool} {c : Char} {r : List Char} (h : StartsWith c r)
    (hc : p c = false) : Stops p r := by
  obtain ⟨cs, rfl⟩ := h.exists_cons
  exact stops_cons.2 hc

/-- Of values that are written in a row the first stands in front of the others. -/
theorem toList_join_cons (text : α → String) (a : α) (as : List α) (r : List Char) :
    (String.join ((a :: as).map text)).toList ++ r
      = (text a).toList ++ ((String.join (as.map text)).toList ++ r) := by
  rw [List.map_cons, String.join_cons, String.toList_append, List.append_assoc]

/-- Behind a value stands another one or the end of the row. -/
theorem stop_join {Stop Stop' : List Char → Prop} {text : α → String}
    (hnext : ∀ a r, Stop ((text a).toList ++ r)) (hend : ∀ r, Stop' r → Stop r) (as : List α)
    {r : List Char} (hr : Stop' r) : Stop ((String.join (as.map text)).toList ++ r) := by
  cases as with
  | nil => exact hend r hr
  | cons a as =>
    rw [toList_join_cons]
    exact hnext a _

/-- Of values with separators between them each but the first has the separator in front. -/
theorem toList_intercalate_cons (sep : String) (text : α → String) (a : α) (as : List α)
    (r : List Char) : (sep.intercalate ((a :: as).map text)).toList ++ r
      = (text a).toList ++ ((String.join (as.map fun b => sep ++ text b)).toList ++ r) := by
  induction as generalizing a with
  | nil => rfl
  | cons b bs ih =>
    rw [toList_join_cons (fun b => sep ++ text b), List.map_cons, List.map_cons,
      String.intercalate_cons_cons, ← List.map_cons]
    simp only [String.toList_append, List.append_assoc]
    rw [ih]

/-- Two rows with separators, one behind the other, are one row if neither is empty. -/
theorem intercalate_append (sep : String) {xs ys : List String} (hx : xs ≠ []) (hy : ys ≠ []) :
    sep.intercalate (xs ++ ys) = sep.intercalate xs ++ sep ++ sep.intercalate ys := by
  induction xs with
  | nil => exact absurd rfl hx
  | cons x xs ih =>
    cases xs with
    | nil =>
      obtain ⟨y, ys', rfl⟩ := List.exists_cons_of_ne_nil hy
      rw [List.singleton_append, String.intercalate_cons_cons, String.intercalate_singleton]
    | cons x' xs =>
      have hrest := ih (List.cons_ne_nil _ _)
      rw [List.cons_append] at hrest
      rw [List.cons_append, List.cons_append, String.intercalate_cons_cons, hrest,
        String.intercalate_cons_cons]
      simp only [String.append_assoc]

namespace Delimited

variable {Stop Stop' : List Char → Prop} {text : α → String}

/-- Fewer texts behind the values do no harm. -/
theorem mono (h : Delimited Stop text) (hstop : ∀ r, Stop' r → Stop r) : Delimited Stop' text :=
  fun _ _ _ _ hr hs => h (hstop _ hr) (hstop _ hs)

/-- Values with the same text are the same if nothing needs to stand behind them. -/
theorem eq_of_text_eq (h : Delimited Stop text) (hnil : Stop []) {a b : α} (hab : text a = text b) :
    a = b :=
  (h hnil hnil (congrArg (fun t : String => t.toList ++ []) hab)).1

/-- Values that are determined by other values are written as these. -/
theorem comap (h : Delimited Stop text) {text' : β → String} {f : β → α}
    (hf : Function.Injective f) (htext : ∀ b, text' b = text (f b)) : Delimited Stop text' := by
  intro a b r s hr hs heq
  rw [htext, htext] at heq
  obtain ⟨hab, hrs⟩ := h hr hs heq
  exact ⟨hf hab, hrs⟩

/-- A fixed word stands in front. -/
theorem after (h : Delimited Stop text) (word : String) :
    Delimited Stop fun a => word ++ text a := by
  intro a b r s hr hs heq
  simp only [String.toList_append, List.append_assoc, List.append_cancel_left_eq] at heq
  exact h hr hs heq

/-- A fixed word stands behind. -/
theorem before (h : Delimited Stop text) (word : String)
    (hword : ∀ r, Stop' r → Stop (word.toList ++ r)) : Delimited Stop' fun a => text a ++ word := by
  intro a b r s hr hs heq
  simp only [String.toList_append, List.append_assoc] at heq
  obtain ⟨hab, hrest⟩ := h (hword r hr) (hword s hs) heq
  exact ⟨hab, List.append_cancel_left hrest⟩

/-- One value is written behind the other. -/
theorem pair {text' : β → String} (h : Delimited Stop text) (h' : Delimited Stop' text')
    (hnext : ∀ b r, Stop' r → Stop ((text' b).toList ++ r)) :
    Delimited Stop' fun e : α × β => text e.1 ++ text' e.2 := by
  rintro ⟨a, b⟩ ⟨a', b'⟩ r s hr hs heq
  simp only [String.toList_append, List.append_assoc] at heq
  obtain ⟨rfl, hrest⟩ := h (hnext b r hr) (hnext b' s hs) heq
  obtain ⟨rfl, hrs⟩ := h' hr hs hrest
  exact ⟨rfl, hrs⟩

/-- Values are written in a row, when another value and the end of the row may stand behind each of
    them, and the end is not taken for another value. -/
theorem join (h : Delimited Stop text) (hnext : ∀ a r, Stop ((text a).toList ++ r))
    (hend : ∀ r, Stop' r → Stop r) (hmore : ∀ a r s, Stop' s → (text a).toList ++ r ≠ s) :
    Delimited Stop' fun as : List α => String.join (as.map text) := by
  intro as bs r s hr hs heq
  induction as generalizing bs with
  | nil =>
    cases bs with
    | nil => exact ⟨rfl, heq⟩
    | cons b bs =>
      simp only [toList_join_cons] at heq
      exact absurd heq.symm (hmore b _ _ hr)
  | cons a as ih =>
    cases bs with
    | nil =>
      simp only [toList_join_cons] at heq
      exact absurd heq (hmore a _ _ hs)
    | cons b bs =>
      simp only [toList_join_cons] at heq
      obtain ⟨rfl, hrest⟩ := h (stop_join hnext hend as hr) (stop_join hnext hend bs hs) heq
      obtain ⟨rfl, hrs⟩ := ih hrest
      exact ⟨rfl, hrs⟩

/-- Values are written with a separator between them, when the separator and the end of the row may
    stand behind each of them, and the end is not taken for a separator or a value. -/
theorem intercalate (h : Delimited Stop text) (sep : String)
    (hsep : ∀ r, Stop (sep.toList ++ r)) (hend : ∀ r, Stop' r → Stop r)
    (hfirst : ∀ a r s, Stop' s → (text a).toList ++ r ≠ s)
    (hmore : ∀ r s, Stop' s → sep.toList ++ r ≠ s) :
    Delimited Stop' fun as : List α => sep.intercalate (as.map text) := by
  have hnext (a : α) (r : List Char) : Stop ((sep ++ text a).toList ++ r) := by
    rw [String.toList_append, List.append_assoc]
    exact hsep _
  -- behind the first value stand the others, each with the separator in front of it
  have hothers : Delimited Stop' fun as : List α =>
      String.join (as.map fun a => sep ++ text a) := by
    refine (h.after sep).join hnext hend fun a r s hs => ?_
    rw [String.toList_append, List.append_assoc]
    exact hmore _ s hs
  intro as bs r s hr hs heq
  cases as with
  | nil =>
    cases bs with
    | nil => exact ⟨rfl, heq⟩
    | cons b bs =>
      simp only [toList_intercalate_cons] at heq
      exact absurd heq.symm (hfirst b _ _ hr)
  | cons a as =>
    cases bs with
    | nil =>
      simp only [toList_intercalate_cons] at heq
      exact absurd heq (hfirst a _ _ hs)
    | cons b bs =>
      simp only [toList_intercalate_cons] at heq
      obtain ⟨rfl, hrest⟩ := h (stop_join hnext hend as hr) (stop_join hnext hend bs hs) heq
      obtain ⟨rfl, hrs⟩ := hothers hr hs hrest
      exact ⟨rfl, hrs⟩

/-- Lists are told apart in brackets when neither a comma nor the closing bracket is taken for a
    part of an item. -/
theorem listed {p : Char → Bool} (h : Delimited (Stops p) text) (opening closing : String)
    {c : Char} (hclosing : closing.toList = [c]) (hcomma : p ',' = false) (hc : p c = false)
    (hne : c ≠ ',') (hfirst : ∀ a r, ¬StartsWith c ((text a).toList ++ r)) :
    Delimited (fun _ => True) fun as : List α =>
      opening ++ ", ".intercalate (as.map text) ++ closing := by
  have hitems : Delimited (StartsWith c) fun as : List α => ", ".intercalate (as.map text) := by
    refine h.intercalate ", " (fun r => stops_cons.2 hcomma) (fun r hr => hr.stops hc) ?_ ?_
    · rintro a r s hs rfl
      exact hfirst a r hs
    · rintro r s hs rfl
      exact hne (Option.some.inj hs).symm
  refine (hitems.after opening).before closing fun r _ => ?_
  rw [hclosing]
  rfl

end Delimited

/-! ### Words and numerals -/

/-- Behind characters of a kind a text goes on with one that is not of the kind, so there is only
    one place where it does. -/
theorem append_inj_of_stops {p : Char → Bool} {xs ys r s : List Char} (hxs : ∀ c ∈ xs, p c = true)
    (hys : ∀ c ∈ ys, p c = true) (hr : Stops p r) (hs : Stops p s) (h : xs ++ r = ys ++ s) :
    xs = ys ∧ r = s := by
  have hnone {t : List Char} (ht : Stops p t) : t.takeWhile p = [] := by
    cases t with
    | nil => rfl
    | cons c cs => rw [List.takeWhile_cons, stops_cons.1 ht, if_neg Bool.false_ne_true]
  have htaken := congrArg (List.takeWhile p) h
  rw [List.takeWhile_append_of_pos hxs, List.takeWhile_append_of_pos hys, hnone hr, hnone hs,
    List.append_nil, List.append_nil] at htaken
  rw [htaken] at h
  exact ⟨htaken, List.append_cancel_left h⟩

/-- Different words of characters of a kind end where another character follows. -/
theorem delimited_word {p : Char → Bool} {text : α → String} (hinj : Function.Injective text)
    (hp : ∀ a, ∀ c ∈ (text a).toList, p c = true) : Delimited (Stops p) text := by
  intro a b r s hr hs heq
  obtain ⟨hab, hrs⟩ := append_inj_of_stops (hp a) (hp b) hr hs heq
  exact ⟨hinj (String.toList_inj.1 hab), hrs⟩

/-- A digit, the sign, or the star for the wildcard. -/
def isNumeral (c : Char) : Bool := c.isDigit || c = '-' || c = '*'

/-- Different numbers have different digits. -/
theorem digits_injective : Function.Injective digits := by
  intro m n h
  have hread : Nat.ofDigitChars 10 (Nat.toDigits 10 m) 0
      = Nat.ofDigitChars 10 (Nat.toDigits 10 n) 0 :=
    congrArg (Nat.ofDigitChars 10 · 0) h
  rwa [Nat.ofDigitChars_ten_toDigits, Nat.ofDigitChars_ten_toDigits] at hread

/-- A number is written with digits, behind a sign if it is negative. -/
theorem integer_injective : Function.Injective integer := by
  intro i j h
  have hchars := congrArg String.toList h
  rw [Json.Reader.toList_integer, Json.Reader.toList_integer] at hchars
  have hsign (k : Int) (cs : List Char) : digits k.natAbs ≠ '-' :: cs := fun hk =>
    absurd (Json.Reader.isDigit_of_mem_digits (hk ▸ List.mem_cons_self)) (by decide)
  by_cases hi : i < 0 <;> by_cases hj : j < 0
  · rw [if_pos hi, if_pos hj] at hchars
    have habs := digits_injective (List.cons.inj hchars).2
    omega
  · rw [if_pos hi, if_neg hj] at hchars
    exact absurd hchars.symm (hsign j _)
  · rw [if_neg hi, if_pos hj] at hchars
    exact absurd hchars (hsign i _)
  · rw [if_neg hi, if_neg hj] at hchars
    have habs := digits_injective hchars
    omega

/-- A value is written with digits and perhaps a sign. -/
theorem isDigit_or_sign_of_mem_text {v : Value} {c : Char} (hc : c ∈ v.text.toList) :
    c.isDigit = true ∨ c = '-' := by
  rw [Value.text, Json.Reader.toList_integer] at hc
  split at hc
  · rcases List.mem_cons.1 hc with rfl | hc
    · exact .inr rfl
    · exact .inl (Json.Reader.isDigit_of_mem_digits hc)
  · exact .inl (Json.Reader.isDigit_of_mem_digits hc)

theorem isNumeral_of_mem_text {v : Value} {c : Char} (hc : c ∈ v.text.toList) :
    isNumeral c = true := by
  rcases isDigit_or_sign_of_mem_text hc with hdigit | rfl
  · rw [isNumeral, hdigit]
    rfl
  · rfl

/-- A text that begins with a value begins with a digit or a sign. -/
theorem isNumeral_of_startsWith_text {v : Value} {c : Char} {r : List Char}
    (h : StartsWith c (v.text.toList ++ r)) : isNumeral c = true := by
  have hne : v.text.toList ≠ [] := by
    rw [Value.text, Json.Reader.toList_integer]
    split
    · exact List.cons_ne_nil _ _
    · exact Nat.toDigits_ne_nil
  obtain ⟨d, cs, hcons⟩ := List.exists_cons_of_ne_nil hne
  rw [hcons] at h
  obtain rfl : d = c := Option.some.inj h
  exact isNumeral_of_mem_text (hcons ▸ List.mem_cons_self)

/-- Values end where their digits end. -/
theorem delimited_value : Delimited (Stops isNumeral) Value.text :=
  delimited_word (fun _ _ h => Int64.toInt_inj.1 (integer_injective h)) fun _ _ hc =>
    isNumeral_of_mem_text hc

/-- Components of locations are values or the star, which no value looks like. -/
theorem delimited_component : Delimited (Stops isNumeral) Location.componentText := by
  have hstar (v : Value) : v.text ≠ "*" := by
    intro h
    have hmem : '*' ∈ v.text.toList := by
      rw [h]
      exact List.mem_cons_self
    exact absurd (isDigit_or_sign_of_mem_text hmem) (by decide)
  refine delimited_word ?_ ?_
  · intro v w h
    unfold Location.componentText at h
    by_cases hv : v = wildcard <;> by_cases hw : w = wildcard
    · exact hv.trans hw.symm
    · rw [if_pos hv, if_neg hw] at h
      exact absurd h.symm (hstar w)
    · rw [if_neg hv, if_pos hw] at h
      exact absurd h (hstar v)
    · rw [if_neg hv, if_neg hw] at h
      exact Int64.toInt_inj.1 (integer_injective h)
  · intro v c hc
    unfold Location.componentText at hc
    split at hc
    · obtain rfl : c = '*' := List.mem_singleton.1 hc
      rfl
    · exact isNumeral_of_mem_text hc

/-- Lists of values are told apart in brackets. -/
theorem delimited_values (opening closing : String) {c : Char} (hclosing : closing.toList = [c])
    (hc : isNumeral c = false) (hne : c ≠ ',') : Delimited (fun _ => True) fun vs : List Value =>
      opening ++ ", ".intercalate (vs.map Value.text) ++ closing := by
  refine delimited_value.listed opening closing hclosing rfl hc hne fun v r hstart => ?_
  rw [isNumeral_of_startsWith_text hstart] at hc
  exact Bool.noConfusion hc

end SlicePolicy.Text
