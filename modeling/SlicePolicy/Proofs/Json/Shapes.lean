import Mathlib.Data.List.Forall2
import SlicePolicy.Json.Reader.Shape
import SlicePolicy.Proofs.Json.Scanning
import SlicePolicy.Proofs.Outcome

namespace SlicePolicy.Json

/-!
# Reading back arrays, objects, records and kinds

What the readers of the shapes do with a value that was written without blanks. A shape is read back
when its parts are, with one pair of brackets less.

* `chars`, `itemsChars`, `membersChars` — the characters of a written value.
* `Reader.Reads` — the reader takes a written value off the front and gives what it stands for.
* `Reader.reads_list`, `Reader.reads_pair`, `Reader.reads_entries` — arrays and maps.
* `Reader.Fills` — members that turn one draft into another one, read one after the other.
* `Reader.reads_record`, `Reader.reads_bare`, `Reader.reads_behind` — records and kinds.
* `Reader.Reads.read_eq` — a whole text.
-/

/-! ### Written values -/

/-- The characters of a value that is written without blanks. -/
def chars (v : Json) : List Char := v.compact.toList

/-- The characters of the items of an array. -/
def itemsChars (vs : List Json) : List Char := (compactItems vs).toList

/-- The characters of the members of an object. -/
def membersChars (ms : List (String × Json)) : List Char := (compactMembers ms).toList

theorem chars_array (vs : List Json) : (array vs).chars = '[' :: (itemsChars vs ++ [']']) := by
  simp only [chars, compact, String.toList_append]
  rfl

theorem chars_object (ms : List (String × Json)) :
    (object ms).chars = '\x7b' :: (membersChars ms ++ ['\x7d']) := by
  simp only [chars, compact, String.toList_append]
  rfl

theorem itemsChars_singleton (v : Json) : itemsChars [v] = v.chars := rfl

theorem itemsChars_cons_cons (v w : Json) (vs : List Json) :
    itemsChars (v :: w :: vs) = v.chars ++ ',' :: itemsChars (w :: vs) := by
  simp only [itemsChars, compactItems, String.toList_append, List.append_assoc]
  rfl

theorem membersChars_singleton (k : String) (v : Json) :
    membersChars [(k, v)] = (quote k).toList ++ ':' :: v.chars := by
  simp only [membersChars, compactMembers, String.toList_append, List.append_assoc]
  rfl

theorem membersChars_cons_cons (k : String) (v : Json) (m : String × Json)
    (ms : List (String × Json)) : membersChars ((k, v) :: m :: ms)
      = (quote k).toList ++ ':' :: (v.chars ++ ',' :: membersChars (m :: ms)) := by
  simp only [membersChars, compactMembers, String.toList_append, List.append_assoc]
  rfl

/-- A written value starts with a character that is no blank and closes nothing. -/
theorem exists_chars_eq_cons (v : Json) :
    ∃ (c : Char) (cs : List Char), v.chars = c :: cs ∧ Reader.isBlank c = false ∧ c ≠ ']' := by
  cases v with
  | null => exact ⟨'n', ['u', 'l', 'l'], rfl, by decide, by decide⟩
  | string s => exact ⟨'"', _, Reader.toList_quote s, by decide, by decide⟩
  | array vs => exact ⟨'[', _, chars_array vs, by decide, by decide⟩
  | object ms => exact ⟨'\x7b', _, chars_object ms, by decide, by decide⟩
  | number n =>
    obtain ⟨c, cs, hdigits, hc⟩ := Reader.exists_digits_eq_cons n.natAbs
    have htext : (number n).chars = (Text.integer n).toList := rfl
    rw [htext, Reader.toList_integer, hdigits]
    -- a sign or a digit
    by_cases hneg : n < 0
    · exact ⟨'-', c :: cs, if_pos hneg, by decide, by decide⟩
    · refine ⟨c, cs, if_neg hneg, Reader.isBlank_of_isDigit hc, ?_⟩
      rintro rfl
      exact absurd hc (by decide)

theorem exists_itemsChars_eq_cons (v : Json) (vs : List Json) : ∃ (c : Char) (cs : List Char),
    itemsChars (v :: vs) = c :: cs ∧ Reader.isBlank c = false ∧ c ≠ ']' := by
  obtain ⟨c, cs, hchars, hc⟩ := v.exists_chars_eq_cons
  cases vs with
  | nil => exact ⟨c, cs, hchars, hc⟩
  | cons w ws =>
    rw [itemsChars_cons_cons, hchars]
    exact ⟨c, _, rfl, hc⟩

/-- With the commas between them, so many items take at least one character less. -/
theorem length_le_length_itemsChars (vs : List Json) : vs.length ≤ (itemsChars vs).length + 1 := by
  induction vs with
  | nil => exact Nat.zero_le _
  | cons v vs ih =>
    cases vs with
    | nil => exact Nat.le_add_left _ _
    | cons w ws =>
      rw [itemsChars_cons_cons]
      simp only [List.length_append, List.length_cons] at ih ⊢
      omega

theorem length_le_length_membersChars (ms : List (String × Json)) :
    ms.length ≤ (membersChars ms).length + 1 := by
  induction ms with
  | nil => exact Nat.zero_le _
  | cons m ms ih =>
    cases ms with
    | nil => exact Nat.le_add_left _ _
    | cons m' ms =>
      rw [membersChars_cons_cons]
      simp only [List.length_append, List.length_cons] at ih ⊢
      omega

namespace Reader

variable {α β κ δ : Type} {r : Reader α} {v w : Json} {a : α} {b : β} {n : Nat}

/-- The reader takes the written value off the front of a text and gives what it stands for. -/
def Reads (r : Reader α) (v : Json) (a : α) : Prop :=
  ∀ rest : List Char, Ends rest → r.run (v.chars ++ rest) = .ok (a, rest)

theorem Reads.map (h : Reads r v a) (f : α → β) : Reads (f <$> r) v (f a) :=
  fun rest hrest => run_map_ok (h rest hrest)

theorem reads_integer (v : Value) : Reads integer (.number v.toInt) v :=
  fun _ hrest => integer_run v hrest

/-! ### Arrays -/

/-- Items are read one after the other up to the closing bracket. -/
theorem items_run {item : Reader α} {vs : List Json} {as : List α} (h : List.Forall₂ (Reads item) vs as)
    (hvs : vs ≠ []) (hn : vs.length ≤ n) (rest : List Char) :
    (items item n).run (itemsChars vs ++ ']' :: rest) = .ok (as, rest) := by
  induction h generalizing n with
  | nil => exact absurd rfl hvs
  | @cons v a vs as hread htail ih =>
    cases n with
    | zero => exact absurd hn (Nat.not_succ_le_zero _)
    | succ n =>
      cases htail with
      | nil =>
        -- the closing bracket stands behind the last item
        rw [itemsChars_singleton, items, run_bind_ok (hread _ (ends_cons (.inr (.inl rfl)))),
          run_bind_ok (next_run (by decide) _), if_neg (by decide), if_pos rfl]
        rfl
      | @cons w b ws bs hread' htail =>
        have hrest := ih (List.cons_ne_nil w ws) (Nat.le_of_succ_le_succ hn)
        rw [itemsChars_cons_cons, List.append_assoc, List.cons_append, items,
          run_bind_ok (hread _ (ends_cons (.inl rfl))), run_bind_ok (next_run (by decide) _),
          if_pos rfl, run_bind_ok hrest]
        rfl

/-- **Arrays.** A list is read when all of its items are. -/
theorem reads_list {item : Nested α} {vs : List Json} {as : List α}
    (h : List.Forall₂ (Reads (item n)) vs as) : Reads (list item (n + 1)) (.array vs) as := by
  intro rest _
  rw [chars_array, List.cons_append, List.append_assoc, List.singleton_append, list, nest,
    run_bind_ok (expect_run (by decide) _)]
  cases vs with
  | nil =>
    -- an empty array is closed before any item is tried
    cases h
    show (peek >>= _).run (']' :: rest) = _
    rw [run_bind_ok (peek_run (by decide) _), if_pos rfl]
    rfl
  | cons v vs =>
    obtain ⟨c, cs, hchars, hblank, hclose⟩ := exists_itemsChars_eq_cons v vs
    have hopen : ¬some c = some ']' := fun hc => hclose (Option.some.inj hc)
    -- the text that is left has characters enough for the steps of `items`
    have hsteps : (v :: vs).length ≤ (itemsChars (v :: vs) ++ ']' :: rest).length := by
      have hlength := length_le_length_itemsChars (v :: vs)
      simp only [List.length_append, List.length_cons] at hlength ⊢
      omega
    have hitems := items_run h (List.cons_ne_nil v vs) hsteps rest
    rw [hchars, List.cons_append] at hitems ⊢
    rw [run_bind_ok (peek_run hblank _), if_neg hopen, run_bind_ok (get_run _)]
    exact hitems

/-- **Pairs.** A pair is read when both of its items are. -/
theorem reads_pair {first : Nested α} {second : Nested β} (hfirst : Reads (first n) v a)
    (hsecond : Reads (second n) w b) : Reads (pair first second (n + 1)) (.array [v, w]) (a, b) := by
  intro rest _
  rw [chars_array, itemsChars_cons_cons, itemsChars_singleton]
  simp only [List.cons_append, List.append_assoc, List.nil_append]
  rw [pair, nest, run_bind_ok (expect_run (by decide) _),
    run_bind_ok (hfirst _ (ends_cons (.inl rfl))), run_bind_ok (expect_run (by decide) _),
    run_bind_ok (hsecond _ (ends_cons (.inr (.inl rfl)))), run_bind_ok (expect_run (by decide) _)]
  rfl

/-! ### Objects -/

/-- The members, read one after the other, turn the first draft into the second. -/
inductive Fills (member : String → δ → Reader δ) : List (String × Json) → δ → δ → Prop
  | nil (d : δ) : Fills member [] d d
  | cons {k : String} {v : Json} {ms : List (String × Json)} {d d' d'' : δ} :
      Reads (member k d) v d' → Fills member ms d' d'' → Fills member ((k, v) :: ms) d d''

theorem membersRest_run {member : String → δ → Reader δ} {ms : List (String × Json)} {d d' : δ}
    (h : Fills member ms d d') (hms : ms ≠ []) (hn : ms.length ≤ n) (rest : List Char) :
    (membersRest member n d).run (membersChars ms ++ '\x7d' :: rest) = .ok (d', rest) := by
  induction h generalizing n with
  | nil => exact absurd rfl hms
  | @cons k v ms d d' d'' hread hfills ih =>
    cases n with
    | zero => exact absurd hn (Nat.not_succ_le_zero _)
    | succ n =>
      cases ms with
      | nil =>
        -- nothing is added to the draft behind the last member
        cases hfills
        rw [membersChars_singleton, List.append_assoc, List.cons_append, membersRest,
          run_bind_ok (string_run _ _), run_bind_ok (expect_run (by decide) _),
          run_bind_ok (hread _ (ends_cons (.inr (.inr rfl)))), run_bind_ok (next_run (by decide) _),
          if_neg (by decide), if_pos rfl]
        rfl
      | cons m ms =>
        have hrest := ih (List.cons_ne_nil m ms) (Nat.le_of_succ_le_succ hn)
        rw [membersChars_cons_cons, List.append_assoc, List.cons_append, List.append_assoc,
          List.cons_append, membersRest, run_bind_ok (string_run _ _),
          run_bind_ok (expect_run (by decide) _), run_bind_ok (hread _ (ends_cons (.inl rfl))),
          run_bind_ok (next_run (by decide) _), if_pos rfl, hrest]

/-- The members of an object are read up to the closing bracket. -/
theorem members_run {member : String → δ → Reader δ} {ms : List (String × Json)} {d d' : δ}
    (h : Fills member ms d d') (rest : List Char) :
    (members member d).run (membersChars ms ++ '\x7d' :: rest) = .ok (d', rest) := by
  cases ms with
  | nil =>
    cases h
    show (members member d).run ('\x7d' :: rest) = _
    rw [members, run_bind_ok (peek_run (by decide) _), if_pos rfl]
    rfl
  | cons m ms =>
    obtain ⟨k, v⟩ := m
    have hsteps : ((k, v) :: ms).length ≤ (membersChars ((k, v) :: ms) ++ '\x7d' :: rest).length := by
      have hlength := length_le_length_membersChars ((k, v) :: ms)
      simp only [List.length_append, List.length_cons] at hlength ⊢
      omega
    have hmembers := membersRest_run h (List.cons_ne_nil _ ms) hsteps rest
    -- the first key starts with its quote
    have hquote : ∃ cs, membersChars ((k, v) :: ms) = '"' :: cs := by
      cases ms with
      | nil => rw [membersChars_singleton, toList_quote]; exact ⟨_, rfl⟩
      | cons m ms => rw [membersChars_cons_cons, toList_quote]; exact ⟨_, rfl⟩
    obtain ⟨cs, hcs⟩ := hquote
    rw [hcs, List.cons_append] at hmembers ⊢
    rw [members, run_bind_ok (peek_run (by decide) _), if_neg (by decide), run_bind_ok (get_run _)]
    exact hmembers

/-- The key of a name is found when the names are different. -/
theorem lookup_eq_some {keys : List (String × κ)} (h : (keys.map Prod.fst).Nodup) {name : String}
    {k : κ} (hk : (name, k) ∈ keys) : keys.lookup name = some k := by
  induction keys with
  | nil => exact absurd hk List.not_mem_nil
  | cons e keys ih =>
    obtain ⟨name', k'⟩ := e
    rw [List.map_cons, List.nodup_cons] at h
    rcases List.mem_cons.1 hk with heq | hmem
    · cases heq
      exact List.lookup_cons_self
    · have hne : name ≠ name' := fun heq => h.1 (List.mem_map.2 ⟨(name, k), hmem, heq⟩)
      rw [List.lookup_cons, beq_false_of_ne hne]
      exact ih h.2 hmem

theorem fills_entry {keys : List (String × κ)} (hkeys : (keys.map Prod.fst).Nodup)
    {value : Reader α} {ms : List (String × Json)} {es : List (κ × α)}
    (h : List.Forall₂ (fun m e => (m.1, e.1) ∈ keys ∧ Reads value m.2 e.2) ms es)
    (found : List (κ × α)) : Fills (entry keys value) ms found (found ++ es) := by
  induction h generalizing found with
  | nil =>
    rw [List.append_nil]
    exact .nil found
  | @cons m e ms es hm _ ih =>
    have hread : Reads (entry keys value m.1 found) m.2 (found ++ [e]) := by
      intro rest hrest
      rw [entry, lookup_eq_some hkeys hm.1]
      dsimp only
      rw [run_bind_ok (hm.2 rest hrest)]
      rfl
    have hfills := ih (found ++ [e])
    rw [List.append_assoc, List.singleton_append] at hfills
    exact .cons hread hfills

/-- **Maps.** Entries are read when their members have the names of keys and their values are read. -/
theorem reads_entries {keys : List (String × κ)} (hkeys : (keys.map Prod.fst).Nodup)
    {value : Nested α} {ms : List (String × Json)} {es : List (κ × α)}
    (h : List.Forall₂ (fun m e => (m.1, e.1) ∈ keys ∧ Reads (value n) m.2 e.2) ms es) :
    Reads (entries keys value (n + 1)) (.object ms) es := by
  intro rest _
  have hmembers := members_run (fills_entry hkeys h []) rest
  rw [chars_object, List.cons_append, List.append_assoc, List.singleton_append, entries, nest,
    run_bind_ok (expect_run (by decide) _)]
  exact hmembers

/-- **Records.** A record is read when its members lead to a complete draft. -/
theorem reads_record {σ : Type} {ms : Members Nested σ} {vs : List (String × Json)} {d : Draft ms}
    {s : σ} (hmembers : Fills (fun key => add n key ms) vs (blank ms) d)
    (hfinish : finish ms d = .ok s) : Reads (record ms (n + 1)) (.object vs) s := by
  intro rest _
  rw [chars_object, List.cons_append, List.append_assoc, List.singleton_append, record, nest,
    run_bind_ok (next_run (by decide) _)]
  dsimp only
  rw [if_pos rfl, run_bind_ok (members_run hmembers rest), hfinish]
  rfl

/-! ### Kinds -/

/-- A kind is found by its name when the names are different. -/
theorem named_of_mem {way : Kind Nested α → Reader α} {ks : List (Kind Nested α)}
    (h : (ks.map Kind.name).Nodup) {k : Kind Nested α} (hk : k ∈ ks) : named way ks k.name = way k := by
  induction ks with
  | nil => exact absurd hk List.not_mem_nil
  | cons k' ks ih =>
    rw [List.map_cons, List.nodup_cons] at h
    rcases List.mem_cons.1 hk with rfl | hmem
    · exact if_pos rfl
    · have hne : k'.name ≠ k.name := fun heq => h.1 (heq ▸ List.mem_map_of_mem hmem)
      rw [named, if_neg hne]
      exact ih h.2 hmem

variable {ks : List (Kind Nested α)} {name : String}

/-- A kind without contents is read by its name. -/
theorem reads_bare (h : named alone ks name = pure a) : Reads (kinds ks n) (.string name) a := by
  intro rest _
  have hname := string_run name rest
  have hquote : (quote name).toList ++ rest
      = '"' :: (name.toList.flatMap escapeChar ++ '"' :: rest) := by
    rw [toList_quote, List.cons_append, List.append_assoc, List.singleton_append]
  show (kinds ks n).run ((quote name).toList ++ rest) = _
  rw [hquote] at hname ⊢
  rw [kinds, run_bind_ok (peek_run (by decide) _), if_pos rfl, run_bind_ok hname, h]
  rfl

/-- A kind with contents is read when the contents are. -/
theorem reads_behind (hr : named (behind n) ks name = r) (h : Reads r v a) :
    Reads (kinds ks (n + 1)) (.object [(name, v)]) a := by
  intro rest _
  rw [chars_object, membersChars_singleton]
  simp only [List.cons_append, List.append_assoc, List.nil_append]
  rw [kinds, run_bind_ok (peek_run (by decide) _), if_neg (by decide), if_pos rfl, nest,
    run_bind_ok (discard_take_run _ _), run_bind_ok (string_run _ _),
    run_bind_ok (expect_run (by decide) _), hr, run_bind_ok (h _ (ends_cons (.inr (.inr rfl)))),
    run_bind_ok (expect_run (by decide) _)]
  rfl

/-! ### Whole texts -/

/-- A text is read when a value is read off its front and only blanks stand behind it. -/
theorem read_eq_ok_iff {value : Nested α} {text : String} : read value text = .ok a ↔
    ∃ rest, (value maxBrackets).run text.toList = .ok (a, rest) ∧
      (rest.dropWhile isBlank).isEmpty = true := by
  rw [read, bind_eq_ok_iff]
  constructor
  · rintro ⟨⟨b, rest⟩, hrun, hend⟩
    dsimp only at hend
    split at hend
    · next hblank =>
      cases hend
      exact ⟨rest, hrun, hblank⟩
    · cases hend
  · rintro ⟨rest, hrun, hblank⟩
    exact ⟨(a, rest), hrun, if_pos hblank⟩

/-- **Texts.** The written value alone is a text of it. -/
theorem Reads.read_eq {value : Nested α} (h : Reads (value maxBrackets) v a) :
    read value v.compact = .ok a := by
  have hrun : (value maxBrackets).run v.compact.toList = .ok (a, []) := by
    have hall := h [] ends_nil
    rwa [List.append_nil] at hall
  exact read_eq_ok_iff.2 ⟨[], hrun, rfl⟩

end Reader

end SlicePolicy.Json
