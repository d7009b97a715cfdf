import SlicePolicy.Proofs.Outcome
import SlicePolicy.Proofs.Policy.PrintedText
import SlicePolicy.Proofs.Verifier.Runs

namespace SlicePolicy

/-!
# What the report of a leak says

A check of isolation comes with words: nothing if there is no leak, and otherwise the four packets of
the leak, each on a line, and between them the stages on the way. The words are there exactly when the
check says that there is a leak, and they determine what is known of the four packets: every known
field is shown with its value, and no other. What a solver says about other packets is left out.

* `Text.lines` — the lines of a text; `Text.lines_intercalate` finds the lines that were put together.
* `delimited_fieldsText` — known fields and values can be read off their text.
* `Verifier.leakText_eq_iff`, `Verifier.lines_leakText` — so can the packets of a leak, in seven lines.
* `Verifier.isolatedDiagnostic_determines` — the report agrees with the check and determines the leak.
-/

/-! ### Lines -/

namespace Text

/-- The lines of a text. -/
def lines (t : String) : List String := (t.toList.splitOn '\n').map String.ofList

/-- A character of texts with separators between them is one of theirs or of the separator. -/
theorem mem_toList_intercalate {sep : String} {ts : List String} {c : Char}
    (h : c ∈ (sep.intercalate ts).toList) : c ∈ sep.toList ∨ ∃ t ∈ ts, c ∈ t.toList := by
  induction ts with
  | nil => exact absurd h List.not_mem_nil
  | cons t ts ih =>
    cases ts with
    | nil => exact .inr ⟨t, List.mem_cons_self, h⟩
    | cons u us =>
      rw [String.intercalate_cons_cons] at h
      simp only [String.toList_append, List.mem_append] at h
      rcases h with (ht | hsep) | hrest
      · exact .inr ⟨t, List.mem_cons_self, ht⟩
      · exact .inl hsep
      · rcases ih hrest with hsep | ⟨t', ht', hc⟩
        · exact .inl hsep
        · exact .inr ⟨t', List.mem_cons_of_mem _ ht', hc⟩

/-- Lines that are put together are the lines of the text. -/
theorem lines_intercalate {ts : List String} (hne : ts ≠ []) (h : ∀ t ∈ ts, '\n' ∉ t.toList) :
    lines ("\n".intercalate ts) = ts := by
  have hlines : ∀ cs ∈ ts.map String.toList, '\n' ∉ cs := List.forall_mem_map.2 h
  unfold lines
  rw [String.toList_intercalate]
  show (List.splitOn '\n' (['\n'].intercalate _)).map _ = _
  rw [List.splitOn_intercalate _ hlines (mt List.map_eq_nil_iff.1 hne), List.map_map]
  simp

end Text

/-! ### Known fields -/

open Text

/-- A known field as shown. -/
def fieldText (e : Field × Value) : String := e.1.name ++ ": " ++ e.2.text

theorem delimited_fieldText : Delimited (Stops isNumeral) fieldText := by
  have hname : Delimited (fun _ => True) fun f : Field => f.name ++ ": " :=
    Field.delimited_name.before ": " fun _ _ => stops_cons.2 rfl
  exact hname.pair delimited_value fun _ _ _ => trivial

/-- Fields and values can be read off their text, whatever follows. -/
theorem delimited_fieldsText : Delimited (fun _ => True) fieldsText := by
  refine delimited_fieldText.listed "\x7b" "\x7d" rfl rfl rfl (by decide) fun e r hstart => ?_
  obtain ⟨c, d, cs, hname, -⟩ := e.1.exists_name_eq_cons
  simp only [fieldText, String.toList_append, List.append_assoc, hname] at hstart
  -- no name begins with the bracket
  obtain rfl : c = '\x7d' := Option.some.inj hstart
  have halpha := e.1.isAlpha_of_mem_name '\x7d' (hname ▸ List.mem_cons_self)
  exact absurd halpha (by decide)

/-- Fields and values stand on one line. -/
theorem not_mem_fieldsText (es : List (Field × Value)) : '\n' ∉ (fieldsText es).toList := by
  intro h
  have hitem : ∃ e ∈ es, '\n' ∈ (fieldText e).toList := by
    unfold fieldsText braced at h
    simp only [String.toList_append, List.mem_append] at h
    rcases h with (h | h) | h
    · exact absurd h (by decide)
    · rcases mem_toList_intercalate h with hsep | ⟨t, ht, hc⟩
      · exact absurd hsep (by decide)
      · obtain ⟨e, he, rfl⟩ := List.mem_map.1 ht
        exact ⟨e, he, hc⟩
    · exact absurd h (by decide)
  obtain ⟨e, -, hc⟩ := hitem
  unfold fieldText at hc
  simp only [String.toList_append, List.mem_append] at hc
  rcases hc with (hname | hcolon) | hvalue
  · exact absurd (e.1.isAlpha_of_mem_name _ hname) (by decide)
  · exact absurd hcolon (by decide)
  · exact absurd (isNumeral_of_mem_text hvalue) (by decide)

/-- A map is determined by its text. -/
theorem delimited_keyMapText :
    Delimited (fun _ => True) fun m : KeyMap Field Value => fieldsText m.toList := by
  have hinj : Function.Injective (KeyMap.toList : KeyMap Field Value → _) :=
    Function.LeftInverse.injective KeyMap.ofList_toList
  exact delimited_fieldsText.comap hinj fun _ => rfl

/-- What is known of a packet is the same when each field has the same value, or none. -/
theorem Witness.explain_eq_iff {x y : Witness} {p : PacketVar} :
    x.explain p = y.explain p ↔ ∀ f, x.value? f p = y.value? f p := by
  constructor
  · intro h f
    unfold value?
    rw [h]
  · exact fun h => KeyMap.ext (funext h)

/-! ### The packets of a leak -/

namespace Verifier

open Query (pkt1 pkt2 pkt3 pkt4)

/-- The report of a leak determines what is known of its four packets. -/
theorem leakText_eq_iff (leak leak' : Counterexample) : leakText leak = leakText leak' ↔
    ∀ p ∈ [pkt1, pkt2, pkt3, pkt4], leak.explain p = leak'.explain p := by
  -- each packet is followed by the stage behind it, the last one by nothing
  have hfirst := delimited_keyMapText.before "\n---policy1--->\n" fun _ (_ : True) => trivial
  have hsecond := (hfirst.pair delimited_keyMapText fun _ _ _ => trivial).before
    "\n---topology-->\n" fun _ (_ : True) => trivial
  have hthird := (hsecond.pair delimited_keyMapText fun _ _ _ => trivial).before
    "\n---policy2--->\n" fun _ (_ : True) => trivial
  have hall := hthird.pair delimited_keyMapText fun _ _ _ => trivial
  rw [← List.forall_iff_forall_mem]
  constructor
  · intro h
    let maps (x : Counterexample) := (((x.explain pkt1, x.explain pkt2), x.explain pkt3),
      x.explain pkt4)
    have hmaps : maps leak = maps leak' := hall.eq_of_text_eq trivial h
    simp only [maps, Prod.mk.injEq] at hmaps
    obtain ⟨⟨⟨h₁, h₂⟩, h₃⟩, h₄⟩ := hmaps
    exact ⟨h₁, h₂, h₃, h₄⟩
  · rintro ⟨h₁, h₂, h₃, h₄⟩
    show fieldsText (leak.explain pkt1).toList ++ _ ++ fieldsText (leak.explain pkt2).toList ++ _ ++
      fieldsText (leak.explain pkt3).toList ++ _ ++ fieldsText (leak.explain pkt4).toList = _
    rw [h₁, h₂, h₃, h₄]
    rfl

/-- The lines of a leak: the four packets, and between them the stages on the way. -/
def leakLines (x : Witness) : List String :=
  [x.packetText pkt1, "---policy1--->", x.packetText pkt2, "---topology-->", x.packetText pkt3,
    "---policy2--->", x.packetText pkt4]

theorem lines_leakText (leak : Counterexample) :
    lines (leakText leak) = leakLines leak.witness := by
  have htext : leakText leak = "\n".intercalate (leakLines leak.witness) := by
    have hword₁ : "\n---policy1--->\n" = "\n" ++ ("---policy1--->" ++ "\n") := rfl
    have hword₂ : "\n---topology-->\n" = "\n" ++ ("---topology-->" ++ "\n") := rfl
    have hword₃ : "\n---policy2--->\n" = "\n" ++ ("---policy2--->" ++ "\n") := rfl
    unfold leakText leakLines
    rw [hword₁, hword₂, hword₃]
    simp only [String.intercalate_cons_cons, String.intercalate_singleton, String.append_assoc]
  have hpacket (p : PacketVar) : '\n' ∉ (leak.witness.packetText p).toList :=
    not_mem_fieldsText _
  rw [htext]
  refine lines_intercalate (List.cons_ne_nil _ _) ?_
  rw [← List.forall_iff_forall_mem]
  exact ⟨hpacket _, by decide, hpacket _, by decide, hpacket _, by decide, hpacket _⟩

/-- There are always some words for a leak. -/
theorem leakText_ne_empty (leak : Counterexample) : leakText leak ≠ "" := by
  intro h
  have hlines : leakLines leak.witness = [""] := by
    rw [← lines_leakText, h]
    rfl
  exact absurd (congrArg List.length hlines) (by simp [leakLines])

/-! ### The report of a check -/

variable {σ : Type} (v : Verifier σ) (w : Wiring) (a b : Policy) (s : σ)

theorem result_isolatedDiagnostic : (v.isolatedDiagnostic w a b s).result =
    (v.isolatedModel w a b s).result.map fun leak => leak.elim "" leakText :=
  Run.result_bind_pure _ _ s

variable {v w a b s}

/-- A counterexample to isolation is the solver's solution. -/
theorem result_isolatedModel_of_sat {x : Witness}
    (hx : v.verdict (.isolation w a b) s = .ok (.sat x)) :
    (v.isolatedModel w a b s).result = .ok (some ⟨.isolation, [pkt1, pkt2, pkt3, pkt4], x⟩) := by
  unfold isolatedModel
  rw [result_pose, hx]
  rfl

theorem result_isolatedDiagnostic_of_sat {x : Witness}
    (hx : v.verdict (.isolation w a b) s = .ok (.sat x)) :
    (v.isolatedDiagnostic w a b s).result =
      .ok (leakText ⟨.isolation, [pkt1, pkt2, pkt3, pkt4], x⟩) := by
  rw [result_isolatedDiagnostic, result_isolatedModel_of_sat hx]
  rfl

/-- A leak is found when the solver has a solution. -/
theorem result_isolated_eq_false_iff : (v.isolated w a b s).result = .ok false ↔
    ∃ x, v.verdict (.isolation w a b) s = .ok (.sat x) := by
  constructor
  · intro h
    rw [result_isolated, isolatedModel, result_pose] at h
    generalize v.verdict (.isolation w a b) s = outcome at h ⊢
    rcases outcome with e | x | _ | reason
    · simp [Except.bind, Except.map] at h
    · exact ⟨x, rfl⟩
    · simp [Except.bind, Except.map, resultOf] at h
    · simp [Except.bind, Except.map, resultOf] at h
  · rintro ⟨x, hx⟩
    rw [result_isolated, result_isolatedModel_of_sat hx]
    rfl

/-- There are no words exactly when there is no leak. -/
theorem result_isolatedDiagnostic_eq_empty_iff :
    (v.isolatedDiagnostic w a b s).result = .ok "" ↔ (v.isolated w a b s).result = .ok true := by
  rw [result_isolated, result_isolatedDiagnostic, map_eq_ok_iff, map_eq_ok_iff]
  refine exists_congr fun found => and_congr_right fun _ => ?_
  cases found with
  | none => exact iff_of_true rfl rfl
  | some leak => exact iff_of_false (leakText_ne_empty leak) Bool.false_ne_true

/-- Two reports of leaks are equal when the solver's solutions agree on the four packets. -/
theorem result_isolatedDiagnostic_eq_iff {τ : Type} {v' : Verifier τ} {w' : Wiring} {a' b' : Policy}
    {s' : τ} {x x' : Witness} (hx : v.verdict (.isolation w a b) s = .ok (.sat x))
    (hx' : v'.verdict (.isolation w' a' b') s' = .ok (.sat x')) :
    (v.isolatedDiagnostic w a b s).result = (v'.isolatedDiagnostic w' a' b' s').result ↔
      ∀ p ∈ [pkt1, pkt2, pkt3, pkt4], ∀ f, x.value? f p = x'.value? f p := by
  rw [result_isolatedDiagnostic_of_sat hx, result_isolatedDiagnostic_of_sat hx', Except.ok.injEq,
    leakText_eq_iff]
  exact forall₂_congr fun p _ => Witness.explain_eq_iff

/-- **The report of a leak agrees with the check and determines the leak.** Whatever the backend
    answers, there are no words exactly when the check says that the policies are isolated; it fails
    exactly when the check fails, and in the same way; and the backend is asked the same. With a
    counterexample there are seven lines: the four packets, and the stages between them. Two reports
    of leaks, also of different policies in different networks, are equal exactly when the solutions
    give the same values to the same fields of the four packets. -/
theorem isolatedDiagnostic_determines (v : Verifier σ) (w : Wiring) (a b : Policy) (s : σ) :
    let decision := v.isolated w a b s
    let report := v.isolatedDiagnostic w a b s
    (report.result = .ok "" ↔ decision.result = .ok true) ∧
    (∀ e, report.result = .error e ↔ decision.result = .error e) ∧
    (decision.result = .ok false ↔
      ∃ x, v.verdict (.isolation w a b) s = .ok (.sat x)) ∧
    (report.signals = decision.signals ∧ report.state = decision.state) ∧
    ∀ x, v.verdict (.isolation w a b) s = .ok (.sat x) →
      (∃ text, report.result = .ok text ∧ lines text = leakLines x) ∧
      ∀ {τ : Type} (v' : Verifier τ) (w' : Wiring) (a' b' : Policy) (s' : τ) (x' : Witness),
        v'.verdict (.isolation w' a' b') s' = .ok (.sat x') →
        (report.result = (v'.isolatedDiagnostic w' a' b' s').result ↔
          ∀ p ∈ [pkt1, pkt2, pkt3, pkt4], ∀ f, x.value? f p = x'.value? f p) := by
  intro decision report
  refine ⟨result_isolatedDiagnostic_eq_empty_iff, fun e => ?_, result_isolated_eq_false_iff,
    ⟨?_, ?_⟩, fun x hx => ⟨⟨_, result_isolatedDiagnostic_of_sat hx, lines_leakText _⟩, ?_⟩⟩
  · show (v.isolatedDiagnostic w a b s).result = _ ↔ (v.isolated w a b s).result = _
    rw [result_isolatedDiagnostic, result_isolated, map_eq_error_iff, map_eq_error_iff]
  · have hreport : report.signals = (v.isolatedModel w a b s).signals :=
      Run.signals_bind_pure _ _ s
    exact hreport.trans (Run.signals_bind_pure _ _ s).symm
  · have hreport : report.state = (v.isolatedModel w a b s).state := Run.state_bind_pure _ _ s
    exact hreport.trans (Run.state_bind_pure _ _ s).symm
  · exact fun v' w' a' b' s' x' hx' => result_isolatedDiagnostic_eq_iff hx hx'

/-- The solver says nothing about the last packet of a leak. What it says about a packet that was not
    asked for does not show in the report, and another field of the last packet does. -/
theorem isolatedDiagnostic_determines_unasked :
    let v : Verifier (List (Except Error Verdict)) :=
      { backend := .scripted, config := .standard, valid := rfl }
    let w : Wiring := .ofTable [(1, 2)] [((1, 2), 1), ((2, 1), 1)]
    let ping : Policy := .branch .top [.forward 1 1, .forward 2 1]
    let x := ((Witness.empty.insert pkt1 .switch 1).insert pkt2 .port (-1)).insert pkt3 .port 2
    let unasked := x.insert Query.pIn .port 9
    let more := x.insert pkt4 (.header .vlan) 7
    let report (x : Witness) := (v.isolatedDiagnostic w ping ping [.ok (.sat x)]).result
    (∃ text, report x = .ok text ∧ lines text =
      ["{switch: 1}", "---policy1--->", "{port: -1}", "---topology-->", "{port: 2}",
        "---policy2--->", "{}"]) ∧
    report x = report unasked ∧ report x ≠ report more := by
  intro v w ping x unasked more report
  have hsolved (y : Witness) :
      v.verdict (.isolation w ping ping) [.ok (.sat y)] = .ok (.sat y) := rfl
  obtain ⟨-, -, -, -, hsat⟩ := isolatedDiagnostic_determines v w ping ping [.ok (.sat x)]
  obtain ⟨hlines, hsame⟩ := hsat x (hsolved x)
  refine ⟨hlines, (hsame v w ping ping _ unasked (hsolved unasked)).2 ?_, fun h => ?_⟩
  · rw [← List.forall_iff_forall_mem]
    exact ⟨Witness.explain_eq_iff.1 rfl, Witness.explain_eq_iff.1 rfl, Witness.explain_eq_iff.1 rfl,
      Witness.explain_eq_iff.1 rfl⟩
  · have hvlan := (hsame v w ping ping _ more (hsolved more)).1 h pkt4 (by decide) (.header .vlan)
    exact absurd hvlan (by decide)

end Verifier

end SlicePolicy
