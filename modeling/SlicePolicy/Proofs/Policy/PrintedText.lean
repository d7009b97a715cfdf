import SlicePolicy.Proofs.Policy.Branches
import SlicePolicy.Proofs.Text.Delimited

namespace SlicePolicy

open Text

/-!
# What the text of a policy says

The text of a policy has one line for each leaf and says nothing about how the leaves are grouped. A
line can be read in one way only: binary operations have their parentheses, numbers and names end
where something else follows, and the first character of a predicate says of which kind it is.

* `Predicate.delimited_text`, `Action.delimited_text` — guards and actions can be read off their
  texts.
* `Policy.leaves`, `Policy.text_eq_intercalate` — a policy is shown leaf by leaf.
* `Policy.text_eq_iff_leaves` — policies with the same text have the same leaves, and do the same.
-/

/-! ### Names and locations -/

namespace Field

theorem isAlpha_of_mem_name (f : Field) : ∀ c ∈ f.name.toList, c.isAlpha = true := by
  rw [← List.all_eq_true]
  cases f with
  | switch | port => rfl
  | header h => cases h <;> rfl

/-- Names end where no letter follows. -/
theorem delimited_name : Delimited (Stops Char.isAlpha) name :=
  delimited_word (fun _ _ h => name_injective h) isAlpha_of_mem_name

/-- No name begins as another word of a text does. -/
theorem exists_name_eq_cons (f : Field) : ∃ c d cs, f.name.toList = c :: d :: cs ∧
    c ∉ ['t', 'b', 'a', '(', 'o'] ∧ (c, d) ≠ ('d', 'r') := by
  cases f with
  | switch | port => exact ⟨_, _, _, rfl, by decide⟩
  | header h => cases h <;> exact ⟨_, _, _, rfl, by decide⟩

end Field

/-- Locations have parentheses. -/
theorem Location.delimited_text : Delimited (fun _ => True) Location.text := by
  have hswitch : Delimited (fun _ => True) fun v => "(" ++ componentText v ++ ", " :=
    (delimited_component.after "(").before ", " fun _ _ => stops_cons.2 rfl
  have hboth := (hswitch.pair delimited_component fun _ _ _ => trivial).before ")"
    fun _ (_ : True) => stops_cons.2 rfl
  have hinj : Function.Injective fun l : Location => (l.switch, l.port) := by
    rintro ⟨s, n⟩ ⟨s', n'⟩ h
    cases h
    rfl
  exact hboth.comap hinj fun _ => rfl

/-! ### Guards -/

namespace Predicate

/-- The sign and the operands of a binary operation. -/
def operands? : Predicate → Option (Char × Predicate × Predicate)
  | union p q => some ('|', p, q)
  | inter p q => some ('&', p, q)
  | diff p q => some ('-', p, q)
  | _ => none

/-- The sign says which operation it is. -/
theorem eq_of_operands?_eq {p q : Predicate} (hp : p.operands?.isSome)
    (h : p.operands? = q.operands?) : p = q := by
  cases p <;> cases q <;> simp_all [operands?]

/-- An operation is shown in parentheses, with its sign between spaces. -/
theorem toList_text_of_operands? {p a b : Predicate} {op : Char} (h : p.operands? = some (op, a, b))
    (r : List Char) : p.text.toList ++ r
      = '(' :: (a.text.toList ++ ' ' :: op :: ' ' :: (b.text.toList ++ ')' :: r)) := by
  cases p with
  | union | inter | diff =>
    cases h
    simp only [text, String.toList_append, List.append_assoc]
    rfl
  | top | bottom | test | located => exact absurd h.symm (Option.some_ne_none _)

/-- The first character of a predicate says of which kind it is. -/
theorem exists_startsWith (p : Predicate) : ∃ c, (∀ r, StartsWith c (p.text.toList ++ r)) ∧
    (c = 't' ↔ p = top) ∧ (c = 'b' ↔ p = bottom) ∧ (c = 'a' ↔ ∃ k, p = located k) ∧
      (c = '(' ↔ p.operands?.isSome) := by
  cases p with
  | top => exact ⟨'t', fun _ => rfl, by simp [operands?]⟩
  | bottom => exact ⟨'b', fun _ => rfl, by simp [operands?]⟩
  | located k =>
    refine ⟨'a', fun r => ?_, by simp [operands?]⟩
    simp only [text, String.toList_append, List.append_assoc]
    rfl
  | union a b | inter a b | diff a b =>
    refine ⟨'(', fun r => ?_, by simp [operands?]⟩
    rw [toList_text_of_operands? rfl]
    rfl
  | test f v =>
    obtain ⟨c, d, cs, hname, hc, -⟩ := f.exists_name_eq_cons
    refine ⟨c, fun r => ?_, ?_⟩
    · simp only [text, String.toList_append, List.append_assoc, hname]
      rfl
    · simp_all [operands?]

/-- Texts that begin in the same way begin with predicates of the same kind. -/
theorem sameKind {p q : Predicate} {r s : List Char}
    (h : p.text.toList ++ r = q.text.toList ++ s) :
    (p = top ↔ q = top) ∧ (p = bottom ↔ q = bottom) ∧
      ((∃ k, p = located k) ↔ ∃ k, q = located k) ∧ (p.operands?.isSome ↔ q.operands?.isSome) := by
  obtain ⟨c, hp, hkind⟩ := p.exists_startsWith
  obtain ⟨d, hq, hkind'⟩ := q.exists_startsWith
  have hcd : c = d := by
    have hc := hp r
    rw [h] at hc
    exact Option.some.inj (hc.symm.trans (hq s))
  subst hcd
  exact ⟨hkind.1.symm.trans hkind'.1, hkind.2.1.symm.trans hkind'.2.1,
    hkind.2.2.1.symm.trans hkind'.2.2.1, hkind.2.2.2.symm.trans hkind'.2.2.2⟩

/-- A test ends with a value, and so where no numeral goes on. -/
theorem delimited_test :
    Delimited (Stops isNumeral) fun e : Field × Value => (test e.1 e.2).text := by
  have hname : Delimited (fun _ => True) fun f : Field => f.name ++ " = " :=
    Field.delimited_name.before " = " fun _ _ => stops_cons.2 rfl
  exact hname.pair delimited_component fun _ _ _ => trivial

/-- **Guards can be read off their texts.** The induction is on a predicate; another one whose text
    begins in the same way is of the same kind. -/
theorem delimited_text : Delimited (Stops isNumeral) text := by
  intro p
  induction p with
  | top =>
    intro q r s _ _ h
    obtain rfl : q = top := (sameKind h).1.1 rfl
    exact ⟨rfl, List.append_cancel_left h⟩
  | bottom =>
    intro q r s _ _ h
    obtain rfl : q = bottom := (sameKind h).2.1.1 rfl
    exact ⟨rfl, List.append_cancel_left h⟩
  | located k =>
    intro q r s _ _ h
    obtain ⟨k', rfl⟩ : ∃ k', q = located k' := (sameKind h).2.2.1.1 ⟨k, rfl⟩
    obtain ⟨rfl, hrs⟩ := (Location.delimited_text.after "at ") trivial trivial h
    exact ⟨rfl, hrs⟩
  | test f v =>
    intro q r s hr hs h
    obtain ⟨g, w, rfl⟩ : ∃ g w, q = test g w := by
      have hkind := sameKind h
      cases q <;> simp_all [operands?]
    obtain ⟨heq, hrs⟩ := delimited_test (a := (f, v)) (b := (g, w)) hr hs h
    cases heq
    exact ⟨rfl, hrs⟩
  | union p₁ p₂ ih₁ ih₂ | inter p₁ p₂ ih₁ ih₂ | diff p₁ p₂ ih₁ ih₂ =>
    intro q r s _ _ h
    obtain ⟨⟨op, q₁, q₂⟩, hq⟩ := Option.isSome_iff_exists.1 ((sameKind h).2.2.2.1 rfl)
    rw [toList_text_of_operands? rfl, toList_text_of_operands? hq] at h
    obtain ⟨rfl, hrest⟩ := ih₁ (stops_cons.2 rfl) (stops_cons.2 rfl) (List.cons.inj h).2
    simp only [List.cons.injEq, true_and] at hrest
    obtain ⟨rfl, hrest⟩ := hrest
    obtain ⟨rfl, hrs⟩ := ih₂ (stops_cons.2 rfl) (stops_cons.2 rfl) hrest
    exact ⟨eq_of_operands?_eq rfl hq.symm, (List.cons.inj hrs).2⟩

/-- No predicate begins as the line of a leaf that does nothing: only tests have its first letter, and
    none of them has its second. -/
theorem not_begins_drop (p : Predicate) (r s : List Char) :
    "drop".toList ++ r ≠ p.text.toList ++ s := by
  intro heq
  have hkind := p.exists_startsWith
  cases p with
  | test f v =>
    obtain ⟨c, d, cs, hname, -, hcd⟩ := f.exists_name_eq_cons
    simp only [text, String.toList_append, List.append_assoc, hname] at heq
    have hc := List.cons.inj heq
    have hd := List.cons.inj hc.2
    exact hcd (Prod.ext hc.1.symm hd.1.symm)
  | top | bottom | located _ | union _ _ | inter _ _ | diff _ _ =>
    obtain ⟨c, hstart, hc⟩ := hkind
    have hfirst := hstart s
    rw [← heq] at hfirst
    obtain rfl : 'd' = c := Option.some.inj hfirst
    simp_all [operands?]

end Predicate

/-! ### Actions -/

namespace Action

/-- Taps are listed in curly brackets, in increasing order. -/
theorem delimited_taps : Delimited (fun _ => True) TapSet.text := by
  have hinj : Function.Injective TapSet.toList := by
    rintro ⟨us, hu⟩ ⟨ws, hw⟩ h
    cases h
    rfl
  have hvalues := delimited_values "\x7b" "\x7d" rfl rfl (by decide)
  exact hvalues.comap hinj fun _ => rfl

/-- A change, behind a space. -/
def changeText (e : Field × Value) : String := " " ++ e.1.name ++ ":=" ++ e.2.text

theorem delimited_change : Delimited (Stops isNumeral) changeText := by
  have hname : Delimited (fun _ => True) fun f : Field => " " ++ f.name ++ ":=" :=
    (Field.delimited_name.after " ").before ":=" fun _ _ => stops_cons.2 rfl
  exact hname.pair delimited_value fun _ _ _ => trivial

/-- What may stand behind the changes: not the rest of a value, and no other change. -/
def EndsChanges (r : List Char) : Prop :=
  Stops isNumeral r ∧ ∀ cs, r = ' ' :: cs → StartsWith 'o' cs

theorem delimited_changes : Delimited EndsChanges fun es : List (Field × Value) =>
    String.join (es.map changeText) := by
  have htext (e : Field × Value) (r : List Char) : (changeText e).toList ++ r
      = ' ' :: (e.1.name.toList ++ (":=".toList ++ (e.2.text.toList ++ r))) := by
    simp only [changeText, String.toList_append, List.append_assoc]
    rfl
  refine delimited_change.join ?_ (fun r hr => hr.1) ?_
  · intro e r
    rw [htext]
    exact stops_cons.2 rfl
  · -- no name begins as the word in front of the taps
    intro e r s hs heq
    rw [htext] at heq
    obtain ⟨c, d, cs, hname, hc, -⟩ := e.1.exists_name_eq_cons
    have ho := hs.2 _ heq.symm
    rw [hname] at ho
    obtain rfl : c = 'o' := Option.some.inj ho
    exact hc (by decide)

/-- The taps behind the changes, if there are any. -/
def tapsText (taps : TapSet) : String := if taps.isEmpty then "" else " obs " ++ taps.text

/-- A set without members is the empty one. -/
theorem eq_empty_of_isEmpty {taps : TapSet} (h : taps.isEmpty = true) : taps = ∅ := by
  obtain ⟨us, hus⟩ := taps
  obtain rfl : us = [] := List.isEmpty_iff.1 h
  rfl

/-- Taps that are shown stand behind a space and a word. -/
theorem toList_tapsText {taps : TapSet} (h : taps.isEmpty = false) (r : List Char) :
    (tapsText taps).toList ++ r
      = ' ' :: 'o' :: ('b' :: 's' :: ' ' :: (taps.text.toList ++ r)) := by
  rw [tapsText, h, if_neg Bool.false_ne_true, String.toList_append]
  rfl

/-- Taps that are not shown can be told from taps that are, if no space follows. -/
theorem delimited_tapsText : Delimited (Stops (· = ' ')) tapsText := by
  have hshown {a b : TapSet} {r s : List Char} (ha : a.isEmpty = true) (hb : b.isEmpty = false)
      (hr : Stops (· = ' ') r) : (tapsText a).toList ++ r ≠ (tapsText b).toList ++ s := by
    rw [toList_tapsText hb, tapsText, ha, if_pos rfl]
    rintro rfl
    exact absurd (stops_cons.1 hr) (by decide)
  intro a b r s hr hs heq
  cases ha : a.isEmpty <;> cases hb : b.isEmpty
  · rw [toList_tapsText ha, toList_tapsText hb] at heq
    simp only [List.cons.injEq, true_and] at heq
    exact delimited_taps trivial trivial heq
  · exact absurd heq.symm (hshown hb ha hs)
  · exact absurd heq (hshown ha hb hr)
  · rw [eq_empty_of_isEmpty ha, eq_empty_of_isEmpty hb] at heq ⊢
    exact ⟨rfl, heq⟩

/-- The changes of an action determine what it changes. -/
theorem modify_eq_of_changes_eq {a b : Action} (h : a.changes = b.changes) :
    a.modify = b.modify := by
  have hinj : Function.Injective fun e : Header × Value => (Field.header e.1, e.2) := by
    rintro ⟨k, v⟩ ⟨k', v'⟩ he
    cases he
    rfl
  have hentries : a.modify.toList = b.modify.toList := (List.map_inj_right fun _ _ => (hinj ·)).1 h
  rw [← KeyMap.ofList_toList a.modify, hentries, KeyMap.ofList_toList]

/-- An action is its switch, its ports, its changes and its taps. -/
theorem parts_injective : Function.Injective fun a : Action =>
    (((a.switch, a.ports), a.changes), a.observe) := by
  intro a b h
  simp only [Prod.mk.injEq] at h
  obtain ⟨⟨⟨hs, hp⟩, hc⟩, ho⟩ := h
  have hm := modify_eq_of_changes_eq hc
  cases a
  cases b
  rw [Action.mk.injEq]
  exact ⟨hs, hp, hm, ho⟩

/-- What may stand behind an action. -/
def EndsAction (r : List Char) : Prop := Stops (fun c => c = ' ' || isNumeral c) r

/-- Behind the changes stand the taps or what may stand behind the action. -/
theorem endsChanges_tapsText (taps : TapSet) {r : List Char} (hr : EndsAction r) :
    EndsChanges ((tapsText taps).toList ++ r) := by
  cases h : taps.isEmpty with
  | true =>
    rw [tapsText, h, if_pos rfl]
    refine ⟨fun c hc => ?_, ?_⟩
    · have hstop := hr c hc
      simp_all
    · rintro cs rfl
      exact absurd (stops_cons.1 hr) (by decide)
  | false =>
    rw [toList_tapsText h]
    refine ⟨stops_cons.2 rfl, fun cs hcs => ?_⟩
    rw [← (List.cons.inj hcs).2]
    rfl

/-- **Actions can be read off their texts**, where neither a space nor a numeral follows. -/
theorem delimited_text : Delimited EndsAction text := by
  have hswitch : Delimited (fun _ => True) fun v : Value => "fwd " ++ v.text ++ " -> " :=
    (delimited_value.after "fwd ").before " -> " fun _ _ => stops_cons.2 rfl
  have hports := hswitch.pair (delimited_values "[" "]" rfl rfl (by decide)) fun _ _ _ => trivial
  have hchanges := hports.pair delimited_changes fun _ _ _ => trivial
  have htaps : Delimited EndsAction tapsText := by
    refine delimited_tapsText.mono fun r hr c hc => ?_
    have hstop := hr c hc
    simp_all
  have hall := hchanges.pair htaps fun taps _ hr => endsChanges_tapsText taps hr
  exact hall.comap parts_injective fun _ => rfl

end Action

/-! ### Policies -/

namespace Policy

/-- A leaf of a policy: nothing, or a guard with its actions. -/
abbrev Leaf := Option (Predicate × List Action)

/-- The text of a branch. -/
def branchText (b : Predicate × List Action) : String :=
  b.1.text ++ " => [" ++ "; ".intercalate (b.2.map Action.text) ++ "]"

/-- The line of a leaf. -/
def leafText : Leaf → String
  | none => "drop"
  | some b => branchText b

/-- The leaves from left to right. -/
def leaves : Policy → List Leaf
  | bottom => [none]
  | branch guard acts => [some (guard, acts)]
  | union p q => p.leaves ++ q.leaves

/-- **Branches can be read off their texts**, whatever follows. -/
theorem delimited_branchText : Delimited (fun _ => True) branchText := by
  have hguard : Delimited (fun _ => True) fun g : Predicate => g.text ++ " => [" :=
    Predicate.delimited_text.before " => [" fun _ _ => stops_cons.2 rfl
  have haction (a : Action) (r : List Char) : ¬StartsWith ']' (a.text.toList ++ r) := by
    simp only [Action.text, String.toList_append, List.append_assoc]
    exact fun h => absurd (Option.some.inj h) (by decide)
  have hacts : Delimited (StartsWith ']') fun acts : List Action =>
      "; ".intercalate (acts.map Action.text) := by
    refine Action.delimited_text.intercalate "; " (fun r => stops_cons.2 rfl)
      (fun r hr => hr.stops rfl) ?_ ?_
    · rintro a r s hs rfl
      exact haction a r hs
    · rintro r s hs rfl
      exact absurd (Option.some.inj hs) (by decide)
  exact (hguard.pair hacts fun _ _ _ => trivial).before "]"
    fun r _ => show (']' :: r).head? = some ']' from rfl

/-- No guard begins with the word for nothing. -/
theorem toList_leafText_none_ne (b : Predicate × List Action) (r s : List Char) :
    (leafText none).toList ++ r ≠ (branchText b).toList ++ s := by
  intro heq
  simp only [branchText, String.toList_append, List.append_assoc] at heq
  exact b.1.not_begins_drop _ _ heq

/-- The leaves can be read off their lines, whatever follows. -/
theorem delimited_leafText : Delimited (fun _ => True) leafText := by
  intro a b r s hr hs heq
  cases a with
  | none =>
    cases b with
    | none => exact ⟨rfl, List.append_cancel_left heq⟩
    | some b => exact absurd heq (toList_leafText_none_ne b r s)
  | some a =>
    cases b with
    | none => exact absurd heq.symm (toList_leafText_none_ne a s r)
    | some b =>
      obtain ⟨rfl, hrs⟩ := delimited_branchText hr hs heq
      exact ⟨rfl, hrs⟩

theorem leaves_ne_nil (p : Policy) : p.leaves ≠ [] := by
  induction p with
  | bottom | branch => exact List.cons_ne_nil _ _
  | union p q ihp _ => exact List.append_ne_nil_of_left_ne_nil ihp _

/-- A policy is shown leaf by leaf, whatever the grouping. -/
theorem text_eq_intercalate (p : Policy) : p.text = "\n+ ".intercalate (p.leaves.map leafText) := by
  induction p with
  | bottom | branch => rfl
  | union p q ihp ihq =>
    rw [text, leaves, List.map_append,
      intercalate_append _ (mt List.map_eq_nil_iff.1 p.leaves_ne_nil)
        (mt List.map_eq_nil_iff.1 q.leaves_ne_nil), ihp, ihq]

/-- Only the leaves that are branches do anything. -/
theorem branches_eq_filterMap_leaves (p : Policy) : p.branches = p.leaves.filterMap id := by
  induction p with
  | bottom | branch => rfl
  | union p q ihp ihq => rw [branches, leaves, List.filterMap_append, ihp, ihq]

/-- Policies with the same text have the same leaves. -/
theorem leaves_eq_of_text_eq {p q : Policy} (h : p.text = q.text) : p.leaves = q.leaves := by
  have hlines : Delimited (· = []) fun leaves : List Leaf =>
      "\n+ ".intercalate (leaves.map leafText) := by
    refine delimited_leafText.intercalate "\n+ " (fun _ => trivial) (fun _ _ => trivial) ?_ ?_
    · rintro (_ | b) r s rfl
      · exact List.cons_ne_nil _ _
      · simp [leafText, branchText]
    · rintro r s rfl
      exact List.cons_ne_nil _ _
  rw [text_eq_intercalate, text_eq_intercalate] at h
  exact hlines.eq_of_text_eq rfl h

/-- **The text of a policy determines what it does.** Two policies have the same text exactly when
    they have the same leaves in the same order, those that do nothing included and however they are
    grouped; and then they have the same branches, take the same actions, send the same packets and
    show the same taps. -/
theorem text_eq_iff_leaves (p q : Policy) : (p.text = q.text ↔ p.leaves = q.leaves) ∧
    (p.text = q.text → p.branches = q.branches ∧ ∀ (x : Packet) (l : Location),
      p.actions x l = q.actions x l ∧ p.outputs x l = q.outputs x l ∧
        p.observations x l = q.observations x l) := by
  refine ⟨⟨leaves_eq_of_text_eq, fun h => ?_⟩, fun h => ?_⟩
  · rw [text_eq_intercalate, text_eq_intercalate, h]
  · have hbranches : p.branches = q.branches := by
      rw [branches_eq_filterMap_leaves, branches_eq_filterMap_leaves, leaves_eq_of_text_eq h]
    refine ⟨hbranches, fun x l => ?_⟩
    have hactions : p.actions x l = q.actions x l := by
      rw [actions_eq_branches, actions_eq_branches, hbranches]
    rw [outputs, outputs, observations, observations, hactions]
    exact ⟨rfl, rfl, rfl⟩

namespace Regrouped

/-- A branch with a pattern, a negative value, and an action that sends nothing. -/
def first : Policy :=
  branch (.diff (.located ⟨wildcard, 2⟩) (.test (.header .vlan) (-1))) [.forward 1 (-2), .dropOn 3]

/-- The branch, nothing, and a branch without actions, grouped to the left. -/
def left : Policy := union (union first bottom) (branch .top [])

/-- The branch, nothing, and a branch without actions, grouped to the right. -/
def right : Policy := union first (union bottom (branch .top []))

end Regrouped

/-- The grouping is not shown. -/
theorem text_eq_iff_leaves_regrouped : Regrouped.left ≠ Regrouped.right ∧
    Regrouped.left.text = Regrouped.right.text ∧
    Regrouped.left.branches = Regrouped.right.branches ∧
    Regrouped.left.outputs default ⟨7, 2⟩ = Regrouped.right.outputs default ⟨7, 2⟩ := by
  obtain ⟨hleaves, hdoes⟩ := text_eq_iff_leaves Regrouped.left Regrouped.right
  have htext : Regrouped.left.text = Regrouped.right.text := hleaves.2 rfl
  obtain ⟨hbranches, hsame⟩ := hdoes htext
  exact ⟨by decide, htext, hbranches, (hsame default ⟨7, 2⟩).2.1⟩

end Policy

end SlicePolicy
