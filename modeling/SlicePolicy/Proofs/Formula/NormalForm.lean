import SlicePolicy.Proofs.Formula.Refusal

namespace SlicePolicy.Formula

/-!
# The normal form of folded formulas

Folding constructors leave nothing to fold. However they are nested, what they build from terms is
`true` or `false`, or a formula without constants in which no constructor finds anything to do: an
equation has sides that have to be looked up, a negation is not of a negation, a conjunction has
several parts that are not conjunctions, and so on. The constructors keep this form, each from the
form of its arguments, and a formula that has it is built by them: by folding it once more from the
bottom up, which changes nothing.

* `Built` — formulas that folding constructors build from terms, nested in any way.
* `Reduced`, `Normal` — a formula in which no constructor finds anything to do.
* `rebuilt` — a formula folded from the bottom up.
* `normal_mkEq` to `normal_mkForAll` — the constructors keep the form.
* `Proper.rebuilt_eq` — there is nothing to fold in it.
* `built_iff_rebuilt_eq`, `built_iff_normal` — the three say the same.
* `Normal.hasPart_const_iff`, `mkAnd_eq_false_iff` — where constants can be in what is folded.
-/

/-- The formula is built from terms by folding constructors. -/
inductive Built : Formula → Prop
  | mkEq (s t : Term) : Built (mkEq s t)
  | mkNot {f : Formula} (h : Built f) : Built (mkNot f)
  | mkAnd {fs : List Formula} (h : ∀ f ∈ fs, Built f) : Built (mkAnd fs)
  | mkOr {fs : List Formula} (h : ∀ f ∈ fs, Built f) : Built (mkOr fs)
  | mkImplies {p c : Formula} (hp : Built p) (hc : Built c) : Built (mkImplies p c)
  | mkForAll (vars : List IntVar) {f : Formula} (h : Built f) : Built (mkForAll vars f)

/-- Both constants are built from nothing. -/
theorem built_const (b : Bool) : (const b).Built := by
  cases b with
  | false => exact .mkOr fun _ hf => absurd hf List.not_mem_nil
  | true => exact .mkAnd fun _ hf => absurd hf List.not_mem_nil

/-! ### The form -/

/-- The formulas directly below a formula. -/
def children : Formula → List Formula
  | const _ => []
  | eq _ _ => []
  | not f => [f]
  | and fs => fs
  | or fs => fs
  | implies p c => [p, c]
  | forAll _ f => [f]

/-- The constructor of the formula's kind finds nothing to do in it, as far as one looks at the formula
    itself and the kinds of the formulas directly below it. A constant is always folded away. -/
def Reduced : Formula → Prop
  | const _ => False
  | eq s t => s ≠ t ∧ ∀ c d : Value, s = .const c → t ≠ .const d
  | not f => ∀ g, f ≠ not g
  | and fs => 2 ≤ fs.length ∧ ∀ f ∈ fs, ∀ gs, f ≠ and gs
  | or fs => 2 ≤ fs.length ∧ ∀ f ∈ fs, ∀ gs, f ≠ or gs
  | implies _ _ => True
  | forAll vars _ => vars ≠ []

/-- All parts of the formula are reduced, so that none of them is a constant. -/
def Proper (f : Formula) : Prop := ∀ g, HasPart f g → g.Reduced

/-- The formula is a constant, or there are no constants in it and nothing to fold. -/
def Normal (f : Formula) : Prop := (∃ b, f = const b) ∨ f.Proper

variable {f g : Formula} {fs gs : List Formula}

/-- A part of a formula is the formula or a part of one directly below it. -/
theorem hasPart_iff : HasPart f g ↔ f = g ∨ ∃ c ∈ f.children, HasPart c g := by
  constructor
  · intro h
    cases h with
    | self => exact .inl rfl
    | not h => exact .inr ⟨_, List.mem_cons_self, h⟩
    | and hf h => exact .inr ⟨_, hf, h⟩
    | or hf h => exact .inr ⟨_, hf, h⟩
    | premise h => exact .inr ⟨_, List.mem_cons_self, h⟩
    | conclusion h => exact .inr ⟨_, List.mem_cons_of_mem _ List.mem_cons_self, h⟩
    | body h => exact .inr ⟨_, List.mem_cons_self, h⟩
  · rintro (rfl | ⟨c, hc, h⟩)
    · exact .self f
    · cases f with
      | const | eq => exact absurd hc List.not_mem_nil
      | not f => exact .not (List.mem_singleton.1 hc ▸ h)
      | and fs => exact .and hc h
      | or fs => exact .or hc h
      | implies p c' =>
        rcases List.mem_cons.1 hc with rfl | hc
        · exact .premise h
        · exact .conclusion (List.mem_singleton.1 hc ▸ h)
      | forAll vars f => exact .body (List.mem_singleton.1 hc ▸ h)

/-- A formula is proper when it is reduced and the formulas directly below it are proper. -/
theorem proper_iff : f.Proper ↔ f.Reduced ∧ ∀ c ∈ f.children, c.Proper := by
  constructor
  · intro h
    refine ⟨h f (.self f), fun c hc g hg => ?_⟩
    exact h g (hasPart_iff.2 (.inr ⟨c, hc, hg⟩))
  · rintro ⟨hf, hchildren⟩ g hg
    rcases hasPart_iff.1 hg with rfl | ⟨c, hc, hg⟩
    · exact hf
    · exact hchildren c hc g hg

theorem Proper.of_mem_children (h : f.Proper) (hg : g ∈ f.children) : g.Proper :=
  (proper_iff.1 h).2 g hg

/-- No part of a proper formula is a constant. -/
theorem Proper.ne_const (h : f.Proper) (b : Bool) : f ≠ const b := by
  rintro rfl
  exact h (const b) (.self _)

theorem normal_const (b : Bool) : (const b).Normal := .inl ⟨b, rfl⟩

/-- What is normal and not a constant is proper. -/
theorem Normal.proper (h : f.Normal) (hf : ∀ b, f ≠ const b) : f.Proper := by
  rcases h with ⟨b, rfl⟩ | h
  · exact absurd rfl (hf b)
  · exact h

/-! ### The constructors keep the form -/

theorem normal_mkEq (s t : Term) : (mkEq s t).Normal := by
  unfold mkEq
  split
  · exact normal_const _
  · split
    · exact normal_const _
    · next hliterals hne =>
      refine .inr (proper_iff.2 ⟨⟨hne, fun c d hs ht => ?_⟩, ?_⟩)
      · exact hliterals c d hs ht
      · exact fun g hg => absurd hg List.not_mem_nil

theorem normal_mkNot (h : f.Normal) : (mkNot f).Normal := by
  unfold mkNot
  split
  · exact normal_const _
  · next f =>
    -- both negations are gone
    have hnot : (not f).Proper := h.proper fun b => Formula.noConfusion
    exact .inr (hnot.of_mem_children List.mem_cons_self)
  · next hconst hnot =>
    have hf : f.Proper := h.proper hconst
    exact .inr (proper_iff.2 ⟨hnot, List.forall_mem_singleton.2 hf⟩)

/-- A list that is neither empty nor of one part has several. -/
theorem two_le_length {α : Type} {l : List α} (hnil : l ≠ []) (hone : ∀ a, l ≠ [a]) :
    2 ≤ l.length := by
  cases l with
  | nil => exact absurd rfl hnil
  | cons a l =>
    cases l with
    | nil => exact absurd rfl (hone a)
    | cons b l =>
      simp only [List.length_cons]
      omega

/-- The parts that are left of a conjunction are proper, and no conjunctions. -/
theorem proper_of_mem_conjuncts (h : ∀ f ∈ fs, f.Normal) (hgs : conjuncts fs = some gs) :
    ∀ g ∈ gs, g.Proper ∧ ∀ hs, g ≠ and hs := by
  refine forall_mem_conjuncts (P := Normal) (fun hs hnested f hf => ?_)
    (fun f hf hconst hand => ?_) h hgs
  · -- the parts of a nested conjunction are not conjunctions themselves
    have hproper : (and hs).Proper := hnested.proper fun b => Formula.noConfusion
    exact ⟨hproper.of_mem_children hf, (proper_iff.1 hproper).1.2 f hf⟩
  · exact ⟨hf.proper hconst, hand⟩

theorem normal_mkAnd (h : ∀ f ∈ fs, f.Normal) : (mkAnd fs).Normal := by
  unfold mkAnd
  split
  · exact normal_const _
  · exact normal_const _
  · next g hg => exact .inr (proper_of_mem_conjuncts h hg g List.mem_cons_self).1
  · next gs hnil hone hgs =>
    have hparts := proper_of_mem_conjuncts h hgs
    have hlength : 2 ≤ gs.length := two_le_length hnil hone
    exact .inr (proper_iff.2
      ⟨⟨hlength, fun g hg => (hparts g hg).2⟩, fun g hg => (hparts g hg).1⟩)

/-- The parts that are left of a disjunction are proper, and no disjunctions. -/
theorem proper_of_mem_disjuncts (h : ∀ f ∈ fs, f.Normal) (hgs : disjuncts fs = some gs) :
    ∀ g ∈ gs, g.Proper ∧ ∀ hs, g ≠ or hs := by
  refine forall_mem_disjuncts (P := Normal) (fun hs hnested f hf => ?_)
    (fun f hf hconst hor => ?_) h hgs
  · have hproper : (or hs).Proper := hnested.proper fun b => Formula.noConfusion
    exact ⟨hproper.of_mem_children hf, (proper_iff.1 hproper).1.2 f hf⟩
  · exact ⟨hf.proper hconst, hor⟩

theorem normal_mkOr (h : ∀ f ∈ fs, f.Normal) : (mkOr fs).Normal := by
  unfold mkOr
  split
  · exact normal_const _
  · exact normal_const _
  · next g hg => exact .inr (proper_of_mem_disjuncts h hg g List.mem_cons_self).1
  · next gs hnil hone hgs =>
    have hparts := proper_of_mem_disjuncts h hgs
    have hlength : 2 ≤ gs.length := two_le_length hnil hone
    exact .inr (proper_iff.2
      ⟨⟨hlength, fun g hg => (hparts g hg).2⟩, fun g hg => (hparts g hg).1⟩)

theorem normal_mkImplies {p c : Formula} (hp : p.Normal) (hc : c.Normal) :
    (mkImplies p c).Normal := by
  unfold mkImplies
  split
  · exact normal_const _
  · exact normal_const _
  · exact hc
  · -- a negation is left, which may cancel another
    exact normal_mkNot hp
  · next hpfalse hptrue hctrue hcfalse =>
    have hpremise : p.Proper := hp.proper (Bool.forall_bool.2 ⟨hpfalse, hptrue⟩)
    have hconclusion : c.Proper := hc.proper (Bool.forall_bool.2 ⟨hcfalse, hctrue⟩)
    exact .inr (proper_iff.2 ⟨trivial, by simpa [children] using ⟨hpremise, hconclusion⟩⟩)

theorem normal_mkForAll (vars : List IntVar) (h : f.Normal) : (mkForAll vars f).Normal := by
  unfold mkForAll
  split
  · exact normal_const _
  · next hconst =>
    split
    · exact h
    · next hvars =>
      have hf : f.Proper := h.proper hconst
      have hne : vars ≠ [] := fun hnil => hvars (List.isEmpty_iff.2 hnil)
      exact .inr (proper_iff.2 ⟨hne, List.forall_mem_singleton.2 hf⟩)

/-- What folding constructors build is normal. -/
theorem Built.normal (h : f.Built) : f.Normal := by
  induction h with
  | mkEq s t => exact normal_mkEq s t
  | mkNot _ ih => exact normal_mkNot ih
  | mkAnd _ ih => exact normal_mkAnd ih
  | mkOr _ ih => exact normal_mkOr ih
  | mkImplies _ _ ihp ihc => exact normal_mkImplies ihp ihc
  | mkForAll vars _ ih => exact normal_mkForAll vars ih

/-! ### Folding once more -/

mutual

/-- The formula folded from the bottom up. -/
def rebuilt : Formula → Formula
  | const b => const b
  | eq s t => mkEq s t
  | not f => mkNot f.rebuilt
  | and fs => mkAnd (rebuiltAll fs)
  | or fs => mkOr (rebuiltAll fs)
  | implies p c => mkImplies p.rebuilt c.rebuilt
  | forAll vars f => mkForAll vars f.rebuilt

/-- Formulas folded one by one. -/
def rebuiltAll : List Formula → List Formula
  | [] => []
  | f :: fs => f.rebuilt :: rebuiltAll fs

end

mutual

/-- Folding from the bottom up builds a formula by folding constructors. -/
theorem built_rebuilt : ∀ f : Formula, f.rebuilt.Built
  | const b => built_const b
  | eq s t => .mkEq s t
  | not f => .mkNot (built_rebuilt f)
  | and fs => .mkAnd (built_of_mem_rebuiltAll fs)
  | or fs => .mkOr (built_of_mem_rebuiltAll fs)
  | implies p c => .mkImplies (built_rebuilt p) (built_rebuilt c)
  | forAll vars f => .mkForAll vars (built_rebuilt f)

theorem built_of_mem_rebuiltAll : ∀ fs : List Formula, ∀ g ∈ rebuiltAll fs, g.Built
  | [] => fun _ hg => absurd hg List.not_mem_nil
  | f :: fs => List.forall_mem_cons.2 ⟨built_rebuilt f, built_of_mem_rebuiltAll fs⟩

end

/-- A list of several parts has a first and a second. -/
theorem exists_eq_cons_cons {α : Type} {l : List α} (h : 2 ≤ l.length) :
    ∃ a b rest, l = a :: b :: rest := by
  rcases l with _ | ⟨a, _ | ⟨b, rest⟩⟩
  · exact absurd h (Nat.not_succ_le_zero 1)
  · exact absurd h (Nat.not_succ_le_self 1)
  · exact ⟨a, b, rest, rfl⟩

/-- Nothing is left out of a conjunction without constants and nested conjunctions. -/
theorem conjuncts_eq_self (hconst : ∀ f ∈ fs, ∀ b, f ≠ const b)
    (hand : ∀ f ∈ fs, ∀ hs, f ≠ and hs) : conjuncts fs = some fs := by
  fun_induction conjuncts fs with
  | case1 => rfl
  | case2 fs => exact absurd rfl (hconst _ List.mem_cons_self true)
  | case3 fs => exact absurd rfl (hconst _ List.mem_cons_self false)
  | case4 hs fs => exact absurd rfl (hand _ List.mem_cons_self hs)
  | case5 f fs _ _ _ ih =>
    rw [ih (List.forall_mem_cons.1 hconst).2 (List.forall_mem_cons.1 hand).2]
    rfl

/-- Nothing is left out of a disjunction without constants and nested disjunctions. -/
theorem disjuncts_eq_self (hconst : ∀ f ∈ fs, ∀ b, f ≠ const b)
    (hor : ∀ f ∈ fs, ∀ hs, f ≠ or hs) : disjuncts fs = some fs := by
  fun_induction disjuncts fs with
  | case1 => rfl
  | case2 fs => exact absurd rfl (hconst _ List.mem_cons_self false)
  | case3 fs => exact absurd rfl (hconst _ List.mem_cons_self true)
  | case4 hs fs => exact absurd rfl (hor _ List.mem_cons_self hs)
  | case5 f fs _ _ _ ih =>
    rw [ih (List.forall_mem_cons.1 hconst).2 (List.forall_mem_cons.1 hor).2]
    rfl

namespace Proper

theorem mkEq_eq {s t : Term} (h : (eq s t).Proper) : mkEq s t = eq s t := by
  obtain ⟨⟨hne, hliterals⟩, -⟩ := proper_iff.1 h
  unfold mkEq
  split
  · next c d => exact absurd rfl (hliterals c d rfl)
  · exact if_neg hne

theorem mkNot_eq (h : (not f).Proper) : mkNot f = not f := by
  obtain ⟨hnot, hchildren⟩ := proper_iff.1 h
  have hf : f.Proper := hchildren f List.mem_cons_self
  unfold mkNot
  split
  · next b => exact absurd rfl (hf.ne_const b)
  · next g => exact absurd rfl (hnot g)
  · rfl

theorem mkAnd_eq (h : (and fs).Proper) : mkAnd fs = and fs := by
  obtain ⟨⟨hlength, hand⟩, hchildren⟩ := proper_iff.1 h
  have hconst : ∀ f ∈ fs, ∀ b, f ≠ const b := fun f hf => (hchildren f hf).ne_const
  rw [mkAnd, conjuncts_eq_self hconst hand]
  obtain ⟨f, g, rest, rfl⟩ := exists_eq_cons_cons hlength
  rfl

theorem mkOr_eq (h : (or fs).Proper) : mkOr fs = or fs := by
  obtain ⟨⟨hlength, hor⟩, hchildren⟩ := proper_iff.1 h
  have hconst : ∀ f ∈ fs, ∀ b, f ≠ const b := fun f hf => (hchildren f hf).ne_const
  rw [mkOr, disjuncts_eq_self hconst hor]
  obtain ⟨f, g, rest, rfl⟩ := exists_eq_cons_cons hlength
  rfl

theorem mkImplies_eq {p c : Formula} (h : (implies p c).Proper) : mkImplies p c = implies p c := by
  have hp : p.Proper := h.of_mem_children List.mem_cons_self
  have hc : c.Proper := h.of_mem_children (List.mem_cons_of_mem _ List.mem_cons_self)
  unfold mkImplies
  split
  · exact absurd rfl (hp.ne_const false)
  · exact absurd rfl (hc.ne_const true)
  · exact absurd rfl (hp.ne_const true)
  · exact absurd rfl (hc.ne_const false)
  · rfl

theorem mkForAll_eq {vars : List IntVar} (h : (forAll vars f).Proper) :
    mkForAll vars f = forAll vars f := by
  have hvars : vars ≠ [] := (proper_iff.1 h).1
  have hf : f.Proper := h.of_mem_children List.mem_cons_self
  unfold mkForAll
  split
  · next b => exact absurd rfl (hf.ne_const b)
  · exact if_neg fun hempty => hvars (List.isEmpty_iff.1 hempty)

end Proper

mutual

/-- Folding a proper formula once more changes nothing: below it is nothing to fold, and then its own
    constructor finds nothing either. -/
theorem Proper.rebuilt_eq : ∀ {f : Formula}, f.Proper → f.rebuilt = f
  | const b, h => absurd rfl (h.ne_const b)
  | eq s t, h => h.mkEq_eq
  | not f, h => by
    have hf : f.rebuilt = f := (h.of_mem_children List.mem_cons_self).rebuilt_eq
    show mkNot f.rebuilt = not f
    rw [hf, h.mkNot_eq]
  | and fs, h => by
    have hfs : rebuiltAll fs = fs := rebuiltAll_eq_of_proper fun f hf => h.of_mem_children hf
    show mkAnd (rebuiltAll fs) = and fs
    rw [hfs, h.mkAnd_eq]
  | or fs, h => by
    have hfs : rebuiltAll fs = fs := rebuiltAll_eq_of_proper fun f hf => h.of_mem_children hf
    show mkOr (rebuiltAll fs) = or fs
    rw [hfs, h.mkOr_eq]
  | implies p c, h => by
    have hp : p.rebuilt = p := (h.of_mem_children List.mem_cons_self).rebuilt_eq
    have hc : c.rebuilt = c :=
      (h.of_mem_children (List.mem_cons_of_mem _ List.mem_cons_self)).rebuilt_eq
    show mkImplies p.rebuilt c.rebuilt = implies p c
    rw [hp, hc, h.mkImplies_eq]
  | forAll vars f, h => by
    have hf : f.rebuilt = f := (h.of_mem_children List.mem_cons_self).rebuilt_eq
    show mkForAll vars f.rebuilt = forAll vars f
    rw [hf, h.mkForAll_eq]

theorem rebuiltAll_eq_of_proper : ∀ {fs : List Formula}, (∀ f ∈ fs, f.Proper) → rebuiltAll fs = fs
  | [], _ => rfl
  | f :: fs, h => by
    obtain ⟨hf, hfs⟩ := List.forall_mem_cons.1 h
    show f.rebuilt :: rebuiltAll fs = f :: fs
    rw [hf.rebuilt_eq, rebuiltAll_eq_of_proper hfs]

end

/-- **Folding leaves nothing to fold.** The constructors build what does not change when it is
    folded once more, and nothing else. -/
theorem built_iff_rebuilt_eq : f.Built ↔ f.rebuilt = f := by
  constructor
  · intro h
    rcases h.normal with ⟨b, rfl⟩ | hproper
    · rfl
    · exact hproper.rebuilt_eq
  · intro h
    rw [← h]
    exact built_rebuilt f

/-- The constructors build the normal formulas, and nothing else. -/
theorem built_iff_normal : f.Built ↔ f.Normal := by
  refine ⟨Built.normal, fun h => ?_⟩
  rcases h with ⟨b, rfl⟩ | hproper
  · exact built_const b
  · exact built_iff_rebuilt_eq.2 hproper.rebuilt_eq

/-- Formulas of a list do not change when the constructors build them. -/
theorem rebuiltAll_eq_self (h : ∀ f ∈ fs, f.Built) : rebuiltAll fs = fs := by
  induction fs with
  | nil => rfl
  | cons f fs ih =>
    obtain ⟨hf, hfs⟩ := List.forall_mem_cons.1 h
    show f.rebuilt :: rebuiltAll fs = f :: fs
    rw [built_iff_rebuilt_eq.1 hf, ih hfs]

/-! ### Constants in normal formulas -/

/-- Constants do not hide in a normal formula. -/
theorem Normal.hasPart_const_iff (h : f.Normal) (b : Bool) : HasPart f (const b) ↔ f = const b := by
  constructor
  · intro hpart
    rcases h with ⟨c, rfl⟩ | hproper
    · rcases hasPart_iff.1 hpart with heq | ⟨g, hg, -⟩
      · exact heq
      · exact absurd hg List.not_mem_nil
    · exact (hproper _ hpart).elim
  · rintro rfl
    exact .self _

/-- A conjunction of normal formulas folds to `false` only if one of them is `false`. -/
theorem mkAnd_eq_false_iff (h : ∀ f ∈ fs, f.Normal) :
    mkAnd fs = const false ↔ const false ∈ fs := by
  rw [← conjuncts_eq_none_iff]
  constructor
  · intro hfalse
    cases hparts : conjuncts fs with
    | none => rfl
    | some gs =>
      have hproper := proper_of_mem_conjuncts h hparts
      rw [mkAnd, hparts] at hfalse
      rcases gs with _ | ⟨g, _ | ⟨g', gs⟩⟩
      · exact absurd hfalse (by decide)
      · -- a single part would be a constant
        exact absurd hfalse ((hproper g List.mem_cons_self).1.ne_const false)
      · exact absurd hfalse (by simp)
  · intro hnone
    rw [mkAnd, hnone]

end SlicePolicy.Formula
