import SlicePolicy.Proofs.Formula.Inherited

namespace SlicePolicy

/-!
# Scopes

A scope says which packets a formula may mention, which variables may be free in it and which its
quantifiers may bind. The scope of a formula follows from those of its parts, and folding does not
leave it; a formula in a scope means the same under all valuations that agree there.

* `Formula.freeVars`, `Formula.boundVars` — the variables that are free in a formula, and those that
  its quantifiers bind.
* `Formula.InScope` — a formula keeps to a scope, with one law for each kind of formula.
* `Formula.inherited_inScope` — folded formulas keep to the scope of the bare ones.
* `Formula.InScope.holds_iff` — nothing outside its scope matters for a formula.
-/

/-- The variable that a term is. -/
def Term.var? : Term → Option IntVar
  | .var i => some i
  | _ => none

namespace Formula

/-! ### Packets and variables -/

mutual

/-- The variables that no quantifier around them binds. -/
def freeVars : Formula → List IntVar
  | const _ => []
  | eq s t => [s, t].filterMap Term.var?
  | not f => f.freeVars
  | and fs => freeVarsAll fs
  | or fs => freeVarsAll fs
  | implies p c => p.freeVars ++ c.freeVars
  | forAll vars f => f.freeVars.filter fun i => i ∉ vars

/-- The free variables of a list of formulas. -/
def freeVarsAll : List Formula → List IntVar
  | [] => []
  | f :: fs => f.freeVars ++ freeVarsAll fs

end

mutual

/-- The variables that quantifiers bind, whether or not they are mentioned. -/
def boundVars : Formula → List IntVar
  | const _ => []
  | eq _ _ => []
  | not f => f.boundVars
  | and fs => boundVarsAll fs
  | or fs => boundVarsAll fs
  | implies p c => p.boundVars ++ c.boundVars
  | forAll vars f => vars ++ f.boundVars

/-- The variables that the quantifiers of a list of formulas bind. -/
def boundVarsAll : List Formula → List IntVar
  | [] => []
  | f :: fs => f.boundVars ++ boundVarsAll fs

end

theorem mem_packets {x : PacketVar} {f : Formula} :
    x ∈ f.packets ↔ ∃ t ∈ f.terms, t.packet? = some x := by
  simp [packets, Std.TreeSet.mem_ofList, List.mem_filterMap]

theorem mem_termsAll {t : Term} {fs : List Formula} : t ∈ termsAll fs ↔ ∃ f ∈ fs, t ∈ f.terms := by
  induction fs with
  | nil => simp [termsAll]
  | cons f fs ih => simp [termsAll, ih]

theorem mem_freeVarsAll {i : IntVar} {fs : List Formula} :
    i ∈ freeVarsAll fs ↔ ∃ f ∈ fs, i ∈ f.freeVars := by
  induction fs with
  | nil => simp [freeVarsAll]
  | cons f fs ih => simp [freeVarsAll, ih]

theorem mem_boundVarsAll {i : IntVar} {fs : List Formula} :
    i ∈ boundVarsAll fs ↔ ∃ f ∈ fs, i ∈ f.boundVars := by
  induction fs with
  | nil => simp [boundVarsAll]
  | cons f fs ih => simp [boundVarsAll, ih]

end Formula

/-! ### Scopes -/

/-- What a formula may mention. -/
structure Scope where
  packets : List PacketVar
  /-- The variables that may be free. -/
  free : List IntVar
  /-- The variables that quantifiers may bind. -/
  bound : List IntVar

namespace Scope

/-- The term reads a packet of the scope, or is a variable that may be free, or a literal. -/
def Sees (s : Scope) : Term → Prop
  | .const _ => True
  | .field _ x => x ∈ s.packets
  | .var i => i ∈ s.free

/-- The scope below a quantifier. -/
def binding (s : Scope) (vars : List IntVar) : Scope := { s with free := vars ++ s.free }

/-- Both valuations have the same numbers for all that may be mentioned. -/
structure Agree {D : Type} (s : Scope) (v w : Valuation D) : Prop where
  literal : ∀ c : Value, v.literal c = w.literal c
  field : ∀ x ∈ s.packets, ∀ f : Field, v.field x f = w.field x f
  int : ∀ i ∈ s.free, v.int i = w.int i

variable {D : Type} {s : Scope} {v w : Valuation D}

theorem Agree.term_eq (h : s.Agree v w) {t : Term} (ht : s.Sees t) : v.term t = w.term t := by
  cases t with
  | const c => exact h.literal c
  | field f x => exact h.field x ht f
  | var i => exact h.int i ht

/-- Below a quantifier valuations still agree, because both get the same numbers there. -/
theorem Agree.rebind (h : s.Agree v w) (vars : List IntVar) (other : IntVar → D) :
    (s.binding vars).Agree (v.rebind vars other) (w.rebind vars other) where
  literal := h.literal
  field := h.field
  int i hi := by
    show (if i ∈ vars then other i else v.int i) = if i ∈ vars then other i else w.int i
    split
    · rfl
    · next hvars => exact h.int i ((List.mem_append.1 hi).resolve_left hvars)

end Scope

namespace Formula

/-- The formula mentions only packets of the scope, and its free and bound variables are variables
    that may be free and bound. -/
structure InScope (s : Scope) (f : Formula) : Prop where
  packets : ∀ x ∈ f.packets, x ∈ s.packets
  free : ∀ i ∈ f.freeVars, i ∈ s.free
  bound : ∀ i ∈ f.boundVars, i ∈ s.bound

theorem inScope_iff {s : Scope} {f : Formula} : f.InScope s ↔
    (∀ t ∈ f.terms, ∀ x, t.packet? = some x → x ∈ s.packets) ∧ (∀ i ∈ f.freeVars, i ∈ s.free) ∧
      ∀ i ∈ f.boundVars, i ∈ s.bound := by
  constructor
  · intro h
    exact ⟨fun t ht x hx => h.packets x (mem_packets.2 ⟨t, ht, hx⟩), h.free, h.bound⟩
  · rintro ⟨hpackets, hfree, hbound⟩
    refine ⟨fun x hx => ?_, hfree, hbound⟩
    obtain ⟨t, ht, htx⟩ := mem_packets.1 hx
    exact hpackets t ht x htx

variable {s : Scope}

theorem inScope_const (b : Bool) : (const b).InScope s :=
  inScope_iff.2 ⟨fun _ ht => absurd ht List.not_mem_nil, fun _ hi => absurd hi List.not_mem_nil,
    fun _ hi => absurd hi List.not_mem_nil⟩

/-- Equations are in scope when both sides are. -/
theorem inScope_eq {a b : Term} : (eq a b).InScope s ↔ s.Sees a ∧ s.Sees b := by
  rw [inScope_iff]
  show (∀ t ∈ [a, b], ∀ x, t.packet? = some x → x ∈ s.packets) ∧
    (∀ i ∈ [a, b].filterMap Term.var?, i ∈ s.free) ∧ (∀ i ∈ [], i ∈ s.bound) ↔ _
  cases a <;> cases b <;> simp [Term.packet?, Term.var?, Scope.Sees, and_comm]

theorem inScope_not {f : Formula} : (not f).InScope s ↔ f.InScope s := by
  rw [inScope_iff, inScope_iff]
  exact Iff.rfl

/-- A list of formulas is in scope when each of them is. -/
theorem forall_inScope_iff {fs : List Formula} : (∀ f ∈ fs, f.InScope s) ↔
    (∀ t ∈ termsAll fs, ∀ x, t.packet? = some x → x ∈ s.packets) ∧
      (∀ i ∈ freeVarsAll fs, i ∈ s.free) ∧ ∀ i ∈ boundVarsAll fs, i ∈ s.bound := by
  simp only [inScope_iff, mem_termsAll, mem_freeVarsAll, mem_boundVarsAll]
  grind

/-- A conjunction is in scope when all its parts are. -/
theorem inScope_and {fs : List Formula} : (and fs).InScope s ↔ ∀ f ∈ fs, f.InScope s := by
  rw [forall_inScope_iff, inScope_iff]
  exact Iff.rfl

/-- A disjunction is in scope when all its parts are. -/
theorem inScope_or {fs : List Formula} : (or fs).InScope s ↔ ∀ f ∈ fs, f.InScope s := by
  rw [forall_inScope_iff, inScope_iff]
  exact Iff.rfl

theorem inScope_implies {p c : Formula} :
    (implies p c).InScope s ↔ p.InScope s ∧ c.InScope s := by
  simp only [inScope_iff]
  show (∀ t ∈ p.terms ++ c.terms, ∀ x, t.packet? = some x → x ∈ s.packets) ∧
    (∀ i ∈ p.freeVars ++ c.freeVars, i ∈ s.free) ∧
      (∀ i ∈ p.boundVars ++ c.boundVars, i ∈ s.bound) ↔ _
  simp only [List.mem_append]
  grind

/-- What is quantified is in scope when the body is, where the variables may be free as well. -/
theorem inScope_forAll {vars : List IntVar} {f : Formula} : (forAll vars f).InScope s ↔
    (∀ i ∈ vars, i ∈ s.bound) ∧ f.InScope (s.binding vars) := by
  simp only [inScope_iff]
  show (∀ t ∈ f.terms, ∀ x, t.packet? = some x → x ∈ s.packets) ∧
    (∀ i ∈ f.freeVars.filter fun i => i ∉ vars, i ∈ s.free) ∧
      (∀ i ∈ vars ++ f.boundVars, i ∈ s.bound) ↔ _
  simp only [Scope.binding, List.mem_append, List.mem_filter, decide_eq_true_eq]
  grind

/-- Folded formulas keep to the scope of the bare ones. -/
theorem inherited_inScope (s : Scope) : Inherited s.Sees (InScope s) where
  literal _ := trivial
  const := inScope_const
  eq hs ht := inScope_eq.2 ⟨hs, ht⟩
  not_iff := inScope_not
  and_iff := inScope_and
  or_iff := inScope_or
  premise h := (inScope_implies.1 h).1
  conclusion h := (inScope_implies.1 h).2
  body h := (inScope_forAll.1 h).2

theorem inScope_mkNot {f : Formula} (h : f.InScope s) : (mkNot f).InScope s :=
  (inherited_inScope s).mkNot (inScope_not.2 h)

theorem inScope_mkAnd {f g : Formula} (hf : f.InScope s) (hg : g.InScope s) :
    (mkAnd [f, g]).InScope s :=
  (inherited_inScope s).mkAnd (inScope_and.2 (by simpa using ⟨hf, hg⟩))

theorem inScope_mkImplies {p c : Formula} (hp : p.InScope s) (hc : c.InScope s) :
    (mkImplies p c).InScope s :=
  (inherited_inScope s).mkImplies (inScope_implies.2 ⟨hp, hc⟩)

theorem inScope_mkForAll {vars : List IntVar} {f : Formula} (hvars : ∀ i ∈ vars, i ∈ s.bound)
    (h : f.InScope (s.binding vars)) : (mkForAll vars f).InScope s :=
  (inherited_inScope s).mkForAll (inScope_forAll.2 ⟨hvars, h⟩)

/-! ### Meaning -/

mutual

/-- **Coincidence.** Valuations that agree on the scope of a formula give it the same truth value. -/
theorem InScope.holds_iff {D : Type} : ∀ {f : Formula} {s : Scope} {v w : Valuation D},
    f.InScope s → s.Agree v w → (f.Holds v ↔ f.Holds w)
  | const b, s, v, w, _, _ => Iff.rfl
  | eq a b, s, v, w, hf, h => by
    obtain ⟨ha, hb⟩ := inScope_eq.1 hf
    rw [holds_eq, holds_eq, h.term_eq ha, h.term_eq hb]
  | not f, s, v, w, hf, h => by
    rw [holds_not, holds_not, (inScope_not.1 hf).holds_iff h]
  | and fs, s, v, w, hf, h => by
    rw [holds_and, holds_and]
    exact forall₂_congr (holds_iff_of_mem (inScope_and.1 hf) h)
  | or fs, s, v, w, hf, h => by
    rw [holds_or, holds_or]
    exact exists_congr fun f => and_congr_right (holds_iff_of_mem (inScope_or.1 hf) h f)
  | implies p c, s, v, w, hf, h => by
    obtain ⟨hp, hc⟩ := inScope_implies.1 hf
    rw [holds_implies, holds_implies, hp.holds_iff h, hc.holds_iff h]
  | forAll vars f, s, v, w, hf, h => by
    -- the body is read in the wider scope, where both valuations were given the same numbers
    have hbody : f.InScope (s.binding vars) := (inScope_forAll.1 hf).2
    exact forall_congr' fun other => hbody.holds_iff (h.rebind vars other)

/-- Valuations that agree on the scope of all formulas of a list give each the same truth value. -/
theorem holds_iff_of_mem {D : Type} : ∀ {fs : List Formula} {s : Scope} {v w : Valuation D},
    (∀ f ∈ fs, f.InScope s) → s.Agree v w → ∀ f ∈ fs, (f.Holds v ↔ f.Holds w)
  | [], _, _, _, _, _ => fun _ hf => absurd hf List.not_mem_nil
  | f :: fs, s, v, w, hfs, h => by
    obtain ⟨hf, hfs⟩ := List.forall_mem_cons.1 hfs
    exact List.forall_mem_cons.2 ⟨hf.holds_iff h, holds_iff_of_mem hfs h⟩

end

end Formula

end SlicePolicy
