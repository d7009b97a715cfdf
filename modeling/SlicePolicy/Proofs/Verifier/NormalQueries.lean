import SlicePolicy.Proofs.Encoding.Inherited
import SlicePolicy.Proofs.Formula.NormalForm
import SlicePolicy.Proofs.Verifier.Posed

namespace SlicePolicy

/-!
# Queries are in normal form

Encodings and queries are written with the folding constructors throughout, so there is nothing left
to fold in any assertion that a verifier poses. That is why one looks at the assertions themselves to
see that a query is plainly unsatisfiable: a `false` that folding can bring to light is there already,
and none is hidden inside an assertion.

* `Formula.kept_built` — encodings are built by the constructors.
* `Query.built_notEmpty` to `Query.built_isolation` — so are the queries.
* `Query.isTriviallyUnsat_iff_hasPart`, `Query.isTriviallyUnsat_iff_rebuilt` — nothing is hidden.
* `Query.all_normal` — all queries are in normal form.
* `folded_normal_form` — the whole of it.
-/

open Formula (Built HasPart)

/-! ### Encodings -/

/-- The constructors keep what they build. -/
theorem Formula.kept_built : Kept (fun _ => True) Built where
  literal _ := trivial
  const := built_const
  mkEq {s t} _ _ := .mkEq s t
  mkNot := .mkNot
  mkAnd := .mkAnd
  mkOr := .mkOr

theorem Formula.built_mkAnd_pair {f g : Formula} (hf : f.Built) (hg : g.Built) :
    (mkAnd [f, g]).Built :=
  .mkAnd (by simpa using ⟨hf, hg⟩)

theorem Predicate.built_encode (p : Predicate) (w : View) : (p.encode w).Built :=
  p.inherited_encode Formula.kept_built fun _ => trivial

theorem Policy.built_encodeForwards (p : Policy) (input output : View) :
    (p.encodeForwards input output).Built :=
  p.inherited_encodeForwards Formula.kept_built (fun _ => trivial) fun _ => trivial

theorem Policy.built_encodeObserves (p : Policy) (w : View) (t : Term) :
    (p.encodeObserves w t).Built :=
  p.inherited_encodeObserves Formula.kept_built (fun _ => trivial) trivial

theorem Wiring.built_encodeTransfer (w : Wiring) (sent received : PacketVar) :
    (w.encodeTransfer sent received).Built :=
  w.inherited_encodeTransfer Formula.kept_built (fun _ => trivial) fun _ => trivial

/-! ### Queries -/

namespace Query

/-- The assertions are built by folding constructors. -/
def Built (q : Query) : Prop := ∀ f ∈ q.assertions, f.Built

/-- There is nothing to fold in the assertions. -/
def Normal (q : Query) : Prop := ∀ f ∈ q.assertions, f.Normal

theorem Built.normal {q : Query} (h : q.Built) : q.Normal := fun f hf => (h f hf).normal

theorem built_of_forall {packets : List PacketVar} {assertions : List Formula}
    (h : assertions.Forall Formula.Built) : Built ⟨packets, assertions⟩ :=
  List.forall_iff_forall_mem.1 h

theorem built_sends (p : Policy) (x y : PacketVar) : (sends p x y).Built :=
  p.built_encodeForwards _ _

theorem built_notEmpty (p : Policy) : (notEmpty p).Built :=
  built_of_forall (built_sends p _ _)

theorem built_equivalent (a b : Policy) : (equivalent a b).Built := by
  apply built_of_forall
  apply Formula.Built.mkNot
  apply Formula.built_mkAnd_pair
  · exact .mkImplies (built_sends a _ _) (built_sends b _ _)
  · have hboth := Formula.built_mkAnd_pair (built_sends b p2In p2Out1) (built_sends a p2In p2Out2)
    exact .mkImplies hboth (built_sends a _ _)

theorem built_simulates (a b : Policy) (f : Field) : (simulates a b f).Built := by
  apply built_of_forall
  exact ⟨built_sends a _ _, .mkForAll _ (.mkNot (b.built_encodeForwards _ _))⟩

theorem built_simulatesObserves (a b : Policy) (f : Field) : (simulatesObserves a b f).Built := by
  apply built_of_forall
  exact ⟨a.built_encodeObserves _ _, .mkForAll _ (.mkNot (b.built_encodeObserves _ _))⟩

theorem built_simulatesTwoHop (w : Wiring) (a b : Policy) (f : Field) :
    (simulatesTwoHop w a b f).Built := by
  apply built_of_forall
  refine ⟨built_sends a _ _, w.built_encodeTransfer _ _, built_sends a _ _, ?_⟩
  apply Formula.Built.mkForAll
  apply Formula.Built.mkNot
  exact Formula.built_mkAnd_pair (b.built_encodeForwards _ _) (b.built_encodeForwards _ _)

theorem built_onePerEdge (w : Wiring) (p : Policy) (f : Field) : (onePerEdge w p f).Built := by
  apply built_of_forall
  exact ⟨built_sends p _ _, w.built_encodeTransfer _ _, built_sends p _ _, built_sends p _ _,
    .mkEq _ _, .mkEq _ _, .mkNot (.mkEq _ _)⟩

theorem built_isolation (w : Wiring) (a b : Policy) : (isolation w a b).Built := by
  apply built_of_forall
  exact ⟨built_sends a _ _, w.built_encodeTransfer _ _, built_sends b _ _⟩

/-! ### Plainly unsatisfiable queries -/

variable {q : Query}

/-- No assertion has `false` inside without being `false`. -/
theorem isTriviallyUnsat_iff_hasPart (h : q.Built) :
    q.isTriviallyUnsat = true ↔ ∃ f ∈ q.assertions, HasPart f (.const false) := by
  rw [isTriviallyUnsat_iff]
  constructor
  · intro hfalse
    exact ⟨_, hfalse, .self _⟩
  · rintro ⟨f, hf, hpart⟩
    exact ((h f hf).normal.hasPart_const_iff false).1 hpart ▸ hf

/-- The assertions fold to `false`, all of them together and from the bottom up, only if one of them
    is `false`. -/
theorem isTriviallyUnsat_iff_rebuilt (h : q.Built) :
    q.isTriviallyUnsat = true ↔ (Formula.and q.assertions).rebuilt = .const false := by
  have hfalse : Formula.mkAnd q.assertions = .const false ↔ .const false ∈ q.assertions :=
    Formula.mkAnd_eq_false_iff h.normal
  show _ ↔ Formula.mkAnd (Formula.rebuiltAll q.assertions) = _
  rw [Formula.rebuiltAll_eq_self h, hfalse, isTriviallyUnsat_iff]

end Query

/-! ### All queries -/

theorem Query.all_normal : Query.All fun _ q => q.Normal where
  notEmpty p := (built_notEmpty p).normal
  equivalent a b := (built_equivalent a b).normal
  simulates a b f := (built_simulates a b f).normal
  simulatesObserves a b f := (built_simulatesObserves a b f).normal
  simulatesTwoHop w a b f := (built_simulatesTwoHop w a b f).normal
  onePerEdge w p f := (built_onePerEdge w p f).normal
  isolation w a b := (built_isolation w a b).normal

/-- **Folding leaves nothing to fold.** The formulas that folding constructors build from terms,
    nested in any way, are exactly those in normal form, and exactly those that do not change when
    they are folded once more from the bottom up. All encodings are such formulas, and so are all
    assertions that a verifier builds or puts to its backend. Of a query with such assertions one is
    plainly false as soon as `false` is part of one of them, or all of them together fold to it. -/
theorem folded_normal_form :
    (∀ f : Formula, (f.Built ↔ f.Normal) ∧ (f.Built ↔ f.rebuilt = f)) ∧
    (∀ (p : Predicate) (w : View), (p.encode w).Normal) ∧
    (∀ (p : Policy) (input output : View), (p.encodeForwards input output).Normal) ∧
    (∀ (p : Policy) (w : View) (t : Term), (p.encodeObserves w t).Normal) ∧
    (∀ (w : Wiring) (sent received : PacketVar), (w.encodeTransfer sent received).Normal) ∧
    (∀ {σ : Type} (v : Verifier σ), v.AllPose fun _ q => q.Normal) ∧
    ∀ q : Query, q.Built →
      (q.isTriviallyUnsat = true ↔ ∃ f ∈ q.assertions, HasPart f (.const false)) ∧
      (q.isTriviallyUnsat = true ↔ (Formula.and q.assertions).rebuilt = .const false) := by
  refine ⟨fun f => ⟨Formula.built_iff_normal, Formula.built_iff_rebuilt_eq⟩, ?_, ?_, ?_, ?_,
    fun v => v.allPose Query.all_normal, fun q hq => ?_⟩
  · exact fun p w => (p.built_encode w).normal
  · exact fun p input output => (p.built_encodeForwards input output).normal
  · exact fun p w t => (p.built_encodeObserves w t).normal
  · exact fun w sent received => (w.built_encodeTransfer sent received).normal
  · exact ⟨Query.isTriviallyUnsat_iff_hasPart hq, Query.isTriviallyUnsat_iff_rebuilt hq⟩

/-- An implication turns into a negation that takes another away, and the conjunction that was under
    both has taken in a nested one. Together with `false` it folds to `false`, which shows at once;
    inside a bare conjunction it would not. -/
theorem folded_normal_form_cancels :
    let tagIs (c : Value) := Formula.mkEq (.field (.header .vlan) Query.p) (.const c)
    let parts := [.mkOr [tagIs 1], .mkAnd [tagIs 2, .mkNot (tagIs 3)]]
    let f := Formula.mkImplies (.mkNot (.mkAnd parts)) (.mkEq (.const 4) (.const 5))
    let q : Query := ⟨[Query.p], [f, .mkAnd [f, .mkOr []]]⟩
    let bare : Query := ⟨[Query.p], [.and [f, .const false]]⟩
    f = .and [tagIs 1, tagIs 2, .not (tagIs 3)] ∧ f.Normal ∧ f.rebuilt = f ∧ q.Built ∧
    q.isTriviallyUnsat = true ∧ (Formula.and q.assertions).rebuilt = .const false ∧
    bare.isTriviallyUnsat = false ∧ (Formula.and bare.assertions).rebuilt = .const false := by
  intro tagIs parts f q bare
  have htag (c : Value) : (tagIs c).Built := .mkEq _ _
  have hparts : ∀ g ∈ parts, g.Built := by
    rw [← List.forall_iff_forall_mem]
    exact ⟨.mkOr (List.forall_mem_singleton.2 (htag 1)),
      Formula.built_mkAnd_pair (htag 2) (.mkNot (htag 3))⟩
  have hf : f.Built := .mkImplies (.mkNot (.mkAnd hparts)) (.mkEq _ _)
  have hq : q.Built :=
    Query.built_of_forall ⟨hf, Formula.built_mkAnd_pair hf (Formula.built_const false)⟩
  have hunsat : q.isTriviallyUnsat = true := rfl
  obtain ⟨hforms, -, -, -, -, -, hqueries⟩ := folded_normal_form
  exact ⟨rfl, (hforms f).1.1 hf, (hforms f).2.1 hf, hq, hunsat, (hqueries q hq).2.1 hunsat, rfl, rfl⟩

end SlicePolicy
