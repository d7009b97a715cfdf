import SlicePolicy.Proofs.Encoding.Meaning
import SlicePolicy.Proofs.Network.Point
import SlicePolicy.Query.Checks

namespace SlicePolicy

/-!
# Solutions of the queries

A solution of a query gives a point to every packet of the query. This module says which points
those are, query by query, in terms of what policies and links do.

* `View.point` — the point that a view shows under a choice of values.
* `Query.holds_sends_iff`, `Query.holds_relaxed_iff`, `Query.holds_transfer_iff` — the formulas that
  the queries are made of.
* `Query.satisfiable_simulates_iff`, `Query.satisfiable_simulatesObserves_iff`,
  `Query.satisfiable_simulatesTwoHop_iff`, `Query.satisfiable_notEmpty_iff`,
  `Query.satisfiable_onePerEdge_iff`, `Query.satisfiable_isolation_iff`,
  `Query.satisfiable_equivalent_iff`.
-/

/-! ### Valuations by packet values -/

/-- Over the packet values every number is a value, so no header is unset. -/
def Valuation.valueReading (field : PacketVar → Point) (int : IntVar → Value) :
    (Valuation.ofValues field int).Reading where
  value? := some
  injective := Option.some.inj
  value?_literal _ := rfl

/-- The point that a view shows. -/
def View.point (w : View) (field : PacketVar → Point) (int : IntVar → Value) : Point :=
  fun f => (Valuation.ofValues field int).term (w.term f)

namespace Query

/-- The choice of points for some packets; the first entry of a packet counts. -/
def choose (points : List (PacketVar × Point)) (x : PacketVar) : Point :=
  (points.lookup x).getD fun _ => wildcard

/-! ### Formulas -/

variable {field : PacketVar → Point} {int : IntVar → Value}

theorem point_ofVar (x : PacketVar) : (View.ofVar x).point field int = field x := rfl

/-- A relaxed packet shows the value of the variable in the place of the field. -/
theorem point_relax (x : PacketVar) (f : Field) (i : IntVar) :
    (relax x f i).point field int = (field x).put f (int i) := by
  funext g
  simp only [View.point, relax, View.replace, View.term, View.ofVar, KeyMap.get?_insert, Point.put]
  by_cases h : g = f
  · rw [if_pos h, if_pos h]
    rfl
  · rw [if_neg h, if_neg h]
    rfl

/-- Encoded forwarding is forwarding of the points that the views show. -/
theorem holds_encodeForwards_iff (p : Policy) (input output : View) :
    (p.encodeForwards input output).Holds (.ofValues field int) ↔
      p.Forwards (input.point field int) (output.point field int) :=
  p.holds_encodeForwards_iff (Valuation.valueReading field int)
    (l := (input.point field int).location) (m := (output.point field int).location)
    ⟨rfl, rfl⟩ ⟨rfl, rfl⟩

theorem holds_sends_iff (p : Policy) (x y : PacketVar) :
    (sends p x y).Holds (.ofValues field int) ↔ p.Forwards (field x) (field y) :=
  holds_encodeForwards_iff p _ _

theorem holds_relaxed_iff (p : Policy) (x y : PacketVar) (f : Field) (i j : IntVar) :
    (p.encodeForwards (relax x f i) (relax y f j)).Holds (.ofValues field int) ↔
      p.Forwards ((field x).put f (int i)) ((field y).put f (int j)) := by
  rw [holds_encodeForwards_iff, point_relax, point_relax]

/-- Encoded observation is what the tap, which is a variable, sees of the point. -/
theorem holds_observes_iff (p : Policy) (w : View) (i : IntVar) :
    (p.encodeObserves w (.var i)).Holds (.ofValues field int) ↔
      p.Reports (w.point field int) (int i) := by
  rw [p.holds_encodeObserves_iff (Valuation.valueReading field int)
    (l := (w.point field int).location) ⟨rfl, rfl⟩]
  constructor
  · rintro ⟨c, hc, h⟩
    have heq : int i = c := Option.some.inj h
    rw [heq]
    exact hc
  · exact fun h => ⟨int i, h, rfl⟩

theorem holds_transfer_iff (w : Wiring) (x y : PacketVar) :
    (w.encodeTransfer x y).Holds (.ofValues field int) ↔ w.Carries (field x) (field y) :=
  w.holds_encodeTransfer_iff (Valuation.valueReading field int)
    (l := (field x).location) (m := (field y).location) ⟨rfl, rfl⟩ ⟨rfl, rfl⟩

/-- A quantified formula is true when its body is, whatever values the bound variables have. -/
theorem holds_forAll_iff (vars : List IntVar) (g : Formula) :
    (Formula.mkForAll vars g).Holds (.ofValues field int) ↔ ∀ other : IntVar → Value,
      g.Holds (.ofValues field fun i => if i ∈ vars then other i else int i) :=
  Formula.holds_mkForAll vars g

/-! ### Queries with a quantifier -/

/-- A solution of the simulation query is an output of the first policy that the second does not
    have, whatever the values of the field. -/
theorem satisfiable_simulates_iff (a b : Policy) (f : Field) :
    (simulates a b f).Satisfiable ↔ ∃ x y : Point, a.Forwards x y ∧
      ∀ t t' : Value, ¬b.Forwards (x.put f t) (y.put f t') := by
  have hassertions (field : PacketVar → Point) (int : IntVar → Value) :
      (∀ g ∈ (simulates a b f).assertions, g.Holds (.ofValues field int)) ↔
        a.Forwards (field p) (field pp) ∧
          ∀ t t' : Value, ¬b.Forwards ((field p).put f t) ((field pp).put f t') := by
    simp only [simulates, List.forall_mem_cons, holds_sends_iff, holds_forAll_iff,
      Formula.holds_mkNot, holds_relaxed_iff]
    refine and_congr_right fun _ => ?_
    constructor
    · intro h t t'
      -- the quantifier binds two variables, which get the two values
      simpa using h.1 fun i => if i = ⟨"v"⟩ then t else t'
    · intro h
      simp only [List.not_mem_nil, false_imp_iff, implies_true, and_true]
      exact fun other => h _ _
  constructor
  · rintro ⟨field, int, h⟩
    exact ⟨field p, field pp, (hassertions field int).1 h⟩
  · rintro ⟨x, y, h⟩
    exact ⟨choose [(p, x), (pp, y)], fun _ => wildcard, (hassertions _ _).2 h⟩

/-- A solution of the observation query is a packet that the first policy reports to a tap, and that
    the second does not report to it, whatever the value of the field. -/
theorem satisfiable_simulatesObserves_iff (a b : Policy) (f : Field) :
    (simulatesObserves a b f).Satisfiable ↔ ∃ (x : Point) (tap : Value), a.Reports x tap ∧
      ∀ t : Value, ¬b.Reports (x.put f t) tap := by
  have hassertions (field : PacketVar → Point) (int : IntVar → Value) :
      (∀ g ∈ (simulatesObserves a b f).assertions, g.Holds (.ofValues field int)) ↔
        a.Reports (field p) (int ⟨"tap"⟩) ∧
          ∀ t : Value, ¬b.Reports ((field p).put f t) (int ⟨"tap"⟩) := by
    simp only [simulatesObserves, List.forall_mem_cons, holds_observes_iff, holds_forAll_iff,
      Formula.holds_mkNot, point_ofVar, point_relax]
    refine and_congr_right fun _ => ?_
    constructor
    · intro h t
      simpa using h.1 fun _ => t
    · intro h
      simp only [List.not_mem_nil, false_imp_iff, implies_true, and_true]
      exact fun other => h _
  constructor
  · rintro ⟨field, int, h⟩
    exact ⟨field p, int ⟨"tap"⟩, (hassertions field int).1 h⟩
  · rintro ⟨x, tap, h⟩
    exact ⟨choose [(p, x)], fun _ => tap, (hassertions _ _).2 h⟩

/-- A solution of the two-hop query is a path of the first policy over one link that the second
    does not have, whatever the values of the field at its ends and on the link. -/
theorem satisfiable_simulatesTwoHop_iff (w : Wiring) (a b : Policy) (f : Field) :
    (simulatesTwoHop w a b f).Satisfiable ↔ ∃ x y z u : Point,
      a.Forwards x y ∧ w.Carries y z ∧ a.Forwards z u ∧ ∀ t₁ t₂ t₃ : Value,
        ¬(b.Forwards (x.put f t₁) (y.put f t₂) ∧ b.Forwards (z.put f t₂) (u.put f t₃)) := by
  have hassertions (field : PacketVar → Point) (int : IntVar → Value) :
      (∀ g ∈ (simulatesTwoHop w a b f).assertions, g.Holds (.ofValues field int)) ↔
        a.Forwards (field p) (field pp) ∧ w.Carries (field pp) (field q) ∧
          a.Forwards (field q) (field qq) ∧ ∀ t₁ t₂ t₃ : Value,
            ¬(b.Forwards ((field p).put f t₁) ((field pp).put f t₂) ∧
              b.Forwards ((field q).put f t₂) ((field qq).put f t₃)) := by
    simp only [simulatesTwoHop, List.forall_mem_cons, holds_sends_iff, holds_transfer_iff,
      holds_forAll_iff, Formula.holds_mkNot, Formula.holds_mkAnd, holds_relaxed_iff]
    refine and_congr_right fun _ => and_congr_right fun _ => and_congr_right fun _ => ?_
    constructor
    · intro h t₁ t₂ t₃
      simpa using h.1 fun i => if i = ⟨"v1"⟩ then t₁ else if i = ⟨"v2"⟩ then t₂ else t₃
    · intro h
      simp only [List.not_mem_nil, false_imp_iff, implies_true, and_true]
      exact fun other => h _ _ _
  constructor
  · rintro ⟨field, int, h⟩
    exact ⟨field p, field pp, field q, field qq, (hassertions field int).1 h⟩
  · rintro ⟨x, y, z, u, h⟩
    exact ⟨choose [(p, x), (pp, y), (q, z), (qq, u)], fun _ => wildcard, (hassertions _ _).2 h⟩

/-! ### Queries without quantifiers -/

/-- A solution of the query about forwarding is a packet that the policy forwards. -/
theorem satisfiable_notEmpty_iff (a : Policy) :
    (notEmpty a).Satisfiable ↔ ∃ x y : Point, a.Forwards x y := by
  have hassertions (field : PacketVar → Point) (int : IntVar → Value) :
      (∀ g ∈ (notEmpty a).assertions, g.Holds (.ofValues field int)) ↔
        a.Forwards (field pIn) (field pOut) := by
    rw [notEmpty, List.forall_mem_singleton, holds_sends_iff]
  constructor
  · rintro ⟨field, int, h⟩
    exact ⟨field pIn, field pOut, (hassertions field int).1 h⟩
  · rintro ⟨x, y, h⟩
    exact ⟨choose [(pIn, x), (pOut, y)], fun _ => wildcard, (hassertions _ _).2 h⟩

/-- A solution of the one-tag query is a packet that the policy sends into a link and sends on at
    the other end, and another one that it sends into the same link with another value of the
    field. -/
theorem satisfiable_onePerEdge_iff (w : Wiring) (a : Policy) (f : Field) :
    (onePerEdge w a f).Satisfiable ↔ ∃ x y z u x' y' : Point,
      a.Forwards x y ∧ w.Carries y z ∧ a.Forwards z u ∧ a.Forwards x' y' ∧
        y.location = y'.location ∧ y f ≠ y' f := by
  have hassertions (field : PacketVar → Point) (int : IntVar → Value) :
      (∀ g ∈ (onePerEdge w a f).assertions, g.Holds (.ofValues field int)) ↔
        a.Forwards (field pIn) (field pOut) ∧ w.Carries (field pOut) (field hop) ∧
          a.Forwards (field hop) (field hopOut) ∧ a.Forwards (field otherIn) (field otherOut) ∧
            (field pOut).location = (field otherOut).location ∧
              field pOut f ≠ field otherOut f := by
    simp only [onePerEdge, List.forall_mem_cons, holds_sends_iff, holds_transfer_iff,
      Formula.holds_mkNot, Formula.holds_mkEq, Point.location, Location.mk.injEq]
    simp [Valuation.term, Valuation.ofValues, and_assoc]
  constructor
  · rintro ⟨field, int, h⟩
    exact ⟨field pIn, field pOut, field hop, field hopOut, field otherIn, field otherOut,
      (hassertions field int).1 h⟩
  · rintro ⟨x, y, z, u, x', y', h⟩
    exact ⟨choose [(pIn, x), (pOut, y), (hop, z), (hopOut, u), (otherIn, x'), (otherOut, y')],
      fun _ => wildcard, (hassertions _ _).2 h⟩

/-- A solution of the isolation query is a packet that the first policy sends into a link and the
    second sends on at the other end. -/
theorem satisfiable_isolation_iff (w : Wiring) (a b : Policy) :
    (isolation w a b).Satisfiable ↔ ∃ x y z u : Point,
      a.Forwards x y ∧ w.Carries y z ∧ b.Forwards z u := by
  have hassertions (field : PacketVar → Point) (int : IntVar → Value) :
      (∀ g ∈ (isolation w a b).assertions, g.Holds (.ofValues field int)) ↔
        a.Forwards (field pkt1) (field pkt2) ∧ w.Carries (field pkt2) (field pkt3) ∧
          b.Forwards (field pkt3) (field pkt4) := by
    simp only [isolation, List.forall_mem_cons, holds_sends_iff, holds_transfer_iff]
    simp
  constructor
  · rintro ⟨field, int, h⟩
    exact ⟨field pkt1, field pkt2, field pkt3, field pkt4, (hassertions field int).1 h⟩
  · rintro ⟨x, y, z, u, h⟩
    exact ⟨choose [(pkt1, x), (pkt2, y), (pkt3, z), (pkt4, u)], fun _ => wildcard,
      (hassertions _ _).2 h⟩

/-- A solution of the equivalence query is an output of the first policy that the second does not
    have, or an output of the second that the first does not have, for a packet for which the first
    has another one. -/
theorem satisfiable_equivalent_iff (a b : Policy) :
    (equivalent a b).Satisfiable ↔
      (∃ x y : Point, a.Forwards x y ∧ ¬b.Forwards x y) ∨
        ∃ x y z : Point, b.Forwards x y ∧ a.Forwards x z ∧ ¬a.Forwards x y := by
  have hassertions (field : PacketVar → Point) (int : IntVar → Value) :
      (∀ g ∈ (equivalent a b).assertions, g.Holds (.ofValues field int)) ↔
        (a.Forwards (field p1In) (field p1Out) ∧ ¬b.Forwards (field p1In) (field p1Out)) ∨
          (b.Forwards (field p2In) (field p2Out1) ∧ a.Forwards (field p2In) (field p2Out2) ∧
            ¬a.Forwards (field p2In) (field p2Out1)) := by
    simp only [equivalent, List.forall_mem_cons, Formula.holds_mkNot, Formula.holds_mkAnd,
      Formula.holds_mkImplies, holds_sends_iff]
    simp [Classical.or_iff_not_imp_left]
  refine ⟨?_, ?_⟩
  · rintro ⟨field, int, h⟩
    have hsolution := (hassertions field int).1 h
    -- either implication of the query may be the one that fails
    apply hsolution.imp
    · intro hlost
      exact ⟨field p1In, field p1Out, hlost⟩
    · intro hnew
      exact ⟨field p2In, field p2Out1, field p2Out2, hnew⟩
  · intro h
    -- the packets of the other implication may be any
    rcases h with ⟨x, y, hlost⟩ | ⟨x, y, z, hnew⟩
    · exact ⟨choose [(p1In, x), (p1Out, y)], fun _ => wildcard, (hassertions _ _).2 (.inl hlost)⟩
    · exact ⟨choose [(p2In, x), (p2Out1, y), (p2Out2, z)], fun _ => wildcard,
        (hassertions _ _).2 (.inr hnew)⟩

end Query

end SlicePolicy
