import SlicePolicy.Proofs.Encoding.Inherited
import SlicePolicy.Proofs.Formula.Scope
import SlicePolicy.Proofs.Verifier.Posed

namespace SlicePolicy

/-!
# Queries are closed

The witness of a query has values only for the packets that the query declares, and a variable that
is quantified where it should be free, or free where it should be quantified, changes the question.
Neither goes wrong in a check: each query mentions only packets that it declares, and the only
variable that is free in an assertion is the tap of the observation check, which both of its
assertions share and no quantifier binds.

* `Query.ClosedUpTo` — a query is closed up to some variables; `Query.ClosedUpTo.holds_iff` says that
  its assertions then depend on nothing else.
* `Query.closedUpTo_notEmpty` to `Query.closedUpTo_isolation` — the queries one by one.
* `Verifier.posesClosed_checks` — all that a check builds and asks is closed.
-/

/-- The tap that both assertions of the observation check speak of. -/
def Query.tap : IntVar := ⟨"tap"⟩

/-- The variables that stand for something in all assertions of a query together. -/
def CheckKind.sharedVars : CheckKind → List IntVar
  | .observationSimulation => [Query.tap]
  | _ => []

namespace Query

/-- The query mentions only packets that it declares, and in its assertions only the given variables
    are free, which no quantifier binds. -/
structure ClosedUpTo (shared : List IntVar) (q : Query) : Prop where
  packets_declared : ∀ f ∈ q.assertions, ∀ x ∈ f.packets, x ∈ q.packets
  free_shared : ∀ f ∈ q.assertions, ∀ i ∈ f.freeVars, i ∈ shared
  not_bound : ∀ f ∈ q.assertions, ∀ i ∈ f.boundVars, i ∉ shared

/-- A query is closed when its assertions keep to a scope with its packets, in which no shared
    variable may be bound. -/
theorem closedUpTo_of_inScope {packets : List PacketVar} {assertions : List Formula}
    {shared : List IntVar} (bound : List IntVar) (hbound : ∀ i ∈ bound, i ∉ shared)
    (h : assertions.Forall (Formula.InScope ⟨packets, shared, bound⟩)) :
    ClosedUpTo shared ⟨packets, assertions⟩ := by
  rw [List.forall_iff_forall_mem] at h
  exact ⟨fun f hf => (h f hf).packets, fun f hf => (h f hf).free,
    fun f hf i hi => hbound i ((h f hf).bound i hi)⟩

/-- Whether the assertions of a closed query are true depends only on the packets that it declares
    and on the shared variables. -/
theorem ClosedUpTo.holds_iff {D : Type} {q : Query} {shared : List IntVar} {v w : Valuation D}
    (h : q.ClosedUpTo shared) (hagree : Scope.Agree ⟨q.packets, shared, []⟩ v w) :
    ∀ f ∈ q.assertions, (f.Holds v ↔ f.Holds w) := by
  intro f hf
  have hscope : f.InScope ⟨q.packets, shared, f.boundVars⟩ :=
    ⟨h.packets_declared f hf, h.free_shared f hf, fun _ => id⟩
  exact hscope.holds_iff ⟨hagree.literal, hagree.field, hagree.int⟩

/-! ### Formulas of queries -/

section Formulas

variable {s : Scope} {x y : PacketVar}

theorem sees_ofVar (hx : x ∈ s.packets) (f : Field) : s.Sees ((View.ofVar x).term f) := hx

/-- Of a relaxed packet the packet and the variable are seen. -/
theorem sees_relax {i : IntVar} (f : Field) (hx : x ∈ s.packets) (hi : i ∈ s.free) (g : Field) :
    s.Sees ((relax x f i).term g) := by
  simp only [relax, View.replace, View.term, View.ofVar, KeyMap.get?_insert]
  split
  · exact hi
  · exact hx

theorem inScope_sends (p : Policy) (hx : x ∈ s.packets) (hy : y ∈ s.packets) :
    (sends p x y).InScope s :=
  p.inherited_encodeForwards (Formula.inherited_inScope s).kept (sees_ofVar hx) (sees_ofVar hy)

theorem inScope_relaxed (p : Policy) (f : Field) {i j : IntVar} (hx : x ∈ s.packets)
    (hy : y ∈ s.packets) (hi : i ∈ s.free) (hj : j ∈ s.free) :
    (p.encodeForwards (relax x f i) (relax y f j)).InScope s :=
  p.inherited_encodeForwards (Formula.inherited_inScope s).kept (sees_relax f hx hi)
    (sees_relax f hy hj)

theorem inScope_transfer (w : Wiring) (hx : x ∈ s.packets) (hy : y ∈ s.packets) :
    (w.encodeTransfer x y).InScope s :=
  w.inherited_encodeTransfer (Formula.inherited_inScope s).kept (fun _ => hx) fun _ => hy

end Formulas

/-! ### Queries one by one -/

theorem closedUpTo_notEmpty (p : Policy) : (notEmpty p).ClosedUpTo [] := by
  apply closedUpTo_of_inScope [] (by decide)
  exact inScope_sends p (by decide) (by decide)

theorem closedUpTo_equivalent (a b : Policy) : (equivalent a b).ClosedUpTo [] := by
  apply closedUpTo_of_inScope [] (by decide)
  apply Formula.inScope_mkNot
  apply Formula.inScope_mkAnd
  · exact Formula.inScope_mkImplies (inScope_sends a (by decide) (by decide))
      (inScope_sends b (by decide) (by decide))
  · apply Formula.inScope_mkImplies
    · exact Formula.inScope_mkAnd (inScope_sends b (by decide) (by decide))
        (inScope_sends a (by decide) (by decide))
    · exact inScope_sends a (by decide) (by decide)

theorem closedUpTo_simulates (a b : Policy) (f : Field) : (simulates a b f).ClosedUpTo [] := by
  apply closedUpTo_of_inScope [⟨"v"⟩, ⟨"vv"⟩] (by decide)
  refine ⟨inScope_sends a (by decide) (by decide), ?_⟩
  -- the values of the field are free below the quantifier only
  apply Formula.inScope_mkForAll (by decide)
  apply Formula.inScope_mkNot
  exact inScope_relaxed b f (by decide) (by decide) (by decide) (by decide)

/-- The observation query is closed up to the tap. -/
theorem closedUpTo_simulatesObserves (a b : Policy) (f : Field) :
    (simulatesObserves a b f).ClosedUpTo [tap] := by
  apply closedUpTo_of_inScope [⟨"v"⟩] (by decide)
  constructor
  · apply a.inherited_encodeObserves (Formula.inherited_inScope _).kept (sees_ofVar (by decide))
    exact List.mem_singleton_self tap
  · apply Formula.inScope_mkForAll (by decide)
    apply Formula.inScope_mkNot
    apply b.inherited_encodeObserves (Formula.inherited_inScope _).kept
      (sees_relax f (by decide) (by decide))
    -- it is still free below the quantifier
    exact List.mem_cons_of_mem _ (List.mem_singleton_self tap)

theorem closedUpTo_simulatesTwoHop (w : Wiring) (a b : Policy) (f : Field) :
    (simulatesTwoHop w a b f).ClosedUpTo [] := by
  apply closedUpTo_of_inScope [⟨"v1"⟩, ⟨"v2"⟩, ⟨"v3"⟩] (by decide)
  refine ⟨inScope_sends a (by decide) (by decide), inScope_transfer w (by decide) (by decide),
    inScope_sends a (by decide) (by decide), ?_⟩
  apply Formula.inScope_mkForAll (by decide)
  apply Formula.inScope_mkNot
  apply Formula.inScope_mkAnd
  · exact inScope_relaxed b f (by decide) (by decide) (by decide) (by decide)
  · exact inScope_relaxed b f (by decide) (by decide) (by decide) (by decide)

theorem closedUpTo_onePerEdge (w : Wiring) (p : Policy) (f : Field) :
    (onePerEdge w p f).ClosedUpTo [] := by
  let s : Scope := ⟨[pIn, pOut, hop, hopOut, otherIn, otherOut], [], []⟩
  have hagree (g : Field) : (Formula.mkEq (.field g pOut) (.field g otherOut)).InScope s := by
    apply (Formula.inherited_inScope s).mkEq
    have hpackets : pOut ∈ s.packets ∧ otherOut ∈ s.packets := by decide
    exact Formula.inScope_eq.2 hpackets
  apply closedUpTo_of_inScope [] (by decide)
  exact ⟨inScope_sends p (by decide) (by decide), inScope_transfer w (by decide) (by decide),
    inScope_sends p (by decide) (by decide), inScope_sends p (by decide) (by decide),
    hagree .switch, hagree .port, Formula.inScope_mkNot (hagree f)⟩

theorem closedUpTo_isolation (w : Wiring) (a b : Policy) : (isolation w a b).ClosedUpTo [] := by
  apply closedUpTo_of_inScope [] (by decide)
  exact ⟨inScope_sends a (by decide) (by decide), inScope_transfer w (by decide) (by decide),
    inScope_sends b (by decide) (by decide)⟩

end Query

/-! ### All queries -/

/-- A query of a kind is closed up to the variables that the kind shares. -/
def CheckKind.Closed (kind : CheckKind) (q : Query) : Prop := q.ClosedUpTo kind.sharedVars

theorem Query.all_closed : Query.All CheckKind.Closed where
  notEmpty := closedUpTo_notEmpty
  equivalent := closedUpTo_equivalent
  simulates := closedUpTo_simulates
  simulatesObserves := closedUpTo_simulatesObserves
  simulatesTwoHop := closedUpTo_simulatesTwoHop
  onePerEdge := closedUpTo_onePerEdge
  isolation := closedUpTo_isolation

namespace Verifier

variable {σ : Type}

/-- **All queries are closed.** Whatever the policies, the wiring and the field are, each query that
    a check builds mentions only packets that it declares, and no variable is free in an assertion
    but the tap of the observation query. The tap is never bound, and there are policies for which
    both assertions speak of it. No check asks the backend anything else. -/
theorem posesClosed_checks (v : Verifier σ) : v.AllPose CheckKind.Closed ∧
    ∀ f : Field, ∃ p q : Policy,
      ∀ g ∈ (Query.simulatesObserves p q f).assertions, Query.tap ∈ g.freeVars := by
  refine ⟨v.allPose Query.all_closed, fun f => ?_⟩
  -- both policies report everything to tap 4
  let p : Policy := .branch .top [⟨1, [], ∅, .ofList [4]⟩]
  let reported : Formula := .eq (.var Query.tap) (.const 4)
  have hassertions : (Query.simulatesObserves p p f).assertions =
      [reported, .forAll [⟨"v"⟩] (.not reported)] := rfl
  refine ⟨p, p, ?_⟩
  rw [hassertions]
  decide

end Verifier

end SlicePolicy
