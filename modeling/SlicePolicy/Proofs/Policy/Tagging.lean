import SlicePolicy.Proofs.Network.Point
import SlicePolicy.Proofs.Outcome

namespace SlicePolicy

/-!
# Tagging a policy

A slice is kept apart from others by a tag: a header that its policy leaves alone, which the
compiled policy tests at some guards and rewrites in some actions.

* `Policy.Omits` — the policy neither tests nor changes the header.
* `Policy.Tagged` — in every branch the guard has at most one test of the header more, and every
  action at most one change of it more; branches and actions are tagged independently.
* `Predicate.accepts_set` — what is not tested plays no part.
* `Policy.Tagged.exists_tagged`, `Policy.Tagged.exists_untagged` — the actions of a policy and those
  of a tagged one, in both directions.
-/

/-! ### Untagged policies -/

/-- Whether the header is tested somewhere in the predicate. -/
def Predicate.tests (h : Header) : Predicate → Bool
  | top | bottom | located _ => false
  | test f _ => f = .header h
  | union p q | inter p q | diff p q => p.tests h || q.tests h

/-- The action leaves the header as it is. -/
def Action.Omits (h : Header) (a : Action) : Prop := a.modify.get? h = none

instance (h : Header) (a : Action) : Decidable (a.Omits h) :=
  inferInstanceAs (Decidable (a.modify.get? h = none))

/-- No guard tests the header and no action changes it. -/
def Policy.Omits (h : Header) (p : Policy) : Prop :=
  ∀ b ∈ p.branches, b.1.tests h = false ∧ ∀ a ∈ b.2, a.Omits h

instance (h : Header) (p : Policy) : Decidable (p.Omits h) :=
  inferInstanceAs (Decidable (∀ b ∈ p.branches, b.1.tests h = false ∧ ∀ a ∈ b.2, a.Omits h))

/-! ### Tagged policies -/

/-- The guard, or the guard and a test of the header. -/
inductive Predicate.Tagged (h : Header) (g : Predicate) : Predicate → Prop
  | same : Tagged h g g
  | testAfter (c : Value) : Tagged h g (.inter g (.test (.header h) c))
  | testBefore (c : Value) : Tagged h g (.inter (.test (.header h) c) g)

/-- The action, or the action with a new value for the header. -/
inductive Action.Tagged (h : Header) (a : Action) : Action → Prop
  | same : Tagged h a a
  | rewrite (c : Value) : Tagged h a { a with modify := a.modify.insert h c }

/-- The policy with tagged guards and tagged actions. -/
inductive Policy.Tagged (h : Header) : Policy → Policy → Prop
  | bottom : Tagged h .bottom .bottom
  | branch {g g' : Predicate} {acts acts' : List Action} (hguard : g.Tagged h g')
      (hacts : List.Forall₂ (Action.Tagged h) acts acts') :
      Tagged h (.branch g acts) (.branch g' acts')
  | union {p p' q q' : Policy} (hp : Tagged h p p') (hq : Tagged h q q') :
      Tagged h (.union p q) (.union p' q')

variable {h : Header} {x y : Packet} {l m : Location}

/-! ### Guards -/

/-- Another field reads the same after a header is set. -/
theorem Packet.read_set_of_ne {f : Field} (hf : f ≠ .header h) (x : Packet) (l : Location)
    (c : Value) : (x.set (.header h) c).read l f = x.read l f := by
  cases f with
  | switch => rfl
  | port => rfl
  | header k => exact x.headers.get?_insert_of_ne c fun hk => hf (congrArg Field.header hk)

namespace Predicate

/-- **A header that is not tested plays no part.** The induction is on the predicate; a difference is
    no special case, because both of its parts accept exactly as before. -/
theorem accepts_set {p : Predicate} (hp : p.tests h = false) (x : Packet) (l : Location)
    (c : Value) : p.accepts (x.set (.header h) c) l = p.accepts x l := by
  induction p with
  | top => rfl
  | bottom => rfl
  | test f v => rw [accepts, accepts, Packet.read_set_of_ne (of_decide_eq_false hp)]
  | located k => rfl
  | union p q ihp ihq =>
    obtain ⟨hp, hq⟩ := Bool.or_eq_false_iff.1 hp
    rw [accepts, accepts, ihp hp, ihq hq]
  | inter p q ihp ihq =>
    obtain ⟨hp, hq⟩ := Bool.or_eq_false_iff.1 hp
    rw [accepts, accepts, ihp hp, ihq hq]
  | diff p q ihp ihq =>
    obtain ⟨hp, hq⟩ := Bool.or_eq_false_iff.1 hp
    rw [accepts, accepts, ihp hp, ihq hq]

/-- A test of a header accepts the packet in which its value is set. -/
theorem accepts_test_set (x : Packet) (l : Location) (h : Header) (c : Value) :
    (test (.header h) c).accepts (x.set (.header h) c) l = true :=
  decide_eq_true (.inr (x.get?_set_self h c))

/-- A tag makes a guard narrower. -/
theorem Tagged.accepts_of_accepts {g g' : Predicate} (hg : g.Tagged h g')
    (hx : g'.accepts x l = true) : g.accepts x l = true := by
  cases hg with
  | same => exact hx
  | testAfter c => exact (Bool.and_eq_true_iff.1 hx).1
  | testBefore c => exact (Bool.and_eq_true_iff.1 hx).2

/-- What a guard accepts its tagged form accepts with some tag. -/
theorem Tagged.exists_accepts_set {g g' : Predicate} (hg : g.Tagged h g') (homits : g.tests h = false)
    (hx : g.accepts x l = true) : ∃ c : Value, g'.accepts (x.set (.header h) c) l = true := by
  cases hg with
  | same =>
    -- no tag is asked for, so any will do
    exact ⟨wildcard, (accepts_set homits x l wildcard).trans hx⟩
  | testAfter c =>
    exact ⟨c, Bool.and_eq_true_iff.2 ⟨(accepts_set homits x l c).trans hx, accepts_test_set x l h c⟩⟩
  | testBefore c =>
    exact ⟨c, Bool.and_eq_true_iff.2 ⟨accepts_test_set x l h c, (accepts_set homits x l c).trans hx⟩⟩

end Predicate

/-! ### Actions -/

namespace Action

variable {a a' : Action}

/-- What an action leaves alone is set before or after it. -/
theorem Omits.applyTo_set (ha : a.Omits h) (x : Packet) (c : Value) :
    a.applyTo (x.set (.header h) c) = (a.applyTo x).set (.header h) c := by
  refine Packet.ext (KeyMap.ext (funext fun k => ?_))
  simp only [applyTo, Packet.headers_set, KeyMap.get?_overlay, KeyMap.get?_insert]
  by_cases hk : k = h
  · rw [hk, ha, if_pos rfl, if_pos rfl, Option.none_or]
  · rw [if_neg hk, if_neg hk]

theorem Omits.mem_outputs_set (ha : a.Omits h) (hxy : (y, m) ∈ a.outputs x) (c : Value) :
    (y.set (.header h) c, m) ∈ a.outputs (x.set (.header h) c) := by
  obtain ⟨port, hport, rfl, rfl⟩ := mem_outputs_iff.1 hxy
  exact mem_outputs_iff.2 ⟨port, hport, (ha.applyTo_set x c).symm, rfl⟩

/-- A tagged action reports to the same taps. -/
theorem Tagged.observe_eq (htag : a.Tagged h a') : a'.observe = a.observe := by
  cases htag <;> rfl

/-- What an action sends, a tagged one sends with some tag, whatever the tag before. -/
theorem Tagged.exists_mem_outputs_set (htag : a.Tagged h a') (ha : a.Omits h)
    (hxy : (y, m) ∈ a.outputs x) (c : Value) :
    ∃ c' : Value, (y.set (.header h) c', m) ∈ a'.outputs (x.set (.header h) c) := by
  cases htag with
  | same => exact ⟨c, ha.mem_outputs_set hxy c⟩
  | rewrite d =>
    -- the tag of the packet is lost on the way
    exact ⟨d, mem_outputs_insert.2 ⟨_, ha.mem_outputs_set hxy c, (y.set_set h c d).symm⟩⟩

/-- What a tagged action sends, the action sends with the tag that the packet had before. -/
theorem Tagged.mem_outputs_set (htag : a.Tagged h a') (ha : a.Omits h)
    (hxy : (y, m) ∈ a'.outputs x) (c : Value) :
    (y.set (.header h) c, m) ∈ a.outputs (x.set (.header h) c) := by
  cases htag with
  | same => exact ha.mem_outputs_set hxy c
  | rewrite d =>
    obtain ⟨z, hz, rfl⟩ := mem_outputs_insert.1 hxy
    rw [z.set_set]
    exact ha.mem_outputs_set hz c

end Action

/-! ### Policies -/

namespace Policy

variable {p p' : Policy} {a a' : Action}

/-- The branches of a tagged policy are those of the policy, with tags. -/
theorem Tagged.branches (htag : p.Tagged h p') :
    List.Forall₂ (fun b b' => b.1.Tagged h b'.1 ∧ List.Forall₂ (Action.Tagged h) b.2 b'.2)
      p.branches p'.branches := by
  induction htag with
  | bottom => exact .nil
  | branch hguard hacts => exact .cons ⟨hguard, hacts⟩ .nil
  | union _ _ ihp ihq => exact List.rel_append ihp ihq

/-- An action that is taken is taken with a tag, if the packet has the right one. -/
theorem Tagged.exists_tagged (htag : p.Tagged h p') (hp : p.Omits h) (ha : a ∈ p.actions x l) :
    a.Omits h ∧ ∃ a' : Action, a.Tagged h a' ∧
      ∃ c : Value, a' ∈ p'.actions (x.set (.header h) c) l := by
  obtain ⟨b, hb, hguard, ha⟩ := mem_actions_iff.1 ha
  obtain ⟨htests, hacts⟩ := hp b hb
  obtain ⟨b', hb', hguard', hacts'⟩ := forall₂_exists_of_mem htag.branches hb
  obtain ⟨a', ha', haa'⟩ := forall₂_exists_of_mem hacts' ha
  obtain ⟨c, hc⟩ := hguard'.exists_accepts_set htests hguard
  exact ⟨hacts a ha, a', haa', c, mem_actions_iff.2 ⟨b', hb', hc, ha'⟩⟩

/-- A tagged action that is taken is taken without its tag, whatever tag the packet has. -/
theorem Tagged.exists_untagged (htag : p.Tagged h p') (hp : p.Omits h)
    (ha' : a' ∈ p'.actions x l) :
    ∃ a : Action, a.Omits h ∧ a.Tagged h a' ∧
      ∀ c : Value, a ∈ p.actions (x.set (.header h) c) l := by
  -- backwards through the branches, and through the actions of the branch
  obtain ⟨b', hb', hguard', ha'⟩ := mem_actions_iff.1 ha'
  obtain ⟨b, hb, hguard, hacts'⟩ := forall₂_exists_of_mem htag.branches.flip hb'
  obtain ⟨a, ha, haa'⟩ := forall₂_exists_of_mem hacts'.flip ha'
  obtain ⟨htests, hacts⟩ := hp b hb
  refine ⟨a, hacts a ha, haa', fun c => mem_actions_iff.2 ⟨b, hb, ?_, ha⟩⟩
  rw [Predicate.accepts_set htests]
  exact hguard.accepts_of_accepts hguard'

end Policy

end SlicePolicy
