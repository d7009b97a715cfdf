import SlicePolicy.Policy

namespace SlicePolicy

/-!
# What a policy does, branch by branch

The walk over the tree and the list of branches describe the same policy.

* `Location.Covers.eq`, `Predicate.accepts_located_iff` — patterns without wildcards.
* `Policy.actions_eq_branches`, `Policy.mem_actions_iff` — the actions taken are those of the branches
  whose guards accept.
* `Policy.mem_outputs_iff` — a packet is sent by a port of such an action.
* `Policy.mem_observations_iff` — a tap sees a packet by such an action.
* `Policy.outputs_union`, `Policy.outputs_unionAll` — a union sends what its parts send.
* `Policy.outputs_located_forward` — a branch that forwards what comes in at a pattern.
-/

namespace Location

/-- Every location is covered by itself. -/
theorem covers_self (l : Location) : l.Covers l := ⟨.inr rfl, .inr rfl⟩

/-- A pattern without wildcards covers one location only. -/
theorem Covers.eq {k l : Location} (h : k.Covers l) (hswitch : k.switch ≠ wildcard)
    (hport : k.port ≠ wildcard) : k = l := by
  obtain ⟨hs, hp⟩ := h
  cases k
  cases l
  rw [Location.mk.injEq]
  exact ⟨hs.resolve_left hswitch, hp.resolve_left hport⟩

end Location

/-- A pattern without wildcards accepts at its own location only. -/
theorem Predicate.accepts_located_iff {pattern l : Location} (hswitch : pattern.switch ≠ wildcard)
    (hport : pattern.port ≠ wildcard) (x : Packet) :
    (located pattern).accepts x l = true ↔ l = pattern := by
  rw [accepts, decide_eq_true_eq]
  constructor
  · intro hcovers
    exact (hcovers.eq hswitch hport).symm
  · rintro rfl
    exact l.covers_self

/-- An action sends the changed packet, at one of its ports. -/
theorem Action.mem_outputs_iff {a : Action} {x y : Packet} {m : Location} :
    (y, m) ∈ a.outputs x ↔ ∃ port ∈ a.ports, y = a.applyTo x ∧ m = ⟨a.switch, port⟩ := by
  simp only [outputs, List.mem_map, Prod.mk.injEq]
  constructor
  · rintro ⟨port, hport, rfl, rfl⟩
    exact ⟨port, hport, rfl, rfl⟩
  · rintro ⟨port, hport, rfl, rfl⟩
    exact ⟨port, hport, rfl, rfl⟩

/-- An action without changes sends the packet as it is. -/
theorem Action.applyTo_of_modify_eq_empty {a : Action} (h : a.modify = ∅) (x : Packet) :
    a.applyTo x = x := by
  rw [applyTo, h]
  exact Packet.ext (KeyMap.ext (funext fun k => rfl))

/-- Forwarding sends the packet as it is. -/
theorem Action.mem_outputs_forward {s port : Value} {x y : Packet} {m : Location} :
    (y, m) ∈ (Action.forward s port).outputs x ↔ y = x ∧ m = ⟨s, port⟩ := by
  rw [mem_outputs_iff, applyTo_of_modify_eq_empty rfl]
  show (∃ q ∈ [port], y = x ∧ m = ⟨s, q⟩) ↔ _
  simp

/-- Setting a header is an insertion into the map of the headers. -/
theorem Packet.headers_set (x : Packet) (h : Header) (c : Value) :
    (x.set (.header h) c).headers = x.headers.insert h c := rfl

/-- One more change of an action is made to the packet that the action sends without it. -/
theorem Action.applyTo_insert (a : Action) (h : Header) (c : Value) (x : Packet) :
    applyTo { a with modify := a.modify.insert h c } x = (a.applyTo x).set (.header h) c := by
  refine Packet.ext (KeyMap.ext (funext fun k => ?_))
  simp only [applyTo, Packet.headers_set, KeyMap.get?_overlay, KeyMap.get?_insert]
  by_cases hk : k = h
  · rw [if_pos hk, if_pos hk, Option.some_or]
  · rw [if_neg hk, if_neg hk]

/-- One more change of an action is made to everything that it sends. -/
theorem Action.mem_outputs_insert {a : Action} {h : Header} {c : Value} {x y : Packet}
    {m : Location} : (y, m) ∈ outputs { a with modify := a.modify.insert h c } x ↔
      ∃ z : Packet, (z, m) ∈ a.outputs x ∧ y = z.set (.header h) c := by
  simp only [mem_outputs_iff, applyTo_insert]
  constructor
  · rintro ⟨port, hport, rfl, hm⟩
    exact ⟨a.applyTo x, ⟨port, hport, rfl, hm⟩, rfl⟩
  · rintro ⟨z, ⟨port, hport, rfl, hm⟩, rfl⟩
    exact ⟨port, hport, rfl, hm⟩

/-- The action that sends a packet out of one port with one header changed. -/
def Action.forwardWith (s port : Value) (h : Header) (c : Value) : Action :=
  { forward s port with modify := (forward s port).modify.insert h c }

theorem Action.mem_outputs_forwardWith {s port c : Value} {h : Header} {x y : Packet}
    {m : Location} : (y, m) ∈ (forwardWith s port h c).outputs x ↔
      y = x.set (.header h) c ∧ m = ⟨s, port⟩ := by
  rw [forwardWith, mem_outputs_insert]
  simp only [mem_outputs_forward]
  constructor
  · rintro ⟨z, ⟨rfl, hm⟩, hy⟩
    exact ⟨hy, hm⟩
  · rintro ⟨hy, hm⟩
    exact ⟨x, ⟨rfl, hm⟩, hy⟩

namespace Policy

variable {p q : Policy} {x y : Packet} {l m : Location}

/-- The actions taken are those of the branches whose guards accept, from left to right. -/
theorem actions_eq_branches :
    p.actions x l = p.branches.flatMap fun b => if b.1.accepts x l then b.2 else [] := by
  induction p with
  | bottom => rfl
  | branch guard acts => rw [actions, branches, List.flatMap_singleton]
  | union p q ihp ihq => rw [actions, branches, List.flatMap_append, ihp, ihq]

/-- An action is taken when it stands in a branch whose guard accepts. -/
theorem mem_actions_iff {a : Action} :
    a ∈ p.actions x l ↔ ∃ b ∈ p.branches, b.1.accepts x l = true ∧ a ∈ b.2 := by
  rw [actions_eq_branches, List.mem_flatMap]
  refine exists_congr fun b => and_congr_right fun _ => ?_
  by_cases h : b.1.accepts x l <;> simp [h]

/-- A packet is sent when it comes out of an action that is taken. -/
theorem mem_outputs_iff_actions :
    (y, m) ∈ p.outputs x l ↔ ∃ a ∈ p.actions x l, (y, m) ∈ a.outputs x := by
  rw [outputs, List.mem_flatMap]

/-- A packet is sent when a branch whose guard accepts has an action and a port for it. -/
theorem mem_outputs_iff :
    (y, m) ∈ p.outputs x l ↔ ∃ b ∈ p.branches, b.1.accepts x l = true ∧
      ∃ a ∈ b.2, ∃ port ∈ a.ports, y = a.applyTo x ∧ m = ⟨a.switch, port⟩ := by
  simp only [mem_outputs_iff_actions, mem_actions_iff, Action.mem_outputs_iff]
  constructor
  · rintro ⟨a, ⟨b, hb, hguard, ha⟩, hport⟩
    exact ⟨b, hb, hguard, a, ha, hport⟩
  · rintro ⟨b, hb, hguard, a, ha, hport⟩
    exact ⟨a, ⟨b, hb, hguard, ha⟩, hport⟩

/-- A tap sees a packet when an action that is taken reports to it. -/
theorem mem_observations_iff_actions {t : Value} :
    t ∈ p.observations x l ↔ ∃ a ∈ p.actions x l, t ∈ a.observe := by
  rw [observations, TapSet.mem_ofList, List.mem_flatMap]
  rfl

/-- A tap sees a packet when a branch whose guard accepts has an action that reports to it. -/
theorem mem_observations_iff {t : Value} :
    t ∈ p.observations x l ↔
      ∃ b ∈ p.branches, b.1.accepts x l = true ∧ ∃ a ∈ b.2, t ∈ a.observe := by
  simp only [mem_observations_iff_actions, mem_actions_iff]
  constructor
  · rintro ⟨a, ⟨b, hb, hguard, ha⟩, ht⟩
    exact ⟨b, hb, hguard, a, ha, ht⟩
  · rintro ⟨b, hb, hguard, a, ha, ht⟩
    exact ⟨a, ⟨b, hb, hguard, ha⟩, ht⟩

/-- A union sends what the first part sends, then what the second part sends. -/
theorem outputs_union : (p.union q).outputs x l = p.outputs x l ++ q.outputs x l := by
  rw [outputs, actions, List.flatMap_append, ← outputs, ← outputs]

theorem mem_outputs_union :
    (y, m) ∈ (p.union q).outputs x l ↔ (y, m) ∈ p.outputs x l ∨ (y, m) ∈ q.outputs x l := by
  rw [outputs_union, List.mem_append]

/-- A union of a list has the branches of its parts, in the order of the list. -/
theorem branches_unionAll {ps : List Policy} : (unionAll ps).branches = ps.flatMap branches := by
  cases ps with
  | nil => rfl
  | cons p ps =>
    show (ps.foldl union p).branches = _
    -- the fold carries the union of the parts that were passed, here `p`
    induction ps generalizing p with
    | nil => rw [List.foldl_nil, List.flatMap_singleton]
    | cons q ps ih =>
      rw [List.foldl_cons, ih (union p q)]
      simp only [List.flatMap_cons, branches, List.append_assoc]

/-- A union of a list takes the actions that its parts take, in the order of the list. -/
theorem actions_unionAll {ps : List Policy} :
    (unionAll ps).actions x l = ps.flatMap fun p => p.actions x l := by
  rw [actions_eq_branches, branches_unionAll, List.flatMap_assoc]
  simp only [actions_eq_branches]

/-- A union of a list sends what its parts send, in the order of the list. -/
theorem outputs_unionAll {ps : List Policy} :
    (unionAll ps).outputs x l = ps.flatMap fun p => p.outputs x l := by
  rw [outputs, actions_unionAll, List.flatMap_assoc]
  rfl

/-- A branch sends what its actions send, where its guard accepts. -/
theorem mem_outputs_branch {guard : Predicate} {acts : List Action} :
    (y, m) ∈ (branch guard acts).outputs x l ↔
      guard.accepts x l = true ∧ ∃ a ∈ acts, (y, m) ∈ a.outputs x := by
  rw [mem_outputs_iff_actions, actions]
  by_cases h : guard.accepts x l <;> simp [h]

/-- A branch that forwards what comes in at a pattern sends it as it is. -/
theorem outputs_located_forward {pattern : Location} {s port : Value} :
    (branch (.located pattern) [.forward s port]).outputs x l
      = if pattern.Covers l then [(x, ⟨s, port⟩)] else [] := by
  rw [outputs, actions, Predicate.accepts]
  by_cases hcovers : pattern.Covers l
  · rw [if_pos hcovers, if_pos (decide_eq_true hcovers), List.flatMap_singleton]
    show [((Action.forward s port).applyTo x, _)] = _
    rw [Action.applyTo_of_modify_eq_empty rfl]
    rfl
  · rw [if_neg hcovers, decide_eq_false hcovers]
    rfl

end Policy

end SlicePolicy
