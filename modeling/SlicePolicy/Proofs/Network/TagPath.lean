import Mathlib.Tactic.ByContra
import SlicePolicy.Proofs.Network.Path
import SlicePolicy.Proofs.Query.Links

namespace SlicePolicy

/-!
# Tags along a path

A compiled policy may use a header for tags of its own. Two checks speak about tags: one compares
paths over a single link, the other asks for one tag on each link. Together they decide about paths
of every length, because the tag that one pair of nodes agrees on for a link is the only one there,
so the next pair uses it as well.

* `Leg.Retagged` — a policy does the leg with given tags before and after.
* `Policy.LosesPath` — a path over one link that another policy does not have, whatever the tags;
  the two-hop query asks for these.
* `Policy.retagged_of_twoHop`, `Policy.tag_eq_of_onePerEdge` — the two checks in terms of packets.
* `Policy.retagged_next` — one step: the tag that a leg sends is a tag that the next leg accepts.
* `Policy.path_retagged` — a path of any length is done with one tag for each of its stations.
-/

variable {w : Wiring} {a b : Policy} {f : Header}

/-- The policy does the leg if the packet comes with the first tag, and sends the second. -/
def Leg.Retagged (b : Policy) (f : Header) (t t' : Value) (leg : Leg) : Prop :=
  (leg.sent.set (.header f) t', leg.departure)
    ∈ b.outputs (leg.packet.set (.header f) t) leg.arrival

/-! ### The two checks -/

/-- The first policy has a path over one link, of packets without unset headers, that the second
    policy does not have, whatever the tags before, on and behind the link. -/
def Policy.LosesPath (w : Wiring) (f : Header) (a b : Policy) : Prop :=
  ∃ s t : Leg, s.Of a ∧ w.Joins s t ∧ t.Of a ∧ s.packet.Full ∧
    ∀ t₁ t₂ t₃ : Value, ¬(s.Retagged b f t₁ t₂ ∧ t.Retagged b f t₂ t₃)

/-- A solution of the two-hop query is a path that is lost. -/
theorem Policy.satisfiable_simulatesTwoHop_iff_losesPath :
    (Query.simulatesTwoHop w a b (.header f)).Satisfiable ↔ a.LosesPath w f b := by
  rw [Query.satisfiable_simulatesTwoHop_iff_outputs]
  simp only [Location.put_header]
  constructor
  · rintro ⟨x, y, u, k, l, m, n, hx, hxy, hlink, hyu, hlost⟩
    exact ⟨⟨x, k, y, l⟩, ⟨y, m, u, n⟩, hxy, ⟨hlink, rfl⟩, hyu, hx, hlost⟩
  · rintro ⟨s, t, hs, hst, ht, hfull, hlost⟩
    rw [Leg.Of, hst.2] at ht
    simp only [Leg.Retagged, hst.2] at hlost
    exact ⟨s.packet, s.sent, t.sent, s.arrival, s.departure, t.arrival, t.departure, hfull, hs,
      hst.1, ht, hlost⟩

/-- If the two-hop check finds nothing, two legs of the first policy that a link joins are done by
    the second policy, with the same tag at both ends of the link. -/
theorem Policy.retagged_of_twoHop
    (hcheck : ¬(Query.simulatesTwoHop w a b (.header f)).Satisfiable) {s t : Leg} (hs : s.Of a)
    (hst : w.Joins s t) (ht : t.Of a) (hfull : s.packet.Full) :
    ∃ t₁ t₂ t₃ : Value, s.Retagged b f t₁ t₂ ∧ t.Retagged b f t₂ t₃ := by
  rw [satisfiable_simulatesTwoHop_iff_losesPath] at hcheck
  by_contra hnone
  refine hcheck ⟨s, t, hs, hst, ht, hfull, fun t₁ t₂ t₃ h => ?_⟩
  exact hnone ⟨t₁, t₂, t₃, h⟩

/-- If the one-tag check finds nothing, a packet that the policy sends on after a link has the tag
    of everything else that the policy sends into that link. -/
theorem Policy.tag_eq_of_onePerEdge (hcheck : ¬(Query.onePerEdge w b (.header f)).Satisfiable)
    {x y u x' y' : Packet} {k l m n k' : Location} (hx : x.Full) (hx' : x'.Full)
    (hy : (y, l) ∈ b.outputs x k) (hlink : (l, m) ∈ w.hops) (hu : (u, n) ∈ b.outputs y m)
    (hy' : (y', l) ∈ b.outputs x' k') : y.headers.get? f = y'.headers.get? f := by
  rw [Query.satisfiable_onePerEdge_iff_mixesOn] at hcheck
  by_contra hne
  exact hcheck ⟨x, y, x', y', k, l, m, k', hx, hx', hy, hlink, List.ne_nil_of_mem hu, hy', hne⟩

/-! ### Paths of every length -/

/-- **One step.** If the compiled policy does a leg of the original and sends a tag, it does the
    next leg when it gets that tag. -/
theorem Policy.retagged_next (htwo : ¬(Query.simulatesTwoHop w a b (.header f)).Satisfiable)
    (hone : ¬(Query.onePerEdge w b (.header f)).Satisfiable) {s t : Leg} (hs : s.Of a)
    (hst : w.Joins s t) (ht : t.Of a) (hfull : s.packet.Full) {c c' : Value}
    (hc : s.Retagged b f c c') : ∃ d : Value, t.Retagged b f c' d := by
  obtain ⟨t₁, t₂, t₃, hfirst, hsecond⟩ := retagged_of_twoHop htwo hs hst ht hfull
  -- the packet with tag `t₂` crosses the link and is sent on, so no other tag is sent there
  have htag : t₂ = c' := by
    have hcrossing : (s.sent.set (.header f) t₂, s.departure) ∈ b.outputs _ s.arrival := hfirst
    have hnext : (t.sent.set (.header f) t₃, t.departure)
        ∈ b.outputs (s.sent.set (.header f) t₂) t.arrival := by
      rw [← hst.2]
      exact hsecond
    have h := tag_eq_of_onePerEdge hone (hfull.set f t₁) (hfull.set f c) hcrossing hst.1 hnext hc
    rw [Packet.get?_set_self, Packet.get?_set_self] at h
    exact Option.some.inj h
  exact ⟨t₃, htag ▸ hsecond⟩

/-- The compiled policy does the legs one after the other, each with the tag that the one before
    sends. -/
def RetagsFrom (b : Policy) (f : Header) : Value → List Leg → Prop
  | _, [] => True
  | t, leg :: legs => ∃ t' : Value, leg.Retagged b f t t' ∧ RetagsFrom b f t' legs

/-- Legs that are done one after the other have their tags in one sequence. -/
theorem RetagsFrom.exists_tags {t : Value} {legs : List Leg} (h : RetagsFrom b f t legs) :
    ∃ tags : Nat → Value, tags 0 = t ∧
      ∀ (i : Nat) (hi : i < legs.length), legs[i].Retagged b f (tags i) (tags (i + 1)) := by
  induction legs generalizing t with
  | nil => exact ⟨fun _ => t, rfl, fun i hi => absurd hi (Nat.not_lt_zero i)⟩
  | cons leg legs ih =>
    obtain ⟨t', hleg, hrest⟩ := h
    obtain ⟨tags, htags, hlegs⟩ := ih hrest
    refine ⟨fun i => i.casesOn t tags, rfl, fun i hi => ?_⟩
    cases i with
    | zero =>
      show leg.Retagged b f t (tags 0)
      rw [htags]
      exact hleg
    | succ i => exact hlegs i (Nat.lt_of_succ_lt_succ hi)

/-- **A whole path.** If the compiled policy does the first leg of a path and sends a tag, it does
    the rest of the path from that tag. The induction is on the path; what one leg hands to the next
    is the tag it sends. -/
theorem Policy.retagsFrom_of_path (htwo : ¬(Query.simulatesTwoHop w a b (.header f)).Satisfiable)
    (hone : ¬(Query.onePerEdge w b (.header f)).Satisfiable) {s : Leg} {legs : List Leg}
    (hpath : w.Path a (s :: legs)) (hfull : s.packet.Full) {c c' : Value}
    (hc : s.Retagged b f c c') : RetagsFrom b f c' legs := by
  induction legs generalizing s c c' with
  | nil => trivial
  | cons t legs ih =>
    have hfulls := hpath.full hfull
    cases hpath with
    | hop hs hst hrest =>
      obtain ⟨d, hd⟩ := retagged_next htwo hone hs hst hrest.head_of hfull hc
      exact ⟨d, hd, ih hrest (hfulls t (by simp)) hd⟩

/-- **Paths of every length are simulated.** If the two-hop check and the one-tag check find
    nothing, every path of the original policy over at least one link is a path of the compiled
    policy, with one tag for each station of the path: what is sent with a tag arrives with it. -/
theorem Policy.path_retagged (w : Wiring) (a b : Policy) (f : Header)
    (htwo : ¬(Query.simulatesTwoHop w a b (.header f)).Satisfiable)
    (hone : ¬(Query.onePerEdge w b (.header f)).Satisfiable) (legs : List Leg)
    (hlength : 2 ≤ legs.length) (hpath : w.Path a legs) (hfull : ∀ leg ∈ legs, leg.packet.Full) :
    ∃ tags : Nat → Value, ∀ (i : Nat) (hi : i < legs.length),
      (legs[i].sent.set (.header f) (tags (i + 1)), legs[i].departure)
        ∈ b.outputs (legs[i].packet.set (.header f) (tags i)) legs[i].arrival := by
  cases hpath with
  | last => simp at hlength
  | @hop s t legs hs hst hrest =>
    have hsfull : s.packet.Full := hfull s List.mem_cons_self
    obtain ⟨t₁, t₂, _, hfirst, _⟩ := retagged_of_twoHop htwo hs hst hrest.head_of hsfull
    have hlegs : RetagsFrom b f t₁ (s :: t :: legs) :=
      ⟨t₂, hfirst, retagsFrom_of_path htwo hone (.hop hs hst hrest) hsfull hfirst⟩
    obtain ⟨tags, _, htags⟩ := hlegs.exists_tags
    exact ⟨tags, htags⟩

/-! ### An instance: two nodes that send everything to each other

The compiled nodes tag what they send, and the second one takes only what is tagged.
-/

namespace Bounce

/-- Both nodes send everything to each other. -/
def plain : Policy :=
  .union (.branch (.test .switch 1) [.forward 1 1]) (.branch (.test .switch 2) [.forward 2 1])

/-- Both nodes tag what they send; the second one takes only what is tagged. -/
def tagged : Policy :=
  .union (.branch (.test .switch 1) [.forwardWith 1 1 .vlan 7])
    (.branch (.inter (.test .switch 2) (.test (.header .vlan) 7)) [.forwardWith 2 1 .vlan 7])

/-- The compiled policy does what the plain one does, from tag to tag. -/
theorem tagged_of_plain {x y : Packet} {l m : Location} (h : (y, m) ∈ plain.outputs x l) :
    (y.set (.header .vlan) 7, m) ∈ tagged.outputs (x.set (.header .vlan) 7) l := by
  simp only [plain, tagged, Policy.mem_outputs_union, Policy.mem_outputs_branch,
    List.mem_singleton, exists_eq_left, Action.mem_outputs_forward, Action.mem_outputs_forwardWith,
    Packet.set_set] at h ⊢
  rcases h with ⟨hl, rfl, rfl⟩ | ⟨hl, rfl, rfl⟩
  · exact .inl ⟨hl, rfl, rfl⟩
  · refine .inr ⟨?_, rfl, rfl⟩
    simpa [Predicate.accepts, Packet.read, Packet.set, Field.header?, KeyMap.get?_insert] using hl

/-- The compiled policy sends one tag only. -/
theorem tag_of_mem_outputs {x y : Packet} {l m : Location} (h : (y, m) ∈ tagged.outputs x l) :
    y.headers.get? .vlan = some 7 := by
  simp only [tagged, Policy.mem_outputs_union, Policy.mem_outputs_branch,
    List.mem_singleton, exists_eq_left, Action.mem_outputs_forwardWith] at h
  rcases h with ⟨_, rfl, _⟩ | ⟨_, rfl, _⟩ <;> rfl

theorem twoHop : ¬(Query.simulatesTwoHop .twoNodes plain tagged (.header .vlan)).Satisfiable := by
  rw [Query.satisfiable_simulatesTwoHop_iff]
  rintro ⟨x, y, z, u, hxy, -, hzu, h⟩
  refine h 7 7 7 ⟨?_, ?_⟩
  · simpa [Policy.Forwards] using tagged_of_plain hxy
  · simpa [Policy.Forwards] using tagged_of_plain hzu

theorem onePerEdge : ¬(Query.onePerEdge .twoNodes tagged (.header .vlan)).Satisfiable := by
  rw [Query.satisfiable_onePerEdge_iff]
  rintro ⟨x, y, z, u, x', y', hxy, -, -, hxy', -, h⟩
  have hy : some (y (.header .vlan)) = some 7 := tag_of_mem_outputs hxy
  have hy' : some (y' (.header .vlan)) = some 7 := tag_of_mem_outputs hxy'
  exact h (Option.some.inj (hy.trans hy'.symm))

/-- A packet with the same value in all headers. -/
def ping : Packet := ⟨⟨fun _ => some 3⟩⟩

/-- The packet goes to the second node. -/
def there : Leg := ⟨ping, ⟨1, 1⟩, ping, ⟨1, 1⟩⟩

/-- The packet comes back to the first node. -/
def back : Leg := ⟨ping, ⟨2, 1⟩, ping, ⟨2, 1⟩⟩

theorem path : Wiring.twoNodes.Path plain [there, back, there] :=
  .hop (by decide) ⟨by decide, rfl⟩ (.hop (by decide) ⟨by decide, rfl⟩ (.last (by decide)))

end Bounce

/-- A packet that goes to and fro between two nodes does so, with tags, under the compiled
    policy. -/
theorem Policy.path_retagged_bounce :
    ¬(Query.simulatesTwoHop Wiring.twoNodes Bounce.plain Bounce.tagged (.header .vlan)).Satisfiable ∧
    ¬(Query.onePerEdge Wiring.twoNodes Bounce.tagged (.header .vlan)).Satisfiable ∧
    2 ≤ [Bounce.there, Bounce.back, Bounce.there].length ∧
    Wiring.twoNodes.Path Bounce.plain [Bounce.there, Bounce.back, Bounce.there] ∧
    (∀ leg ∈ [Bounce.there, Bounce.back, Bounce.there], leg.packet.Full) ∧
    ∃ tags : Nat → Value, ∀ (i : Nat) (hi : i < [Bounce.there, Bounce.back, Bounce.there].length),
      ([Bounce.there, Bounce.back, Bounce.there][i].sent.set (.header .vlan) (tags (i + 1)),
          [Bounce.there, Bounce.back, Bounce.there][i].departure)
        ∈ Bounce.tagged.outputs
            ([Bounce.there, Bounce.back, Bounce.there][i].packet.set (.header .vlan) (tags i))
            [Bounce.there, Bounce.back, Bounce.there][i].arrival := by
  have hlength : 2 ≤ [Bounce.there, Bounce.back, Bounce.there].length := by decide
  have hfull : ∀ leg ∈ [Bounce.there, Bounce.back, Bounce.there], leg.packet.Full := by
    simp [Bounce.there, Bounce.back, Bounce.ping, Packet.Full]
  exact ⟨Bounce.twoHop, Bounce.onePerEdge, hlength, Bounce.path, hfull,
    Policy.path_retagged _ _ _ _ Bounce.twoHop Bounce.onePerEdge _ hlength Bounce.path hfull⟩

end SlicePolicy
