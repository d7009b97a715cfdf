import SlicePolicy.Encoding
import SlicePolicy.Proofs.Formula.Inherited

namespace SlicePolicy

/-!
# What encodings inherit

The encodings are built by the folding constructors from equations of terms that the views show and
literals. So a property that the constructors keep holds of an encoding as soon as it holds of the
terms.

* `Predicate.inherited_encode` — predicates.
* `Policy.inherited_encodeForwards`, `Policy.inherited_encodeObserves` — policies.
* `Wiring.encodeTransfer_eq` — the parts of a wiring's encoding; `Wiring.inherited_encodeCrossing`,
  `Wiring.inherited_encodeTransfer` — links.
-/

/-- The part of a wiring's encoding that only speaks of locations: the two packets are at the ends of
    a link. -/
def Wiring.encodeCrossing (w : Wiring) (sent received : PacketVar) : Formula :=
  .mkOr (w.hops.map fun hop => .mkAnd (encodeAt sent hop.1 ++ encodeAt received hop.2))

/-- The part that only speaks of headers: two packets agree on each of them. -/
def encodeHeaders (sent received : PacketVar) : List Formula :=
  Header.all.map fun h => .mkEq (.field (.header h) sent) (.field (.header h) received)

/-- A wiring's encoding has these two parts. -/
theorem Wiring.encodeTransfer_eq (w : Wiring) (sent received : PacketVar) :
    w.encodeTransfer sent received
      = .mkAnd (w.encodeCrossing sent received :: encodeHeaders sent received) := rfl

open Formula (Kept)

variable {S : Term → Prop} {P : Formula → Prop} (h : Kept S P)
include h

theorem inherited_encodeTest (c : Value) {t : Term} (ht : S t) : P (encodeTest c t) := by
  refine h.mkOr ?_
  simpa using ⟨h.const _, h.mkEq ht (h.literal c)⟩

/-- The encoding of a predicate inherits what the terms of the view have. -/
theorem Predicate.inherited_encode {w : View} (hw : ∀ f, S (w.term f)) (p : Predicate) :
    P (p.encode w) := by
  induction p with
  | top => exact h.const _
  | bottom => exact h.const _
  | test f c => exact inherited_encodeTest h c (hw f)
  | located pattern =>
    refine h.mkAnd ?_
    simpa using ⟨inherited_encodeTest h _ (hw .switch), inherited_encodeTest h _ (hw .port)⟩
  | union p q ihp ihq => exact h.mkOr (by simpa using ⟨ihp, ihq⟩)
  | inter p q ihp ihq => exact h.mkAnd (by simpa using ⟨ihp, ihq⟩)
  | diff p q ihp ihq =>
    have hnot : P (.mkNot (q.encode w)) := h.mkNot ihq
    exact h.mkAnd (by simpa using ⟨ihp, hnot⟩)

/-- The encoding of an action inherits what the terms of both views have. -/
theorem Action.inherited_encodeSends {input output : View} (hin : ∀ f, S (input.term f))
    (hout : ∀ f, S (output.term f)) (a : Action) (port : Value) :
    P (a.encodeSends port input output) := by
  have hchanged (k : Header) : S (a.changedTerm input k) := by
    unfold changedTerm
    split
    · exact h.literal _
    · exact hin (.header k)
  refine h.mkAnd (List.forall_mem_append.2 ⟨?_, List.forall_mem_map.2 ?_⟩)
  · simpa using ⟨h.mkEq (hout .switch) (h.literal _), h.mkEq (hout .port) (h.literal _)⟩
  · exact fun k _ => h.mkEq (hout (.header k)) (hchanged k)

/-- The encoding of what a policy sends inherits what the terms of both views have. -/
theorem Policy.inherited_encodeForwards {input output : View} (hin : ∀ f, S (input.term f))
    (hout : ∀ f, S (output.term f)) (p : Policy) : P (p.encodeForwards input output) := by
  refine h.mkOr (List.forall_mem_map.2 fun b _ => ?_)
  have hguard : P (b.1.encode input) := b.1.inherited_encode h hin
  have hsent : P (.mkOr (b.2.flatMap fun a =>
      a.ports.map fun port => a.encodeSends port input output)) := by
    refine h.mkOr fun f hf => ?_
    obtain ⟨a, _, hf⟩ := List.mem_flatMap.1 hf
    obtain ⟨port, _, rfl⟩ := List.mem_map.1 hf
    exact a.inherited_encodeSends h hin hout port
  exact h.mkAnd (by simpa using ⟨hguard, hsent⟩)

/-- The encoding of what a policy reports inherits what the tap and the terms of the view have. -/
theorem Policy.inherited_encodeObserves {w : View} (hw : ∀ f, S (w.term f)) {t : Term} (ht : S t)
    (p : Policy) : P (p.encodeObserves w t) := by
  refine h.mkOr (List.forall_mem_map.2 fun b _ => ?_)
  have hguard : P (b.1.encode w) := b.1.inherited_encode h hw
  have htapped : P (.mkOr (b.2.flatMap fun a =>
      a.observe.toList.map fun c => .mkEq t (.const c))) := by
    refine h.mkOr fun f hf => ?_
    obtain ⟨a, _, hf⟩ := List.mem_flatMap.1 hf
    obtain ⟨c, _, rfl⟩ := List.mem_map.1 hf
    exact h.mkEq ht (h.literal c)
  exact h.mkAnd (by simpa using ⟨hguard, htapped⟩)

/-- The encoding of a location inherits what the location fields of the packet have. -/
theorem inherited_encodeAt {x : PacketVar} (hswitch : S (.field .switch x))
    (hport : S (.field .port x)) (l : Location) : ∀ f ∈ encodeAt x l, P f := by
  simpa [encodeAt] using ⟨h.mkEq hswitch (h.literal _), h.mkEq hport (h.literal _)⟩

/-- The encoding of two packets at the ends of a link inherits what the encodings of locations
    have. -/
theorem Wiring.inherited_encodeCrossing {sent received : PacketVar}
    (hsent : ∀ l, ∀ f ∈ encodeAt sent l, P f) (hreceived : ∀ l, ∀ f ∈ encodeAt received l, P f)
    (w : Wiring) : P (w.encodeCrossing sent received) := by
  refine h.mkOr (List.forall_mem_map.2 fun hop _ => ?_)
  exact h.mkAnd (List.forall_mem_append.2 ⟨hsent _, hreceived _⟩)

/-- The encoding of what links carry inherits what the fields of both packets have. -/
theorem Wiring.inherited_encodeTransfer {sent received : PacketVar} (hs : ∀ f, S (.field f sent))
    (hr : ∀ f, S (.field f received)) (w : Wiring) : P (w.encodeTransfer sent received) := by
  have hcrosses : P (w.encodeCrossing sent received) :=
    w.inherited_encodeCrossing h (inherited_encodeAt h (hs .switch) (hs .port))
      (inherited_encodeAt h (hr .switch) (hr .port))
  rw [encodeTransfer_eq]
  refine h.mkAnd (List.forall_mem_cons.2 ⟨hcrosses, List.forall_mem_map.2 ?_⟩)
  exact fun k _ => h.mkEq (hs _) (hr _)

end SlicePolicy
