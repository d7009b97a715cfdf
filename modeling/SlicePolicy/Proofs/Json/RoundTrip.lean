import SlicePolicy.Proofs.Json.Depth
import SlicePolicy.Proofs.Json.Streaming
import SlicePolicy.Proofs.Json.Written

namespace SlicePolicy

/-!
# Round trips of the wire formats

The wire formats lose nothing, whichever lawful library writes and reads them. A value is read back from
its text, as long as the text is not nested deeper than any text may be; and what was read from some text
is never nested that deep, so that it is read again from its own text.

* `Library.RoundTrips` — both of these, for one type of values.
* `Semantics.Lawful.roundTrips` — it is enough that written values are read, and accepted values are
  shallow.
* `wireFormats_roundTrip` — locations, packets, actions, predicates and policies.
-/

namespace Json

variable {L : Library} {S : Semantics L} {α : Type} {write : α → Json} {r : L.Reader α}

/-- The reader of a type of values gives back what was written. -/
structure Library.RoundTrips (L : Library) (write : α → Json) (r : L.Reader α) : Prop where
  /-- A written value is read back, unless it is nested too deep. -/
  read_written : ∀ a : α, (write a).depth ≤ L.limit → L.fromText r (L.toText (write a)) = .ok a
  /-- A value that was read from any text is read again from the text that is written for it. -/
  read_again : ∀ (text : String) (a : α), L.fromText r text = .ok a →
    L.fromText r (L.toText (write a)) = .ok a

theorem Semantics.Lawful.roundTrips (hS : S.Lawful) (hreads : ∀ a, S.Reads r (write a) a)
    (hdepth : ∀ {n a}, S.Accepts n r a → (write a).depth ≤ n) : L.RoundTrips write r where
  read_written a ha := hS.fromText_toText (hreads a) ha
  read_again _ a htext := hS.fromText_toText (hreads a) (hdepth (hS.accepts_of_fromText htext))

end Json

open Json (Library Semantics Reader streaming)

/-- **The wire formats round-trip.** With a lawful library all values are read back from what is written
    of them, as far as it is not nested too deep, and all values that are accepted from any text are. -/
theorem wireFormats_roundTrip {L : Library} {S : Semantics L} (hS : S.Lawful) (R : TreeReaders L) :
    L.RoundTrips (Location.write L) (Location.deserializer L) ∧
      L.RoundTrips (Packet.write L) (Packet.deserializer L) ∧
        L.RoundTrips (Action.write L) (Action.deserializer L) ∧
          L.RoundTrips (Predicate.write L) R.predicates ∧
            L.RoundTrips (Policy.write L) R.policies := by
  refine ⟨?_, ?_, ?_, ?_, ?_⟩
  · exact hS.roundTrips (fun l => l.reads hS) (Location.depth_le_of_accepts hS)
  · exact hS.roundTrips (fun p => p.reads hS) (Packet.depth_le_of_accepts hS)
  · exact hS.roundTrips (fun a => a.reads hS) (Action.depth_le_of_accepts hS)
  · exact hS.roundTrips (fun p => p.reads R hS) (Predicate.depth_le_of_accepts R hS)
  · exact hS.roundTrips (fun p => p.reads R hS) (Policy.depth_le_of_accepts R hS)

/-- Two branches: one with changes and taps, and one that does nothing. -/
def Policy.tapped : Policy :=
  .union (.branch (.diff (.test (.header .vlan) 5) (.located ⟨1, 0⟩))
    [⟨1, [2, 3], (∅ : KeyMap Header Value).insert .vlan 9, .ofList [4, 7]⟩]) (.branch .top [])

/-- The policy is nested eight deep. An action without changes and taps may be an array of a switch
    and its ports; it is written as an object with all of its members. -/
theorem wireFormats_roundTrip_tapped :
    Policy.tapped.toJson.depth = 8 ∧
      Reader.read Policy.reader Policy.tapped.toJson.compact = .ok Policy.tapped ∧
        Reader.read Action.reader "[1, [2]]" = .ok (.forward 1 2) ∧
          Reader.read Action.reader (Action.forward 1 2).toJson.compact = .ok (.forward 1 2) := by
  have hdepth : Policy.tapped.toJson.depth = 8 := by decide
  have hlimit : Policy.tapped.toJson.depth ≤ streaming.limit := by
    rw [hdepth]
    decide
  have htext : Reader.read Action.reader "[1, [2]]" = .ok (.forward 1 2) := by decide +kernel
  obtain ⟨-, -, hactions, -, hpolicies⟩ :=
    wireFormats_roundTrip Json.streamed_lawful Json.streamingTrees
  exact ⟨hdepth, hpolicies.read_written _ hlimit, htext, hactions.read_again _ _ htext⟩

end SlicePolicy
