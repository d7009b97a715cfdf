import SlicePolicy.Formula.Semantics
import SlicePolicy.Packet

namespace SlicePolicy

/-!
# Queries and witnesses

* `Query` — the packets and the assertions that a solver is asked to satisfy together;
  `Query.Satisfiable` says that this is possible.
* `Witness` — the values of a solution, as far as the solver gave them.
* `Verdict` — what the solver answers.
-/

/-- A question to a solver: are there packets of which all assertions are true? -/
structure Query where
  packets : List PacketVar
  assertions : List Formula
  deriving DecidableEq

namespace Query

/-- The number of nodes of all assertions. -/
def size (q : Query) : Nat := Formula.sizeAll q.assertions

/-- Whether an assertion is plainly false, so that no solver needs to be asked. -/
def isTriviallyUnsat (q : Query) : Bool := q.assertions.any fun f => f = .const false

/-- There are packets, with a value for every field, of which all assertions are true. -/
def Satisfiable (q : Query) : Prop :=
  ∃ (field : PacketVar → Field → Value) (int : IntVar → Value),
    ∀ f ∈ q.assertions, f.Holds (.ofValues field int)

end Query

/-- Known values of fields, packet by packet. -/
structure Witness where
  values : Std.TreeMap PacketVar (KeyMap Field Value)

namespace Witness

/-- The witness without values. -/
def empty : Witness := ⟨∅⟩

instance : EmptyCollection Witness := ⟨empty⟩

instance : Inhabited Witness := ⟨empty⟩

/-- All known fields of a packet. -/
def explain (w : Witness) (p : PacketVar) : KeyMap Field Value := w.values[p]?.getD ∅

/-- The value of a field of a packet, if it is known. -/
def value? (w : Witness) (f : Field) (p : PacketVar) : Option Value := (w.explain p).get? f

/-- The witness with one more value. -/
def insert (w : Witness) (p : PacketVar) (f : Field) (v : Value) : Witness :=
  ⟨w.values.insert p ((w.explain p).insert f v)⟩

/-- The known fields of a packet as shown. -/
def packetText (w : Witness) (p : PacketVar) : String := fieldsText (w.explain p).toList

end Witness

/-- What a solver answers to a query. -/
inductive Verdict
  | sat (witness : Witness)
  | unsat
  /-- The solver gave up. -/
  | unknown (reason : String)
  deriving Inhabited

end SlicePolicy
