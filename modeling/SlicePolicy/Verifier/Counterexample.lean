import SlicePolicy.Query
import SlicePolicy.Report

namespace SlicePolicy

/-!
# Counterexamples
-/

/-- Packets for which a property fails. -/
structure Counterexample where
  kind : CheckKind
  packets : List PacketVar
  witness : Witness

namespace Counterexample

/-- The known fields of a packet. -/
def explain (c : Counterexample) (p : PacketVar) : KeyMap Field Value := c.witness.explain p

/-- The counterexample in one line, for the context of a report. -/
def line (c : Counterexample) : String :=
  "; ".intercalate (c.packets.map fun p => p.name ++ "=" ++ c.witness.packetText p)

/-- The counterexample as shown, one line for each packet. -/
def text (c : Counterexample) : String :=
  "\n".intercalate (c.packets.map fun p => p.name ++ ": " ++ c.witness.packetText p)

end Counterexample

end SlicePolicy
