import SlicePolicy.Location

namespace SlicePolicy

/-!
# Wirings

All that checking policies needs to know about a physical network: which nodes are linked, and by
which port each of them faces the other.
-/

/-- Both directions of a link: where a packet leaves and where it arrives. A link that lacks a
    port at an end carries nothing. -/
def Wiring.hopsOf (portToward : Value → Value → Option Value) (a b : Value) :
    List (Location × Location) :=
  match portToward a b, portToward b a with
  | some pa, some pb => [(⟨a, pa⟩, ⟨b, pb⟩), (⟨b, pb⟩, ⟨a, pa⟩)]
  | _, _ => []

/-- The links of a network, the ports at their ends and what crosses them. -/
structure Wiring where
  /-- The links, each in one direction only. -/
  edges : List (Value × Value)
  /-- The port of the first node that faces the second. -/
  portToward : Value → Value → Option Value
  /-- Where packets leave and where they arrive. A network that does not say otherwise has both
      directions of every link, link by link. -/
  hops : List (Location × Location) := edges.flatMap fun e => Wiring.hopsOf portToward e.1 e.2

namespace Wiring

/-- The wiring of a list of links and a table of ports, in which the first entry of a pair of
    nodes counts. -/
def ofTable (edges : List (Value × Value)) (ports : List ((Value × Value) × Value)) : Wiring where
  edges
  portToward node neighbor := ports.lookup (node, neighbor)

end Wiring

end SlicePolicy
