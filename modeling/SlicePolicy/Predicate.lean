import SlicePolicy.Packet

namespace SlicePolicy

/-!
# Predicates

A predicate selects packets at locations.

* `Predicate.accepts` — whether a packet at a location is selected. A test of a concrete value
  fails on an unset header; a test of the wildcard always succeeds.
* `Predicate.exactly` — the conjunction of a list of tests.
-/

/-- A condition on a packet and its location. -/
inductive Predicate
  | top
  | bottom
  /-- The field has the value, or the value is the wildcard. -/
  | test (field : Field) (value : Value)
  /-- The location is covered by the pattern. -/
  | located (pattern : Location)
  | union (p q : Predicate)
  | inter (p q : Predicate)
  | diff (p q : Predicate)
  deriving DecidableEq, Inhabited

namespace Predicate

/-- Whether the packet is selected when it is at the location. -/
def accepts (packet : Packet) (location : Location) : Predicate → Bool
  | top => true
  | bottom => false
  | test f v => v = wildcard ∨ packet.read location f = some v
  | located pattern => pattern.Covers location
  | union p q => p.accepts packet location || q.accepts packet location
  | inter p q => p.accepts packet location && q.accepts packet location
  | diff p q => p.accepts packet location && !q.accepts packet location

/-- The union of a list, from left to right; nothing if the list is empty. -/
def unionAll : List Predicate → Predicate
  | [] => bottom
  | p :: ps => ps.foldl union p

/-- The intersection of a list, from left to right; everything if the list is empty. -/
def interAll : List Predicate → Predicate
  | [] => top
  | p :: ps => ps.foldl inter p

/-- The value that a list of tests last asks of a field. -/
def lastAsked (f : Field) (tests : List (Field × Value)) : Option Value :=
  (tests.reverse.find? fun e => e.1 = f).map Prod.snd

/-- The location that a list of tests asks for, if it asks for one. -/
def askedLocation (tests : List (Field × Value)) : Option Location :=
  match lastAsked .switch tests, lastAsked .port tests with
  | none, none => none
  | s, p => some ⟨s.getD wildcard, p.getD wildcard⟩

/-- The conjunction of a list of tests: first the location that they ask for, then the headers in
    the order of the list. -/
def exactly (tests : List (Field × Value)) : Predicate :=
  interAll ((askedLocation tests).toList.map located ++
    (tests.filter fun e => !e.1.isLocation).map fun e => test e.1 e.2)

/-- The predicate as shown; every binary operation has its parentheses. -/
def text : Predicate → String
  | top => "top"
  | bottom => "bottom"
  | test f v => f.name ++ " = " ++ Location.componentText v
  | located pattern => "at " ++ pattern.text
  | union p q => "(" ++ p.text ++ " | " ++ q.text ++ ")"
  | inter p q => "(" ++ p.text ++ " & " ++ q.text ++ ")"
  | diff p q => "(" ++ p.text ++ " - " ++ q.text ++ ")"

end Predicate

end SlicePolicy
