import SlicePolicy.Json.Library
import SlicePolicy.Policy

namespace SlicePolicy

/-!
# Wire formats

A location, a packet and an action are records; a predicate and a policy are of one of several kinds,
and a kind without contents is its name alone. Fields are known by their names in lower case and come in
their order. A packet and an action are read as records of any fields first, and then rebuilt from these
by checked steps, which refuse location fields where they cannot stand.

* `Location.write`, `Packet.write`, `Action.write`, `Predicate.write`, `Policy.write` — documents.
* `Packet.unchecked`, `Action.unchecked` — the records that packets and actions are rebuilt from.
* `Location.deserializer`, `Packet.deserializer`, `Action.deserializer` — readers of records.
* `Predicate.kinds`, `Policy.kinds`, `TreeReaders` — readers of trees.
-/

open Json (Library Members Kind)

variable (L : Library)

/-! ### Fields and integers -/

namespace Field

/-- The name of a field. -/
def key (f : Field) : String := L.lowercase f.label

/-- A field is written as its name. -/
def write (f : Field) : Json := L.writeBare (f.key L)

/-- The fields with their names. -/
def keys : List (String × Field) := all.map fun f => (f.key L, f)

/-- Fields are kinds without contents. -/
def kinds : List (Kind L.Reader Field) := all.map fun f => .bare (f.key L) f

/-- Reads the name of a field. -/
def deserializer : L.Reader Field := L.kinds (kinds L)

end Field

/-- Fields with values are written as a map. -/
def writeFields (fields : List (Field × Value)) : Json :=
  L.writeMap (fields.map fun e => (e.1.key L, L.writeInteger e.2))

/-- Reads values by field; the last value of a field wins. -/
def fieldsDeserializer : L.Reader (KeyMap Field Value) :=
  L.map KeyMap.ofList (L.entries (Field.keys L) L.integer)

/-- Integers are written as a list. -/
def writeIntegers (vs : List Value) : Json := L.writeList (vs.map L.writeInteger)

/-! ### Records -/

namespace Location

/-- A location is written as a record. -/
def write (l : Location) : Json :=
  L.writeRecord [("switch", L.writeInteger l.switch), ("port", L.writeInteger l.port)]

/-- The members of a location. -/
def members : Members L.Reader (Value × Value × Unit) :=
  .cons "switch" L.integer none (.cons "port" L.integer none .nil)

/-- Reads a location. -/
def deserializer : L.Reader Location := L.map (fun s => ⟨s.1, s.2.1⟩) (L.record (members L))

end Location

namespace Packet

/-- A packet is written as a record of its fields. -/
def write (p : Packet) : Json := L.writeRecord [("fields", writeFields L p.toList)]

/-- The only member of a packet. -/
def members : Members L.Reader (KeyMap Field Value × Unit) :=
  .cons "fields" (fieldsDeserializer L) none .nil

/-- Reads the fields of a packet, which may be any fields. -/
def unchecked : L.Reader (KeyMap Field Value) := L.map Prod.fst (L.record (members L))

/-- Reads a packet. -/
def deserializer : L.Reader Packet := L.check ofExactly (unchecked L)

end Packet

namespace Action

/-- An action is written as a record, whether or not it changes or reports packets. -/
def write (a : Action) : Json :=
  L.writeRecord
    [("switch", L.writeInteger a.switch), ("ports", writeIntegers L a.ports),
      ("modify", writeFields L a.changes), ("observe", writeIntegers L a.observe.toList)]

/-- What is read of an action before it is checked. -/
structure Unchecked where
  switch : Value
  ports : List Value
  modify : KeyMap Field Value
  observe : TapSet
  deriving DecidableEq

/-- The action is rebuilt step by step, and changes of the location are refused. -/
def Unchecked.rebuild (u : Unchecked) : Except Error Action :=
  ((sendTo u.switch u.ports).reportingTo u.observe.toList).modifyingAll u.modify.toList

/-- The members of an action. One without changes or taps may leave them out. -/
def members : Members L.Reader (Value × List Value × KeyMap Field Value × TapSet × Unit) :=
  .cons "switch" L.integer none <| .cons "ports" (L.list L.integer) none <|
    .cons "modify" (fieldsDeserializer L) (some ∅) <|
      .cons "observe" (L.map TapSet.ofList (L.list L.integer)) (some ∅) .nil

/-- Reads an action that may change any fields. -/
def unchecked : L.Reader Unchecked :=
  L.map (fun s => ⟨s.1, s.2.1, s.2.2.1, s.2.2.2.1⟩) (L.record (members L))

/-- Reads an action. -/
def deserializer : L.Reader Action := L.check Unchecked.rebuild (unchecked L)

end Action

/-! ### Trees -/

namespace Predicate

/-- A predicate is written as the name of its kind, with the contents if there are any. -/
def write : Predicate → Json
  | top => L.writeBare "Top"
  | bottom => L.writeBare "Bottom"
  | test f v => L.writeContents "Header" (L.writePair (f.write L) (L.writeInteger v))
  | located pattern => L.writeContents "Location" (pattern.write L)
  | union p q => L.writeContents "Union" (L.writePair p.write q.write)
  | inter p q => L.writeContents "Intersection" (L.writePair p.write q.write)
  | diff p q => L.writeContents "Difference" (L.writePair p.write q.write)

/-- The kinds of predicates, with a reader of the predicates inside them. -/
def kinds (inner : L.Reader Predicate) : List (Kind L.Reader Predicate) :=
  [.bare "Top" top, .bare "Bottom" bottom,
    .contents "Header" (L.pair (Field.deserializer L) L.integer) fun e => test e.1 e.2,
    .contents "Location" (Location.deserializer L) located,
    .contents "Union" (L.pair inner inner) fun e => union e.1 e.2,
    .contents "Intersection" (L.pair inner inner) fun e => inter e.1 e.2,
    .contents "Difference" (L.pair inner inner) fun e => diff e.1 e.2]

end Predicate

namespace Policy

/-- A policy is written as the name of its kind, with the contents if there are any. -/
def write : Policy → Json
  | bottom => L.writeBare "Bottom"
  | branch guard acts =>
    L.writeContents "Primitive" (L.writeRecord
      [("predicate", guard.write L), ("actions", L.writeList (acts.map (Action.write L)))])
  | union p q => L.writeContents "Union" (L.writePair p.write q.write)

/-- The members of a branch. -/
def members (guards : L.Reader Predicate) : Members L.Reader (Predicate × List Action × Unit) :=
  .cons "predicate" guards none (.cons "actions" (L.list (Action.deserializer L)) none .nil)

/-- The kinds of policies, with readers of the guards and of the policies inside them. -/
def kinds (guards : L.Reader Predicate) (inner : L.Reader Policy) : List (Kind L.Reader Policy) :=
  [.bare "Bottom" bottom,
    .contents "Primitive" (L.record (members L guards)) fun s => branch s.1 s.2.1,
    .contents "Union" (L.pair inner inner) fun e => union e.1 e.2]

end Policy

/-- Readers of trees. They read the trees inside a tree as well, so each of them refers to itself. -/
structure TreeReaders where
  predicates : L.Reader Predicate
  policies : L.Reader Policy
  predicates_eq : predicates = L.kinds (Predicate.kinds L predicates)
  policies_eq : policies = L.kinds (Policy.kinds L predicates policies)

end SlicePolicy
