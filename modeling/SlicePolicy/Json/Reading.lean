import SlicePolicy.Json.Format
import SlicePolicy.Json.Reader.Shape
import SlicePolicy.Json.Writing

namespace SlicePolicy

/-!
# Reading and writing without another library

The wire formats as documents and as readers of texts from left to right. What a text is refused for is
the first thing that is wrong with it; a packet or an action is checked when all of its record was read.

* `Json.streaming` — the shapes, written as documents without blanks and read from left to right.
* `Location.reader`, `Packet.reader`, `Action.reader` — readers of records.
* `Predicate.reader`, `Policy.reader` — readers of trees, by recursion on the brackets.
-/

open Json (Reader)
open Json.Reader (Nested)

/-- Documents without blanks, and readers from left to right. -/
@[reducible] def Json.streaming : Json.Library where
  lowercase s := String.ofList (s.toList.map Char.toLower)
  writeInteger := Value.toJson
  writeList := .array
  writePair v w := .array [v, w]
  writeMap := .object
  writeRecord := .object
  writeBare := .string
  writeContents name v := .object [(name, v)]
  toText := Json.compact
  Reader := Nested
  integer _ := Reader.integer
  list := Reader.list
  pair := Reader.pair
  entries := Reader.entries
  record := Reader.record
  kinds := Reader.kinds
  check := Reader.check
  fromText := Reader.read
  limit := Reader.maxBrackets

open Json (streaming)

namespace Field

/-- A field as a document. -/
def toJson (f : Field) : Json := f.write streaming

/-- Reads the name of a field. -/
def reader : Nested Field := deserializer streaming

end Field

namespace NodeKind

/-- Reads the name of a kind of nodes. -/
def reader : Nested NodeKind := Reader.kinds [.bare switch.name switch, .bare host.name host]

end NodeKind

namespace Location

/-- A location as a document. -/
def toJson (l : Location) : Json := l.write streaming

/-- Reads a location. -/
def reader : Nested Location := deserializer streaming

end Location

namespace Packet

/-- A packet as a document. -/
def toJson (p : Packet) : Json := p.write streaming

/-- Reads a packet. -/
def reader : Nested Packet := deserializer streaming

end Packet

namespace Action

/-- An action as a document. -/
def toJson (a : Action) : Json := a.write streaming

/-- Reads an action. -/
def reader : Nested Action := deserializer streaming

end Action

namespace Predicate

/-- A predicate as a document. -/
def toJson (p : Predicate) : Json := p.write streaming

/-- Reads a predicate. One with contents takes two brackets: one around the tag with the contents
    and one around the contents. -/
def reader : Nested Predicate
  | 0 => Reader.kinds (kinds streaming fun _ => Reader.malformed) 0
  | 1 => Reader.kinds (kinds streaming fun _ => Reader.malformed) 1
  | n + 2 => Reader.kinds (kinds streaming fun _ => reader n) (n + 2)

end Predicate

namespace Policy

/-- A policy as a document. -/
def toJson (p : Policy) : Json := p.write streaming

/-- Reads a policy. One with contents takes two brackets: one around the tag with the contents and
    one around the contents. -/
def reader : Nested Policy
  | 0 => Reader.kinds (kinds streaming Predicate.reader fun _ => Reader.malformed) 0
  | 1 => Reader.kinds (kinds streaming Predicate.reader fun _ => Reader.malformed) 1
  | n + 2 => Reader.kinds (kinds streaming Predicate.reader fun _ => reader n) (n + 2)

end Policy

end SlicePolicy
