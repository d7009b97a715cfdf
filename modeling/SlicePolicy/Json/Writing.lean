import SlicePolicy.Json
import SlicePolicy.Query
import SlicePolicy.Report
import SlicePolicy.Topology

namespace SlicePolicy

/-!
# Documents of reports and witnesses

What a checker tells is written as documents: a report and a violation are records, a witness is a map
of the packets that it shows, a kind of nodes is its name.
-/

/-- A value is written as a number. -/
def Value.toJson (v : Value) : Json := .number v.toInt

/-- The fields of a map, in their order. -/
def fieldsJson (fields : List (Field × Value)) : Json :=
  .object (fields.map fun e => (e.1.name, e.2.toJson))

namespace NodeKind

/-- The name of the kind in texts. -/
def name : NodeKind → String
  | switch => "Switch"
  | host => "Host"

/-- A kind is written as its name. -/
def toJson (k : NodeKind) : Json := .string k.name

end NodeKind

namespace Witness

/-- A witness is written packet by packet, in the order of the names. -/
def toJson (w : Witness) : Json :=
  .object (w.values.toList.map fun e => (e.1.name, fieldsJson e.2.toList))

end Witness

namespace Report

/-- A report is written as a record with its context sorted by name. -/
def toJson (r : Report) : Json :=
  .object
    [("kind", .string r.kind.name), ("outcome", .string r.outcome.name),
      ("message", .string r.message), ("elapsed_ms", .number r.elapsedMilliseconds),
      ("context", .object (r.context.toList.map fun e => (e.1, .string e.2)))]

end Report

namespace Violation

/-- A violation is written as a record. -/
def toJson (v : Violation) : Json :=
  .object
    [("type_name", .string v.typeName), ("invariant", .string v.invariant),
      ("details", v.details.elim .null .string)]

end Violation

end SlicePolicy
