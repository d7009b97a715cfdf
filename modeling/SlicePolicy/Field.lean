import SlicePolicy.KeyMap

namespace SlicePolicy

/-!
# Header fields

A predicate or a formula can read eleven fields of a packet in flight: the two that say where it
is (`switch`, `port`) and nine headers that it carries. Only headers can be stored in a packet or
changed by an action, so they are a type of their own and `Field` adds the two location fields.
-/

/-- A header that a packet carries. -/
inductive Header
  | srcMac | dstMac | ethType | srcIp | dstIp | vlan | protocol | srcPort | dstPort
  deriving DecidableEq, Repr, Inhabited

namespace Header

/-- The headers in their order. -/
def all : List Header :=
  [srcMac, dstMac, ethType, srcIp, dstIp, vlan, protocol, srcPort, dstPort]

instance : Listed Header where
  all := all
  mem_all := by intro h; cases h <;> decide
  nodup_all := by decide

/-- The name used in texts and wire formats. -/
def name : Header → String
  | srcMac => "srcmac"
  | dstMac => "dstmac"
  | ethType => "ethtype"
  | srcIp => "srcip"
  | dstIp => "dstip"
  | vlan => "vlan"
  | protocol => "protocol"
  | srcPort => "srcport"
  | dstPort => "dstport"

end Header

/-- A field that a test can read: where the packet is, or one of its headers. -/
inductive Field
  | switch
  | port
  | header (h : Header)
  deriving DecidableEq, Repr, Inhabited

namespace Field

/-- The fields in their order: the location first, then the headers. -/
def all : List Field := [switch, port] ++ Header.all.map header

instance : Listed Field where
  all := all
  mem_all := by
    intro f
    cases f with
    | switch => decide
    | port => decide
    | header h => cases h <;> decide
  nodup_all := by decide

/-- Whether the field says where the packet is, so that no packet stores it. -/
def isLocation : Field → Bool
  | switch | port => true
  | header _ => false

/-- The header a field names, unless it is a location field. -/
def header? : Field → Option Header
  | switch | port => none
  | header h => some h

/-- The name used in texts and wire formats. -/
def name : Field → String
  | switch => "switch"
  | port => "port"
  | header h => h.name

/-- The field of a name. -/
def ofName? (s : String) : Option Field := all.find? fun f => f.name = s

/-- The fields that come after it in the order. -/
def following (f : Field) : List Field := all.drop (all.idxOf f + 1)

/-- The name in the description of a configuration, where fields are capitalised. -/
def label : Field → String
  | switch => "Switch"
  | port => "Port"
  | header .srcMac => "SrcMac"
  | header .dstMac => "DstMac"
  | header .ethType => "EthType"
  | header .srcIp => "SrcIp"
  | header .dstIp => "DstIp"
  | header .vlan => "Vlan"
  | header .protocol => "Protocol"
  | header .srcPort => "SrcPort"
  | header .dstPort => "DstPort"

theorem ofName?_name (f : Field) : ofName? f.name = some f := by
  cases f with
  | switch => decide
  | port => decide
  | header h => cases h <;> decide

theorem name_injective {f g : Field} (h : f.name = g.name) : f = g := by
  have := ofName?_name f
  rw [h, ofName?_name g] at this
  exact (Option.some.inj this).symm

end Field

end SlicePolicy
