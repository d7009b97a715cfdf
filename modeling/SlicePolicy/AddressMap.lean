import SlicePolicy.Error
import SlicePolicy.Violation

namespace SlicePolicy

/-!
# Address maps

A slice has switches and ports of its own, which stand for physical ones.

* `AddressMap` — where every logical switch and port lies. No two switches share a physical
  switch, no two ports share a physical port, and a port lies on the switch that its own switch
  is mapped to; a map that breaks one of these rules cannot be built.
* `AddressMap.ofEntries` — builds a map, or says which entry breaks a rule.
* `AddressMap.physicalSwitch`, `AddressMap.physicalLocation`, `AddressMap.physicalPattern` — the
  physical counterparts.
-/

/-- An entry of an address map that breaks a rule. -/
inductive AddressDefect
  /-- The physical switch already belongs to another switch. -/
  | switchTaken (logical physical : Value)
  /-- The physical port already belongs to another port. -/
  | portTaken (logical physical : Location)
  /-- The port lies on another switch than the one that its own switch is mapped to. -/
  | otherSwitch (logical physical : Location) (mapped : Value)
  /-- The switch of the port is not mapped. -/
  | unmappedSwitch (logical : Location)
  deriving DecidableEq, Repr

namespace AddressDefect

/-- The rule that is broken, and by which entry. -/
def violation : AddressDefect → Violation
  | switchTaken logical physical =>
    ⟨"AddressMap", "switch map is not injective",
      some ("switch " ++ logical.text ++ " maps to taken " ++ physical.text)⟩
  | portTaken logical physical =>
    ⟨"AddressMap", "port map is not injective",
      some (logical.text ++ " maps to taken " ++ physical.text)⟩
  | otherSwitch logical physical mapped =>
    ⟨"AddressMap", "port map disagrees with switch map",
      some (logical.text ++ " maps to " ++ physical.text ++ " but switch " ++
        logical.switch.text ++ " maps to " ++ mapped.text)⟩
  | unmappedSwitch logical =>
    ⟨"AddressMap", "port map names an unmapped switch", some logical.text⟩

/-- The first switch entry whose physical switch is among those already taken. -/
def inSwitches (taken : List Value) : List (Value × Value) → Option AddressDefect
  | [] => none
  | (logical, physical) :: rest =>
    if physical ∈ taken then some (switchTaken logical physical)
    else inSwitches (physical :: taken) rest

/-- The first port entry whose physical port is among those already taken, or which does not
    follow the switch map. -/
def inPorts (switches : Std.TreeMap Value Value) (taken : List Location) :
    List (Location × Location) → Option AddressDefect
  | [] => none
  | (logical, physical) :: rest =>
    if physical ∈ taken then some (portTaken logical physical)
    else match switches[logical.switch]? with
      | none => some (unmappedSwitch logical)
      | some mapped =>
        if mapped = physical.switch then inPorts switches (physical :: taken) rest
        else some (otherSwitch logical physical mapped)

/-- The first entry that breaks a rule: switches before ports, each in increasing order. -/
def find (switches : Std.TreeMap Value Value) (ports : Std.TreeMap Location Location) :
    Option AddressDefect :=
  (inSwitches [] switches.toList).or (inPorts switches [] ports.toList)

end AddressDefect

/-- The physical switch of every logical switch, and the physical port of every logical port. -/
structure AddressMap where
  switches : Std.TreeMap Value Value
  ports : Std.TreeMap Location Location
  no_defect : AddressDefect.find switches ports = none

namespace AddressMap

/-- The map of nothing. -/
def empty : AddressMap := ⟨∅, ∅, rfl⟩

instance : EmptyCollection AddressMap := ⟨empty⟩

/-- The map of some switch and port entries, where the last entry of a key wins. -/
def ofEntries (switchEntries : List (Value × Value)) (portEntries : List (Location × Location)) :
    Except Error AddressMap :=
  let switches := Std.TreeMap.ofList switchEntries
  let ports := Std.TreeMap.ofList portEntries
  match h : AddressDefect.find switches ports with
  | none => .ok ⟨switches, ports, h⟩
  | some defect => .error (.inconsistentAddressMap defect.violation.text)

/-- The physical switch of a switch. -/
def physicalSwitch (m : AddressMap) (switch : Value) : Except Error Value :=
  match m.switches[switch]? with
  | some physical => .ok physical
  | none => .error (.unaddressable ⟨switch, wildcard⟩ .unmappedSwitch)

/-- The physical port of a port. -/
def physicalLocation (m : AddressMap) (l : Location) : Except Error Location :=
  match m.ports[l]? with
  | some physical => .ok physical
  | none => .error (.unaddressable l .unmappedPort)

/-- The physical counterpart of a pattern: wildcards stay, and a concrete port has to come with a
    concrete switch. -/
def physicalPattern (m : AddressMap) (l : Location) : Except Error Location :=
  if l.switch = wildcard then
    if l.port = wildcard then .ok l else .error (.unaddressable l .wildcardSwitch)
  else if l.port = wildcard then
    (m.physicalSwitch l.switch).map fun physical => ⟨physical, wildcard⟩
  else m.physicalLocation l

end AddressMap

end SlicePolicy
