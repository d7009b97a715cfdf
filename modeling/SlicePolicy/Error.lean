import SlicePolicy.Field
import SlicePolicy.Location
import SlicePolicy.Text.Quoted

namespace SlicePolicy

/-!
# Errors

Every refusal of the library is an `Error`, which keeps the cause; `Error.message` is the only
place where causes are put into words.
-/

/-- Why a location has no physical counterpart. -/
inductive AddressFailure
  /-- A concrete port on any switch names no single port. -/
  | wildcardSwitch
  | unmappedSwitch
  | unmappedPort
  deriving DecidableEq, Repr

namespace AddressFailure

/-- The reason in words. -/
def message : AddressFailure → String
  | wildcardSwitch => "switch is wildcarded but port is concrete"
  | unmappedSwitch => "switch is not in the switch map"
  | unmappedPort => "port is not in the port map"

end AddressFailure

/-- Why an operation was refused. -/
inductive Error
  | unaddressable (location : Location) (reason : AddressFailure)
  | unknownField (name : String)
  /-- An action was to change where the packet is. -/
  | modifiesLocation (field : Field)
  /-- A packet was to store where it is. -/
  | carriesLocation (field : Field)
  | inconsistentAddressMap (info : String)
  | invalidTopology (info : String)
  | invalidConfig (setting info : String)
  /-- The solver gave up on the query of a check. -/
  | solverUnknown (check reason : String)
  /-- The solver itself failed. -/
  | backend (context : String)
  deriving DecidableEq, Repr

namespace Error

/-- The error in words. -/
def message : Error → String
  | unaddressable location reason =>
    "Cannot translate location " ++ location.text ++ " to physical addressing: " ++ reason.message
  | unknownField name => "Unknown header field: " ++ Text.quoted name
  | modifiesLocation field => "Actions cannot modify the location field " ++ field.name
  | carriesLocation field =>
    "Packets cannot carry the location field " ++ field.name ++ " as a header"
  | inconsistentAddressMap info => "Inconsistent address map: " ++ info
  | invalidTopology info => "Invalid topology: " ++ info
  | invalidConfig setting info =>
    "Invalid verifier configuration for " ++ setting ++ ": " ++ info
  | solverUnknown check reason => "Solver returned unknown during " ++ check ++ ": " ++ reason
  | backend context => "Solver backend error (please report as bug): " ++ context

end Error

/-- The field of a name. -/
def Field.ofName (s : String) : Except Error Field :=
  match Field.ofName? s with
  | some f => .ok f
  | none => .error (.unknownField s)

end SlicePolicy
