import SlicePolicy.AddressMap
import SlicePolicy.Policy

namespace SlicePolicy

/-!
# Physical forms of policies

A policy of a slice is written for the slice's own switches and ports. Its physical form has the
same shape and names the physical ones; it exists if every location in the policy has a physical
counterpart, and otherwise the first that has none is reported, from left to right.
-/

/-- The predicate on physical locations. -/
def Predicate.physical (m : AddressMap) : Predicate → Except Error Predicate
  | .top => .ok .top
  | .bottom => .ok .bottom
  | .test f v =>
    if v = wildcard then .ok (.test f v)
    else match f with
      | .switch => do
        let physical ← m.physicalPattern ⟨v, wildcard⟩
        pure (.test .switch physical.switch)
      | .port => do
        let physical ← m.physicalPattern ⟨wildcard, v⟩
        pure (.test .port physical.port)
      | .header h => .ok (.test (.header h) v)
  | .located pattern => (m.physicalPattern pattern).map .located
  | .union p q => do
    let p' ← p.physical m
    let q' ← q.physical m
    pure (.union p' q')
  | .inter p q => do
    let p' ← p.physical m
    let q' ← q.physical m
    pure (.inter p' q')
  | .diff p q => do
    let p' ← p.physical m
    let q' ← q.physical m
    pure (.diff p' q')

/-- The action at the physical switch. An action on any switch has no ports, or is refused at the
    first. -/
def Action.physical (m : AddressMap) (a : Action) : Except Error Action :=
  if a.switch = wildcard then
    match a.ports with
    | [] => .ok a
    | port :: _ => .error (.unaddressable ⟨a.switch, port⟩ .wildcardSwitch)
  else do
    let switch ← m.physicalSwitch a.switch
    let ports ← a.ports.mapM fun port =>
      (m.physicalLocation ⟨a.switch, port⟩).map Location.port
    pure { a with switch, ports }

/-- The policy on physical locations. -/
def Policy.physical (m : AddressMap) : Policy → Except Error Policy
  | .bottom => .ok .bottom
  | .branch guard acts => do
    let guard' ← guard.physical m
    let acts' ← acts.mapM (Action.physical m)
    pure (.branch guard' acts')
  | .union p q => do
    let p' ← p.physical m
    let q' ← q.physical m
    pure (.union p' q')

end SlicePolicy
