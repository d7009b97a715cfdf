import SlicePolicy.Packet
import SlicePolicy.TapSet

namespace SlicePolicy

/-!
# Actions

An action sends a packet out of some ports of one switch, with some headers changed, and reports it
to some taps.

* `Action.outputs` — one packet for each port, in the order of the ports.
* `Action.modifying` — changes one more header; where a packet is cannot be changed.
-/

/-- What a switch does with a packet. -/
structure Action where
  switch : Value
  /-- Repetitions and order are kept. -/
  ports : List Value
  modify : KeyMap Header Value
  observe : TapSet
  deriving DecidableEq, Inhabited

namespace Action

/-- The action that sends a packet unchanged out of some ports. -/
def sendTo (switch : Value) (ports : List Value) : Action := ⟨switch, ports, ∅, ∅⟩

/-- The action that sends a packet unchanged out of one port. -/
def forward (switch port : Value) : Action := sendTo switch [port]

/-- The action that sends a packet nowhere. -/
def dropOn (switch : Value) : Action := sendTo switch []

/-- The action with one more header changed; a location field is refused. -/
def modifying (a : Action) (f : Field) (v : Value) : Except Error Action :=
  match f.header? with
  | some h => .ok { a with modify := a.modify.insert h v }
  | none => .error (.modifiesLocation f)

/-- The action with several more fields changed; the first location field is refused. -/
def modifyingAll (a : Action) (entries : List (Field × Value)) : Except Error Action :=
  entries.foldlM (fun a e => a.modifying e.1 e.2) a

/-- The action with more taps. -/
def reportingTo (a : Action) (taps : List Value) : Action :=
  { a with observe := a.observe.insertAll taps }

/-- The changed fields with their new values, in header order. -/
def changes (a : Action) : List (Field × Value) :=
  a.modify.toList.map fun e => (.header e.1, e.2)

/-- A packet after the changes. -/
def applyTo (a : Action) (p : Packet) : Packet := ⟨p.headers.overlay a.modify⟩

/-- The packets sent, each with the location where it leaves. -/
def outputs (a : Action) (p : Packet) : List (Packet × Location) :=
  a.ports.map fun port => (a.applyTo p, ⟨a.switch, port⟩)

/-- The action as shown; taps appear only if there are any. -/
def text (a : Action) : String :=
  "fwd " ++ a.switch.text ++ " -> " ++ Text.bracketed (a.ports.map Value.text) ++
    String.join (a.changes.map fun e => " " ++ e.1.name ++ ":=" ++ e.2.text) ++
    if a.observe.isEmpty then "" else " obs " ++ a.observe.text

end Action

end SlicePolicy
