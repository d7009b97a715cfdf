import SlicePolicy.Formula.Folding
import SlicePolicy.Policy
import SlicePolicy.View
import SlicePolicy.Wiring

namespace SlicePolicy

/-!
# Encoding policies as formulas

Predicates, policies and wirings become formulas about symbolic packets, whose fields are read
through views.

* `Predicate.encode` — the packet is accepted.
* `Policy.encodeForwards` — the policy sends the second packet when it gets the first.
* `Policy.encodeObserves` — the policy reports the packet to a tap.
* `Wiring.encodeTransfer` — the second packet is the first one at the other end of a link.
-/

/-- The term has the value, or the value is the wildcard. -/
def encodeTest (value : Value) (t : Term) : Formula :=
  .mkOr [.const (value = wildcard), .mkEq t (.const value)]

/-- The packet is accepted where it is. -/
def Predicate.encode (w : View) : Predicate → Formula
  | .top => .const true
  | .bottom => .const false
  | .test f v => encodeTest v (w.term f)
  | .located pattern =>
    .mkAnd [encodeTest pattern.switch (w.term .switch), encodeTest pattern.port (w.term .port)]
  | .union p q => .mkOr [p.encode w, q.encode w]
  | .inter p q => .mkAnd [p.encode w, q.encode w]
  | .diff p q => .mkAnd [p.encode w, .mkNot (q.encode w)]

/-- The term that a header has after the changes of an action. -/
def Action.changedTerm (a : Action) (input : View) (h : Header) : Term :=
  match a.modify.get? h with
  | some v => .const v
  | none => input.term (.header h)

/-- The second packet is what the action sends out of a port when it gets the first. -/
def Action.encodeSends (a : Action) (port : Value) (input output : View) : Formula :=
  .mkAnd <|
    [.mkEq (output.term .switch) (.const a.switch), .mkEq (output.term .port) (.const port)] ++
      Header.all.map fun h => .mkEq (output.term (.header h)) (a.changedTerm input h)

/-- The second packet is something that the policy sends when it gets the first. -/
def Policy.encodeForwards (p : Policy) (input output : View) : Formula :=
  .mkOr <| p.branches.map fun b =>
    let sent := b.2.flatMap fun a => a.ports.map fun port => a.encodeSends port input output
    .mkAnd [b.1.encode input, .mkOr sent]

/-- The policy reports the packet to the tap. -/
def Policy.encodeObserves (p : Policy) (w : View) (tap : Term) : Formula :=
  .mkOr <| p.branches.map fun b =>
    let tapped := b.2.flatMap fun a => a.observe.toList.map fun t => .mkEq tap (.const t)
    .mkAnd [b.1.encode w, .mkOr tapped]

/-- The packet is at a location. -/
def encodeAt (p : PacketVar) (l : Location) : List Formula :=
  [.mkEq (.field .switch p) (.const l.switch), .mkEq (.field .port p) (.const l.port)]

/-- The second packet is the first one, with all headers unchanged, at the other end of a link. -/
def Wiring.encodeTransfer (w : Wiring) (sent received : PacketVar) : Formula :=
  .mkAnd <|
    .mkOr (w.hops.map fun hop => .mkAnd (encodeAt sent hop.1 ++ encodeAt received hop.2)) ::
      Header.all.map fun h =>
        .mkEq (.field (.header h) sent) (.field (.header h) received)

end SlicePolicy
