import SlicePolicy.Encoding
import SlicePolicy.Query

namespace SlicePolicy.Query

/-!
# The queries of the checks

Every property is checked by asking for packets that violate it, so each query here has a
solution exactly when its property fails. A field "up to" which two policies are compared is the
one the slice compiler sets for tagging: the second policy may use any values for it.
-/

/-! ### Packets and variables -/

/-- A packet that a policy gets. -/
def pIn : PacketVar := ⟨"p_in"⟩

/-- A packet that a policy sends. -/
def pOut : PacketVar := ⟨"p_out"⟩

/-- The packet at the start of a path. -/
def p : PacketVar := ⟨"p"⟩

/-- What the first node of a path sends. -/
def pp : PacketVar := ⟨"pp"⟩

/-- The packet at the second node of a path. -/
def q : PacketVar := ⟨"q"⟩

/-- What the second node of a path sends. -/
def qq : PacketVar := ⟨"qq"⟩

/-- The packet whose outputs must be preserved. -/
def p1In : PacketVar := ⟨"p1_in"⟩

/-- An output that must be preserved. -/
def p1Out : PacketVar := ⟨"p1_out"⟩

/-- The packet that must not get new outputs. -/
def p2In : PacketVar := ⟨"p2_in"⟩

/-- An output that must not be new. -/
def p2Out1 : PacketVar := ⟨"p2_out1"⟩

/-- Another output of the same packet. -/
def p2Out2 : PacketVar := ⟨"p2_out2"⟩

/-- The packet that the first policy gets. -/
def pkt1 : PacketVar := ⟨"pkt1"⟩

/-- What the first policy sends. -/
def pkt2 : PacketVar := ⟨"pkt2"⟩

/-- The packet that the second policy gets over a link. -/
def pkt3 : PacketVar := ⟨"pkt3"⟩

/-- What the second policy sends. -/
def pkt4 : PacketVar := ⟨"pkt4"⟩

/-- The packet at the other end of a link. -/
def hop : PacketVar := ⟨"hop"⟩

/-- What is sent on from there. -/
def hopOut : PacketVar := ⟨"hop_out"⟩

/-- Another packet that the policy gets. -/
def otherIn : PacketVar := ⟨"other_in"⟩

/-- What is sent for the other packet. -/
def otherOut : PacketVar := ⟨"other_out"⟩

/-- A view of a packet with a variable in the place of a field. -/
def relax (x : PacketVar) (f : Field) (v : IntVar) : View := (View.ofVar x).replace f (.var v)

/-- The policy sends the second packet when it gets the first. -/
def sends (policy : Policy) (input output : PacketVar) : Formula :=
  policy.encodeForwards (.ofVar input) (.ofVar output)

/-! ### Queries -/

/-- A packet that the policy forwards. -/
def notEmpty (policy : Policy) : Query where
  packets := [pIn, pOut]
  assertions := [sends policy pIn pOut]

/-- An output of the first policy that the second lacks, or one of the second that the first
    lacks on a packet that the first forwards as well. -/
def equivalent (policy₁ policy₂ : Policy) : Query where
  packets := [p1In, p1Out, p2In, p2Out1, p2Out2]
  assertions :=
    let preserved := Formula.mkImplies (sends policy₁ p1In p1Out) (sends policy₂ p1In p1Out)
    let nothingNew :=
      Formula.mkImplies (.mkAnd [sends policy₂ p2In p2Out1, sends policy₁ p2In p2Out2])
        (sends policy₁ p2In p2Out1)
    [.mkNot (.mkAnd [preserved, nothingNew])]

/-- An output of the first policy that the second does not have, whatever the values of the field
    in the packet and in the output. -/
def simulates (a b : Policy) (field : Field) : Query where
  packets := [p, pp]
  assertions :=
    let v : IntVar := ⟨"v"⟩
    let vv : IntVar := ⟨"vv"⟩
    [sends a p pp,
      .mkForAll [v, vv] (.mkNot (b.encodeForwards (relax p field v) (relax pp field vv)))]

/-- A packet that the first policy reports to a tap to which the second does not report it,
    whatever the value of the field. -/
def simulatesObserves (a b : Policy) (field : Field) : Query where
  packets := [p]
  assertions :=
    let tap : IntVar := ⟨"tap"⟩
    let v : IntVar := ⟨"v"⟩
    [a.encodeObserves (.ofVar p) (.var tap),
      .mkForAll [v] (.mkNot (b.encodeObserves (relax p field v) (.var tap)))]

/-- A path of the first policy over one link that the second does not have, whatever the values of
    the field; the field keeps its value on the link. -/
def simulatesTwoHop (w : Wiring) (a b : Policy) (field : Field) : Query where
  packets := [p, pp, q, qq]
  assertions :=
    let v1 : IntVar := ⟨"v1"⟩
    let v2 : IntVar := ⟨"v2"⟩
    let v3 : IntVar := ⟨"v3"⟩
    let first := b.encodeForwards (relax p field v1) (relax pp field v2)
    let second := b.encodeForwards (relax q field v2) (relax qq field v3)
    [sends a p pp, w.encodeTransfer pp q, sends a q qq,
      .mkForAll [v1, v2, v3] (.mkNot (.mkAnd [first, second]))]

/-- Two packets that the policy sends into the same link with different values of the field,
    where one of them is sent on at the other end. -/
def onePerEdge (w : Wiring) (policy : Policy) (field : Field) : Query where
  packets := [pIn, pOut, hop, hopOut, otherIn, otherOut]
  assertions :=
    let agree (f : Field) := Formula.mkEq (.field f pOut) (.field f otherOut)
    [sends policy pIn pOut, w.encodeTransfer pOut hop, sends policy hop hopOut,
      sends policy otherIn otherOut, agree .switch, agree .port, .mkNot (agree field)]

/-- A packet that the first policy sends into a link and the second sends on at the other end. -/
def isolation (w : Wiring) (policy₁ policy₂ : Policy) : Query where
  packets := [pkt1, pkt2, pkt3, pkt4]
  assertions := [sends policy₁ pkt1 pkt2, w.encodeTransfer pkt2 pkt3, sends policy₂ pkt3 pkt4]

end SlicePolicy.Query
