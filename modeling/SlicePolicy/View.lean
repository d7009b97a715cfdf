import SlicePolicy.Formula.Assignment
import SlicePolicy.Packet

namespace SlicePolicy

/-!
# Views of symbolic packets

All fields of a symbolic packet are read through a view, which can put other terms in the place of
some of them: this is how "the same packet with another tag" is written.

* `View.term` — the term that a field is read as.
* `View.packet`, `View.location?` — what is read through a view under an assignment.
-/

/-- A symbolic packet with some fields replaced by other terms. -/
structure View where
  var : PacketVar
  overrides : KeyMap Field Term
  deriving DecidableEq

namespace View

/-- The packet itself. -/
def ofVar (p : PacketVar) : View := ⟨p, ∅⟩

/-- The view with a field replaced as well. -/
def replace (w : View) (f : Field) (t : Term) : View :=
  { w with overrides := w.overrides.insert f t }

/-- The term that a field of the view is read as. -/
def term (w : View) (f : Field) : Term := (w.overrides.get? f).getD (.field f w.var)

/-- The packet that is read; a header is unset where its term has no value. -/
def packet (w : View) (a : Assignment) : Packet := ⟨⟨fun h => a.term? (w.term (.header h))⟩⟩

/-- The location that is read, if both of its terms have values. -/
def location? (w : View) (a : Assignment) : Option Location :=
  (a.term? (w.term .switch)).bind fun s => (a.term? (w.term .port)).map fun p => ⟨s, p⟩

end View

end SlicePolicy
