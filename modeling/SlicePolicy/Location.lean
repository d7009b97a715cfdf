import SlicePolicy.Text.Decimal
import Std.Data.TreeMap

namespace SlicePolicy

/-!
# Locations

Switches, ports and header values are 64-bit integers. Zero names no switch and no port: in a
pattern it stands for any of them.

* `Location.Covers` — the pattern order, component by component.
* `Ord Location` — switch first, then port; sorted maps of locations list their entries this way.
-/

/-- A switch, a port, or the value of a header. -/
abbrev Value := Int64

/-- Reserved for "any switch" and "any port" in patterns, and for "any value" in tests. -/
def wildcard : Value := 0

/-- A value in base ten. -/
def Value.text (v : Value) : String := Text.integer v.toInt

/-- A port of a switch, or a pattern of such ports. -/
structure Location where
  switch : Value
  port : Value
  deriving DecidableEq, Repr, Inhabited

namespace Location

/-- Any port of any switch. -/
def anywhere : Location := ⟨wildcard, wildcard⟩

instance : Ord Location := ⟨compareLex (compareOn switch) (compareOn port)⟩

instance : Std.TransOrd Location :=
  inferInstanceAs (Std.TransCmp (compareLex (compareOn switch) (compareOn port)))

instance : Std.LawfulEqOrd Location where
  eq_of_compare := by
    intro a b h
    have h : compareLex (compareOn switch) (compareOn port) a b = .eq := h
    rw [compareLex_eq_eq] at h
    cases a
    cases b
    simp_all [compareOn]

/-- Whether `pattern` admits `l`: each component is a wildcard or the same. -/
def Covers (pattern l : Location) : Prop :=
  (pattern.switch = wildcard ∨ pattern.switch = l.switch) ∧
    (pattern.port = wildcard ∨ pattern.port = l.port)

instance (pattern l : Location) : Decidable (pattern.Covers l) :=
  inferInstanceAs (Decidable (_ ∧ _))

/-- A component as shown: a star for the wildcard. -/
def componentText (v : Value) : String := if v = wildcard then "*" else v.text

/-- The location as shown, for instance `(3, *)`. -/
def text (l : Location) : String :=
  "(" ++ componentText l.switch ++ ", " ++ componentText l.port ++ ")"

end Location

end SlicePolicy
