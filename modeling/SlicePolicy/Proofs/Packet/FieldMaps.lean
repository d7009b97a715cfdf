import Mathlib.Data.List.Basic
import SlicePolicy.Error

namespace SlicePolicy

/-!
# Maps of fields and maps of headers

Packets and actions hold values of headers, while those who build them name fields. A map of fields can
have values for the location as well; they can be left out of it, and it is a map of headers if there
are none.

* `KeyMap.HeadersOnly`, `KeyMap.dropLocation`, `KeyMap.firstLocation?` — location fields in a map.
* `KeyMap.dropLocation_insertAll_congr` — they can be left out at any time.
* `Header.asFields` — headers as fields, with their entries (`Header.toList_asFields`).
* `Header.isName`, `Field.ofName?_eq_some_iff` — names of headers and of fields.
-/

/-! ### Location fields in a map -/

namespace KeyMap

/-- No location field has a value. -/
def HeadersOnly (m : KeyMap Field Value) : Prop := ∀ f : Field, f.isLocation = true → m.get? f = none

/-- The map without its location fields. -/
def dropLocation (m : KeyMap Field Value) : KeyMap Field Value :=
  ⟨fun f => if f.isLocation then none else m.get? f⟩

/-- The first location field that has a value, in the order of the fields. -/
def firstLocation? (m : KeyMap Field Value) : Option Field :=
  (m.toList.map Prod.fst).find? Field.isLocation

/-- There is nothing to leave out of a map of headers. -/
theorem HeadersOnly.dropLocation_eq {m : KeyMap Field Value} (h : m.HeadersOnly) :
    m.dropLocation = m := by
  refine KeyMap.ext (funext fun f => ?_)
  show (if f.isLocation then none else m.get? f) = m.get? f
  split
  · next hf => exact (h f hf).symm
  · rfl

theorem dropLocation_insert_of_isLocation (m : KeyMap Field Value) {f : Field}
    (hf : f.isLocation = true) (v : Value) : (m.insert f v).dropLocation = m.dropLocation := by
  refine KeyMap.ext (funext fun g => ?_)
  simp only [dropLocation, get?_insert]
  split
  · rfl
  · next hg =>
    have hgf : g ≠ f := fun h => hg (h ▸ hf)
    rw [if_neg hgf]

/-- What is left out before an entry is added is left out after it as well. -/
theorem dropLocation_insert_congr {m n : KeyMap Field Value} (h : m.dropLocation = n.dropLocation)
    (f : Field) (v : Value) : (m.insert f v).dropLocation = (n.insert f v).dropLocation := by
  refine KeyMap.ext (funext fun g => ?_)
  have hg : m.dropLocation.get? g = n.dropLocation.get? g := by rw [h]
  simp only [dropLocation, get?_insert] at hg ⊢
  split_ifs at hg ⊢
  · rfl
  · rfl
  · exact hg

theorem dropLocation_insertAll_congr {m n : KeyMap Field Value}
    (h : m.dropLocation = n.dropLocation) (es : List (Field × Value)) :
    (m.insertAll es).dropLocation = (n.insertAll es).dropLocation := by
  induction es generalizing m n with
  | nil => exact h
  | cons e es ih => exact ih (dropLocation_insert_congr h e.1 e.2)

end KeyMap

/-! ### Headers as fields -/

namespace Header

/-- The values of headers, as those of the fields that are headers. -/
def asFields (headers : KeyMap Header Value) : KeyMap Field Value :=
  ⟨fun f => f.header?.bind headers.get?⟩

theorem headersOnly_asFields (headers : KeyMap Header Value) : (asFields headers).HeadersOnly := by
  intro f hf
  cases f with
  | switch => rfl
  | port => rfl
  | header h => exact absurd hf Bool.false_ne_true

theorem asFields_empty : asFields ∅ = ∅ :=
  KeyMap.ext (funext fun f => by cases f <;> rfl)

theorem asFields_insert (headers : KeyMap Header Value) (h : Header) (v : Value) :
    asFields (headers.insert h v) = (asFields headers).insert (.header h) v := by
  refine KeyMap.ext (funext fun f => ?_)
  cases f with
  | switch => rfl
  | port => rfl
  | header k => simp [asFields, KeyMap.get?_insert, Field.header?]

theorem asFields_insertAll (headers : KeyMap Header Value) (es : List (Header × Value)) :
    asFields (headers.insertAll es)
      = (asFields headers).insertAll (es.map fun e => (.header e.1, e.2)) := by
  induction es generalizing headers with
  | nil => rfl
  | cons e es ih =>
    show asFields ((headers.insert e.1 e.2).insertAll es) = _
    rw [ih, asFields_insert]
    rfl

theorem asFields_ofList (es : List (Header × Value)) :
    asFields (.ofList es) = .ofList (es.map fun e => (.header e.1, e.2)) := by
  rw [KeyMap.ofList, asFields_insertAll, asFields_empty]
  rfl

/-- The location fields come first and have no values. -/
theorem toList_asFields (headers : KeyMap Header Value) :
    (asFields headers).toList = headers.toList.map fun e => (.header e.1, e.2) := by
  have hheaders : ∀ hs : List Header,
      (hs.map Field.header).filterMap (fun f => ((asFields headers).get? f).map (f, ·))
        = (hs.filterMap fun h => (headers.get? h).map (h, ·)).map fun e => (.header e.1, e.2) := by
    intro hs
    rw [List.filterMap_map, List.map_filterMap]
    refine List.filterMap_congr fun h _ => ?_
    show (headers.get? h).map (Field.header h, ·) = _
    rw [Option.map_map]
    rfl
  exact hheaders Header.all

/-- Whether a string is the name of a header. -/
def isName (s : String) : Bool := all.any fun h => h.name = s

end Header

namespace Field

theorem ofName?_eq_some_iff {s : String} {f : Field} : ofName? s = some f ↔ f.name = s := by
  constructor
  · intro h
    simpa using List.find?_some h
  · rintro rfl
    exact ofName?_name f

theorem isLocation_eq_false_iff {f : Field} : f.isLocation = false ↔ ∃ h, f = .header h := by
  cases f <;> simp [isLocation]

theorem header?_of_isLocation {f : Field} (hf : f.isLocation = true) : f.header? = none := by
  cases f with
  | switch => rfl
  | port => rfl
  | header h => exact absurd hf Bool.false_ne_true

end Field

end SlicePolicy
