import SlicePolicy.Error
import SlicePolicy.Text.Layout

namespace SlicePolicy

/-!
# Packets

A packet gives values to some headers. Where it is belongs to the network and not to the packet,
so the location fields cannot be stored: building from a list of fields leaves them out, and
building from names refuses them.
-/

/-- The entries of a packet or of a model as shown: names and values in curly brackets. -/
def fieldsText (entries : List (Field × Value)) : String :=
  Text.braced (entries.map fun e => e.1.name ++ ": " ++ e.2.text)

/-- A packet: the headers that are set, with their values. -/
@[ext] structure Packet where
  headers : KeyMap Header Value
  deriving DecidableEq, Inhabited

namespace Packet

/-- The packet with no header set. -/
def blank : Packet := ⟨∅⟩

/-- The value of a field; location fields are never set. -/
def get? (p : Packet) (f : Field) : Option Value := f.header?.bind p.headers.get?

/-- The value of a field of the packet at a location. -/
def read (p : Packet) (l : Location) : Field → Option Value
  | .switch => some l.switch
  | .port => some l.port
  | .header h => p.headers.get? h

/-- The packet with one field set; a location field is left out. -/
def set (p : Packet) (f : Field) (v : Value) : Packet :=
  match f.header? with
  | some h => ⟨p.headers.insert h v⟩
  | none => p

/-- The packet with the fields of a list set one after the other. -/
def overwrite (p : Packet) (fields : List (Field × Value)) : Packet :=
  fields.foldl (fun p e => p.set e.1 e.2) p

/-- The packet of a list of fields: the last value of a header wins, location fields are left
    out. -/
def ofFields (fields : List (Field × Value)) : Packet := blank.overwrite fields

/-- A field that is about to be stored in a packet. -/
def headerOf (f : Field) : Except Error Header :=
  match f.header? with
  | some h => .ok h
  | none => .error (.carriesLocation f)

/-- The packet with exactly the given fields; the first location field is refused. -/
def ofExactly (fields : KeyMap Field Value) : Except Error Packet := do
  let headers ← fields.toList.mapM fun e => do
    let h ← headerOf e.1
    pure (h, e.2)
  pure ⟨KeyMap.ofList headers⟩

/-- The packet of a list of names with values; the first name that is unknown or names a location
    field is refused. -/
def ofNamed (entries : List (String × Value)) : Except Error Packet := do
  let headers ← entries.mapM fun e => do
    let h ← headerOf (← Field.ofName e.1)
    pure (h, e.2)
  pure ⟨KeyMap.ofList headers⟩

/-- The set fields with their values, in header order. -/
def toList (p : Packet) : List (Field × Value) :=
  p.headers.toList.map fun e => (.header e.1, e.2)

/-- The packet as shown. -/
def text (p : Packet) : String := fieldsText p.toList

@[simp] theorem get?_switch (p : Packet) : p.get? .switch = none := rfl

@[simp] theorem get?_port (p : Packet) : p.get? .port = none := rfl

@[simp] theorem get?_header (p : Packet) (h : Header) :
    p.get? (.header h) = p.headers.get? h := rfl

end Packet

end SlicePolicy
