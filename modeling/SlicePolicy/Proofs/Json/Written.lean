import SlicePolicy.Json.Format
import SlicePolicy.Proofs.Json.Laws
import SlicePolicy.Proofs.Packet.StoredFields

namespace SlicePolicy

/-!
# Reading back packets, actions, predicates and policies

What is written with a lawful library is a document that its readers make the same value of. Packets and
actions are rebuilt from a map of fields that holds headers only, so that no step of rebuilding them is
refused.

* `Field.key_eq`, `Field.nodup_keys` — names of fields.
* `Field.reads`, `reads_writeFields`, `reads_headers`, `reads_writeIntegers` — the parts of records.
* `Location.reads`, `Packet.reads`, `Action.reads` — records.
* `Packet.reads_unchecked`, `Action.reads_unchecked` — records with any fields in them.
* `Predicate.reads`, `Policy.reads` — trees, by induction on the tree.
-/

open Json (Library Semantics Kind)

variable {L : Library} {S : Semantics L}

/-! ### Fields and integers -/

namespace Field

/-- A field has its name as its key. -/
theorem key_eq (hS : S.Lawful) (f : Field) : f.key L = f.name := by
  rw [key, hS.lowercase_eq]
  cases f with
  | switch => rfl
  | port => rfl
  | header h => cases h <;> rfl

theorem nodup_map_key (hS : S.Lawful) : (all.map (key L)).Nodup := by
  have hnames : all.map (key L) = all.map name := List.map_congr_left fun f _ => f.key_eq hS
  rw [hnames]
  decide

theorem nodup_keys (hS : S.Lawful) : ((keys L).map Prod.fst).Nodup := by
  rw [keys, List.map_map]
  exact nodup_map_key hS

theorem reads (hS : S.Lawful) (f : Field) : S.Reads (Field.deserializer L) (f.write L) f := by
  have hnames : ((kinds L).map Kind.name).Nodup := by
    rw [kinds, List.map_map]
    exact nodup_map_key hS
  exact hS.reads_writeBare rfl hnames (List.mem_map_of_mem (Listed.mem_all f))

end Field

theorem reads_writeFields (hS : S.Lawful) (fields : List (Field × Value)) :
    S.Reads (fieldsDeserializer L) (writeFields L fields) (KeyMap.ofList fields) := by
  rw [writeFields, hS.writeMap_eq]
  refine hS.reads_map (hS.reads_entries (Field.nodup_keys hS) ?_)
  refine List.forall₂_map_left_iff.2 (List.forall₂_same.2 fun e _ => ⟨?_, hS.reads_writeInteger e.2⟩)
  exact List.mem_map_of_mem (Listed.mem_all e.1)

/-- The fields of headers are read as a map that holds these headers only. -/
theorem reads_headers (hS : S.Lawful) (headers : KeyMap Header Value) :
    S.Reads (fieldsDeserializer L)
      (writeFields L (headers.toList.map fun e => (.header e.1, e.2))) (Header.asFields headers) := by
  have hfields : KeyMap.ofList (headers.toList.map fun e => (Field.header e.1, e.2))
      = Header.asFields headers := by
    rw [← Header.toList_asFields, KeyMap.ofList_toList]
  rw [← hfields]
  exact reads_writeFields hS _

theorem reads_writeIntegers (hS : S.Lawful) (vs : List Value) :
    S.Reads (L.list L.integer) (writeIntegers L vs) vs :=
  hS.reads_writeList fun v _ => hS.reads_writeInteger v

/-! ### Records -/

theorem Location.reads (hS : S.Lawful) (l : Location) :
    S.Reads (Location.deserializer L) (l.write L) l := by
  have hnames : (members L).names.Nodup := by
    show ["switch", "port"].Nodup
    decide
  have hrecord : S.Reads (L.record (members L)) (l.write L) (l.switch, l.port, ()) :=
    hS.reads_writeRecord hnames (.inl ⟨_, _, rfl, hS.reads_writeInteger l.switch,
      .inl ⟨_, _, rfl, hS.reads_writeInteger l.port, rfl⟩⟩)
  exact hS.reads_map hrecord

namespace Packet

/-- A record of fields is read as these fields, whichever they are. -/
theorem reads_unchecked (hS : S.Lawful) {v : Json} {m : KeyMap Field Value}
    (h : S.Reads (fieldsDeserializer L) v m) :
    S.Reads (unchecked L) (L.writeRecord [("fields", v)]) m := by
  have hnames : (members L).names.Nodup := by
    show ["fields"].Nodup
    decide
  have hrecord : S.Reads (L.record (members L)) (L.writeRecord [("fields", v)]) (m, ()) :=
    hS.reads_writeRecord hnames (.inl ⟨_, _, rfl, h, rfl⟩)
  exact hS.reads_map hrecord

theorem reads (hS : S.Lawful) (p : Packet) : S.Reads (Packet.deserializer L) (p.write L) p :=
  hS.reads_check (reads_unchecked hS (reads_headers hS p.headers)) (ofExactly_eq_ok_iff.2 rfl)

end Packet

namespace Action

/-- A record of an action is read as this action, whichever fields it changes. -/
theorem reads_unchecked (hS : S.Lawful) (u : Unchecked) {v : Json}
    (h : S.Reads (fieldsDeserializer L) v u.modify) : S.Reads (unchecked L) (L.writeRecord
      [("switch", L.writeInteger u.switch), ("ports", writeIntegers L u.ports), ("modify", v),
        ("observe", writeIntegers L u.observe.toList)]) u := by
  have hnames : (members L).names.Nodup := by
    show ["switch", "ports", "modify", "observe"].Nodup
    decide
  have htaps : S.Reads (L.map TapSet.ofList (L.list L.integer)) (writeIntegers L u.observe.toList)
      u.observe := by
    have hread := hS.reads_map (f := TapSet.ofList) (reads_writeIntegers hS u.observe.toList)
    rwa [TapSet.ofList_toList] at hread
  have hrecord : S.Reads (L.record (members L)) (L.writeRecord
      [("switch", L.writeInteger u.switch), ("ports", writeIntegers L u.ports), ("modify", v),
        ("observe", writeIntegers L u.observe.toList)])
      (u.switch, u.ports, u.modify, u.observe, ()) :=
    hS.reads_writeRecord hnames (.inl ⟨_, _, rfl, hS.reads_writeInteger u.switch,
      .inl ⟨_, _, rfl, reads_writeIntegers hS u.ports,
        .inl ⟨_, _, rfl, h, .inl ⟨_, _, rfl, htaps, rfl⟩⟩⟩⟩)
  exact hS.reads_map hrecord

/-- The action as it is read before it is checked. -/
def toUnchecked (a : Action) : Unchecked := ⟨a.switch, a.ports, a.changed, a.observe⟩

/-- An action is rebuilt as it was. -/
theorem rebuild_toUnchecked (a : Action) : a.toUnchecked.rebuild = .ok a := by
  have hmodify : (∅ : KeyMap Header Value).insertAll a.modify.toList = a.modify :=
    KeyMap.ofList_toList a.modify
  have hobserve : (∅ : TapSet).insertAll a.observe.toList = a.observe :=
    TapSet.ofList_toList a.observe
  -- the taps and the changed headers are put back in one by one
  show ((sendTo a.switch a.ports).reportingTo a.observe.toList).modifyingAll a.changed.toList = .ok a
  rw [changed, Header.toList_asFields, modifyingAll_headers]
  show Except.ok (⟨a.switch, a.ports, (∅ : KeyMap Header Value).insertAll a.modify.toList,
    (∅ : TapSet).insertAll a.observe.toList⟩ : Action) = _
  rw [hmodify, hobserve]

theorem reads (hS : S.Lawful) (a : Action) : S.Reads (Action.deserializer L) (a.write L) a :=
  hS.reads_check (reads_unchecked hS a.toUnchecked (reads_headers hS a.modify)) a.rebuild_toUnchecked

end Action

/-! ### Trees -/

variable (R : TreeReaders L)

namespace Predicate

theorem nodup_names (inner : L.Reader Predicate) : ((kinds L inner).map Kind.name).Nodup := by
  show ["Top", "Bottom", "Header", "Location", "Union", "Intersection", "Difference"].Nodup
  decide

/-- What is made of two predicates is read if they are. -/
theorem reads_operation (hS : S.Lawful) {name : String} {op : Predicate → Predicate → Predicate}
    {p q : Predicate} {v w : Json}
    (hk : .contents name (L.pair R.predicates R.predicates) (fun e => op e.1 e.2)
      ∈ kinds L R.predicates) (hp : S.Reads R.predicates v p) (hq : S.Reads R.predicates w q) :
    S.Reads R.predicates (L.writeContents name (L.writePair v w)) (op p q) :=
  (hS.reads_writeContents R.predicates_eq (nodup_names _) hk (hS.reads_writePair hp hq) :)

/-- **Predicates.** A predicate is read back from its document. -/
theorem reads (hS : S.Lawful) (p : Predicate) : S.Reads R.predicates (p.write L) p := by
  have hR := R.predicates_eq
  have hnames := nodup_names R.predicates
  induction p with
  | top => exact hS.reads_writeBare hR hnames (by simp [kinds])
  | bottom => exact hS.reads_writeBare hR hnames (by simp [kinds])
  | test f v =>
    have hk : .contents "Header" (L.pair (Field.deserializer L) L.integer) (fun e => test e.1 e.2)
        ∈ kinds L R.predicates := by simp [kinds]
    have hparts := hS.reads_writePair (f.reads hS) (hS.reads_writeInteger v)
    exact (hS.reads_writeContents hR hnames hk hparts :)
  | located pattern => exact hS.reads_writeContents hR hnames (by simp [kinds]) (pattern.reads hS)
  | union p q hp hq => exact reads_operation R hS (by simp [kinds]) hp hq
  | inter p q hp hq => exact reads_operation R hS (by simp [kinds]) hp hq
  | diff p q hp hq => exact reads_operation R hS (by simp [kinds]) hp hq

end Predicate

namespace Policy

theorem nodup_names (guards : L.Reader Predicate) (inner : L.Reader Policy) :
    ((kinds L guards inner).map Kind.name).Nodup := by
  show ["Bottom", "Primitive", "Union"].Nodup
  decide

/-- **Policies.** A policy is read back from its document. -/
theorem reads (hS : S.Lawful) (p : Policy) : S.Reads R.policies (p.write L) p := by
  have hR := R.policies_eq
  have hkinds := nodup_names R.predicates R.policies
  induction p with
  | bottom => exact hS.reads_writeBare hR hkinds (by simp [kinds])
  | branch guard acts =>
    have hnames : (members L R.predicates).names.Nodup := by
      show ["predicate", "actions"].Nodup
      decide
    have hacts : S.Reads (L.list (Action.deserializer L)) (L.writeList (acts.map (Action.write L)))
        acts := hS.reads_writeList fun a _ => a.reads hS
    have hk : .contents "Primitive" (L.record (members L R.predicates)) (fun s => branch s.1 s.2.1)
        ∈ kinds L R.predicates R.policies := by simp [kinds]
    have hrecord : S.Reads (L.record (members L R.predicates)) (L.writeRecord
        [("predicate", guard.write L), ("actions", L.writeList (acts.map (Action.write L)))])
        (guard, acts, ()) :=
      hS.reads_writeRecord hnames (.inl ⟨_, _, rfl, guard.reads R hS, .inl ⟨_, _, rfl, hacts, rfl⟩⟩)
    exact (hS.reads_writeContents hR hkinds hk hrecord :)
  | union p q hp hq =>
    have hk : .contents "Union" (L.pair R.policies R.policies) (fun e => union e.1 e.2)
        ∈ kinds L R.predicates R.policies := by simp [kinds]
    exact (hS.reads_writeContents hR hkinds hk (hS.reads_writePair hp hq) :)

end Policy

end SlicePolicy
