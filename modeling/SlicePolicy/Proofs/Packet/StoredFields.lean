import SlicePolicy.Action
import SlicePolicy.Proofs.Outcome
import SlicePolicy.Proofs.Packet.FieldMaps

namespace SlicePolicy

/-!
# What packets and actions store

What is stored is told from what was asked for. Building a packet from fields and changing it leaves
out those of the location; every other step either stores all that it was given or is refused, with
the first location field among it.

* `Packet.fields`, `Action.changed` — what is stored, as a map of fields.
* `Packet.fields_overwrite` — changing a packet leaves out location fields.
* `Packet.ofExactly_eq_ok_iff`, `Packet.ofNamed_eq_ok`, `Action.modifying_eq_ok` — what is stored by a
  step that is not refused.
* `Packet.ofExactly_eq_error_iff`, `Packet.ofNamed_eq_error_iff`, `Action.modifyingAll_eq_error_iff` —
  when a step is refused, and how.
* `Action.fields_applyTo` — what a packet stores once the changes are made.
-/

/-! ### Packets -/

namespace Packet

/-- What the packet stores, as a map of fields. -/
def fields (p : Packet) : KeyMap Field Value := ⟨p.get?⟩

theorem headersOnly_fields (p : Packet) : p.fields.HeadersOnly := Header.headersOnly_asFields _

theorem dropLocation_fields (p : Packet) : p.fields.dropLocation = p.fields :=
  p.headersOnly_fields.dropLocation_eq

/-- Setting a field leaves out a field of the location. -/
theorem fields_set (p : Packet) (f : Field) (v : Value) :
    (p.set f v).fields = (p.fields.insert f v).dropLocation := by
  cases hf : f.isLocation with
  | false =>
    obtain ⟨h, rfl⟩ := Field.isLocation_eq_false_iff.1 hf
    have hset : (p.set (.header h) v).fields = p.fields.insert (.header h) v :=
      Header.asFields_insert _ h v
    rw [← hset, dropLocation_fields]
  | true =>
    have hset : p.set f v = p := by rw [set, Field.header?_of_isLocation hf]
    rw [hset, KeyMap.dropLocation_insert_of_isLocation _ hf, dropLocation_fields]

/-- Setting fields one after the other leaves out those of the location, and nothing else. -/
theorem fields_overwrite (p : Packet) (es : List (Field × Value)) :
    (p.overwrite es).fields = (p.fields.insertAll es).dropLocation := by
  induction es generalizing p with
  | nil => exact p.dropLocation_fields.symm
  | cons e es ih =>
    -- the next field may be left out now or at the end
    have hset : (p.set e.1 e.2).fields.dropLocation = (p.fields.insert e.1 e.2).dropLocation := by
      rw [dropLocation_fields, fields_set]
    exact (ih (p.set e.1 e.2)).trans (KeyMap.dropLocation_insertAll_congr hset es)

/-! ### Packets of exactly given fields -/

/-- An entry that is about to be stored. -/
def keyed (e : Field × Value) : Except Error (Header × Value) :=
  (headerOf e.1).map (·, e.2)

theorem keyed_eq_ok_iff {e : Field × Value} {b : Header × Value} :
    keyed e = .ok b ↔ e = (.header b.1, b.2) := by
  obtain ⟨f, v⟩ := e
  obtain ⟨h, w⟩ := b
  cases f <;> simp [keyed, headerOf, Field.header?, Except.map]

theorem keyed_eq_error_iff {e : Field × Value} {err : Error} :
    keyed e = .error err ↔ e.1.isLocation = true ∧ err = .carriesLocation e.1 := by
  obtain ⟨f, v⟩ := e
  cases f <;> simp [keyed, headerOf, Field.header?, Field.isLocation, Except.map, eq_comm]

theorem isOk_keyed (e : Field × Value) : (keyed e).isOk = !e.1.isLocation := by
  obtain ⟨f, v⟩ := e
  cases f <;> rfl

/-- A packet of exactly given fields is built entry by entry. -/
theorem ofExactly_eq (m : KeyMap Field Value) :
    ofExactly m = (m.toList.mapM keyed).map fun bs => ⟨KeyMap.ofList bs⟩ := rfl

/-- A list of entries is stored as it is when none of them is a field of the location. -/
theorem mapM_keyed_eq_ok_iff {es : List (Field × Value)} {bs : List (Header × Value)} :
    es.mapM keyed = .ok bs ↔ es = bs.map fun b => (.header b.1, b.2) := by
  simp only [mapM_eq_ok_iff, keyed_eq_ok_iff]
  rw [← List.forall₂_map_right_iff, List.forall₂_eq_eq_eq]

/-- **Exactly given fields.** A packet is built exactly when it stores all of them. -/
theorem ofExactly_eq_ok_iff {m : KeyMap Field Value} {p : Packet} :
    ofExactly m = .ok p ↔ p.fields = m := by
  rw [ofExactly_eq, map_eq_ok_iff]
  simp only [mapM_keyed_eq_ok_iff]
  constructor
  · rintro ⟨bs, hbs, rfl⟩
    show Header.asFields (.ofList bs) = m
    rw [Header.asFields_ofList, ← hbs, KeyMap.ofList_toList]
  · rintro rfl
    exact ⟨p.headers.toList, Header.toList_asFields _, by rw [KeyMap.ofList_toList]⟩

/-- The first field of the location is refused. -/
theorem ofExactly_eq_error_iff {m : KeyMap Field Value} {err : Error} :
    ofExactly m = .error err ↔ ∃ f, m.firstLocation? = some f ∧ err = .carriesLocation f := by
  rw [ofExactly_eq, map_eq_error_iff, mapM_eq_error_iff]
  simp only [keyed_eq_error_iff, isOk_keyed, Bool.not_not, KeyMap.firstLocation?, List.find?_map,
    Option.map_eq_some_iff]
  constructor
  · rintro ⟨e, he, _, rfl⟩
    exact ⟨e.1, ⟨e, he, rfl⟩, rfl⟩
  · rintro ⟨_, ⟨e, he, rfl⟩, rfl⟩
    have hloc : (Field.isLocation ∘ Prod.fst) e = true := List.find?_some he
    exact ⟨e, he, hloc, rfl⟩

/-! ### Packets of names -/

/-- The entries whose names are those of fields. -/
def namedEntries (es : List (String × Value)) : List (Field × Value) :=
  es.filterMap fun e => (Field.ofName? e.1).map (·, e.2)

/-- The entry of a name that is about to be stored. -/
def keyedByName (e : String × Value) : Except Error (Header × Value) := do
  keyed (← Field.ofName e.1, e.2)

/-- A packet of named fields is built entry by entry. -/
theorem ofNamed_eq (es : List (String × Value)) :
    ofNamed es = (es.mapM keyedByName).map fun bs => ⟨KeyMap.ofList bs⟩ := rfl

theorem keyedByName_eq_ok_iff {e : String × Value} {b : Header × Value} :
    keyedByName e = .ok b ↔ e = (b.1.name, b.2) := by
  obtain ⟨s, v⟩ := e
  obtain ⟨h, w⟩ := b
  have hname : Field.ofName? s = some (.header h) ↔ s = h.name :=
    Field.ofName?_eq_some_iff.trans eq_comm
  simp only [keyedByName, bind_eq_ok_iff, keyed_eq_ok_iff, Prod.mk.injEq, Field.ofName]
  rw [← hname]
  cases Field.ofName? s <;> simp

/-- A name is refused as that of a location field when it is one. -/
theorem keyedByName_eq_error_iff {e : String × Value} {f : Field} :
    keyedByName e = .error (.carriesLocation f) ↔ f.isLocation = true ∧ e.1 = f.name := by
  have hname : Field.ofName? e.1 = some f ↔ e.1 = f.name :=
    Field.ofName?_eq_some_iff.trans eq_comm
  rw [← hname]
  cases h : Field.ofName? e.1 with
  | none =>
    have hunknown : keyedByName e = .error (.unknownField e.1) := by
      simp [keyedByName, Field.ofName, h, bind, Except.bind]
    simp [hunknown]
  | some g =>
    have hkeyed : keyedByName e = keyed (g, e.2) := by
      simp [keyedByName, Field.ofName, h, bind, Except.bind]
    rw [hkeyed, keyed_eq_error_iff, Error.carriesLocation.injEq, Option.some.injEq]
    constructor
    · rintro ⟨hg, rfl⟩
      exact ⟨hg, rfl⟩
    · rintro ⟨hf, rfl⟩
      exact ⟨hf, rfl⟩

/-- The names that are not refused are those of headers. -/
theorem isOk_keyedByName (e : String × Value) : (keyedByName e).isOk = Header.isName e.1 := by
  rw [Bool.eq_iff_iff]
  have hok : (keyedByName e).isOk = true ↔ ∃ b, keyedByName e = .ok b := by
    cases keyedByName e <;> simp [Except.isOk, Except.toBool]
  simp only [hok, keyedByName_eq_ok_iff, Header.isName, List.any_eq_true, decide_eq_true_eq]
  constructor
  · rintro ⟨b, rfl⟩
    exact ⟨b.1, Listed.mem_all b.1, rfl⟩
  · rintro ⟨h, _, hname⟩
    exact ⟨(h, e.2), Prod.ext hname.symm rfl⟩

/-- **Named fields.** A packet that is built from names stores the fields of all of them. -/
theorem ofNamed_eq_ok {es : List (String × Value)} {p : Packet} (h : ofNamed es = .ok p) :
    p.fields = .ofList (namedEntries es) := by
  rw [ofNamed_eq, map_eq_ok_iff] at h
  obtain ⟨bs, hbs, rfl⟩ := h
  have hes : es = bs.map fun b => (b.1.name, b.2) := by
    simp only [mapM_eq_ok_iff, keyedByName_eq_ok_iff] at hbs
    rwa [← List.forall₂_map_right_iff, List.forall₂_eq_eq_eq] at hbs
  have hnamed : namedEntries es = bs.map fun b => (.header b.1, b.2) := by
    rw [hes, namedEntries, List.filterMap_map, ← List.filterMap_eq_map]
    exact List.filterMap_congr fun b _ => congrArg (Option.map (·, b.2))
      (Field.ofName?_name (.header b.1))
  rw [hnamed]
  exact Header.asFields_ofList bs

/-- A location field is refused when its name is the first that is not the name of a header. -/
theorem ofNamed_eq_error_iff {es : List (String × Value)} {f : Field} :
    ofNamed es = .error (.carriesLocation f) ↔
      f.isLocation = true ∧ ((es.map Prod.fst).find? fun s => !Header.isName s) = some f.name := by
  rw [ofNamed_eq, map_eq_error_iff, mapM_eq_error_iff]
  simp only [keyedByName_eq_error_iff, isOk_keyedByName, List.find?_map, Option.map_eq_some_iff]
  constructor
  · rintro ⟨e, he, hf, hname⟩
    exact ⟨hf, e, he, hname⟩
  · rintro ⟨hf, e, he, hname⟩
    exact ⟨e, he, hf, hname⟩

end Packet

/-! ### Actions -/

namespace Action

/-- What the action changes, as a map of fields. -/
def changed (a : Action) : KeyMap Field Value := Header.asFields a.modify

/-- A field that is not refused is a header, and its change is stored. -/
theorem modifying_eq_ok {a b : Action} {f : Field} {v : Value} (h : a.modifying f v = .ok b) :
    f.isLocation = false ∧ b.changed = a.changed.insert f v := by
  cases f with
  | switch => cases h
  | port => cases h
  | header k =>
    cases h
    exact ⟨rfl, Header.asFields_insert a.modify k v⟩

/-- A field of the location is refused. -/
theorem modifying_eq_error_iff {a : Action} {f : Field} {v : Value} {e : Error} :
    a.modifying f v = .error e ↔ f.isLocation = true ∧ e = .modifiesLocation f := by
  cases f <;> simp [modifying, Field.header?, Field.isLocation, eq_comm]

/-- The first field of the location is refused. -/
theorem modifyingAll_eq_error_iff {a : Action} {es : List (Field × Value)} {err : Error} :
    a.modifyingAll es = .error err ↔
      ∃ f, (es.map Prod.fst).find? Field.isLocation = some f ∧ err = .modifiesLocation f := by
  induction es generalizing a with
  | nil => simp [modifyingAll, pure, Except.pure]
  | cons e es ih =>
    rw [List.map_cons, modifyingAll, List.foldlM_cons]
    cases hmodify : a.modifying e.1 e.2 with
    | error err' =>
      -- the fields behind it are not looked at
      obtain ⟨hloc, rfl⟩ := modifying_eq_error_iff.1 hmodify
      simp [bind, Except.bind, hloc, eq_comm]
    | ok b =>
      have hloc : e.1.isLocation = false := (modifying_eq_ok hmodify).1
      rw [List.find?_cons_of_neg (by simp [hloc])]
      exact ih

/-- No changed header is refused. -/
theorem modifyingAll_headers (a : Action) (es : List (Header × Value)) :
    a.modifyingAll (es.map fun e => (.header e.1, e.2))
      = .ok { a with modify := a.modify.insertAll es } := by
  induction es generalizing a with
  | nil => rfl
  | cons e es ih => exact ih { a with modify := a.modify.insert e.1 e.2 }

/-- A packet after the changes stores what was changed, and otherwise what it stored before. -/
theorem fields_applyTo (a : Action) (p : Packet) :
    (a.applyTo p).fields = p.fields.overlay a.changed := by
  refine KeyMap.ext (funext fun f => ?_)
  cases f <;> rfl

end Action

end SlicePolicy
