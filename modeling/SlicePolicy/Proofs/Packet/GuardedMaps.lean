import SlicePolicy.Policy
import SlicePolicy.Proofs.Packet.StoredFields

namespace SlicePolicy

/-!
# Guards in front of maps of fields

A map of fields could have values for the location. What keeps them out is a guard at every entrance: it
passes over location fields, or refuses them. So a map that was filled through the guards holds headers
only, and it is the map of fields that a packet stores, or that an action changes, after the same step.

* `KeyMap.extend` — the guard that passes over location fields.
* `Field.guarded`, `KeyMap.guarded`, `KeyMap.ofNames` — the guards that refuse them when a packet is
  built.
* `KeyMap.change`, `KeyMap.changeAll` — the guard that refuses them in changes.
* `KeyMap.headersOnly_extend` and its like — no location field comes past the guards.
* `Packet.extend_fields`, `Action.change_changed` and their like — steps of packets and of actions are
  the steps of their maps.
-/

variable {m n : KeyMap Field Value}

/-! ### Guards -/

/-- A field that a packet may store. -/
def Field.guarded (f : Field) : Except Error Field :=
  if f.isLocation then .error (.carriesLocation f) else .ok f

namespace KeyMap

/-- The map with the entries of a list, without those of location fields. -/
def extend (m : KeyMap Field Value) (es : List (Field × Value)) : KeyMap Field Value :=
  m.insertAll (es.filter fun e => !e.1.isLocation)

/-- The map itself, if a packet may store all of its fields. -/
def guarded (m : KeyMap Field Value) : Except Error (KeyMap Field Value) := do
  let es ← m.toList.mapM fun e => do return (← e.1.guarded, e.2)
  return ofList es

/-- The map of a list of names, if a packet may store all of the fields. -/
def ofNames (es : List (String × Value)) : Except Error (KeyMap Field Value) := do
  let es ← es.mapM fun e => do return (← (← Field.ofName e.1).guarded, e.2)
  return ofList es

/-- The map with one more change, if it is not one of the location. -/
def change (m : KeyMap Field Value) (f : Field) (v : Value) : Except Error (KeyMap Field Value) :=
  if f.isLocation then .error (.modifiesLocation f) else .ok (m.insert f v)

/-- The map with several more changes, if none of them is one of the location. -/
def changeAll (m : KeyMap Field Value) (es : List (Field × Value)) :
    Except Error (KeyMap Field Value) :=
  es.foldlM (fun m e => m.change e.1 e.2) m

/-! ### No location field comes past them -/

theorem headersOnly_empty : (∅ : KeyMap Field Value).HeadersOnly := fun _ _ => rfl

theorem HeadersOnly.insert (h : m.HeadersOnly) {f : Field} (hf : f.isLocation = false) (v : Value) :
    (m.insert f v).HeadersOnly := by
  intro g hg
  have hne : g ≠ f := by
    rintro rfl
    rw [hf] at hg
    exact Bool.false_ne_true hg
  rw [get?_insert_of_ne m v hne]
  exact h g hg

theorem HeadersOnly.insertAll (h : m.HeadersOnly) {es : List (Field × Value)}
    (hes : ∀ e ∈ es, e.1.isLocation = false) : (m.insertAll es).HeadersOnly := by
  induction es generalizing m with
  | nil => exact h
  | cons e es ih =>
    rw [List.forall_mem_cons] at hes
    exact ih (h.insert hes.1 e.2) hes.2

theorem HeadersOnly.extend (h : m.HeadersOnly) (es : List (Field × Value)) :
    (m.extend es).HeadersOnly := by
  refine h.insertAll fun e he => ?_
  simpa using (List.mem_filter.1 he).2

end KeyMap

theorem Field.guarded_eq_ok_iff {f g : Field} :
    f.guarded = .ok g ↔ f.isLocation = false ∧ f = g := by
  rw [guarded]
  cases f.isLocation <;> simp

namespace KeyMap

/-- The fields of guarded entries are headers. -/
theorem headersOnly_ofList_of_forall₂ {γ : Type} {R : γ → Field × Value → Prop} {cs : List γ}
    {es : List (Field × Value)} (h : List.Forall₂ R cs es)
    (hR : ∀ c e, R c e → e.1.isLocation = false) : (ofList es).HeadersOnly := by
  refine headersOnly_empty.insertAll fun e he => ?_
  obtain ⟨c, _, hc⟩ := forall₂_exists_of_mem h.flip he
  exact hR c e hc

theorem headersOnly_of_guarded (h : m.guarded = .ok n) : n.HeadersOnly := by
  simp only [guarded, bind_eq_ok_iff, mapM_eq_ok_iff, pure_eq_ok_iff] at h
  obtain ⟨es, hes, rfl⟩ := h
  refine headersOnly_ofList_of_forall₂ hes ?_
  rintro c e ⟨f, hf, rfl⟩
  obtain ⟨hloc, rfl⟩ := Field.guarded_eq_ok_iff.1 hf
  exact hloc

theorem headersOnly_of_ofNames {es : List (String × Value)} (h : ofNames es = .ok m) :
    m.HeadersOnly := by
  simp only [ofNames, bind_eq_ok_iff, mapM_eq_ok_iff, pure_eq_ok_iff] at h
  obtain ⟨es', hes, rfl⟩ := h
  refine headersOnly_ofList_of_forall₂ hes ?_
  rintro c e ⟨f, hname, g, hg, rfl⟩
  obtain ⟨hloc, rfl⟩ := Field.guarded_eq_ok_iff.1 hg
  exact hloc

theorem HeadersOnly.change (hm : m.HeadersOnly) {f : Field} {v : Value} (h : m.change f v = .ok n) :
    n.HeadersOnly := by
  unfold KeyMap.change at h
  split at h
  · cases h
  · next hf =>
    cases h
    exact hm.insert (Bool.not_eq_true _ ▸ hf) v

theorem HeadersOnly.changeAll (hm : m.HeadersOnly) {es : List (Field × Value)}
    (h : m.changeAll es = .ok n) : n.HeadersOnly := by
  induction es generalizing m with
  | nil =>
    cases h
    exact hm
  | cons e es ih =>
    rw [KeyMap.changeAll, List.foldlM_cons, bind_eq_ok_iff] at h
    obtain ⟨k, hk, hrest⟩ := h
    exact ih (hm.change hk) hrest

/-- A change that is not refused is put into the map. -/
theorem eq_of_change {f : Field} {v : Value} (h : m.change f v = .ok n) : n = m.insert f v := by
  unfold change at h
  split at h
  · cases h
  · cases h
    rfl

theorem eq_of_changeAll {es : List (Field × Value)} (h : m.changeAll es = .ok n) :
    n = m.insertAll es := by
  induction es generalizing m with
  | nil =>
    cases h
    rfl
  | cons e es ih =>
    rw [changeAll, List.foldlM_cons, bind_eq_ok_iff] at h
    obtain ⟨k, hk, hrest⟩ := h
    rw [ih hrest, eq_of_change hk]
    rfl

end KeyMap

/-! ### Steps of packets and of actions -/

/-- Passing over location fields is as good as leaving them out at the end. -/
theorem KeyMap.extend_eq (hm : m.HeadersOnly) (es : List (Field × Value)) :
    m.extend es = (m.insertAll es).dropLocation := by
  induction es generalizing m with
  | nil => exact hm.dropLocation_eq.symm
  | cons e es ih =>
    cases he : e.1.isLocation with
    | true =>
      have hskip : m.extend (e :: es) = m.extend es := by simp [extend, he]
      have hdrop : (m.insert e.1 e.2).dropLocation = m.dropLocation :=
        dropLocation_insert_of_isLocation m he e.2
      rw [hskip, ih hm]
      exact (dropLocation_insertAll_congr hdrop es).symm
    | false =>
      have hput : m.extend (e :: es) = (m.insert e.1 e.2).extend es := by simp [extend, he, insertAll]
      rw [hput]
      exact ih (hm.insert he e.2)

namespace Packet

/-- Setting fields of a packet extends what it stores. -/
theorem extend_fields (p : Packet) (es : List (Field × Value)) :
    p.fields.extend es = (p.overwrite es).fields := by
  rw [KeyMap.extend_eq p.headersOnly_fields, fields_overwrite]

theorem fields_ofList (bs : List (Header × Value)) :
    fields ⟨.ofList bs⟩ = .ofList (bs.map fun b => (.header b.1, b.2)) :=
  Header.asFields_ofList bs

/-- Entries are stored as those of fields when each of them is guarded as it is keyed. -/
theorem ofList_eq_map_fields {γ : Type} {guarded : γ → Except Error (Field × Value)}
    {keyed : γ → Except Error (Header × Value)}
    (h : ∀ c, guarded c = (keyed c).map fun b => (.header b.1, b.2)) (cs : List γ) :
    (do return KeyMap.ofList (← cs.mapM guarded))
      = ((cs.mapM keyed).map fun bs => (⟨.ofList bs⟩ : Packet)).map fields := by
  have hguarded : guarded = fun c => (keyed c).map fun b => (.header b.1, b.2) := funext h
  rw [hguarded, mapM_map]
  cases cs.mapM keyed with
  | error e => rfl
  | ok bs => exact congrArg Except.ok (fields_ofList bs).symm

/-- The guard in front of exactly given fields is that of a packet that stores them. -/
theorem guarded_eq_map_ofExactly (m : KeyMap Field Value) :
    m.guarded = (ofExactly m).map fields := by
  have hentry : ∀ e : Field × Value, (do return (← e.1.guarded, e.2))
      = (keyed e).map fun b => (Field.header b.1, b.2) := by
    rintro ⟨f, v⟩
    cases f <;> rfl
  rw [ofExactly_eq]
  exact ofList_eq_map_fields hentry m.toList

/-- The guard in front of named fields is that of a packet that stores them. -/
theorem ofNames_eq_map_ofNamed (es : List (String × Value)) :
    KeyMap.ofNames es = (ofNamed es).map fields := by
  have hentry : ∀ e : String × Value, (do return (← (← Field.ofName e.1).guarded, e.2))
      = (keyedByName e).map fun b => (Field.header b.1, b.2) := by
    rintro ⟨s, v⟩
    cases hname : Field.ofName s with
    | error e => simp [keyedByName, hname, bind, Except.bind, Except.map]
    | ok f =>
      simp only [keyedByName, hname, bind, Except.bind]
      cases f <;> rfl
  rw [ofNamed_eq]
  exact ofList_eq_map_fields hentry es

end Packet

namespace Action

/-- The guard in front of a change is that of an action that makes it. -/
theorem change_changed (a : Action) (f : Field) (v : Value) :
    a.changed.change f v = (a.modifying f v).map changed := by
  cases f with
  | switch => rfl
  | port => rfl
  | header h => exact congrArg Except.ok (Header.asFields_insert a.modify h v).symm

theorem changeAll_changed (a : Action) (es : List (Field × Value)) :
    a.changed.changeAll es = (a.modifyingAll es).map changed := by
  induction es generalizing a with
  | nil => rfl
  | cons e es ih =>
    rw [KeyMap.changeAll, modifyingAll, List.foldlM_cons, List.foldlM_cons, change_changed]
    cases hmodify : a.modifying e.1 e.2 with
    | error err => rfl
    | ok b => exact ih b

end Action

/-- What a policy sends stores what the packet stored that came in, extended by the changes of one of its
    actions. -/
theorem Policy.extend_of_mem_outputs {p : Policy} {x : Packet} {l : Location}
    {o : Packet × Location} (h : o ∈ p.outputs x l) :
    ∃ a ∈ p.actions x l, o.1.fields = x.fields.extend a.changed.toList := by
  obtain ⟨a, ha, ho⟩ := List.mem_flatMap.1 h
  obtain ⟨port, _, rfl⟩ := List.mem_map.1 ho
  refine ⟨a, ha, ?_⟩
  rw [KeyMap.extend_eq x.headersOnly_fields, KeyMap.insertAll_toList, ← a.fields_applyTo,
    Packet.dropLocation_fields]

end SlicePolicy
