namespace SlicePolicy

/-!
# Partial maps on a listed key type

A packet, the changes that an action makes and a symbolic view all give values to some of a small,
fixed set of keys.

* `Listed κ` — the keys can be listed, each once, in a fixed order.
* `KeyMap κ α` — a partial map; two maps are equal exactly when they agree on every key, so
  equality is decidable and nothing depends on how a map was built.
* `KeyMap.toList` — the entries in the order of the keys.
-/

/-- A type whose values can be listed, each once, in a fixed order. -/
class Listed (κ : Type) where
  /-- All values, in their order. -/
  all : List κ
  mem_all : ∀ k : κ, k ∈ all
  nodup_all : all.Nodup

/-- A partial map from `κ` to `α`. -/
@[ext] structure KeyMap (κ α : Type) where
  /-- The value of a key, if it has one. -/
  get? : κ → Option α

namespace KeyMap

variable {κ α : Type}

/-- The map without entries. -/
def empty : KeyMap κ α := ⟨fun _ => none⟩

instance : EmptyCollection (KeyMap κ α) := ⟨empty⟩

instance : Inhabited (KeyMap κ α) := ⟨empty⟩

@[simp] theorem get?_empty (k : κ) : (∅ : KeyMap κ α).get? k = none := rfl

section

variable [DecidableEq κ]

/-- The map with the value of `k` replaced by `v`. -/
def insert (m : KeyMap κ α) (k : κ) (v : α) : KeyMap κ α :=
  ⟨fun j => if j = k then some v else m.get? j⟩

/-- Inserts the entries one after the other, so the last entry of a key wins. -/
def insertAll (m : KeyMap κ α) (entries : List (κ × α)) : KeyMap κ α :=
  entries.foldl (fun m e => m.insert e.1 e.2) m

/-- The map of a list of entries, where the last entry of a key wins. -/
def ofList (entries : List (κ × α)) : KeyMap κ α := insertAll ∅ entries

theorem get?_insert (m : KeyMap κ α) (k : κ) (v : α) (j : κ) :
    (m.insert k v).get? j = if j = k then some v else m.get? j := rfl

@[simp] theorem get?_insert_self (m : KeyMap κ α) (k : κ) (v : α) :
    (m.insert k v).get? k = some v := by simp [get?_insert]

theorem get?_insert_of_ne (m : KeyMap κ α) {k j : κ} (v : α) (h : j ≠ k) :
    (m.insert k v).get? j = m.get? j := by simp [get?_insert, h]

end

/-- The entries of `n` laid over those of `m`. -/
def overlay (m n : KeyMap κ α) : KeyMap κ α :=
  ⟨fun k => (n.get? k).or (m.get? k)⟩

@[simp] theorem get?_overlay (m n : KeyMap κ α) (k : κ) :
    (m.overlay n).get? k = (n.get? k).or (m.get? k) := rfl

section

variable [Listed κ]

/-- The entries in the order of the keys. -/
def toList (m : KeyMap κ α) : List (κ × α) :=
  Listed.all.filterMap fun k => (m.get? k).map (k, ·)

/-- Whether no key has a value. -/
def isEmpty (m : KeyMap κ α) : Bool := Listed.all.all fun k : κ => (m.get? k).isNone

theorem mem_toList {m : KeyMap κ α} {k : κ} {v : α} :
    (k, v) ∈ m.toList ↔ m.get? k = some v := by
  simp only [toList, List.mem_filterMap, Option.map_eq_some_iff, Prod.mk.injEq]
  constructor
  · rintro ⟨_, _, w, h, rfl, rfl⟩
    exact h
  · exact fun h => ⟨k, Listed.mem_all k, v, h, rfl, rfl⟩

theorem ext_iff_all {m n : KeyMap κ α} :
    m = n ↔ ∀ k ∈ (Listed.all : List κ), m.get? k = n.get? k :=
  ⟨fun h _ _ => h ▸ rfl, fun h => KeyMap.ext (funext fun k => h k (Listed.mem_all k))⟩

instance [DecidableEq α] : DecidableEq (KeyMap κ α) := fun _ _ =>
  decidable_of_iff _ ext_iff_all.symm

end

section

variable [DecidableEq κ]

/-- Inserting the entries that `n` has for some keys lays `n` over `m` at these keys. -/
theorem get?_insertAll_filterMap (m n : KeyMap κ α) (ks : List κ) (j : κ) :
    (m.insertAll (ks.filterMap fun k => (n.get? k).map (k, ·))).get? j
      = if j ∈ ks then (n.get? j).or (m.get? j) else m.get? j := by
  induction ks generalizing m with
  | nil => rfl
  | cons k ks ih =>
    cases hk : n.get? k with
    | none =>
      simp only [List.filterMap_cons, hk, Option.map_none]
      rw [ih]
      by_cases hj : j = k
      · simp [hj, hk]
      · simp [hj]
    | some v =>
      simp only [List.filterMap_cons, hk, Option.map_some]
      rw [insertAll, List.foldl_cons, ← insertAll, ih]
      by_cases hj : j = k
      · simp [hj, hk]
      · simp [hj, get?_insert_of_ne m v hj]

/-- Inserting the entries of a map lays it over the other one. -/
theorem insertAll_toList [Listed κ] (m n : KeyMap κ α) : m.insertAll n.toList = m.overlay n := by
  refine KeyMap.ext (funext fun k => ?_)
  rw [toList, get?_insertAll_filterMap, if_pos (Listed.mem_all k), get?_overlay]

/-- A map is the map of its entries. -/
theorem ofList_toList [Listed κ] (m : KeyMap κ α) : ofList m.toList = m := by
  refine KeyMap.ext (funext fun k => ?_)
  rw [ofList, insertAll_toList, get?_overlay, get?_empty, Option.or_none]

end

end KeyMap

end SlicePolicy
