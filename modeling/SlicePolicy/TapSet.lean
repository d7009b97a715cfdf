import SlicePolicy.Location
import SlicePolicy.Text.Layout

namespace SlicePolicy

/-!
# Sets of taps

An action reports the packets that it handles to a set of taps, which are named by integers. A set
is kept as its members in increasing order, so two sets with the same members are equal.

* `TapSet.insert`, `TapSet.ofList`, `TapSet.insertAll` — building.
* `TapSet.mem_insert`, `TapSet.ext_mem` — a set is its members.
-/

namespace TapSet

/-- Puts a tap into an increasing list at its place, unless it is there. -/
def place (t : Value) : List Value → List Value
  | [] => [t]
  | u :: us => if t < u then t :: u :: us else if t = u then u :: us else u :: place t us

theorem mem_place {t u : Value} {us : List Value} : u ∈ place t us ↔ u = t ∨ u ∈ us := by
  induction us with
  | nil => simp [place]
  | cons w ws ih =>
    simp only [place]
    split
    · simp
    · split
      · next h => simp [h]
      · simp only [List.mem_cons, ih]
        exact or_left_comm

theorem pairwise_place {t : Value} {us : List Value} (h : us.Pairwise (· < ·)) :
    (place t us).Pairwise (· < ·) := by
  induction us with
  | nil => simp [place]
  | cons w ws ih =>
    rw [List.pairwise_cons] at h
    simp only [place]
    split
    · next hlt =>
      refine List.pairwise_cons.2 ⟨fun u hu => ?_, List.pairwise_cons.2 h⟩
      rcases List.mem_cons.1 hu with rfl | hu
      · exact hlt
      · exact Int64.lt_trans hlt (h.1 u hu)
    · split
      · exact List.pairwise_cons.2 h
      · next hnlt hne =>
        refine List.pairwise_cons.2 ⟨fun u hu => ?_, ih h.2⟩
        rcases mem_place.1 hu with rfl | hu
        · have := Int64.lt_or_eq_of_le (Int64.not_lt.1 hnlt)
          rcases this with h | h
          · exact h
          · exact absurd h.symm hne
        · exact h.1 u hu

/-- Increasing lists with the same members are equal. -/
theorem eq_of_mem_iff {us ws : List Value} (hu : us.Pairwise (· < ·)) (hw : ws.Pairwise (· < ·))
    (h : ∀ t, t ∈ us ↔ t ∈ ws) : us = ws := by
  induction us generalizing ws with
  | nil =>
    cases ws with
    | nil => rfl
    | cons w ws => exact absurd ((h w).2 List.mem_cons_self) List.not_mem_nil
  | cons u us ih =>
    cases ws with
    | nil => exact absurd ((h u).1 List.mem_cons_self) List.not_mem_nil
    | cons w ws =>
      rw [List.pairwise_cons] at hu hw
      have heq : u = w := by
        rcases List.mem_cons.1 ((h u).1 List.mem_cons_self) with e | hm
        · exact e
        · rcases List.mem_cons.1 ((h w).2 List.mem_cons_self) with e | hm'
          · exact e.symm
          · exact absurd (Int64.lt_trans (hu.1 w hm') (hw.1 u hm)) (Int64.lt_irrefl)
      subst heq
      refine congrArg (u :: ·) (ih hu.2 hw.2 fun t => ⟨fun ht => ?_, fun ht => ?_⟩)
      · rcases List.mem_cons.1 ((h t).1 (List.mem_cons_of_mem u ht)) with rfl | hm
        · exact absurd (hu.1 t ht) Int64.lt_irrefl
        · exact hm
      · rcases List.mem_cons.1 ((h t).2 (List.mem_cons_of_mem u ht)) with rfl | hm
        · exact absurd (hw.1 t ht) Int64.lt_irrefl
        · exact hm

end TapSet

/-- A finite set of taps. -/
structure TapSet where
  /-- The members in increasing order. -/
  toList : List Value
  pairwise_lt : toList.Pairwise (· < ·)
  deriving DecidableEq

namespace TapSet

/-- The set without members. -/
def empty : TapSet := ⟨[], .nil⟩

instance : EmptyCollection TapSet := ⟨empty⟩

instance : Inhabited TapSet := ⟨empty⟩

instance : Membership Value TapSet := ⟨fun s t => t ∈ s.toList⟩

instance (t : Value) (s : TapSet) : Decidable (t ∈ s) :=
  inferInstanceAs (Decidable (t ∈ s.toList))

/-- The set with `t` added. -/
def insert (s : TapSet) (t : Value) : TapSet := ⟨place t s.toList, pairwise_place s.pairwise_lt⟩

/-- The set with every tap of a list added. -/
def insertAll (s : TapSet) (ts : List Value) : TapSet := ts.foldl insert s

/-- The set of the taps of a list. -/
def ofList (ts : List Value) : TapSet := insertAll ∅ ts

/-- Whether the set has no members. -/
def isEmpty (s : TapSet) : Bool := s.toList.isEmpty

theorem mem_toList {s : TapSet} {t : Value} : t ∈ s.toList ↔ t ∈ s := Iff.rfl

theorem not_mem_empty (t : Value) : t ∉ (∅ : TapSet) := List.not_mem_nil

theorem mem_insert {s : TapSet} {t u : Value} : u ∈ s.insert t ↔ u = t ∨ u ∈ s := mem_place

theorem mem_insertAll {ts : List Value} {s : TapSet} {u : Value} :
    u ∈ s.insertAll ts ↔ u ∈ ts ∨ u ∈ s := by
  induction ts generalizing s with
  | nil => simp [insertAll]
  | cons t ts ih =>
    rw [insertAll, List.foldl_cons, ← insertAll, ih, mem_insert, List.mem_cons, or_assoc,
      or_left_comm]

theorem mem_ofList {ts : List Value} {u : Value} : u ∈ ofList ts ↔ u ∈ ts := by
  simp [ofList, mem_insertAll, not_mem_empty]

theorem ext_mem {s t : TapSet} (h : ∀ u, u ∈ s ↔ u ∈ t) : s = t := by
  cases s with
  | mk us hu =>
    cases t with
    | mk ws hw => cases eq_of_mem_iff hu hw h; rfl

theorem ofList_toList (s : TapSet) : ofList s.toList = s :=
  ext_mem fun _ => mem_ofList

/-- The set as shown, for instance the members 0 and 4 in curly brackets. -/
def text (s : TapSet) : String := Text.braced (s.toList.map Value.text)

end TapSet

end SlicePolicy
