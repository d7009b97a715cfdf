import Mathlib.Data.List.Induction
import SlicePolicy.Location

namespace SlicePolicy

/-!
# Lists in which the last entry of a key counts

Address maps are built from lists of entries, and exact matches from lists of tests. A key may stand
in such a list more than once; then its last entry counts.

* `lastEntry` — the value in the last entry of a key.
* `lastEntry_concat`, `lastEntry_append` — more entries behind a list.
* `mem_of_lastEntry`, `exists_lastEntry_of_mem` — the last entry of a key is one of its entries, and
  it has one if it has any.
* `getElem?_ofList` — a sorted map that is built from a list keeps the last entries.
-/

section

variable {κ α : Type} [DecidableEq κ] {k : κ} {v : α} {e : κ × α} {entries : List (κ × α)}

/-- The value in the last entry of a key, if it has an entry. -/
def lastEntry (k : κ) (entries : List (κ × α)) : Option α :=
  (entries.reverse.find? fun e => e.1 = k).map Prod.snd

@[simp] theorem lastEntry_nil : lastEntry k ([] : List (κ × α)) = none := rfl

/-- Of two lists the second one counts, if the key stands in it. -/
theorem lastEntry_append {before after : List (κ × α)} :
    lastEntry k (before ++ after) = (lastEntry k after).or (lastEntry k before) := by
  rw [lastEntry, List.reverse_append, List.find?_append, Option.map_or]
  rfl

/-- One more entry counts for its own key. -/
theorem lastEntry_concat :
    lastEntry k (entries ++ [e]) = if e.1 = k then some e.2 else lastEntry k entries := by
  rw [lastEntry_append]
  by_cases h : e.1 = k <;> simp [lastEntry, h]

/-- What counts stands in the list. -/
theorem mem_of_lastEntry (h : lastEntry k entries = some v) : (k, v) ∈ entries := by
  obtain ⟨e, hfound, hvalue⟩ := Option.map_eq_some_iff.1 h
  have hkey : e.1 = k := by simpa using List.find?_some hfound
  rw [← hkey, ← hvalue]
  exact List.mem_reverse.1 (List.mem_of_find?_eq_some hfound)

/-- Something counts for a key that stands in the list. -/
theorem exists_lastEntry_of_mem (h : e ∈ entries) : ∃ v : α, lastEntry e.1 entries = some v := by
  rw [← Option.isSome_iff_exists, lastEntry, Option.isSome_map, List.find?_isSome]
  exact ⟨e, List.mem_reverse.2 h, decide_eq_true rfl⟩

end

/-- **A sorted map keeps the last entries** of the list that it is built from. The induction takes the
entries away from the end, as they were inserted one after the other. -/
theorem getElem?_ofList {κ α : Type} [DecidableEq κ] [Ord κ] [Std.TransOrd κ] [Std.LawfulEqOrd κ]
    (entries : List (κ × α)) (k : κ) :
    (Std.TreeMap.ofList entries)[k]? = lastEntry k entries := by
  induction entries using List.reverseRecOn with
  | nil => simp
  | append_singleton entries e ih =>
    have hstep : Std.TreeMap.ofList (entries ++ [e]) = (Std.TreeMap.ofList entries).insert e.1 e.2 := by
      rw [Std.TreeMap.ofList_eq_insertMany_empty, Std.TreeMap.insertMany_append,
        ← Std.TreeMap.ofList_eq_insertMany_empty, Std.TreeMap.insertMany_list_singleton]
    rw [hstep, Std.TreeMap.getElem?_insert, ih, lastEntry_concat]
    simp only [Std.LawfulEqOrd.compare_eq_iff_eq]

end SlicePolicy
