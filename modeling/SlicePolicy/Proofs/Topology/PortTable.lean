import Mathlib.Algebra.Group.Nat.Defs
import Mathlib.Data.List.Nodup
import SlicePolicy.Topology

namespace SlicePolicy

/-!
# Port tables

The ports of a node are numbered from one. A table faces a list of nodes when the port of each of
them has the number of its place in the list; taking the next port puts one more node at the end.

* `portNumber`, `portNumber_inj` — the numbers, which repeat only after all of them were used.
* `Node.Faces`, `Node.Faces.connect` — a table that faces a list, and the next port.
* `Node.Faces.numberingViolation?_eq_none_iff` — the numbers count from one without gaps, as long as
  they do not run into the negative ones.
-/

/-- The number of the port at a place of a list that is counted from zero. -/
def portNumber (i : Nat) : Value := Int64.ofNat (i + 1)

/-- Different ports have different numbers. -/
theorem portNumber_inj {i j : Nat} (hi : i + 1 < 2 ^ 64) (hj : j + 1 < 2 ^ 64)
    (h : portNumber i = portNumber j) : i = j := by
  have hbits : (Int64.ofNat (i + 1)).toBitVec.toNat = (Int64.ofNat (j + 1)).toBitVec.toNat :=
    congrArg (fun v : Value => v.toBitVec.toNat) h
  rw [Int64.toBitVec_ofNat', Int64.toBitVec_ofNat', BitVec.toNat_ofNat, BitVec.toNat_ofNat,
    Nat.mod_eq_of_lt hi, Nat.mod_eq_of_lt hj] at hbits
  omega

/-- The numbers grow with the places, up to the greatest value. -/
theorem portNumber_le {i j : Nat} (hij : i ≤ j) (hj : j + 1 < 2 ^ 63) :
    portNumber i ≤ portNumber j := by
  have hvalue : ∀ k : Nat, k + 1 < 2 ^ 63 → (portNumber k).toInt = k + 1 := by
    intro k hk
    rw [portNumber, Int64.toInt_ofNat_of_lt hk]
    rfl
  rw [Int64.le_iff_toInt_le, hvalue i (by omega), hvalue j hj]
  omega

/-- The number after the greatest value is less than the first one. -/
theorem portNumber_wraps : portNumber (2 ^ 63 - 1) < portNumber 0 := by decide

/-- The numbers of so many ports are in increasing order as long as there are not too many. -/
theorem pairwise_portNumbers_iff {k : Nat} :
    ((List.range k).map portNumber).Pairwise (· ≤ ·) ↔ k < 2 ^ 63 := by
  constructor
  · intro hsorted
    by_cases hk : k < 2 ^ 63
    · exact hk
    · -- the first number would come before the one that wraps around
      have hlast : 2 ^ 63 - 1 < k := by omega
      have hle : portNumber 0 ≤ portNumber (2 ^ 63 - 1) := by
        have hat := List.pairwise_iff_getElem.1 hsorted 0 (2 ^ 63 - 1)
          (by rw [List.length_map, List.length_range]; omega)
          (by rw [List.length_map, List.length_range]; exact hlast) (by decide)
        rw [List.getElem_map, List.getElem_map, List.getElem_range, List.getElem_range] at hat
        exact hat
      exact absurd hle (Int64.not_le.2 portNumber_wraps)
  · intro hk
    refine List.pairwise_map.2 (List.Pairwise.imp_of_mem ?_ List.pairwise_lt_range)
    intro i j _ hj hij
    have hjk : j < k := List.mem_range.1 hj
    exact portNumber_le (Nat.le_of_lt hij) (by omega)

/-! ### Tables -/

/-- In a list with one more element stands what stood there, and the element behind it. -/
theorem getElem?_concat_iff {ns : List Value} {b m : Value} {i : Nat} :
    (ns ++ [b])[i]? = some m ↔ ns[i]? = some m ∨ (i = ns.length ∧ m = b) := by
  rcases Nat.lt_trichotomy i ns.length with hi | hi | hi
  · rw [List.getElem?_append_left hi]
    have hne : i ≠ ns.length := by omega
    simp [hne]
  · subst hi
    rw [List.getElem?_concat_length, List.getElem?_eq_none (Nat.le_refl _), Option.some.injEq]
    simp [eq_comm]
  · have hend : (ns ++ [b])[i]? = none :=
      List.getElem?_eq_none (by rw [List.length_append, List.length_singleton]; omega)
    have hne : i ≠ ns.length := by omega
    rw [hend, List.getElem?_eq_none (by omega)]
    simp [hne]

/-- The ports of the node lead to the nodes of the list, in its order, and there are no other
    ports. -/
structure Node.Faces (node : Node) (ns : List Value) : Prop where
  port_iff : ∀ m k : Value,
    node.ports[m]? = some k ↔ ∃ i : Nat, ns[i]? = some m ∧ k = portNumber i
  size_eq : node.ports.size = ns.length

/-- The nodes of a list are those with a number. -/
theorem exists_portNumber_iff {ns : List Value} {m : Value} :
    (∃ (k : Value) (i : Nat), ns[i]? = some m ∧ k = portNumber i) ↔ m ∈ ns := by
  rw [List.mem_iff_getElem?]
  constructor
  · rintro ⟨k, i, hi, -⟩
    exact ⟨i, hi⟩
  · rintro ⟨i, hi⟩
    exact ⟨portNumber i, i, hi, rfl⟩

namespace Node

variable {node : Node} {ns : List Value} {m b : Value}

/-- The node with the next port facing a neighbour. -/
def connect (node : Node) (neighbor : Value) : Node :=
  { node with ports := node.ports.insert neighbor node.nextPort }

/-- A new node has no ports. -/
theorem faces_nil (kind : NodeKind) : Faces ⟨kind, ∅⟩ [] := by
  constructor
  · intro m k
    simp
  · exact Std.TreeMap.size_emptyc

namespace Faces

theorem port_isSome_iff (h : node.Faces ns) : (node.ports[m]?).isSome ↔ m ∈ ns := by
  rw [Option.isSome_iff_exists]
  simp only [h.port_iff]
  exact exists_portNumber_iff

/-- **The next port.** A node that is not faced yet gets the number of the place behind the others. -/
theorem connect (h : node.Faces ns) (hb : b ∉ ns) : (node.connect b).Faces (ns ++ [b]) := by
  have hnew : b ∉ node.ports := by
    rw [Std.TreeMap.mem_iff_isSome_getElem?, h.port_isSome_iff]
    exact hb
  constructor
  · intro m k
    have hnext : node.nextPort = portNumber ns.length := by rw [nextPort, h.size_eq, portNumber]
    show (node.ports.insert b node.nextPort)[m]? = some k ↔ _
    simp only [Std.TreeMap.getElem?_insert, Std.LawfulEqCmp.compare_eq_iff_eq, hnext]
    by_cases hm : b = m
    · subst hm
      rw [if_pos rfl, Option.some.injEq]
      constructor
      · rintro rfl
        exact ⟨ns.length, getElem?_concat_iff.2 (.inr ⟨rfl, rfl⟩), rfl⟩
      · -- the new node stands at the end only
        rintro ⟨i, hi, rfl⟩
        rcases getElem?_concat_iff.1 hi with hi | ⟨rfl, -⟩
        · exact absurd (List.mem_of_getElem? hi) hb
        · rfl
    · rw [if_neg hm, h.port_iff]
      refine exists_congr fun i => and_congr_left fun _ => ?_
      rw [getElem?_concat_iff, or_iff_left]
      exact fun hend => hm hend.2.symm
  · show (node.ports.insert b node.nextPort).size = _
    have hcontains : node.ports.contains b = false := by
      rw [← Bool.not_eq_true, ← Std.TreeMap.mem_iff_contains]
      exact hnew
    rw [Std.TreeMap.size_insert, hcontains, if_neg Bool.false_ne_true, h.size_eq,
      List.length_append, List.length_singleton]

/-! ### Port numbers -/

/-- The table of a node that faces different nodes gives each number once. -/
theorem port_inj (h : node.Faces ns) (hlen : ns.length < 2 ^ 64) {m' k : Value}
    (hm : node.ports[m]? = some k) (hm' : node.ports[m']? = some k) : m = m' := by
  obtain ⟨i, hi, rfl⟩ := (h.port_iff m k).1 hm
  obtain ⟨j, hj, hij⟩ := (h.port_iff m' _).1 hm'
  have hilt := (List.getElem?_eq_some_iff.1 hi).1
  have hjlt := (List.getElem?_eq_some_iff.1 hj).1
  have hsame : i = j := portNumber_inj (by omega) (by omega) hij
  subst hsame
  rw [hi, Option.some.injEq] at hj
  exact hj

end Faces

/-- The numbers in the table are those of its entries, in the order of the neighbours. -/
theorem values_ports (node : Node) : node.ports.values = node.ports.toList.map Prod.snd := by
  have hfold : node.ports.values = node.ports.foldr (fun _ k ks => k :: ks) [] := rfl
  rw [hfold, Std.TreeMap.foldr_eq_foldr_toList]
  induction node.ports.toList with
  | nil => rfl
  | cons e es ih => rw [List.foldr_cons, List.map_cons, ih]

namespace Faces

/-- No number stands twice in the table: two entries with one number would be for one neighbour. -/
theorem nodup_values (h : node.Faces ns) (hlen : ns.length < 2 ^ 64) :
    node.ports.values.Nodup := by
  rw [values_ports]
  refine List.pairwise_map.2 (List.Pairwise.imp_of_mem ?_ Std.TreeMap.distinct_keys_toList)
  rintro ⟨m, k⟩ ⟨m', k'⟩ hmem hmem' hkeys hsame
  have hsame : k = k' := hsame
  subst hsame
  have hm : m = m' := h.port_inj hlen (Std.TreeMap.mem_toList_iff_getElem?_eq_some.1 hmem)
    (Std.TreeMap.mem_toList_iff_getElem?_eq_some.1 hmem')
  exact hkeys (Std.LawfulEqCmp.compare_eq_iff_eq.2 hm)

/-- The numbers in the table are those of the places of the list. -/
theorem perm_values (h : node.Faces ns) (hlen : ns.length < 2 ^ 64) :
    node.ports.values.Perm ((List.range ns.length).map portNumber) := by
  refine (List.perm_ext_iff_of_nodup (h.nodup_values hlen) ?_).2 ?_
  · refine List.pairwise_map.2 (List.Pairwise.imp_of_mem ?_ List.nodup_range)
    intro i j hi hj hij hsame
    rw [List.mem_range] at hi hj
    exact hij (portNumber_inj (by omega) (by omega) hsame)
  · intro k
    rw [values_ports]
    simp only [List.mem_map, List.mem_range]
    constructor
    · rintro ⟨⟨m, _⟩, hmem, rfl⟩
      obtain ⟨i, hi, hk⟩ :=
        (h.port_iff m _).1 (Std.TreeMap.mem_toList_iff_getElem?_eq_some.1 hmem)
      exact ⟨i, (List.getElem?_eq_some_iff.1 hi).1, hk.symm⟩
    · rintro ⟨i, hi, rfl⟩
      have hport : node.ports[ns[i]]? = some (portNumber i) :=
        (h.port_iff _ _).2 ⟨i, List.getElem?_eq_getElem hi, rfl⟩
      exact ⟨(ns[i], portNumber i), Std.TreeMap.mem_toList_iff_getElem?_eq_some.2 hport, rfl⟩

/-- **The numbers count from one.** The sorted table lists one, two and so on exactly when no number
    had to wrap around. -/
theorem numberingViolation?_eq_none_iff (h : node.Faces ns) (hlen : ns.length < 2 ^ 64) (id : Value) :
    Topology.numberingViolation? id node = none ↔ ns.length < 2 ^ 63 := by
  have hsorted : node.portNumbers.Pairwise (· ≤ ·) := by
    have htrans : ∀ p q r : Value,
        decide (p ≤ q) = true → decide (q ≤ r) = true → decide (p ≤ r) = true := by
      intro p q r hpq hqr
      exact decide_eq_true (Int64.le_trans (of_decide_eq_true hpq) (of_decide_eq_true hqr))
    have htotal : ∀ p q : Value, (decide (p ≤ q) || decide (q ≤ p)) = true := by
      intro p q
      rw [Bool.or_eq_true, decide_eq_true_eq, decide_eq_true_eq]
      exact Int64.le_total p q
    exact (List.pairwise_mergeSort htrans htotal node.ports.values).imp of_decide_eq_true
  have hperm : node.portNumbers.Perm ((List.range ns.length).map portNumber) :=
    (List.mergeSort_perm _ _).trans (h.perm_values hlen)
  have hnumbers : Topology.numberingViolation? id node = none ↔
      node.portNumbers = (List.range ns.length).map portNumber := by
    rw [Topology.numberingViolation?, h.size_eq]
    show (if node.portNumbers = (List.range ns.length).map portNumber then none else _) = none ↔ _
    by_cases heq : node.portNumbers = (List.range ns.length).map portNumber
    · simp [heq]
    · simp [heq]
  rw [hnumbers, ← pairwise_portNumbers_iff]
  constructor
  · intro heq
    rw [← heq]
    exact hsorted
  · intro hnumbered
    exact hperm.eq_of_pairwise (fun p q _ _ => Int64.le_antisymm) hsorted hnumbered

end Faces

end Node

end SlicePolicy
