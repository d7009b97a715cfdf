import Mathlib.Algebra.Group.Nat.Defs
import Mathlib.Data.Fintype.Card
import SlicePolicy.Topology

namespace SlicePolicy.Topology

/-!
# Lists of links

What the list of links alone says about a network. The k-th link that touches a node leads to its
k-th neighbour, and this is all that a port number has to say.

* `Joins`, `linksAt`, `neighbors` — the links of a node and the nodes at their other ends.
* `Simple` — no node is linked to itself, no two nodes are linked twice.
* `getElem?_neighbors_iff` — the k-th neighbour stands on the k-th link of the node.
* `nodup_neighbors`, `length_neighbors_lt` — a node has each neighbour once, so there are fewer of
  them than numbers for ports.
* `Simple.concat` — one more link.
-/

/-- The link joins the two nodes, in one direction or the other. -/
def Joins (e : Value × Value) (n m : Value) : Prop := e = (n, m) ∨ e = (m, n)

/-- The links that touch a node, in their order. -/
def linksAt (n : Value) (links : List (Value × Value)) : List (Value × Value) :=
  links.filter fun e => e.1 = n ∨ e.2 = n

/-- The other end of a link that touches the node. -/
def farEnd (n : Value) (e : Value × Value) : Value := if e.1 = n then e.2 else e.1

/-- The nodes that are linked to a node, in the order of the links. -/
def neighbors (n : Value) (links : List (Value × Value)) : List Value :=
  (linksAt n links).map (farEnd n)

/-- No node is linked to itself, and no two nodes are linked twice, not even in the two directions. -/
structure Simple (links : List (Value × Value)) : Prop where
  irreflexive : ∀ e ∈ links, e.1 ≠ e.2
  once : links.Pairwise fun e f => f ≠ e ∧ f ≠ e.swap

variable {links : List (Value × Value)} {e f : Value × Value} {n m a b : Value}

/-! ### Neighbours -/

theorem mem_linksAt : e ∈ linksAt n links ↔ e ∈ links ∧ (e.1 = n ∨ e.2 = n) := by
  rw [linksAt, List.mem_filter, decide_eq_true_eq]

/-- A link that touches a node joins it to the other end and to nothing else. -/
theorem farEnd_eq_iff (h : e.1 = n ∨ e.2 = n) : farEnd n e = m ↔ Joins e n m := by
  obtain ⟨x, y⟩ := e
  simp only [farEnd, Joins, Prod.mk.injEq] at h ⊢
  by_cases hx : x = n
  · subst hx
    rw [if_pos rfl]
    constructor
    · exact fun hy => .inl ⟨rfl, hy⟩
    · rintro (⟨-, hy⟩ | ⟨hxm, hyx⟩)
      · exact hy
      · rw [hyx, hxm]
  · rw [if_neg hx]
    have hy : y = n := h.resolve_left hx
    constructor
    · exact fun hxm => .inr ⟨hxm, hy⟩
    · rintro (⟨hxn, -⟩ | ⟨hxm, -⟩)
      · exact absurd hxn hx
      · exact hxm

/-- **Neighbours stand on links.** The neighbour at a place of the list is the one that the link at
    this place of the node's links leads to. -/
theorem getElem?_neighbors_iff {i : Nat} :
    (neighbors n links)[i]? = some m ↔ ∃ e, (linksAt n links)[i]? = some e ∧ Joins e n m := by
  rw [neighbors, List.getElem?_map, Option.map_eq_some_iff]
  refine exists_congr fun e => and_congr_right fun he => ?_
  have htouches : e.1 = n ∨ e.2 = n := (mem_linksAt.1 (List.mem_of_getElem? he)).2
  exact farEnd_eq_iff htouches

theorem mem_neighbors_iff : m ∈ neighbors n links ↔ (n, m) ∈ links ∨ (m, n) ∈ links := by
  simp only [neighbors, List.mem_map]
  constructor
  · rintro ⟨e, he, hm⟩
    obtain ⟨hmem, htouches⟩ := mem_linksAt.1 he
    rcases (farEnd_eq_iff htouches).1 hm with rfl | rfl
    · exact .inl hmem
    · exact .inr hmem
  · rintro (hmem | hmem)
    · exact ⟨(n, m), mem_linksAt.2 ⟨hmem, .inl rfl⟩, (farEnd_eq_iff (.inl rfl)).2 (.inl rfl)⟩
    · exact ⟨(m, n), mem_linksAt.2 ⟨hmem, .inr rfl⟩, (farEnd_eq_iff (.inr rfl)).2 (.inr rfl)⟩

/-- Neighbours are neighbours of each other. -/
theorem mem_neighbors_comm : m ∈ neighbors n links ↔ n ∈ neighbors m links := by
  rw [mem_neighbors_iff, mem_neighbors_iff]
  exact or_comm

theorem length_neighbors : (neighbors n links).length = (linksAt n links).length :=
  List.length_map ..

/-! ### One more link -/

/-- A new link adds a neighbour at each of its ends. -/
theorem neighbors_concat (hab : a ≠ b) :
    neighbors n (links ++ [(a, b)])
      = neighbors n links ++ if n = a then [b] else if n = b then [a] else [] := by
  rw [neighbors, linksAt, List.filter_append, List.map_append, ← linksAt, ← neighbors]
  congr 1
  by_cases ha : n = a
  · subst ha
    simp [farEnd]
  · by_cases hb : n = b
    · subst hb
      simp [farEnd, hab, ha]
    · simp [ha, hb, Ne.symm ha, Ne.symm hb]

/-- A new link between nodes that are not linked does no harm. -/
theorem Simple.concat (h : Simple links) (hab : a ≠ b) (hfree : b ∉ neighbors a links) :
    Simple (links ++ [(a, b)]) := by
  rw [mem_neighbors_iff, not_or] at hfree
  constructor
  · intro e he
    rcases List.mem_append.1 he with he | he
    · exact h.irreflexive e he
    · rw [List.mem_singleton.1 he]
      exact hab
  · refine List.pairwise_append.2 ⟨h.once, List.pairwise_singleton _ _, ?_⟩
    intro e he f hf
    rw [List.mem_singleton.1 hf]
    refine ⟨?_, ?_⟩
    · rintro rfl
      exact hfree.1 he
    · intro hswap
      have hback : e = (b, a) := by rw [← Prod.swap_swap e, ← hswap, Prod.swap_prod_mk]
      exact hfree.2 (hback ▸ he)

/-! ### Each neighbour once -/

/-- Two links that join the same nodes are the same up to direction. -/
theorem Joins.eq_or_eq_swap (he : Joins e n m) (hf : Joins f n m) : f = e ∨ f = e.swap := by
  rcases he with rfl | rfl <;> rcases hf with rfl | rfl
  · exact .inl rfl
  · exact .inr rfl
  · exact .inr rfl
  · exact .inl rfl

/-- A node has each of its neighbours once. -/
theorem nodup_neighbors (h : Simple links) : (neighbors n links).Nodup := by
  refine List.pairwise_map.2 ?_
  refine List.Pairwise.imp_of_mem ?_ (h.once.filter _)
  intro e f he hf hdiffer hsame
  have hjoins : Joins e n (farEnd n f) :=
    (farEnd_eq_iff (mem_linksAt.1 he).2).1 hsame
  have hjoins' : Joins f n (farEnd n f) := (farEnd_eq_iff (mem_linksAt.1 hf).2).1 rfl
  rcases hjoins.eq_or_eq_swap hjoins' with hf | hf
  · exact hdiffer.1 hf
  · exact hdiffer.2 hf

/-- A node is not its own neighbour. -/
theorem self_not_mem_neighbors (h : Simple links) : n ∉ neighbors n links := by
  rw [mem_neighbors_iff, or_self]
  exact fun hmem => h.irreflexive (n, n) hmem rfl

/-- There are fewer neighbours than numbers for ports: one number is that of the node itself. -/
theorem length_neighbors_lt (h : Simple links) : (neighbors n links).length < 2 ^ 64 := by
  have hnodup : (n :: neighbors n links).Nodup :=
    List.nodup_cons.2 ⟨self_not_mem_neighbors h, nodup_neighbors h⟩
  have hinjective : Function.Injective fun v : Value => v.toBitVec.toFin := by
    intro v w hvw
    exact Int64.toBitVec_inj.1 (BitVec.toFin_inj.1 hvw)
  have hcard := (hnodup.map hinjective).length_le_card
  rw [List.length_map, List.length_cons, Fintype.card_fin] at hcard
  omega

end SlicePolicy.Topology
