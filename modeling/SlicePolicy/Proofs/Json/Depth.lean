import SlicePolicy.Json.Format
import SlicePolicy.Proofs.Json.Laws
import SlicePolicy.Proofs.Outcome

namespace SlicePolicy

/-!
# How deep the accepted values are

A value that a reader accepts may have been said in many ways, but every shape takes up its brackets in
each of them. So a value that was accepted within some brackets is written within these brackets.

* `Location.depth_write`, `Packet.depth_write`, `Action.depth_write`, `Policy.depth_write_branch` —
  brackets of written values.
* `Location.depth_le_of_accepts`, `Packet.depth_le_of_accepts`, `Action.depth_le_of_accepts` — records.
* `Predicate.depth_le_of_accepts`, `Policy.depth_le_of_accepts` — trees, by induction on the brackets.
-/

open Json (Library Semantics depth depthMembers depthItems)

variable {L : Library} {S : Semantics L} {n : Nat}

/-! ### Written values -/

theorem depth_writeInteger (hS : S.Lawful) (v : Value) : (L.writeInteger v).depth = 0 := by
  rw [hS.writeInteger_eq, depth]

theorem depth_writeIntegers (hS : S.Lawful) (vs : List Value) : (writeIntegers L vs).depth = 1 := by
  have hitems : depthItems (vs.map L.writeInteger) ≤ 0 := by
    rw [Json.depthItems_le_iff, List.forall_mem_map]
    exact fun v _ => Nat.le_of_eq (depth_writeInteger hS v)
  rw [writeIntegers, hS.writeList_eq, depth]
  omega

theorem depth_writeFields (hS : S.Lawful) (fields : List (Field × Value)) :
    (writeFields L fields).depth = 1 := by
  have hmembers : depthMembers (fields.map fun e => (e.1.key L, L.writeInteger e.2)) ≤ 0 := by
    rw [Json.depthMembers_le_iff, List.forall_mem_map]
    exact fun e _ => Nat.le_of_eq (depth_writeInteger hS e.2)
  rw [writeFields, hS.writeMap_eq, depth]
  omega

theorem Location.depth_write (hS : S.Lawful) (l : Location) : (l.write L).depth = 1 := by
  simp [write, hS.writeRecord_eq, depth, depthMembers, depth_writeInteger hS]

theorem Packet.depth_write (hS : S.Lawful) (p : Packet) : (p.write L).depth = 2 := by
  simp [write, hS.writeRecord_eq, depth, depthMembers, depth_writeFields hS]

theorem Action.depth_write (hS : S.Lawful) (a : Action) : (a.write L).depth = 2 := by
  simp [write, hS.writeRecord_eq, depth, depthMembers, depth_writeInteger hS, depth_writeIntegers hS,
    depth_writeFields hS]

/-- Contents that are a pair need two brackets more than each of its items. -/
theorem depth_writeContents_pair (hS : S.Lawful) (name : String) (v w : Json) :
    (L.writeContents name (L.writePair v w)).depth = max v.depth w.depth + 2 := by
  rw [hS.writeContents_eq, hS.writePair_eq]
  simp only [depth, depthMembers, depthItems]
  omega

/-- A branch needs two brackets more than its parts. -/
theorem Policy.depth_write_branch (hS : S.Lawful) (guard : Predicate) (acts : List Action) :
    ((branch guard acts).write L).depth
      = max (guard.write L).depth (Json.array (acts.map (Action.write L))).depth + 2 := by
  rw [write, hS.writeContents_eq, hS.writeRecord_eq, hS.writeList_eq]
  generalize Json.array (acts.map (Action.write L)) = actions
  simp only [depth, depthMembers]
  omega

/-! ### Records -/

theorem exists_of_accepts_fields (hS : S.Lawful) {m : KeyMap Field Value}
    (h : S.Accepts n (fieldsDeserializer L) m) : ∃ k, n = k + 1 := by
  obtain ⟨es, hes, -⟩ := hS.accepts_map h
  obtain ⟨k, hk, -⟩ := hS.accepts_entries hes
  exact ⟨k, hk⟩

/-- A location is accepted within one bracket. -/
theorem Location.depth_le_of_accepts (hS : S.Lawful) {l : Location}
    (h : S.Accepts n (Location.deserializer L) l) : (l.write L).depth ≤ n := by
  obtain ⟨s, hs, -⟩ := hS.accepts_map h
  obtain ⟨m, rfl, -⟩ := hS.accepts_record hs
  rw [l.depth_write hS]
  omega

/-- A packet is accepted within two brackets. -/
theorem Packet.depth_le_of_accepts (hS : S.Lawful) {p : Packet}
    (h : S.Accepts n (Packet.deserializer L) p) : (p.write L).depth ≤ n := by
  obtain ⟨m, hm, -⟩ := hS.accepts_check h
  obtain ⟨s, hs, -⟩ := hS.accepts_map hm
  obtain ⟨j, rfl, hmembers⟩ := hS.accepts_record hs
  obtain ⟨k, rfl⟩ := exists_of_accepts_fields hS (Semantics.accepts_of_required hmembers.1)
  rw [p.depth_write hS]
  omega

/-- An action is accepted within two brackets, because there is none without ports. -/
theorem Action.depth_le_of_accepts (hS : S.Lawful) {a : Action}
    (h : S.Accepts n (Action.deserializer L) a) : (a.write L).depth ≤ n := by
  obtain ⟨u, hu, -⟩ := hS.accepts_check h
  obtain ⟨s, hs, -⟩ := hS.accepts_map hu
  obtain ⟨j, rfl, hmembers⟩ := hS.accepts_record hs
  obtain ⟨k, rfl, -⟩ := hS.accepts_list (Semantics.accepts_of_required hmembers.2.1)
  rw [a.depth_write hS]
  omega

/-! ### Trees -/

variable (R : TreeReaders L)

/-- **Predicates.** What is accepted as a predicate is written within the same brackets. -/
theorem Predicate.depth_le_of_accepts (hS : S.Lawful) {p : Predicate}
    (h : S.Accepts n R.predicates p) : (p.write L).depth ≤ n := by
  induction n using Nat.strongRecOn generalizing p with
  | ind n ih =>
    rw [R.predicates_eq] at h
    obtain ⟨k, hk, hkind⟩ := hS.accepts_kinds h
    have hoperation : ∀ {name : String} {op : Predicate → Predicate → Predicate},
        (∀ p q, (op p q).write L = L.writeContents name (L.writePair (p.write L) (q.write L))) →
        S.AcceptsKind n (.contents name (L.pair R.predicates R.predicates) fun e => op e.1 e.2) p →
        (p.write L).depth ≤ n := by
      rintro name op hop ⟨m, e, rfl, he, rfl⟩
      obtain ⟨j, rfl, hleft, hright⟩ := hS.accepts_pair he
      have hp := ih j (by omega) hleft
      have hq := ih j (by omega) hright
      rw [hop, depth_writeContents_pair hS]
      omega
    simp only [kinds, List.mem_cons, List.not_mem_nil, or_false] at hk
    rcases hk with rfl | rfl | rfl | rfl | rfl | rfl | rfl
    · cases hkind
      rw [write, hS.writeBare_eq, depth]
      omega
    · cases hkind
      rw [write, hS.writeBare_eq, depth]
      omega
    · obtain ⟨m, e, rfl, he, rfl⟩ := hkind
      obtain ⟨j, rfl, -⟩ := hS.accepts_pair he
      rw [write, depth_writeContents_pair hS, Field.write, hS.writeBare_eq, depth,
        depth_writeInteger hS]
      omega
    · obtain ⟨m, l, rfl, hl, rfl⟩ := hkind
      have hl := Location.depth_le_of_accepts hS hl
      rw [write, hS.writeContents_eq]
      simp only [depth, depthMembers]
      omega
    · exact hoperation (fun _ _ => rfl) hkind
    · exact hoperation (fun _ _ => rfl) hkind
    · exact hoperation (fun _ _ => rfl) hkind

/-- **Policies.** What is accepted as a policy is written within the same brackets. -/
theorem Policy.depth_le_of_accepts (hS : S.Lawful) {p : Policy} (h : S.Accepts n R.policies p) :
    (p.write L).depth ≤ n := by
  induction n using Nat.strongRecOn generalizing p with
  | ind n ih =>
    rw [R.policies_eq] at h
    obtain ⟨k, hk, hkind⟩ := hS.accepts_kinds h
    simp only [kinds, List.mem_cons, List.not_mem_nil, or_false] at hk
    rcases hk with rfl | rfl | rfl
    · cases hkind
      rw [write, hS.writeBare_eq, depth]
      omega
    · obtain ⟨m, s, rfl, hs, rfl⟩ := hkind
      obtain ⟨j, rfl, hmembers⟩ := hS.accepts_record hs
      have hguard := Predicate.depth_le_of_accepts R hS (Semantics.accepts_of_required hmembers.1)
      obtain ⟨i, rfl, hitems⟩ := hS.accepts_list (Semantics.accepts_of_required hmembers.2.1)
      have hacts : (Json.array (s.2.1.map (Action.write L))).depth ≤ i + 1 := by
        refine Json.depth_array_le_iff.2 ⟨i, rfl, List.forall_mem_map.2 fun a ha => ?_⟩
        exact Action.depth_le_of_accepts hS (hitems a ha)
      rw [depth_write_branch hS]
      omega
    · obtain ⟨m, e, rfl, he, rfl⟩ := hkind
      obtain ⟨j, rfl, hleft, hright⟩ := hS.accepts_pair he
      have hp := ih j (by omega) hleft
      have hq := ih j (by omega) hright
      rw [write, depth_writeContents_pair hS]
      omega

end SlicePolicy
