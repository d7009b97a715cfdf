import SlicePolicy.Proofs.Policy.Branches

namespace SlicePolicy

/-!
# Walking over a policy

What a policy does and which branches it has are both found by a walk over its tree from left to
right that appends to what was found before. A walk finds the same branch by branch, whatever was
found before and however the tree is grouped. So the actions taken are those of the branches that
match, in their order and as often as they stand there, and a union of a list does what its members
do, one after the other.

* `Policy.walk`, `Policy.walk_eq` — a walk that appends what it finds in each branch.
* `Policy.collectActions_eq`, `Policy.collectBranches_eq` — the two walks.
* `Policy.branches_unionAll_branch` — a policy with given branches.
* `Policy.walks_agree` — what the walks find, and what they find in unions of lists.
-/

namespace Policy

variable {α : Type}

/-- A walk over the tree from left to right that appends what it finds in each branch to what was
    found before. -/
def walk (find : Predicate → List Action → List α) : Policy → List α → List α
  | bottom, found => found
  | branch guard acts, found => found ++ find guard acts
  | union p q, found => q.walk find (p.walk find found)

/-- A walk finds what is found in the branches, from left to right. -/
theorem walk_eq (find : Predicate → List Action → List α) (p : Policy) (found : List α) :
    p.walk find found = found ++ p.branches.flatMap fun b => find b.1 b.2 := by
  -- whatever was found before: the second part of a union is walked with what the first part added
  induction p generalizing found with
  | bottom => exact (List.append_nil found).symm
  | branch guard acts => rw [walk, branches, List.flatMap_singleton]
  | union p q ihp ihq =>
    calc (p.union q).walk find found
        = q.walk find (p.walk find found) := rfl
      _ = found ++ p.branches.flatMap _ ++ q.branches.flatMap _ := by rw [ihq, ihp]
      _ = found ++ (p.union q).branches.flatMap _ := by
        rw [branches, List.flatMap_append, List.append_assoc]

/-- The walk that collects the actions of the branches that match. -/
def collectActions (x : Packet) (l : Location) (p : Policy) (taken : List Action) : List Action :=
  p.walk (fun guard acts => if guard.accepts x l then acts else []) taken

/-- The walk that collects the branches. -/
def collectBranches (p : Policy) (seen : List (Predicate × List Action)) :
    List (Predicate × List Action) :=
  p.walk (fun guard acts => [(guard, acts)]) seen

theorem collectActions_eq (x : Packet) (l : Location) (p : Policy) (taken : List Action) :
    p.collectActions x l taken = taken ++ p.actions x l := by
  rw [collectActions, walk_eq, actions_eq_branches]

theorem collectBranches_eq (p : Policy) (seen : List (Predicate × List Action)) :
    p.collectBranches seen = seen ++ p.branches := by
  have hall : (p.branches.flatMap fun b => [(b.1, b.2)]) = p.branches :=
    List.flatMap_singleton' p.branches
  rw [collectBranches, walk_eq, hall]

/-- The actions taken are those of the branches that match. -/
theorem actions_eq_flatMap_filter (p : Policy) (x : Packet) (l : Location) :
    p.actions x l = (p.branches.filter fun b => b.1.accepts x l).flatMap Prod.snd := by
  rw [actions_eq_branches]
  induction p.branches with
  | nil => rfl
  | cons b bs ih =>
    rw [List.flatMap_cons, List.filter_cons, ih]
    by_cases hguard : b.1.accepts x l = true
    · rw [if_pos hguard, if_pos hguard, List.flatMap_cons]
    · rw [if_neg hguard, if_neg hguard, List.nil_append]

/-- Any list of branches is that of a policy. -/
theorem branches_unionAll_branch (bs : List (Predicate × List Action)) :
    (unionAll (bs.map fun b => branch b.1 b.2)).branches = bs := by
  rw [branches_unionAll, List.flatMap_map]
  exact List.flatMap_singleton' bs

/-- A union of unions is the union of all their members. -/
theorem branches_unionAll_unionAll (pss : List (List Policy)) :
    (unionAll (pss.map unionAll)).branches = (unionAll pss.flatten).branches := by
  rw [branches_unionAll, branches_unionAll, List.flatMap_map, ← List.flatMap_id, List.flatMap_assoc]
  exact congrArg (pss.flatMap ·) (funext fun _ => branches_unionAll)

/-- **Both walks find the same.** Each appends to what was found before, whatever that is, and a
    policy takes the actions of its branches that match, in the order of the branches. A union of a
    list has the branches of its members, takes their actions and sends what they send, in the order
    of the list; unions in such a list count as their members, and every list of branches is that of
    a union. -/
theorem walks_agree :
    (∀ (p : Policy) (x : Packet) (l : Location) (taken : List Action)
        (seen : List (Predicate × List Action)),
      p.collectActions x l taken = taken ++ p.actions x l ∧
      p.collectBranches seen = seen ++ p.branches ∧
      p.actions x l = (p.branches.filter fun b => b.1.accepts x l).flatMap Prod.snd) ∧
    (∀ ps : List Policy, (unionAll ps).branches = ps.flatMap branches ∧
      ∀ (x : Packet) (l : Location),
        (unionAll ps).actions x l = ps.flatMap (fun p => p.actions x l) ∧
        (unionAll ps).outputs x l = ps.flatMap fun p => p.outputs x l) ∧
    (∀ pss : List (List Policy),
      (unionAll (pss.map unionAll)).branches = (unionAll pss.flatten).branches) ∧
    ∀ bs : List (Predicate × List Action),
      (unionAll (bs.map fun b => branch b.1 b.2)).branches = bs := by
  refine ⟨fun p x l taken seen => ⟨?_, ?_, ?_⟩, fun ps => ⟨branches_unionAll, fun x l => ?_⟩,
    branches_unionAll_unionAll, branches_unionAll_branch⟩
  · exact collectActions_eq x l p taken
  · exact collectBranches_eq p seen
  · exact p.actions_eq_flatMap_filter x l
  · exact ⟨actions_unionAll, outputs_unionAll⟩

end Policy

end SlicePolicy
