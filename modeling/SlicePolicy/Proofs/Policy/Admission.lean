import Mathlib.Data.List.Forall2
import SlicePolicy.Policy.EdgeAdmission
import SlicePolicy.Proofs.Policy.Branches

namespace SlicePolicy

/-!
# What an edge policy lets pass

Restricting a policy puts one test into every guard: the union over the keys of what their predicates
accept, together with everything that no key covers. So a policy does at a location either what it
did before or nothing, and one test of the location decides which.

* `Predicate.accepts_unionAll_iff` — a union accepts what one of its parts accepts.
* `EdgePolicy.Admits`, `EdgePolicy.accepts_admission_iff` — that test.
* `Policy.actions_restrictToEdges` — the restricted policy does all or nothing.
* `Policy.silent_restrictToEdges_iff` — when a refusal at a key is final.
* `Policy.branches_restrictToEdges`, `Policy.one_test_restrictToEdges` — the test in every branch,
  and what it makes of actions, outputs and observations.
-/

namespace Predicate

variable {x : Packet} {l : Location}

/-- A union accepts what one of its parts accepts. -/
theorem accepts_unionAll_iff {ps : List Predicate} :
    (unionAll ps).accepts x l = true ↔ ∃ p ∈ ps, p.accepts x l = true := by
  cases ps with
  | nil => simp [unionAll, accepts]
  | cons p ps =>
    show (ps.foldl union p).accepts x l = true ↔ _
    -- the fold carries the union of the parts that were passed, here `p`
    induction ps generalizing p with
    | nil => simp
    | cons q ps ih =>
      rw [List.foldl_cons, ih (union p q)]
      simp only [List.mem_cons, exists_eq_or_imp, accepts, Bool.or_eq_true]
      exact or_assoc

end Predicate

/-! ### The test -/

namespace EdgePolicy

variable {edges : EdgePolicy} {x : Packet} {l : Location}

/-- The packet may pass at the location: one of the keys that cover it has a predicate that accepts,
    or no key covers it. -/
def Admits (edges : EdgePolicy) (x : Packet) (l : Location) : Prop :=
  (∃ (k : Location) (gate : Predicate),
    edges[k]? = some gate ∧ k.Covers l ∧ gate.accepts x l = true) ∨
  ∀ k ∈ edges, ¬k.Covers l

theorem accepts_admittedAtEdges_iff :
    edges.admittedAtEdges.accepts x l = true ↔ ∃ (k : Location) (gate : Predicate),
      edges[k]? = some gate ∧ k.Covers l ∧ gate.accepts x l = true := by
  rw [admittedAtEdges, Predicate.accepts_unionAll_iff]
  simp only [List.mem_map, Prod.exists]
  constructor
  · rintro ⟨_, ⟨k, gate, hentry, rfl⟩, haccepts⟩
    rw [Predicate.accepts, Bool.and_eq_true, Predicate.accepts, decide_eq_true_eq] at haccepts
    exact ⟨k, gate, Std.TreeMap.mem_toList_iff_getElem?_eq_some.1 hentry, haccepts⟩
  · rintro ⟨k, gate, hkey, hcovers, haccepts⟩
    refine ⟨_, ⟨k, gate, Std.TreeMap.mem_toList_iff_getElem?_eq_some.2 hkey, rfl⟩, ?_⟩
    rw [Predicate.accepts, Bool.and_eq_true, Predicate.accepts, decide_eq_true_eq]
    exact ⟨hcovers, haccepts⟩

theorem accepts_listed_iff : edges.listed.accepts x l = true ↔ ∃ k ∈ edges, k.Covers l := by
  rw [listed, Predicate.accepts_unionAll_iff]
  simp only [List.mem_map, Std.TreeMap.mem_keys]
  constructor
  · rintro ⟨_, ⟨k, hk, rfl⟩, hcovers⟩
    rw [Predicate.accepts, decide_eq_true_eq] at hcovers
    exact ⟨k, hk, hcovers⟩
  · rintro ⟨k, hk, hcovers⟩
    refine ⟨_, ⟨k, hk, rfl⟩, ?_⟩
    rw [Predicate.accepts, decide_eq_true_eq]
    exact hcovers

/-- The test that a restricted policy makes is that the packet may pass. -/
theorem accepts_admission_iff : edges.admission.accepts x l = true ↔ edges.Admits x l := by
  have hlisted : edges.listed.accepts x l = false ↔ ∀ k ∈ edges, ¬k.Covers l := by
    rw [← Bool.not_eq_true, accepts_listed_iff]
    simp only [not_exists, not_and]
  rw [admission, Predicate.accepts, Bool.or_eq_true, accepts_admittedAtEdges_iff, Predicate.accepts,
    Predicate.accepts, Bool.true_and, Bool.not_eq_true', hlisted, Admits]

/-- The test decides whether the packet may pass. -/
instance (edges : EdgePolicy) (x : Packet) (l : Location) : Decidable (edges.Admits x l) :=
  decidable_of_iff _ accepts_admission_iff

/-- Without keys everything may pass. -/
theorem admits_of_isEmpty (h : edges.isEmpty = true) : edges.Admits x l := by
  refine .inr fun k hk => ?_
  have hnone : edges.contains k = false := Std.TreeMap.contains_of_isEmpty h
  exact absurd hk (by simp [Std.TreeMap.mem_iff_contains, hnone])

/-- A packet that is refused by the predicate of a key does not pass there when the other keys that
    cover the location refuse it as well, and only then. -/
theorem not_admits_iff_of_refused {gate : Predicate} (hkey : edges[l]? = some gate)
    (hrefused : gate.accepts x l = false) :
    ¬edges.Admits x l ↔ ∀ (k : Location) (other : Predicate),
      edges[k]? = some other → k ≠ l → k.Covers l → other.accepts x l = false := by
  have hcovered : ¬∀ k ∈ edges, ¬k.Covers l := by
    intro hnone
    have hl : l ∈ edges := Std.TreeMap.mem_iff_isSome_getElem?.2 (by rw [hkey]; rfl)
    exact hnone l hl l.covers_self
  rw [Admits, or_iff_left hcovered]
  constructor
  · intro hno k other hother _ hcovers
    exact Bool.eq_false_iff.2 fun haccepts => hno ⟨k, other, hother, hcovers, haccepts⟩
  · rintro hothers ⟨k, other, hother, hcovers, haccepts⟩
    by_cases hk : k = l
    · -- the key itself has the predicate that refuses
      subst hk
      rw [hkey, Option.some.injEq] at hother
      rw [← hother, hrefused] at haccepts
      exact Bool.false_ne_true haccepts
    · rw [hothers k other hother hk hcovers] at haccepts
      exact Bool.false_ne_true haccepts

end EdgePolicy

/-! ### Restricted policies -/

namespace Policy

variable {p : Policy} {edges : EdgePolicy} {x : Packet} {l : Location}

/-- Without keys everything may enter. -/
theorem restrictToEdges_of_isEmpty (h : edges.isEmpty = true) : p.restrictToEdges edges = p := by
  rw [restrictToEdges, if_pos h]

theorem restrictToEdges_empty (p : Policy) : p.restrictToEdges ∅ = p :=
  restrictToEdges_of_isEmpty rfl

/-- One more test in every guard lets a policy do all or nothing. -/
theorem actions_mapGuards_inter {guard : Predicate} :
    (p.mapGuards fun g => .inter g guard).actions x l
      = if guard.accepts x l then p.actions x l else [] := by
  induction p with
  | bottom => simp [mapGuards, actions]
  | branch g acts =>
    simp only [mapGuards, actions, Predicate.accepts, Bool.and_eq_true]
    by_cases hguard : guard.accepts x l = true <;> simp [hguard]
  | union p q ihp ihq =>
    simp only [mapGuards, actions, ihp, ihq]
    by_cases hguard : guard.accepts x l = true <;> simp [hguard]

/-- A restricted policy does what the policy did with a packet that may pass. -/
theorem actions_restrictToEdges (h : edges.Admits x l) :
    (p.restrictToEdges edges).actions x l = p.actions x l := by
  by_cases hempty : edges.isEmpty = true
  · rw [restrictToEdges_of_isEmpty hempty]
  · rw [restrictToEdges, if_neg hempty, actions_mapGuards_inter,
      if_pos (EdgePolicy.accepts_admission_iff.2 h)]

/-- A restricted policy does nothing with a packet that may not pass. -/
theorem actions_restrictToEdges_of_not_admits (h : ¬edges.Admits x l) :
    (p.restrictToEdges edges).actions x l = [] := by
  have hempty : ¬edges.isEmpty = true := fun hempty => h (EdgePolicy.admits_of_isEmpty hempty)
  rw [restrictToEdges, if_neg hempty, actions_mapGuards_inter,
    if_neg (mt EdgePolicy.accepts_admission_iff.1 h)]

/-- Every policy is silent after the restriction exactly when the packet may not pass. -/
theorem forall_actions_restrictToEdges_eq_nil_iff :
    (∀ p : Policy, (p.restrictToEdges edges).actions x l = []) ↔ ¬edges.Admits x l := by
  constructor
  · intro hsilent hadmits
    -- a policy that forwards everything would go on doing so
    have hforwards := hsilent (.branch .top [.forward 1 1])
    rw [actions_restrictToEdges hadmits] at hforwards
    exact List.cons_ne_nil _ _ hforwards
  · exact fun h p => actions_restrictToEdges_of_not_admits h

/-- **What is enforced at a key.** A packet that the predicate of a key refuses is dropped there by
    every restricted policy exactly when all other keys that cover the location refuse it too, so a
    key that no other overlaps is always enforced. Where no key covers a location, nothing changes. -/
theorem silent_restrictToEdges_iff (edges : EdgePolicy) :
    (∀ (l : Location) (gate : Predicate) (x : Packet),
      edges[l]? = some gate → gate.accepts x l = false →
      ((∀ p : Policy, (p.restrictToEdges edges).actions x l = []) ↔
        ∀ (k : Location) (other : Predicate),
          edges[k]? = some other → k ≠ l → k.Covers l → other.accepts x l = false)) ∧
    ∀ (l : Location) (x : Packet), (∀ k ∈ edges, ¬k.Covers l) →
      ∀ p : Policy, (p.restrictToEdges edges).actions x l = p.actions x l := by
  refine ⟨?_, ?_⟩
  · intro l gate x hkey hrefused
    rw [forall_actions_restrictToEdges_eq_nil_iff]
    exact EdgePolicy.not_admits_iff_of_refused hkey hrefused
  · intro l x hfree p
    exact actions_restrictToEdges (.inr hfree)

end Policy

/-! ### Instances: web traffic at one port -/

namespace WebPort

/-- Only web traffic may enter at the first port, and only what has the tag 5 at the other ports. -/
def tagged : EdgePolicy :=
  Std.TreeMap.ofList [((⟨1, 1⟩ : Location), Predicate.test (.header .dstIp) 80),
    (⟨1, 0⟩, .test (.header .vlan) 5)]

/-- Only web traffic may enter at the first port, and everything at the other ports. -/
def opened : EdgePolicy :=
  Std.TreeMap.ofList [((⟨1, 1⟩ : Location), Predicate.test (.header .dstIp) 80), (⟨1, 0⟩, .top)]

/-- The tag is asked of a packet that is neither web traffic nor tagged. -/
theorem tagged_refuses (k : Location) (other : Predicate) (hkey : tagged[k]? = some other)
    (hk : k ≠ ⟨1, 1⟩) : other.accepts Packet.blank ⟨1, 1⟩ = false := by
  have hall : (tagged.toList.all fun e =>
      decide (e.1 = ⟨1, 1⟩) || !e.2.accepts Packet.blank ⟨1, 1⟩) = true := by decide
  have hentry : (k, other) ∈ tagged.toList := Std.TreeMap.mem_toList_iff_getElem?_eq_some.2 hkey
  have hrefused := List.all_eq_true.1 hall (k, other) hentry
  simpa [hk] using hrefused

/-- Both keys are keys of the first switch. -/
theorem tagged_free (k : Location) (hk : k ∈ tagged) : ¬k.Covers ⟨2, 1⟩ := by
  have hall : (tagged.keys.all fun k => !decide (k.Covers ⟨2, 1⟩)) = true := by decide
  have hfree := List.all_eq_true.1 hall k (Std.TreeMap.mem_keys.2 hk)
  simpa using hfree

end WebPort

/-- A packet that neither key of the first port accepts is dropped there by all policies; at the second
    switch the policies do what they did. -/
theorem Policy.silent_restrictToEdges_tagged :
    WebPort.tagged[(⟨1, 1⟩ : Location)]? = some (.test (.header .dstIp) 80) ∧
    (Predicate.test (.header .dstIp) 80).accepts Packet.blank ⟨1, 1⟩ = false ∧
    (∀ p : Policy, (p.restrictToEdges WebPort.tagged).actions Packet.blank ⟨1, 1⟩ = []) ∧
    ∀ p : Policy, (p.restrictToEdges WebPort.tagged).actions Packet.blank ⟨2, 1⟩
      = p.actions Packet.blank ⟨2, 1⟩ := by
  obtain ⟨henforced, hfree⟩ := silent_restrictToEdges_iff WebPort.tagged
  refine ⟨rfl, by decide, ?_, ?_⟩
  · refine (henforced ⟨1, 1⟩ (.test (.header .dstIp) 80) Packet.blank rfl (by decide)).2 ?_
    exact fun k other hkey hk _ => WebPort.tagged_refuses k other hkey hk
  · exact hfree ⟨2, 1⟩ Packet.blank WebPort.tagged_free

/-- **An overlapping key admits.** The key of the first port has no wildcards and its predicate refuses
    the packet; the key of all ports accepts it, and the restricted policy still forwards it. -/
theorem EdgePolicy.overlapping_key_admits :
    WebPort.opened[(⟨1, 1⟩ : Location)]? = some (.test (.header .dstIp) 80) ∧
    (Predicate.test (.header .dstIp) 80).accepts Packet.blank ⟨1, 1⟩ = false ∧
    ((Policy.branch .top [.forward 1 2]).restrictToEdges WebPort.opened).actions Packet.blank ⟨1, 1⟩
      = [.forward 1 2] ∧
    ¬∀ (edges : EdgePolicy) (l : Location) (gate : Predicate) (x : Packet) (p : Policy),
      edges[l]? = some gate → l.switch ≠ wildcard → l.port ≠ wildcard →
        gate.accepts x l = false → (p.restrictToEdges edges).actions x l = [] := by
  refine ⟨rfl, by decide, rfl, ?_⟩
  intro henforced
  have hsilent := henforced WebPort.opened ⟨1, 1⟩ (.test (.header .dstIp) 80) Packet.blank
    (.branch .top [.forward 1 2]) rfl (by decide) (by decide) (by decide)
  exact absurd hsilent (List.cons_ne_nil _ _)

/-! ### One test in every branch -/

namespace Policy

/-- The branches stay in their order and keep their actions, and every guard is replaced. -/
theorem branches_mapGuards (f : Predicate → Predicate) (p : Policy) :
    (p.mapGuards f).branches = p.branches.map fun b => (f b.1, b.2) := by
  induction p with
  | bottom => rfl
  | branch guard acts => rfl
  | union p q ihp ihq => rw [mapGuards, branches, branches, List.map_append, ihp, ihq]

variable {p : Policy} {edges : EdgePolicy} {x : Packet} {l : Location}

/-- Each branch keeps its actions, and its guard accepts what it did and what may pass as well. -/
theorem branches_restrictToEdges (p : Policy) (edges : EdgePolicy) :
    List.Forall₂ (fun b restricted => restricted.2 = b.2 ∧ ∀ (x : Packet) (l : Location),
        restricted.1.accepts x l = true ↔ b.1.accepts x l = true ∧ edges.Admits x l)
      p.branches (p.restrictToEdges edges).branches := by
  by_cases hempty : edges.isEmpty = true
  · -- no guard is replaced, and everything may pass
    have hadmits (x : Packet) (l : Location) : edges.Admits x l :=
      EdgePolicy.admits_of_isEmpty hempty
    rw [restrictToEdges_of_isEmpty hempty, List.forall₂_same]
    exact fun b _ => ⟨rfl, fun x l => (and_iff_left (hadmits x l)).symm⟩
  · rw [restrictToEdges, if_neg hempty, branches_mapGuards, List.forall₂_map_right_iff,
      List.forall₂_same]
    refine fun b _ => ⟨rfl, fun x l => ?_⟩
    rw [Predicate.accepts, Bool.and_eq_true, EdgePolicy.accepts_admission_iff]

/-- **Restricting is one test.** Every branch of the restricted policy has the actions of a branch
    of the policy and a guard that also asks whether the packet may pass: whether a key that covers
    the location has a predicate that accepts the packet there, or no key covers it. So the actions,
    the outputs and the observations are those of the policy if the packet may pass, and none
    otherwise. An edge policy without keys leaves the policy as it is. -/
theorem one_test_restrictToEdges (p : Policy) (edges : EdgePolicy) :
    List.Forall₂ (fun b restricted => restricted.2 = b.2 ∧ ∀ (x : Packet) (l : Location),
        restricted.1.accepts x l = true ↔ b.1.accepts x l = true ∧ edges.Admits x l)
      p.branches (p.restrictToEdges edges).branches ∧
    (∀ (x : Packet) (l : Location),
      (p.restrictToEdges edges).actions x l
        = (if edges.Admits x l then p.actions x l else []) ∧
      (p.restrictToEdges edges).outputs x l
        = (if edges.Admits x l then p.outputs x l else []) ∧
      (p.restrictToEdges edges).observations x l
        = if edges.Admits x l then p.observations x l else ∅) ∧
    (edges.isEmpty = true → p.restrictToEdges edges = p) := by
  refine ⟨branches_restrictToEdges p edges, fun x l => ?_, restrictToEdges_of_isEmpty⟩
  -- outputs and observations are made of the actions that are taken
  rw [outputs, observations]
  by_cases hadmits : edges.Admits x l
  · have hactions : (p.restrictToEdges edges).actions x l = p.actions x l :=
      actions_restrictToEdges hadmits
    rw [hactions, if_pos hadmits, if_pos hadmits, if_pos hadmits]
    exact ⟨rfl, rfl, rfl⟩
  · have hactions : (p.restrictToEdges edges).actions x l = [] :=
      actions_restrictToEdges_of_not_admits hadmits
    rw [hactions, if_neg hadmits, if_neg hadmits, if_neg hadmits]
    exact ⟨rfl, rfl, rfl⟩

/-- What neither key of the first port accepts is dropped there, and at the second switch everything
    goes on as before; where the key of all ports accepts, the refusal at the first port does not
    count. -/
theorem one_test_restrictToEdges_webPort :
    let p : Policy := .union (.branch .top [.forward 1 2])
      (.branch (.located ⟨2, 0⟩) [⟨2, [3], ∅, .ofList [7]⟩])
    (p.restrictToEdges WebPort.tagged).outputs Packet.blank ⟨1, 1⟩ = [] ∧
    (p.restrictToEdges WebPort.tagged).observations Packet.blank ⟨2, 1⟩ = .ofList [7] ∧
    (p.restrictToEdges WebPort.opened).actions Packet.blank ⟨1, 1⟩ = [.forward 1 2] ∧
    p.restrictToEdges ∅ = p := by
  intro p
  obtain ⟨_, htagged, _⟩ := one_test_restrictToEdges p WebPort.tagged
  obtain ⟨_, hopened, _⟩ := one_test_restrictToEdges p WebPort.opened
  refine ⟨?_, ?_, ?_, ?_⟩
  · rw [(htagged Packet.blank ⟨1, 1⟩).2.1, if_neg (by decide)]
  · rw [(htagged Packet.blank ⟨2, 1⟩).2.2, if_pos (by decide)]
    rfl
  · rw [(hopened Packet.blank ⟨1, 1⟩).1, if_pos (by decide)]
    rfl
  · exact (one_test_restrictToEdges p ∅).2.2 rfl

end Policy

end SlicePolicy
