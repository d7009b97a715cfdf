import SlicePolicy.Proofs.Topology.Neighbors
import SlicePolicy.Proofs.Topology.PortTable

namespace SlicePolicy

/-!
# Built topologies

Whatever is added to a topology and whatever is refused, the port tables follow the list of links: one
addition keeps this up, so every sequence of additions does.

* `Topology.Numbered` — the tables follow the links.
* `Topology.Numbered.applyOrKeep`, `Topology.numbered_after` — one addition, and all of them.
* `Topology.Numbered.portToward_iff` — so a port number is a place among the links of the node.
* `Topology.kind?_after` — a node keeps the kind with which it came.
* `Topology.ports_after_follow_links` — what the list of links of a built topology determines.
-/

namespace Topology

variable {t : Topology} {n m a b k : Value}

/-- The port tables follow the list of links. -/
structure Numbered (t : Topology) : Prop where
  simple : Simple t.links
  known : ∀ e ∈ t.links, e.1 ∈ t.nodes ∧ e.2 ∈ t.nodes
  faces : ∀ (n : Value) (node : Node), t.nodes[n]? = some node → node.Faces (neighbors n t.links)

/-! ### Ports of a topology whose tables follow the links -/

namespace Numbered

/-- A node that is not there has no neighbours. -/
theorem neighbors_eq_nil (h : t.Numbered) (hnone : t.nodes[n]? = none) :
    neighbors n t.links = [] := by
  have hn : n ∉ t.nodes := by
    rw [Std.TreeMap.mem_iff_isSome_getElem?, hnone]
    exact Bool.false_ne_true
  refine List.eq_nil_iff_forall_not_mem.2 fun m hm => ?_
  rcases mem_neighbors_iff.1 hm with hlink | hlink
  · exact hn (h.known (n, m) hlink).1
  · exact hn (h.known (m, n) hlink).2

/-- **Port numbers are places.** The port toward a neighbour has the number of its place. -/
theorem portToward_iff (h : t.Numbered) : t.portToward n m = some k ↔
    ∃ i : Nat, (neighbors n t.links)[i]? = some m ∧ k = portNumber i := by
  rw [portToward]
  cases hnode : t.nodes[n]? with
  | none => simp [h.neighbors_eq_nil hnode]
  | some node => exact (h.faces n node hnode).port_iff m k

theorem portToward_isSome_iff (h : t.Numbered) :
    (t.portToward n m).isSome ↔ m ∈ neighbors n t.links := by
  rw [Option.isSome_iff_exists]
  simp only [h.portToward_iff]
  exact exists_portNumber_iff

/-- Two nodes face each other or not at all. -/
theorem portToward_isSome_comm (h : t.Numbered) :
    (t.portToward n m).isSome ↔ (t.portToward m n).isSome := by
  rw [h.portToward_isSome_iff, h.portToward_isSome_iff]
  exact mem_neighbors_comm

/-- A port leads to one neighbour. -/
theorem portToward_inj (h : t.Numbered) {m' : Value} (hm : t.portToward n m = some k)
    (hm' : t.portToward n m' = some k) : m = m' := by
  obtain ⟨node, hnode, hport⟩ := Option.bind_eq_some_iff.1 hm
  obtain ⟨node', hnode', hport'⟩ := Option.bind_eq_some_iff.1 hm'
  rw [hnode, Option.some.injEq] at hnode'
  subst hnode'
  exact (h.faces n node hnode).port_inj (length_neighbors_lt h.simple) hport hport'

end Numbered

/-! ### One addition -/

/-- A new node stands where there was none, and has no ports. -/
theorem getElem?_nodes_addNode (t : Topology) (id : Value) (kind : NodeKind) (n : Value) :
    (t.addNode id kind).nodes[n]?
      = t.nodes[n]?.or (if id = n then some ⟨kind, ∅⟩ else none) := by
  show (t.nodes.insertIfNew id ⟨kind, ∅⟩)[n]? = _
  simp only [Std.TreeMap.getElem?_insertIfNew, Std.LawfulEqCmp.compare_eq_iff_eq,
    Std.TreeMap.mem_iff_isSome_getElem?]
  by_cases hid : id = n
  · subst hid
    cases t.nodes[id]? <;> simp
  · simp [hid]

theorem links_face (t : Topology) (a b : Value) : (t.face a b).links = t.links := by
  unfold face
  cases t.nodes[a]? <;> rfl

/-- Only the node itself gets a port. -/
theorem getElem?_nodes_face (t : Topology) (a b n : Value) :
    (t.face a b).nodes[n]?
      = t.nodes[n]?.map fun node => if n = a then node.connect b else node := by
  unfold face
  cases hnode : t.nodes[a]? with
  | none =>
    by_cases hn : n = a
    · subst hn
      simp [hnode]
    · simp [hn]
  | some node =>
    show (t.nodes.insert a (node.connect b))[n]? = _
    simp only [Std.TreeMap.getElem?_insert, Std.LawfulEqCmp.compare_eq_iff_eq]
    by_cases hn : n = a
    · subst hn
      simp [hnode]
    · simp [hn, Ne.symm hn]

/-- A new link gives one port to the nodes at its ends. -/
theorem getElem?_nodes_connect (t : Topology) (hab : a ≠ b) (n : Value) :
    (t.connect a b).nodes[n]? = t.nodes[n]?.map fun node =>
      if n = a then node.connect b else if n = b then node.connect a else node := by
  show ((t.face a b).face b a).nodes[n]? = _
  rw [getElem?_nodes_face, getElem?_nodes_face, Option.map_map]
  refine congrArg (fun f => t.nodes[n]?.map f) (funext fun node => ?_)
  show (if n = b then (if n = a then node.connect b else node).connect a
    else if n = a then node.connect b else node) = _
  by_cases ha : n = a
  · have hb : n ≠ b := fun hb => hab (ha.symm.trans hb)
    rw [if_neg hb, if_pos ha, if_pos ha]
  · rw [if_neg ha, if_neg ha]

theorem links_connect (t : Topology) (a b : Value) :
    (t.connect a b).links = t.links ++ [(a, b)] := by
  show ((t.face a b).face b a).links ++ [(a, b)] = _
  rw [links_face, links_face]

theorem mem_nodes_iff : n ∈ t.nodes ↔ (t.kind? n).isSome := by
  rw [Std.TreeMap.mem_iff_isSome_getElem?, kind?, Option.isSome_map]

theorem kind?_addNode (t : Topology) (id : Value) (kind : NodeKind) (n : Value) :
    (t.addNode id kind).kind? n = (t.kind? n).or (if id = n then some kind else none) := by
  rw [kind?, kind?, getElem?_nodes_addNode]
  cases t.nodes[n]? with
  | none => by_cases hid : id = n <;> simp [hid]
  | some node => simp

theorem kind?_connect (t : Topology) (hab : a ≠ b) (n : Value) :
    (t.connect a b).kind? n = t.kind? n := by
  rw [kind?, kind?, getElem?_nodes_connect t hab, Option.map_map]
  refine congrArg (fun f => t.nodes[n]?.map f) (funext fun node => ?_)
  show Node.kind (if n = a then node.connect b else if n = b then node.connect a else node)
    = node.kind
  by_cases ha : n = a
  · rw [if_pos ha]
    rfl
  · by_cases hb : n = b
    · rw [if_neg ha, if_pos hb]
      rfl
    · rw [if_neg ha, if_neg hb]

/-- Two nodes can be linked when they are different and known. -/
theorem linkFault?_eq_none_iff :
    t.linkFault? a b = none ↔ a ≠ b ∧ a ∈ t.nodes ∧ b ∈ t.nodes := by
  rw [linkFault?, Std.TreeMap.mem_iff_contains, Std.TreeMap.mem_iff_contains]
  by_cases hab : a = b
  · simp [hab]
  · by_cases ha : t.nodes.contains a = true
    · by_cases hb : t.nodes.contains b = true <;> simp [hab, ha, hb]
    · simp [hab, ha]

/-- Linking two nodes leaves the topology as it was, or it succeeds and adds the link. -/
theorem addLink_cases (t : Topology) (a b : Value) :
    (t.addLink a b).2 = t ∨
      (a ≠ b ∧ a ∈ t.nodes ∧ b ∈ t.nodes ∧ t.portToward a b = none ∧
        t.addLink a b = (.ok (), t.connect a b)) := by
  cases hfault : t.linkFault? a b with
  | some fault =>
    left
    simp [addLink, hfault]
  | none =>
    obtain ⟨hab, ha, hb⟩ := linkFault?_eq_none_iff.1 hfault
    cases hport : t.portToward a b with
    | some k =>
      left
      simp [addLink, hfault, hport]
    | none =>
      right
      refine ⟨hab, ha, hb, rfl, ?_⟩
      simp [addLink, hfault, hport]

namespace Numbered

theorem addNode (h : t.Numbered) (id : Value) (kind : NodeKind) : (t.addNode id kind).Numbered := by
  constructor
  · exact h.simple
  · intro e he
    obtain ⟨h₁, h₂⟩ := h.known e he
    exact ⟨Std.TreeMap.mem_insertIfNew.2 (.inr h₁), Std.TreeMap.mem_insertIfNew.2 (.inr h₂)⟩
  · intro n node hnode
    rw [getElem?_nodes_addNode, Option.or_eq_some_iff] at hnode
    rcases hnode with hnode | ⟨hnone, hnew⟩
    · exact h.faces n node hnode
    · -- a node that is new has no links yet
      have hnil : neighbors n (t.addNode id kind).links = [] := h.neighbors_eq_nil hnone
      obtain ⟨-, rfl⟩ : id = n ∧ ⟨kind, ∅⟩ = node := by
        by_cases hid : id = n
        · simpa [hid] using hnew
        · simp [hid] at hnew
      rw [hnil]
      exact Node.faces_nil kind

theorem connect (h : t.Numbered) (hab : a ≠ b) (ha : a ∈ t.nodes) (hb : b ∈ t.nodes)
    (hfree : t.portToward a b = none) : (t.connect a b).Numbered := by
  have hafree : b ∉ neighbors a t.links := by
    rw [← h.portToward_isSome_iff, hfree]
    exact Bool.false_ne_true
  have hbfree : a ∉ neighbors b t.links := mt mem_neighbors_comm.1 hafree
  constructor
  · rw [links_connect]
    exact h.simple.concat hab hafree
  · intro e he
    simp only [mem_nodes_iff, kind?_connect t hab]
    rw [links_connect, List.mem_append, List.mem_singleton] at he
    rcases he with he | rfl
    · simpa only [mem_nodes_iff] using h.known e he
    · exact ⟨mem_nodes_iff.1 ha, mem_nodes_iff.1 hb⟩
  · intro n node' hnode'
    rw [getElem?_nodes_connect t hab, Option.map_eq_some_iff] at hnode'
    obtain ⟨node, hnode, rfl⟩ := hnode'
    rw [links_connect, neighbors_concat hab]
    have hfaces := h.faces n node hnode
    by_cases hna : n = a
    · subst hna
      rw [if_pos rfl, if_pos rfl]
      exact hfaces.connect hafree
    · rw [if_neg hna, if_neg hna]
      by_cases hnb : n = b
      · subst hnb
        rw [if_pos rfl, if_pos rfl]
        exact hfaces.connect hbfree
      · rw [if_neg hnb, if_neg hnb, List.append_nil]
        exact hfaces

/-- **One addition.** The tables still follow the links, whether or not it was refused. -/
theorem applyOrKeep (h : t.Numbered) (s : Step) : (t.applyOrKeep s).Numbered := by
  cases s with
  | addSwitch id => exact h.addNode id .switch
  | addHost id => exact h.addNode id .host
  | addLink a b =>
    show (t.addLink a b).2.Numbered
    rcases t.addLink_cases a b with hsame | ⟨hab, ha, hb, hfree, hnew⟩
    · rw [hsame]
      exact h
    · rw [hnew]
      exact h.connect hab ha hb hfree

end Numbered

/-! ### All additions -/

theorem numbered_empty : Numbered ∅ := by
  constructor
  · exact ⟨fun e he => absurd he List.not_mem_nil, List.Pairwise.nil⟩
  · exact fun e he => absurd he List.not_mem_nil
  · intro n node hnode
    have hnone : (∅ : Std.TreeMap Value Node)[n]? = none := Std.TreeMap.getElem?_emptyc
    exact absurd (hnone.symm.trans hnode) (by simp)

/-- **All additions.** The tables of a built topology follow its links. -/
theorem numbered_after (steps : List Step) : (after steps).Numbered := by
  have hrun : ∀ (steps : List Step) (t : Topology), t.Numbered →
      (steps.foldl applyOrKeep t).Numbered := by
    intro steps
    induction steps with
    | nil => exact fun t h => h
    | cons s steps ih => exact fun t h => ih (t.applyOrKeep s) (h.applyOrKeep s)
  exact hrun steps ∅ numbered_empty

/-- The kind of a node that an addition brings, if it brings this node. -/
def Step.kindOf? (n : Value) : Step → Option NodeKind
  | .addSwitch id => if id = n then some .switch else none
  | .addHost id => if id = n then some .host else none
  | .addLink _ _ => none

theorem kind?_applyOrKeep (t : Topology) (s : Step) (n : Value) :
    (t.applyOrKeep s).kind? n = (t.kind? n).or (s.kindOf? n) := by
  cases s with
  | addSwitch id => exact kind?_addNode t id .switch n
  | addHost id => exact kind?_addNode t id .host n
  | addLink a b =>
    rw [Step.kindOf?, Option.or_none]
    show (t.addLink a b).2.kind? n = t.kind? n
    rcases t.addLink_cases a b with hsame | ⟨hab, -, -, -, hnew⟩
    · rw [hsame]
    · rw [hnew, kind?_connect t hab]

/-- A node has the kind that the first addition of it gave. -/
theorem kind?_after (steps : List Step) (n : Value) :
    (after steps).kind? n = steps.findSome? (Step.kindOf? n) := by
  have hrun : ∀ (steps : List Step) (t : Topology),
      (steps.foldl applyOrKeep t).kind? n = (t.kind? n).or (steps.findSome? (Step.kindOf? n)) := by
    intro steps
    induction steps with
    | nil => exact fun t => (Option.or_none ..).symm
    | cons s steps ih =>
      intro t
      rw [List.foldl_cons, ih, kind?_applyOrKeep, Option.or_assoc, List.findSome?_cons]
      cases s.kindOf? n <;> simp
  have hnone : kind? ∅ n = none := by
    have hempty : (∅ : Std.TreeMap Value Node)[n]? = none := Std.TreeMap.getElem?_emptyc
    exact congrArg (Option.map Node.kind) hempty
  rw [after, hrun, hnone, Option.none_or]

/-! ### Invariants -/

namespace Numbered

theorem linkViolation?_eq_none (h : t.Numbered) {e : Value × Value} (he : e ∈ t.links) :
    t.linkViolation? e = none := by
  have hto : (t.portToward e.1 e.2).isSome :=
    h.portToward_isSome_iff.2 (mem_neighbors_iff.2 (.inl he))
  have hback : (t.portToward e.2 e.1).isSome := h.portToward_isSome_comm.1 hto
  rw [linkViolation?, Option.isNone_eq_false_iff.2 hto, Option.isNone_eq_false_iff.2 hback]
  rfl

theorem symmetryViolation?_eq_none (h : t.Numbered) {node : Node} (hnode : t.nodes[n]? = some node) :
    t.symmetryViolation? n node = none := by
  rw [symmetryViolation?, List.findSome?_eq_none_iff]
  intro m hm
  have hto : (t.portToward n m).isSome := by
    rw [portToward, hnode]
    exact Std.TreeMap.mem_iff_isSome_getElem?.1 (Std.TreeMap.mem_keys.1 hm)
  rw [Option.isNone_eq_false_iff.2 (h.portToward_isSome_comm.1 hto)]
  rfl

/-- No invariant is broken, unless a node has so many links that its port numbers wrap around. -/
theorem violation?_eq_none_iff (h : t.Numbered) :
    t.violation? = none ↔ ∀ n : Value, (linksAt n t.links).length < 2 ^ 63 := by
  have hlinks : t.links.findSome? t.linkViolation? = none :=
    List.findSome?_eq_none_iff.2 fun e he => h.linkViolation?_eq_none he
  rw [violation?, hlinks, Option.none_or, List.findSome?_eq_none_iff]
  have hnumbering : ∀ (n : Value) (node : Node), t.nodes[n]? = some node →
      ((numberingViolation? n node).or (t.symmetryViolation? n node) = none ↔
        (linksAt n t.links).length < 2 ^ 63) := by
    intro n node hnode
    rw [h.symmetryViolation?_eq_none hnode, Option.or_none, ← length_neighbors]
    exact (h.faces n node hnode).numberingViolation?_eq_none_iff (length_neighbors_lt h.simple) n
  constructor
  · intro hnodes n
    cases hnode : t.nodes[n]? with
    | none =>
      rw [← length_neighbors, h.neighbors_eq_nil hnode, List.length_nil]
      decide
    | some node =>
      have hentry : (n, node) ∈ t.nodes.toList := Std.TreeMap.mem_toList_iff_getElem?_eq_some.2 hnode
      exact (hnumbering n node hnode).1 (hnodes (n, node) hentry)
  · rintro hfew ⟨n, node⟩ hentry
    have hnode : t.nodes[n]? = some node := Std.TreeMap.mem_toList_iff_getElem?_eq_some.1 hentry
    exact (hnumbering n node hnode).2 (hfew n)

end Numbered

/-! ### What the links determine -/

/-- Linking two nodes leaves the topology as it was exactly when it is refused or they are linked. -/
theorem Numbered.addLink_eq_iff (h : t.Numbered) :
    (t.addLink a b).2 = t ↔
      (∃ e, (t.addLink a b).1 = .error e) ∨ (a, b) ∈ t.links ∨ (b, a) ∈ t.links := by
  rw [← mem_neighbors_iff, ← h.portToward_isSome_iff]
  constructor
  · intro hsame
    cases hfault : t.linkFault? a b with
    | some fault => exact .inl ⟨.invalidTopology fault.message, by rw [addLink, hfault]⟩
    | none =>
      refine .inr ?_
      cases hport : t.portToward a b with
      | some k => rfl
      | none =>
        -- a link would have been added
        have hnew : (t.addLink a b).2 = t.connect a b := by simp [addLink, hfault, hport]
        have hlength := congrArg (fun t : Topology => t.links.length) (hnew.symm.trans hsame)
        simp [links_connect] at hlength
  · intro hkeeps
    rcases t.addLink_cases a b with hsame | ⟨hab, ha, hb, hfree, hnew⟩
    · exact hsame
    · rcases hkeeps with ⟨e, he⟩ | hport
      · rw [hnew] at he
        exact absurd he (by simp)
      · rw [hfree] at hport
        exact absurd hport Bool.false_ne_true

/-- **Links determine ports.** Whatever was added and refused, no node of a built topology is linked to
    itself and no two are linked twice, and all linked nodes are there; a port has the number k when
    it belongs to the k-th link of its node. All invariants hold as long as the ports of no node are
    more than the positive numbers, which no list of links in memory reaches. The first addition of a
    node decides its kind. Linking two nodes leaves the topology as it was exactly when it is refused
    or they are linked, in either direction. -/
theorem ports_after_follow_links (steps : List Step) :
    let t := after steps
    (∀ e ∈ t.links, e.1 ≠ e.2 ∧ e.1 ∈ t.nodes ∧ e.2 ∈ t.nodes) ∧
    t.links.Pairwise (fun e f => f ≠ e ∧ f ≠ e.swap) ∧
    (∀ n m k : Value, t.portToward n m = some k ↔ ∃ (i : Nat) (e : Value × Value),
      (linksAt n t.links)[i]? = some e ∧ Joins e n m ∧ k = portNumber i) ∧
    (t.violation? = none ↔ ∀ n : Value, (linksAt n t.links).length < 2 ^ 63) ∧
    (∀ n : Value, t.kind? n = steps.findSome? (Step.kindOf? n)) ∧
    ∀ a b : Value, (t.addLink a b).2 = t ↔
      (∃ e, (t.addLink a b).1 = .error e) ∨ (a, b) ∈ t.links ∨ (b, a) ∈ t.links := by
  intro t
  have h : t.Numbered := numbered_after steps
  refine ⟨?_, h.simple.once, ?_, h.violation?_eq_none_iff, kind?_after steps,
    fun a b => h.addLink_eq_iff⟩
  · intro e he
    exact ⟨h.simple.irreflexive e he, h.known e he⟩
  · intro n m k
    rw [h.portToward_iff]
    refine exists_congr fun i => ?_
    rw [getElem?_neighbors_iff]
    constructor
    · rintro ⟨⟨e, he, hjoins⟩, hk⟩
      exact ⟨e, he, hjoins, hk⟩
    · rintro ⟨e, he, hjoins, hk⟩
      exact ⟨⟨e, he, hjoins⟩, hk⟩

/-! ### Instances: a host behind a pair of switches -/

/-- A switch with a host and a second switch, where some additions are refused and some repeated. -/
def pairWithHost : List Step :=
  [.addSwitch 1, .addLink 1 2, .addHost 2, .addLink 1 2, .addLink 1 1, .addLink 2 1, .addHost 1,
    .addSwitch 3, .addLink 3 1]

/-- The port of the first switch toward the second one belongs to its second link. -/
theorem ports_after_follow_links_pairWithHost :
    (after pairWithHost).links = [(1, 2), (3, 1)] ∧ (1 : Value) ≠ 2 ∧
    (after pairWithHost).portToward 1 3 = some 2 ∧ (after pairWithHost).violation? = none ∧
    (after pairWithHost).kind? 1 = some .switch ∧
    ((after pairWithHost).addLink 1 3).2 = after pairWithHost := by
  obtain ⟨hends, -, hports, hsound, hkinds, hkeeps⟩ := ports_after_follow_links pairWithHost
  have hlinks : (after pairWithHost).links = [(1, 2), (3, 1)] := by rfl
  rw [hlinks] at hends hports hsound hkeeps
  refine ⟨hlinks, (hends (1, 2) List.mem_cons_self).1, ?_, ?_, ?_, ?_⟩
  · exact (hports 1 3 2).2 ⟨1, (3, 1), rfl, .inr rfl, rfl⟩
  · refine hsound.2 fun n => Nat.lt_of_le_of_lt (List.length_filter_le ..) ?_
    decide
  · exact (hkinds 1).trans rfl
  · exact (hkeeps 1 3).2 (.inr (.inr (List.mem_cons_of_mem _ List.mem_cons_self)))

end Topology

end SlicePolicy
