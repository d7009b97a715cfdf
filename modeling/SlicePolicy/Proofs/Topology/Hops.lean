import SlicePolicy.Proofs.Topology.Building

namespace SlicePolicy

/-!
# Links of built topologies, end to end

Every link can be crossed in two directions. A location of a built topology is the near end of one
direction at most, because the ports of a node lead to different neighbours; so a packet that leaves
by a port arrives at one place, and no other port leads there.

* `Topology.directions`, `Topology.nearEnd` — the ways over links and where they start.
* `Topology.Numbered.hops_eq` — the hops are the directions, told by their ends.
* `Topology.Numbered.nearEnd_inj` — different directions start at different locations.
* `Topology.Numbered.mem_edgePorts_iff` — the edge ports are the near ends before a host.
* `Topology.hops_after_pointToPoint` — hops and edge ports of a built topology.
-/

namespace Topology

variable {t : Topology} {d d' : Value × Value} {l m : Location}

/-- The links in both directions: from which node to which. -/
def directions (links : List (Value × Value)) : List (Value × Value) :=
  links.flatMap fun e => [e, e.swap]

/-- Where a packet leaves the first node toward the second one; the wildcard if there is no port. -/
def nearEnd (t : Topology) (d : Value × Value) : Location :=
  ⟨d.1, (t.portToward d.1 d.2).getD wildcard⟩

/-! ### Directions -/

theorem mem_directions {links : List (Value × Value)} :
    d ∈ directions links ↔ d ∈ links ∨ d.swap ∈ links := by
  rw [directions, List.mem_flatMap]
  simp only [List.mem_cons, List.not_mem_nil, or_false]
  constructor
  · rintro ⟨e, he, rfl | rfl⟩
    · exact .inl he
    · exact .inr (by rwa [Prod.swap_swap])
  · rintro (hd | hd)
    · exact ⟨d, hd, .inl rfl⟩
    · exact ⟨d.swap, hd, .inr (Prod.swap_swap d).symm⟩

/-- A direction has its way back. -/
theorem swap_mem_directions {links : List (Value × Value)} :
    d.swap ∈ directions links ↔ d ∈ directions links := by
  rw [mem_directions, mem_directions, Prod.swap_swap]
  exact or_comm

theorem length_directions (links : List (Value × Value)) :
    (directions links).length = 2 * links.length := by
  induction links with
  | nil => rfl
  | cons e links ih =>
    rw [directions, List.flatMap_cons, List.length_append, ← directions, ih, List.length_cons]
    show 2 + 2 * links.length = 2 * (links.length + 1)
    omega

/-- Each direction is there once. -/
theorem nodup_directions {links : List (Value × Value)} (h : Simple links) :
    (directions links).Nodup := by
  refine List.nodup_flatMap.2 ⟨?_, ?_⟩
  · intro e he
    have hswap : e ≠ e.swap := fun hswap => h.irreflexive e he (congrArg Prod.fst hswap)
    simpa using hswap
  · refine h.once.imp ?_
    rintro e f ⟨hne, hswap⟩ d hd hd'
    simp only [List.mem_cons, List.not_mem_nil, or_false] at hd hd'
    rcases hd with rfl | rfl <;> rcases hd' with hd' | hd'
    · exact hne hd'.symm
    · exact hswap (by rw [hd', Prod.swap_swap])
    · exact hswap hd'.symm
    · exact hne (Prod.swap_injective hd').symm

namespace Numbered

/-- Both ends of a direction have their ports. -/
theorem portToward_nearEnd (h : t.Numbered) (hd : d ∈ directions t.links) :
    t.portToward d.1 d.2 = some (t.nearEnd d).port := by
  have hport : (t.portToward d.1 d.2).isSome :=
    h.portToward_isSome_iff.2 (mem_neighbors_iff.2 (mem_directions.1 hd))
  obtain ⟨k, hk⟩ := Option.isSome_iff_exists.1 hport
  rw [nearEnd, hk, Option.getD_some]

/-- **Two hops for each link.** The hops are the directions, from the end where a packet leaves to the
    end where it arrives. -/
theorem hops_eq (h : t.Numbered) :
    t.wiring.hops = (directions t.links).map fun d => (t.nearEnd d, t.nearEnd d.swap) := by
  rw [directions, List.map_flatMap]
  refine List.flatMap_congr fun e he => ?_
  have hto : t.wiring.portToward e.1 e.2 = some (t.nearEnd e).port :=
    h.portToward_nearEnd (mem_directions.2 (.inl he))
  have hback : t.wiring.portToward e.2 e.1 = some (t.nearEnd e.swap).port :=
    h.portToward_nearEnd (swap_mem_directions.2 (mem_directions.2 (.inl he)))
  show Wiring.hopsOf t.wiring.portToward e.1 e.2 = _
  rw [Wiring.hopsOf, hto, hback]
  rfl

/-- Different directions start at different locations. -/
theorem nearEnd_inj (h : t.Numbered) (hd : d ∈ directions t.links) (hd' : d' ∈ directions t.links)
    (hsame : t.nearEnd d = t.nearEnd d') : d = d' := by
  obtain ⟨n, m⟩ := d
  obtain ⟨n', m'⟩ := d'
  have hn : n = n' := congrArg Location.switch hsame
  subst hn
  have hport := h.portToward_nearEnd hd
  have hport' := h.portToward_nearEnd hd'
  rw [← hsame] at hport'
  exact congrArg (Prod.mk n) (h.portToward_inj hport hport')

theorem mem_hops_iff (h : t.Numbered) : (l, m) ∈ t.wiring.hops ↔
    ∃ d ∈ directions t.links, t.nearEnd d = l ∧ t.nearEnd d.swap = m := by
  rw [h.hops_eq, List.mem_map]
  simp only [Prod.mk.injEq]

/-! ### Edge ports -/

/-- An edge port has an entry in the tables: it is a port of a switch toward a host. -/
theorem mem_edgePorts_iff_ports : l ∈ t.edgePorts ↔ t.kind? l.switch = some .switch ∧
    ∃ n : Value, t.portToward l.switch n = some l.port ∧ t.kind? n = some .host := by
  simp only [edgePorts, switchNodes, List.mem_flatMap, List.mem_map, List.mem_filter, Prod.exists,
    Std.TreeMap.mem_toList_iff_getElem?_eq_some, decide_eq_true_eq]
  constructor
  · rintro ⟨id, node, ⟨hnode, hkind⟩, n, k, ⟨hport, hhost⟩, rfl⟩
    refine ⟨?_, n, ?_, hhost⟩
    · show t.nodes[id]?.map Node.kind = _
      rw [hnode, Option.map_some, hkind]
    · show t.nodes[id]?.bind _ = _
      rw [hnode, Option.bind_some]
      exact hport
  · rintro ⟨hkind, n, hport, hhost⟩
    obtain ⟨node, hnode, hkind⟩ := Option.map_eq_some_iff.1 hkind
    obtain ⟨node', hnode', hport⟩ := Option.bind_eq_some_iff.1 hport
    rw [hnode, Option.some.injEq] at hnode'
    subst hnode'
    exact ⟨l.switch, node, ⟨hnode, hkind⟩, n, l.port, ⟨hport, hhost⟩, rfl⟩

/-- **Edge ports.** They are the locations at a switch from which a packet reaches a host. -/
theorem mem_edgePorts_iff (h : t.Numbered) : l ∈ t.edgePorts ↔ t.kind? l.switch = some .switch ∧
    ∃ m : Location, (l, m) ∈ t.wiring.hops ∧ t.kind? m.switch = some .host := by
  rw [mem_edgePorts_iff_ports]
  refine and_congr_right fun _ => ?_
  simp only [h.mem_hops_iff]
  constructor
  · rintro ⟨n, hport, hhost⟩
    have hd : (l.switch, n) ∈ directions t.links := by
      rw [mem_directions, Prod.swap_prod_mk, ← mem_neighbors_iff, ← h.portToward_isSome_iff, hport]
      rfl
    refine ⟨t.nearEnd (n, l.switch), ⟨(l.switch, n), hd, ?_, rfl⟩, hhost⟩
    rw [nearEnd, hport, Option.getD_some]
  · rintro ⟨m, ⟨d, hd, rfl, rfl⟩, hhost⟩
    exact ⟨d.2, h.portToward_nearEnd hd, hhost⟩

/-- No edge port is listed twice. -/
theorem nodup_edgePorts (h : t.Numbered) : t.edgePorts.Nodup := by
  have hnodes : t.switchNodes.Pairwise fun e f => e.1 ≠ f.1 := by
    refine (Std.TreeMap.distinct_keys_toList.filter _).imp ?_
    intro e f hkeys hsame
    exact hkeys (Std.LawfulEqCmp.compare_eq_iff_eq.2 hsame)
  refine List.nodup_flatMap.2 ⟨?_, ?_⟩
  · -- the ports of one switch are different
    rintro ⟨n, node⟩ hmem
    have hnode : t.nodes[n]? = some node :=
      Std.TreeMap.mem_toList_iff_getElem?_eq_some.1 (List.mem_of_mem_filter hmem)
    have hvalues : (node.ports.toList.map Prod.snd).Nodup := by
      rw [← Node.values_ports]
      exact (h.faces n node hnode).nodup_values (length_neighbors_lt h.simple)
    have hports := hvalues.sublist ((List.filter_sublist (p := fun f =>
      t.kind? f.1 = some .host)).map Prod.snd)
    refine List.pairwise_map.2 ((List.pairwise_map.1 hports).imp ?_)
    intro e f hne hsame
    exact hne (congrArg Location.port hsame)
  · -- the ports of different switches are different
    refine hnodes.imp ?_
    rintro e f hne l hl hl'
    obtain ⟨_, _, rfl⟩ := List.mem_map.1 hl
    obtain ⟨_, _, hsame⟩ := List.mem_map.1 hl'
    exact hne (congrArg Location.switch hsame).symm

end Numbered

/-! ### Built topologies -/

/-- **Point to point.** In a built topology every link has two hops, one for each direction, between the
    ports with which its nodes face each other; with a hop comes its way back. No two hops leave at
    one location and no two arrive at one. The edge ports are the locations at a switch from which a
    packet reaches a host, each of them once. -/
theorem hops_after_pointToPoint (steps : List Step) :
    let t := after steps
    let hops := t.wiring.hops
    hops = (t.links.flatMap fun e => [e, e.swap]).map (fun d => (t.nearEnd d, t.nearEnd d.swap)) ∧
    (∀ e ∈ t.links, t.portToward e.1 e.2 = some (t.nearEnd e).port ∧
      t.portToward e.2 e.1 = some (t.nearEnd e.swap).port) ∧
    hops.length = 2 * t.links.length ∧
    (∀ l m : Location, (l, m) ∈ hops ↔ (m, l) ∈ hops) ∧
    (hops.map Prod.fst).Nodup ∧ (hops.map Prod.snd).Nodup ∧
    t.edgePorts.Nodup ∧
    ∀ l : Location, l ∈ t.edgePorts ↔ t.kind? l.switch = some .switch ∧
      ∃ m : Location, (l, m) ∈ hops ∧ t.kind? m.switch = some .host := by
  intro t hops
  have h : t.Numbered := numbered_after steps
  have hhops : hops = (directions t.links).map fun d => (t.nearEnd d, t.nearEnd d.swap) := h.hops_eq
  have hnodup : (directions t.links).Nodup := nodup_directions h.simple
  refine ⟨hhops, ?_, ?_, ?_, ?_, ?_, h.nodup_edgePorts, fun l => h.mem_edgePorts_iff⟩
  · intro e he
    have hd : e ∈ directions t.links := mem_directions.2 (.inl he)
    exact ⟨h.portToward_nearEnd hd, h.portToward_nearEnd (swap_mem_directions.2 hd)⟩
  · rw [hhops, List.length_map, length_directions]
  · intro l m
    rw [h.mem_hops_iff, h.mem_hops_iff]
    constructor
    · rintro ⟨d, hd, hl, hm⟩
      exact ⟨d.swap, swap_mem_directions.2 hd, hm, by rwa [Prod.swap_swap]⟩
    · rintro ⟨d, hd, hm, hl⟩
      exact ⟨d.swap, swap_mem_directions.2 hd, hl, by rwa [Prod.swap_swap]⟩
  · rw [hhops, List.map_map]
    exact hnodup.map_on fun d hd d' hd' hsame => h.nearEnd_inj hd hd' hsame
  · rw [hhops, List.map_map]
    refine hnodup.map_on fun d hd d' hd' hsame => Prod.swap_injective ?_
    exact h.nearEnd_inj (swap_mem_directions.2 hd) (swap_mem_directions.2 hd') hsame

/-- The port of the first switch toward its host is its only edge port, and the only way there. -/
theorem hops_after_pointToPoint_pairWithHost :
    (1, 2) ∈ (after pairWithHost).links ∧
    (after pairWithHost).portToward 1 2 = some 1 ∧
    (after pairWithHost).wiring.hops.length = 4 ∧
    ((⟨1, 1⟩ : Location), (⟨2, 1⟩ : Location)) ∈ (after pairWithHost).wiring.hops ∧
    ((⟨2, 1⟩ : Location), (⟨1, 1⟩ : Location)) ∈ (after pairWithHost).wiring.hops ∧
    (⟨1, 1⟩ : Location) ∈ (after pairWithHost).edgePorts := by
  obtain ⟨-, hports, hlength, hback, -, -, -, hedge⟩ := hops_after_pointToPoint pairWithHost
  have hlink : (1, 2) ∈ (after pairWithHost).links := by decide
  have hhop : ((⟨1, 1⟩ : Location), (⟨2, 1⟩ : Location)) ∈ (after pairWithHost).wiring.hops := by
    decide
  refine ⟨hlink, (hports (1, 2) hlink).1.trans rfl, hlength.trans rfl, hhop, (hback _ _).1 hhop, ?_⟩
  exact (hedge ⟨1, 1⟩).2 ⟨rfl, ⟨2, 1⟩, hhop, rfl⟩

end Topology

end SlicePolicy
