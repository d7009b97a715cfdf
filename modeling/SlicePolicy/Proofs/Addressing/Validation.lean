import SlicePolicy.Proofs.Addressing.Lookup
import SlicePolicy.Proofs.LastEntry

namespace SlicePolicy

/-!
# Which address maps can be built

An address map is built from lists of entries, in which the last entry of a key counts. The search for
a defect goes through both maps once and remembers the physical switches and ports that it has seen.
It finds nothing exactly when the maps are injective and fit together, in whatever order the entries
were given, and what it finds is an entry that breaks a rule.

* `AddressMap.Consistent` — the rules, for maps given by the values of their keys.
* `AddressDefect.find_eq_none_iff_consistent` — nothing is found when the rules hold, and only then.
* `AddressDefect.Of`, `AddressDefect.of_find` — what is found is there.
* `AddressMap.ofEntries_eq_ok_iff`, `AddressMap.ofEntries_eq_error_iff` — what is built and what is
  refused.
* `AddressMap.ofEntries_exact` — which entries make a map, what its look-ups give and why other
  entries are refused, in terms of the last entries.
-/

/-! ### Values of sorted maps -/

section

variable {α β : Type} [Ord α] [Std.TransOrd α] [Std.LawfulEqOrd α] {t : Std.TreeMap α β}

/-- No value stands in two entries of a sorted map exactly when the map is injective. -/
theorem nodup_values_iff : (t.toList.map Prod.snd).Nodup ↔
    ∀ {k k' : α} {v : β}, t[k]? = some v → t[k']? = some v → k = k' := by
  refine ⟨fun h _ _ _ => injective_of_nodup_values h, fun hinjective => ?_⟩
  have hentries : t.toList.Nodup := by
    refine Std.TreeMap.distinct_keys_toList.imp fun hkeys heq => hkeys ?_
    rw [heq, Std.LawfulEqOrd.compare_eq_iff_eq]
  refine hentries.map_on fun e he d hd hvalue => ?_
  have hv : t[e.1]? = some e.2 := Std.TreeMap.mem_toList_iff_getElem?_eq_some.1 he
  have hv' : t[d.1]? = some d.2 := Std.TreeMap.mem_toList_iff_getElem?_eq_some.1 hd
  rw [← hvalue] at hv'
  exact Prod.ext (hinjective hv hv') hvalue

/-- An entry of a sorted map is found under its key. -/
theorem getElem?_of_toList_eq {before after : List (α × β)} {k : α} {v : β}
    (h : t.toList = before ++ (k, v) :: after) : t[k]? = some v := by
  rw [← Std.TreeMap.mem_toList_iff_getElem?_eq_some, h]
  exact List.mem_append_right before List.mem_cons_self

/-- A value that stands in front of an entry with the same value is the value of another key. -/
theorem exists_other_key {before after : List (α × β)} {k : α} {v : β}
    (h : t.toList = before ++ (k, v) :: after) (hv : v ∈ before.map Prod.snd) :
    ∃ k' : α, k' ≠ k ∧ t[k']? = some v := by
  obtain ⟨⟨k', v'⟩, hmem, rfl⟩ := List.mem_map.1 hv
  refine ⟨k', fun heq => ?_, ?_⟩
  · have hkeys : (before ++ (k, v') :: after).Pairwise fun a b => ¬compare a.1 b.1 = .eq :=
      h ▸ Std.TreeMap.distinct_keys_toList
    refine (List.pairwise_append.1 hkeys).2.2 (k', v') hmem (k, v') List.mem_cons_self ?_
    exact Std.LawfulEqOrd.compare_eq_iff_eq.2 heq
  · rw [← Std.TreeMap.mem_toList_iff_getElem?_eq_some, h]
    exact List.mem_append_left _ hmem

end

/-! ### The rules -/

/-- The rules of an address map: different switches lie on different physical switches, different
ports on different physical ports, and a physical port lies on the physical switch of the port's own
switch. -/
structure AddressMap.Consistent (switches : Value → Option Value)
    (ports : Location → Option Location) : Prop where
  switch_injective : ∀ {s s' c : Value}, switches s = some c → switches s' = some c → s = s'
  port_injective : ∀ {k l c : Location}, ports k = some c → ports l = some c → k = l
  port_follows : ∀ {l l' : Location}, ports l = some l' → switches l.switch = some l'.switch

namespace AddressDefect

variable {switches : Std.TreeMap Value Value} {ports : Std.TreeMap Location Location}

/-- **The search finds nothing exactly when the rules hold.** -/
theorem find_eq_none_iff_consistent :
    find switches ports = none ↔ AddressMap.Consistent (switches[·]?) (ports[·]?) := by
  rw [find_eq_none_iff, nodup_values_iff, nodup_values_iff]
  constructor
  · rintro ⟨hswitch, hport, hfollows⟩
    exact ⟨hswitch, hport,
      fun hl => hfollows _ (Std.TreeMap.mem_toList_iff_getElem?_eq_some.2 hl)⟩
  · intro h
    exact ⟨h.switch_injective, h.port_injective,
      fun e he => h.port_follows (Std.TreeMap.mem_toList_iff_getElem?_eq_some.1 he)⟩

/-! ### What is found -/

/-- The maps have the defect: the entries that it names are there, and they break the rule. -/
def Of (switches : Value → Option Value) (ports : Location → Option Location) :
    AddressDefect → Prop
  | switchTaken s c => switches s = some c ∧ ∃ s', s' ≠ s ∧ switches s' = some c
  | portTaken l l' => ports l = some l' ∧ ∃ k, k ≠ l ∧ ports k = some l'
  | otherSwitch l l' c => ports l = some l' ∧ switches l.switch = some c ∧ c ≠ l'.switch
  | unmappedSwitch l => (∃ l', ports l = some l') ∧ switches l.switch = none

/-- A defect among switches is an entry whose physical switch was taken, before or by an earlier
entry. -/
theorem inSwitches_eq_some {taken : List Value} {entries : List (Value × Value)}
    {d : AddressDefect} (h : inSwitches taken entries = some d) :
    ∃ before s c after, entries = before ++ (s, c) :: after ∧ d = switchTaken s c ∧
      (c ∈ taken ∨ c ∈ before.map Prod.snd) := by
  fun_induction inSwitches taken entries with
  | case1 => simp at h
  | case2 taken s c rest htaken =>
    rw [Option.some.injEq] at h
    exact ⟨[], s, c, rest, rfl, h.symm, .inl htaken⟩
  | case3 taken s c rest hfree ih =>
    obtain ⟨before, s', c', after, rfl, hd, hc⟩ := ih h
    refine ⟨(s, c) :: before, s', c', after, rfl, hd, ?_⟩
    -- what was taken for the rest was taken before, or is the first entry's
    rw [List.map_cons, List.mem_cons]
    rw [List.mem_cons, or_assoc] at hc
    exact or_left_comm.1 hc

/-- A defect among ports is an entry whose physical port was taken, before or by an earlier entry, or
one that does not follow the switch map. -/
theorem inPorts_eq_some {taken : List Location} {entries : List (Location × Location)}
    {d : AddressDefect} (h : inPorts switches taken entries = some d) :
    ∃ before l l' after, entries = before ++ (l, l') :: after ∧
      ((d = portTaken l l' ∧ (l' ∈ taken ∨ l' ∈ before.map Prod.snd)) ∨
        (d = unmappedSwitch l ∧ switches[l.switch]? = none) ∨
        ∃ c, d = otherSwitch l l' c ∧ switches[l.switch]? = some c ∧ c ≠ l'.switch) := by
  fun_induction inPorts switches taken entries with
  | case1 => simp at h
  | case2 taken l l' rest htaken =>
    rw [Option.some.injEq] at h
    exact ⟨[], l, l', rest, rfl, .inl ⟨h.symm, .inl htaken⟩⟩
  | case3 taken l l' rest hfree hnone =>
    rw [Option.some.injEq] at h
    exact ⟨[], l, l', rest, rfl, .inr (.inl ⟨h.symm, hnone⟩)⟩
  | case4 taken l l' rest hfree hmapped ih =>
    obtain ⟨before, k, k', after, rfl, hd⟩ := ih h
    refine ⟨(l, l') :: before, k, k', after, rfl, ?_⟩
    rcases hd with ⟨rfl, hk⟩ | hd
    · -- as for switches
      rw [List.mem_cons, or_assoc] at hk
      rw [List.map_cons, List.mem_cons]
      exact .inl ⟨rfl, or_left_comm.1 hk⟩
    · exact .inr hd
  | case5 taken l l' rest hfree c hmapped hother =>
    rw [Option.some.injEq] at h
    exact ⟨[], l, l', rest, rfl, .inr (.inr ⟨c, h.symm, hmapped, hother⟩)⟩

/-- **What the search finds is there.** -/
theorem of_find {d : AddressDefect} (h : find switches ports = some d) :
    d.Of (switches[·]?) (ports[·]?) := by
  rcases Option.or_eq_some_iff.1 h with hswitches | ⟨-, hports⟩
  · obtain ⟨before, s, c, after, hentries, rfl, hc⟩ := inSwitches_eq_some hswitches
    have hearlier : c ∈ before.map Prod.snd := hc.resolve_left List.not_mem_nil
    exact ⟨getElem?_of_toList_eq hentries, exists_other_key hentries hearlier⟩
  · obtain ⟨before, l, l', after, hentries, hd⟩ := inPorts_eq_some hports
    have hl : ports[l]? = some l' := getElem?_of_toList_eq hentries
    rcases hd with ⟨rfl, hl'⟩ | ⟨rfl, hnone⟩ | ⟨c, rfl, hmapped, hother⟩
    · have hearlier : l' ∈ before.map Prod.snd := hl'.resolve_left List.not_mem_nil
      exact ⟨hl, exists_other_key hentries hearlier⟩
    · exact ⟨⟨l', hl⟩, hnone⟩
    · exact ⟨hl, hmapped, hother⟩

end AddressDefect

/-! ### Building -/

namespace AddressMap

variable {switchEntries : List (Value × Value)} {portEntries : List (Location × Location)}

/-- A map that is built is the map of the entries. -/
theorem ofEntries_eq_ok_iff {m : AddressMap} : ofEntries switchEntries portEntries = .ok m ↔
    m.switches = .ofList switchEntries ∧ m.ports = .ofList portEntries := by
  obtain ⟨switches, ports, hnone⟩ := m
  unfold ofEntries
  dsimp only
  split
  · rw [Except.ok.injEq, mk.injEq]
    exact ⟨fun h => ⟨h.1.symm, h.2.symm⟩, fun h => ⟨h.1.symm, h.2.symm⟩⟩
  · next defect hfound =>
    refine iff_of_false (by simp) ?_
    rintro ⟨rfl, rfl⟩
    rw [hnone] at hfound
    exact Option.some_ne_none _ hfound.symm

/-- A refusal tells the defect that the search finds. -/
theorem ofEntries_eq_error_iff {e : Error} : ofEntries switchEntries portEntries = .error e ↔
    ∃ defect, AddressDefect.find (.ofList switchEntries) (.ofList portEntries) = some defect ∧
      e = .inconsistentAddressMap defect.violation.text := by
  unfold ofEntries
  dsimp only
  split
  · next hnone => simp [hnone]
  · next defect hfound => simp [hfound, eq_comm]

/-- **An address map is built exactly from entries that keep the rules**, where the last entry of a
key counts. The look-ups in a map that is built give what stands in these entries and fail where a key
has none; they are injective, and a physical port lies on the physical switch of its switch. Entries
from which no map is built are refused with an entry that breaks a rule. -/
theorem ofEntries_exact (switchEntries : List (Value × Value))
    (portEntries : List (Location × Location)) :
    ((∃ m, ofEntries switchEntries portEntries = .ok m) ↔
      Consistent (lastEntry · switchEntries) (lastEntry · portEntries)) ∧
    (∀ m, ofEntries switchEntries portEntries = .ok m →
      (∀ s, m.physicalSwitch s = (lastEntry s switchEntries).elim
        (.error (.unaddressable ⟨s, wildcard⟩ .unmappedSwitch)) .ok) ∧
      (∀ l, m.physicalLocation l = (lastEntry l portEntries).elim
        (.error (.unaddressable l .unmappedPort)) .ok) ∧
      (∀ s s' c, m.physicalSwitch s = .ok c → m.physicalSwitch s' = .ok c → s = s') ∧
      (∀ k l c, m.physicalLocation k = .ok c → m.physicalLocation l = .ok c → k = l) ∧
      ∀ l l', m.physicalLocation l = .ok l' → m.physicalSwitch l.switch = .ok l'.switch) ∧
    ∀ e, ofEntries switchEntries portEntries = .error e → ∃ defect : AddressDefect,
      defect.Of (lastEntry · switchEntries) (lastEntry · portEntries) ∧
      e = .inconsistentAddressMap defect.violation.text := by
  have hswitches : (fun s => (Std.TreeMap.ofList switchEntries)[s]?) = (lastEntry · switchEntries) :=
    funext (getElem?_ofList switchEntries)
  have hports : (fun l => (Std.TreeMap.ofList portEntries)[l]?) = (lastEntry · portEntries) :=
    funext (getElem?_ofList portEntries)
  refine ⟨?_, fun m hm => ?_, fun e he => ?_⟩
  · rw [← hswitches, ← hports, ← AddressDefect.find_eq_none_iff_consistent]
    simp only [ofEntries_eq_ok_iff]
    constructor
    · rintro ⟨m, hms, hmp⟩
      rw [← hms, ← hmp]
      exact m.no_defect
    · exact fun hnone => ⟨⟨_, _, hnone⟩, rfl, rfl⟩
  · obtain ⟨hms, hmp⟩ := ofEntries_eq_ok_iff.1 hm
    simp only [physicalSwitch_eq_ok_iff, physicalLocation_eq_ok_iff]
    refine ⟨fun s => ?_, fun l => ?_, fun _ _ _ => switches_injective, fun _ _ _ => ports_injective,
      fun _ _ => switches_of_ports⟩
    · rw [physicalSwitch, hms, getElem?_ofList]
      cases lastEntry s switchEntries <;> rfl
    · rw [physicalLocation, hmp, getElem?_ofList]
      cases lastEntry l portEntries <;> rfl
  · obtain ⟨defect, hfound, rfl⟩ := ofEntries_eq_error_iff.1 he
    rw [← hswitches, ← hports]
    exact ⟨defect, AddressDefect.of_find hfound, rfl⟩

/-! ### Instances: entries that are overwritten -/

namespace Overwritten

/-- Both switches lie on the physical switch 5, until the second one is moved. -/
def switches : List (Value × Value) := [(1, 5), (2, 5), (2, 6)]

/-- The port of the first switch lies on the physical switch of the second, until it is moved. -/
def ports : List (Location × Location) :=
  [(⟨1, 1⟩, ⟨6, 1⟩), (⟨2, 3⟩, ⟨6, 10⟩), (⟨1, 1⟩, ⟨5, 10⟩)]

end Overwritten

/-- What is overwritten breaks no rule. Without the last entries both switches lie on one physical
switch, and the entries are refused. -/
theorem ofEntries_exact_overwritten :
    Consistent (lastEntry · Overwritten.switches) (lastEntry · Overwritten.ports) ∧
    (∃ m, ofEntries Overwritten.switches Overwritten.ports = .ok m ∧
      m.physicalSwitch 2 = .ok 6 ∧ m.physicalLocation ⟨1, 1⟩ = .ok ⟨5, 10⟩ ∧
      m.physicalLocation ⟨1, 2⟩ = .error (.unaddressable ⟨1, 2⟩ .unmappedPort)) ∧
    ¬(∃ m, ofEntries [(1, 5), (2, 5)] [] = .ok m) ∧
    ∃ defect : AddressDefect, defect.Of (lastEntry · [(1, 5), (2, 5)]) (lastEntry · []) ∧
      ofEntries [(1, 5), (2, 5)] [] = .error (.inconsistentAddressMap defect.violation.text) := by
  obtain ⟨hbuilt, hlookup, -⟩ := ofEntries_exact Overwritten.switches Overwritten.ports
  obtain ⟨hbuilt', -, hrefused⟩ := ofEntries_exact [(1, 5), (2, 5)] []
  have hm : ∃ m, ofEntries Overwritten.switches Overwritten.ports = .ok m := ⟨_, rfl⟩
  refine ⟨hbuilt.1 hm, ?_, ?_, ?_⟩
  · obtain ⟨m, hm⟩ := hm
    obtain ⟨hswitch, hport, -⟩ := hlookup m hm
    exact ⟨m, hm, hswitch 2, hport ⟨1, 1⟩, hport ⟨1, 2⟩⟩
  · intro hm
    -- both switches have the physical switch 5
    have hsame : (1 : Value) = 2 := (hbuilt'.1 hm).switch_injective rfl rfl
    exact absurd hsame (by decide)
  · cases h : ofEntries [(1, 5), (2, 5)] [] with
    | ok m => exact absurd ((hbuilt'.1 ⟨m, h⟩).switch_injective rfl rfl) (by decide : (1 : Value) ≠ 2)
    | error e =>
      obtain ⟨defect, hof, rfl⟩ := hrefused e h
      exact ⟨defect, hof, rfl⟩

end AddressMap

end SlicePolicy
