import Mathlib.Data.List.Nodup
import SlicePolicy.AddressMap

namespace SlicePolicy

/-!
# Looking up physical addresses

An address map has no defect, so its two maps are injective and fit together.

* `AddressDefect.inSwitches_eq_none_iff`, `AddressDefect.inPorts_eq_none_iff` — what the search for
  a defect finds nothing in.
* `AddressMap.switches_injective`, `AddressMap.ports_injective` — different switches and ports have
  different physical ones.
* `AddressMap.switches_of_ports` — a physical port lies on the physical switch.
-/

/-! ### The search for a defect -/

namespace AddressDefect

/-- No switch entry has a defect when no physical switch is taken, before or by another entry. -/
theorem inSwitches_eq_none_iff {taken : List Value} {entries : List (Value × Value)} :
    inSwitches taken entries = none ↔
      (entries.map Prod.snd).Nodup ∧ ∀ e ∈ entries, e.2 ∉ taken := by
  fun_induction inSwitches taken entries with
  | case1 => simp
  | case2 taken logical physical rest htaken => simp [htaken]
  | case3 taken logical physical rest hfree ih =>
    -- the first physical switch is taken for the rest, which is to say that none of them is the same
    rw [ih, List.map_cons, List.nodup_cons, List.forall_mem_cons]
    simp only [List.mem_cons, not_or, List.mem_map, not_exists, not_and]
    constructor
    · rintro ⟨hnodup, hrest⟩
      exact ⟨⟨fun e he => (hrest e he).1, hnodup⟩, hfree, fun e he => (hrest e he).2⟩
    · rintro ⟨⟨hphysical, hnodup⟩, -, hrest⟩
      exact ⟨hnodup, fun e he => ⟨hphysical e he, hrest e he⟩⟩

/-- No port entry has a defect when no physical port is taken, before or by another entry, and every
    entry follows the switch map. -/
theorem inPorts_eq_none_iff {switches : Std.TreeMap Value Value} {taken : List Location}
    {entries : List (Location × Location)} :
    inPorts switches taken entries = none ↔
      (entries.map Prod.snd).Nodup ∧ (∀ e ∈ entries, e.2 ∉ taken) ∧
        ∀ e ∈ entries, switches[e.1.switch]? = some e.2.switch := by
  fun_induction inPorts switches taken entries with
  | case1 => simp
  | case2 taken logical physical rest htaken => simp [htaken]
  | case3 taken logical physical rest hfree hmapped => simp [hmapped]
  | case4 taken logical physical rest hfree hmapped ih =>
    -- as for switches; the first entry was found to follow the switch map
    rw [ih, List.map_cons, List.nodup_cons, List.forall_mem_cons, List.forall_mem_cons]
    simp only [List.mem_cons, not_or, List.mem_map, not_exists, not_and]
    constructor
    · rintro ⟨hnodup, hrest, hfollows⟩
      exact ⟨⟨fun e he => (hrest e he).1, hnodup⟩, ⟨hfree, fun e he => (hrest e he).2⟩,
        hmapped, hfollows⟩
    · rintro ⟨⟨hphysical, hnodup⟩, ⟨-, hrest⟩, -, hfollows⟩
      exact ⟨hnodup, fun e he => ⟨hphysical e he, hrest e he⟩, hfollows⟩
  | case5 taken logical physical rest hfree mapped hmapped hother => simp [hmapped, hother]

/-- Two maps have no defect when no physical switch and no physical port stands in two entries, and
    every port entry follows the switch map. -/
theorem find_eq_none_iff {switches : Std.TreeMap Value Value}
    {ports : Std.TreeMap Location Location} :
    find switches ports = none ↔
      (switches.toList.map Prod.snd).Nodup ∧ (ports.toList.map Prod.snd).Nodup ∧
        ∀ e ∈ ports.toList, switches[e.1.switch]? = some e.2.switch := by
  rw [find, Option.or_eq_none_iff, inSwitches_eq_none_iff, inPorts_eq_none_iff]
  simp

end AddressDefect

/-! ### Injectivity -/

/-- A sorted map in which no value stands in two entries is injective. -/
theorem injective_of_nodup_values {α β : Type} [Ord α] [Std.TransOrd α] [Std.LawfulEqOrd α]
    {t : Std.TreeMap α β} (h : (t.toList.map Prod.snd).Nodup) {k k' : α} {v : β}
    (hk : t[k]? = some v) (hk' : t[k']? = some v) : k = k' := by
  -- two entries with one value stand at the same place, so they have one key
  have hentry : (k, v) ∈ t.toList := Std.TreeMap.mem_toList_iff_getElem?_eq_some.2 hk
  have hentry' : (k', v) ∈ t.toList := Std.TreeMap.mem_toList_iff_getElem?_eq_some.2 hk'
  have hsame : (k, v) = (k', v) := List.inj_on_of_nodup_map h hentry hentry' rfl
  exact congrArg Prod.fst hsame

namespace AddressMap

variable {m : AddressMap}

/-- Switches with the same physical switch are the same. -/
theorem switches_injective {s s' c : Value} (hs : m.switches[s]? = some c)
    (hs' : m.switches[s']? = some c) : s = s' :=
  injective_of_nodup_values (AddressDefect.find_eq_none_iff.1 m.no_defect).1 hs hs'

/-- Ports with the same physical port are the same. -/
theorem ports_injective {k l c : Location} (hk : m.ports[k]? = some c)
    (hl : m.ports[l]? = some c) : k = l :=
  injective_of_nodup_values (AddressDefect.find_eq_none_iff.1 m.no_defect).2.1 hk hl

/-- A physical port lies on the physical switch of the port's own switch. -/
theorem switches_of_ports {l l' : Location} (hl : m.ports[l]? = some l') :
    m.switches[l.switch]? = some l'.switch :=
  (AddressDefect.find_eq_none_iff.1 m.no_defect).2.2 (l, l')
    (Std.TreeMap.mem_toList_iff_getElem?_eq_some.2 hl)

/-! ### Look-ups that succeed -/

theorem physicalSwitch_eq_ok_iff {s c : Value} :
    m.physicalSwitch s = .ok c ↔ m.switches[s]? = some c := by
  unfold physicalSwitch
  cases m.switches[s]? <;> simp

theorem physicalLocation_eq_ok_iff {l l' : Location} :
    m.physicalLocation l = .ok l' ↔ m.ports[l]? = some l' := by
  unfold physicalLocation
  cases m.ports[l]? <;> simp

end AddressMap

end SlicePolicy
