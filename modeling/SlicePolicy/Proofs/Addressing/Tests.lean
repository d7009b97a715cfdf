import SlicePolicy.PhysicalForm
import SlicePolicy.Proofs.Addressing.Lookup
import SlicePolicy.Proofs.Outcome
import SlicePolicy.Proofs.Policy.Branches

namespace SlicePolicy

/-!
# Physical forms of predicates

The physical form of a predicate should accept at a physical port what the predicate accepts at the
slice's own port. Look-ups are injective, so a concrete switch or port is told from every other one;
but zero, which an address map may give as a physical switch or port, is read as a wildcard
afterwards.

* `AddressMap.Unambiguous` — no physical switch or port is taken for a pattern of more than it
  stands for. Maps without physical zeros are so (`AddressMap.Concrete.unambiguous`).
* `AddressMap.physicalPattern_eq_ok_iff` — what a pattern becomes.
* `Predicate.accepts_physical` — in an unambiguous map the physical form accepts the same.
* `Predicate.accepts_physical_iff` — and in no other map.
* `AddressMap.wildcard_image_accepts_more` — a map that is not unambiguous.
-/

/-! ### Patterns -/

/-- A test of the switch is a pattern with any port. -/
theorem Predicate.accepts_test_switch (c : Value) (x : Packet) (l : Location) :
    (test .switch c).accepts x l = (located ⟨c, wildcard⟩).accepts x l := by
  simp [accepts, Packet.read, Location.Covers, eq_comm]

namespace AddressMap

variable {m : AddressMap}

/-- A pattern becomes itself if it admits everything, a pattern with any port if it names a switch
    only, and a physical port if it names a port. -/
theorem physicalPattern_eq_ok_iff {k k' : Location} : m.physicalPattern k = .ok k' ↔
    (k.switch = wildcard ∧ k.port = wildcard ∧ k' = k) ∨
    (k.switch ≠ wildcard ∧ k.port = wildcard ∧
      m.switches[k.switch]? = some k'.switch ∧ k'.port = wildcard) ∨
    (k.switch ≠ wildcard ∧ k.port ≠ wildcard ∧ m.ports[k]? = some k') := by
  unfold physicalPattern
  by_cases hs : k.switch = wildcard <;> by_cases hp : k.port = wildcard
  · simp [hs, hp, eq_comm]
  · simp [hs, hp]
  · rw [if_neg hs, if_pos hp, map_eq_ok_iff]
    simp only [physicalSwitch_eq_ok_iff]
    constructor
    · rintro ⟨c, hc, rfl⟩
      exact .inr (.inl ⟨hs, hp, hc, rfl⟩)
    · rintro (h | ⟨-, -, hc, hport⟩ | h)
      · exact absurd h.1 hs
      · refine ⟨k'.switch, hc, ?_⟩
        rw [← hport]
      · exact absurd hp h.2.1
  · simp [hs, hp, physicalLocation_eq_ok_iff]

/-! ### Maps in which nothing is taken for a wildcard -/

/-- No physical switch and no physical port is zero. -/
structure Concrete (m : AddressMap) : Prop where
  switch_ne : ∀ {s c : Value}, m.switches[s]? = some c → c ≠ wildcard
  port_ne : ∀ {l l' : Location}, m.ports[l]? = some l' →
    l'.switch ≠ wildcard ∧ l'.port ≠ wildcard

/-- Nothing physical is taken for a pattern of more than it stands for: if the physical switch of a
    concrete switch is zero, then all ports lie on that switch, and the physical port of a concrete
    port covers no other physical port. -/
structure Unambiguous (m : AddressMap) : Prop where
  switch_eq : ∀ {s : Value} {l l' : Location}, s ≠ wildcard →
    m.switches[s]? = some wildcard → m.ports[l]? = some l' → l.switch = s
  port_eq : ∀ {k k' l l' : Location}, k.switch ≠ wildcard → k.port ≠ wildcard →
    m.ports[k]? = some k' → m.ports[l]? = some l' → k'.Covers l' → k = l

/-- Whether there are physical zeros is seen from the entries. -/
theorem concrete_iff_all : m.Concrete ↔
    (m.switches.toList.all fun e => e.2 ≠ wildcard) = true ∧
      (m.ports.toList.all fun e => e.2.switch ≠ wildcard && e.2.port ≠ wildcard) = true := by
  simp only [List.all_eq_true, Bool.and_eq_true, decide_eq_true_eq]
  constructor
  · rintro ⟨hswitches, hports⟩
    exact ⟨fun e he => hswitches (Std.TreeMap.mem_toList_iff_getElem?_eq_some.1 he),
      fun e he => hports (Std.TreeMap.mem_toList_iff_getElem?_eq_some.1 he)⟩
  · rintro ⟨hswitches, hports⟩
    exact ⟨fun hs => hswitches _ (Std.TreeMap.mem_toList_iff_getElem?_eq_some.2 hs),
      fun hl => hports _ (Std.TreeMap.mem_toList_iff_getElem?_eq_some.2 hl)⟩

instance : Decidable m.Concrete := decidable_of_iff _ concrete_iff_all.symm

/-- Without physical zeros a physical port covers itself only, and there is one port for it. -/
theorem Concrete.unambiguous (hm : m.Concrete) : m.Unambiguous where
  switch_eq _ hs _ := absurd rfl (hm.switch_ne hs)
  port_eq _ _ hk hl hcovers := by
    obtain ⟨hswitch, hport⟩ := hm.port_ne hk
    rw [hcovers.eq hswitch hport] at hk
    exact ports_injective hk hl

/-- In an unambiguous map a pattern covers the ports that its physical form covers. -/
theorem Unambiguous.covers_iff (hm : m.Unambiguous) {k k' l l' : Location}
    (hk : m.physicalPattern k = .ok k') (hl : m.ports[l]? = some l') :
    k'.Covers l' ↔ k.Covers l := by
  rcases physicalPattern_eq_ok_iff.1 hk with ⟨hs, hp, rfl⟩ | ⟨hs, hp, hc, hp'⟩ | ⟨hs, hp, hk'⟩
  · -- the pattern admits everything
    simp [Location.Covers, hs, hp]
  · -- the pattern names a switch, which the port lies on if the physical one does
    have hswitch : m.switches[l.switch]? = some l'.switch := switches_of_ports hl
    rw [Location.Covers, Location.Covers, hp, hp', or_iff_right hs]
    refine and_congr ?_ (by simp)
    constructor
    · rintro (hzero | heq)
      · rw [hzero] at hc
        exact (hm.switch_eq hs hc hl).symm
      · rw [heq] at hc
        exact switches_injective hc hswitch
    · intro heq
      rw [heq, hswitch] at hc
      exact .inr (Option.some.inj hc).symm
  · -- the pattern names a port
    constructor
    · intro hcovers
      rw [hm.port_eq hs hp hk' hl hcovers]
      exact l.covers_self
    · intro hcovers
      rw [hcovers.eq hs hp, hl] at hk'
      rw [Option.some.inj hk']
      exact k'.covers_self

end AddressMap

/-! ### Predicates -/

namespace Predicate

variable {m : AddressMap}

/-- A test of the wildcard is its own physical form. -/
theorem physical_test_wildcard (f : Field) :
    (test f wildcard).physical m = .ok (test f wildcard) := by
  cases f <;> rw [physical, if_pos rfl]

/-- A test of a header is its own physical form. -/
theorem physical_test_header (h : Header) (c : Value) :
    (test (.header h) c).physical m = .ok (test (.header h) c) := by
  rw [physical]
  split <;> rfl

/-- The physical form of a test of a concrete switch is a test of its physical switch. -/
theorem physical_test_switch {s : Value} (hs : s ≠ wildcard) {q : Predicate} :
    (test .switch s).physical m = .ok q ↔
      ∃ c : Value, m.switches[s]? = some c ∧ q = test .switch c := by
  rw [physical, if_neg hs, bind_eq_ok_iff]
  constructor
  · rintro ⟨k', hk', hq⟩
    rcases AddressMap.physicalPattern_eq_ok_iff.1 hk' with h | ⟨-, -, hc, -⟩ | h
    · exact absurd h.1 hs
    · exact ⟨k'.switch, hc, (pure_eq_ok_iff.1 hq).symm⟩
    · exact absurd rfl h.2.1
  · rintro ⟨c, hc, rfl⟩
    exact ⟨⟨c, wildcard⟩, AddressMap.physicalPattern_eq_ok_iff.2 (.inr (.inl ⟨hs, rfl, hc, rfl⟩)), rfl⟩

/-- A test of a concrete port has no physical form, because it names no switch. -/
theorem physical_test_port {c : Value} (hc : c ≠ wildcard) (q : Predicate) :
    (test .port c).physical m ≠ .ok q := by
  intro hq
  rw [physical, if_neg hc, bind_eq_ok_iff] at hq
  obtain ⟨k', hk', -⟩ := hq
  rcases AddressMap.physicalPattern_eq_ok_iff.1 hk' with h | h | h
  · exact hc h.2.1
  · exact h.1 rfl
  · exact h.1 rfl

/-- **In an unambiguous map the physical form accepts the same.** The induction is on the predicate;
    all that its leaves ask of the map is that patterns cover what their physical forms cover. -/
theorem accepts_physical (hm : m.Unambiguous) {p q : Predicate} (hq : p.physical m = .ok q)
    {l l' : Location} (hl : m.ports[l]? = some l') (x : Packet) :
    q.accepts x l' = p.accepts x l := by
  induction p generalizing q with
  | top =>
    cases hq
    rfl
  | bottom =>
    cases hq
    rfl
  | test f c =>
    by_cases hc : c = wildcard
    · rw [hc, physical_test_wildcard, Except.ok.injEq] at hq
      rw [← hq, hc]
      simp [accepts]
    · cases f with
      | switch =>
        obtain ⟨c', hc', rfl⟩ := (physical_test_switch hc).1 hq
        have hpattern : m.physicalPattern ⟨c, wildcard⟩ = .ok ⟨c', wildcard⟩ :=
          AddressMap.physicalPattern_eq_ok_iff.2 (.inr (.inl ⟨hc, rfl, hc', rfl⟩))
        rw [accepts_test_switch, accepts_test_switch, accepts, accepts, decide_eq_decide]
        exact hm.covers_iff hpattern hl
      | port => exact absurd hq (physical_test_port hc q)
      | header h =>
        rw [physical_test_header, Except.ok.injEq] at hq
        rw [← hq]
        rfl
  | located pattern =>
    obtain ⟨pattern', hpattern, rfl⟩ := map_eq_ok_iff.1 hq
    rw [accepts, accepts, decide_eq_decide]
    exact hm.covers_iff hpattern hl
  | union p q ihp ihq | inter p q ihp ihq | diff p q ihp ihq =>
    simp only [physical, bind_eq_ok_iff, pure_eq_ok_iff] at hq
    obtain ⟨p', hp', q', hq', rfl⟩ := hq
    rw [accepts, accepts, ihp hp', ihq hq']

/-- **Physical forms accept the same in unambiguous maps and in no others.** A map without physical
    zeros is unambiguous. In a map that is not, a test of one switch accepts at a port of another,
    or a test of one port accepts at another. -/
theorem accepts_physical_iff (m : AddressMap) :
    ((∀ p q : Predicate, p.physical m = .ok q → ∀ (x : Packet) (l l' : Location),
      m.ports[l]? = some l' → q.accepts x l' = p.accepts x l) ↔ m.Unambiguous) ∧
    (m.Concrete → m.Unambiguous) := by
  refine ⟨⟨fun hexact => ⟨?_, ?_⟩, ?_⟩, AddressMap.Concrete.unambiguous⟩
  · -- the test of the switch becomes a test of any switch
    intro s l l' hs hzero hl
    have hform : (test .switch s).physical m = .ok (test .switch wildcard) :=
      (physical_test_switch hs).2 ⟨wildcard, hzero, rfl⟩
    have hsame := hexact _ _ hform Packet.blank l l' hl
    simpa [accepts, Packet.read, hs] using hsame
  · -- the test of the port becomes a test of all ports that its physical form covers
    intro k k' l l' hs hp hk hl hcovers
    have hform : (located k).physical m = .ok (located k') :=
      map_eq_ok_iff.2 ⟨k', AddressMap.physicalPattern_eq_ok_iff.2 (.inr (.inr ⟨hs, hp, hk⟩)), rfl⟩
    have hsame := hexact _ _ hform Packet.blank l l' hl
    rw [accepts, accepts, decide_eq_decide] at hsame
    exact (hsame.1 hcovers).eq hs hp
  · intro hm p q hq x l l' hl
    exact accepts_physical hm hq hl x

end Predicate

/-! ### Instances: a slice on two physical switches -/

namespace TwoRooms

/-- The two switches. -/
def switches : List (Value × Value) := [(1, 100), (2, 200)]

/-- The ports of both switches; those of the first switch trade places. -/
def ports : List (Location × Location) :=
  [(⟨1, 1⟩, ⟨100, 2⟩), (⟨1, 2⟩, ⟨100, 1⟩), (⟨2, 1⟩, ⟨200, 1⟩)]

/-- Where the slice lies. -/
def map : AddressMap := ⟨.ofList switches, .ofList ports, rfl⟩

/-- Everything at the first switch but what comes in at its second port with tag 5. -/
def guard : Predicate :=
  .diff (.test .switch 1) (.inter (.located ⟨1, 2⟩) (.test (.header .vlan) 5))

/-- The guard at the physical switch, where that port is the first. -/
def guard' : Predicate :=
  .diff (.test .switch 100) (.inter (.located ⟨100, 1⟩) (.test (.header .vlan) 5))

theorem concrete : map.Concrete := by decide

end TwoRooms

/-- The physical guard refuses at the physical port what the guard refuses at the slice's own. -/
theorem Predicate.accepts_physical_iff_guard :
    TwoRooms.map.Concrete ∧ TwoRooms.map.Unambiguous ∧
    TwoRooms.guard.physical TwoRooms.map = .ok TwoRooms.guard' ∧
    TwoRooms.map.ports[(⟨1, 2⟩ : Location)]? = some ⟨100, 1⟩ ∧
    TwoRooms.guard'.accepts (Packet.blank.set (.header .vlan) 5) ⟨100, 1⟩ = false := by
  obtain ⟨hiff, hconcrete⟩ := accepts_physical_iff TwoRooms.map
  have hunambiguous := hconcrete TwoRooms.concrete
  refine ⟨TwoRooms.concrete, hunambiguous, rfl, rfl, ?_⟩
  exact (hiff.2 hunambiguous TwoRooms.guard TwoRooms.guard' rfl
    (Packet.blank.set (.header .vlan) 5) ⟨1, 2⟩ ⟨100, 1⟩ rfl).trans (by decide)

/-- **A physical zero is a wildcard.** The first switch of this map lies on the physical switch zero.
    The map is built without complaint; then the tests of the first switch, and of its only port,
    accept what is at the second switch as well. -/
theorem AddressMap.wildcard_image_accepts_more :
    ∃ m : AddressMap,
      AddressMap.ofEntries [(1, 0), (2, 7)] [(⟨1, 1⟩, ⟨0, 5⟩), (⟨2, 1⟩, ⟨7, 5⟩)] = .ok m ∧
      m.ports[(⟨2, 1⟩ : Location)]? = some ⟨7, 5⟩ ∧
      (Predicate.test .switch 1).physical m = .ok (.test .switch 0) ∧
      (Predicate.test .switch 0).accepts Packet.blank ⟨7, 5⟩ = true ∧
      (Predicate.test .switch 1).accepts Packet.blank ⟨2, 1⟩ = false ∧
      (Predicate.located ⟨1, 1⟩).physical m = .ok (.located ⟨0, 5⟩) ∧
      (Predicate.located ⟨0, 5⟩).accepts Packet.blank ⟨7, 5⟩ = true ∧
      (Predicate.located ⟨1, 1⟩).accepts Packet.blank ⟨2, 1⟩ = false := by
  exact ⟨_, rfl, rfl, rfl, by decide, by decide, rfl, by decide, by decide⟩

end SlicePolicy
