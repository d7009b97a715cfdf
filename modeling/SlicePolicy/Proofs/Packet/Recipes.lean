import SlicePolicy.Proofs.Addressing.Behavior
import SlicePolicy.Proofs.Json.Streaming
import SlicePolicy.Proofs.Json.Written
import SlicePolicy.Proofs.Packet.GuardedMaps

namespace SlicePolicy

/-!
# Nothing that is built holds a location

A recipe says how a packet or an action is built, in any number of steps of any kind, and what was
asked for in these steps, location fields included. The maps of fields that the steps fill are kept
beside the packets and actions, in which no location has a place: it is the guards in front of the maps
that keep it out. A packet comes out with all that was asked for but the location; an action with all
that was asked for, because changes of the location are refused. And so no policy sends packets that
store where they are.

* `Packet.Recipe`, `Action.Recipe` — recipes, what they ask for, what is stored and what comes out.
* `Packet.Recipe.headersOnly_of_store`, `Action.Recipe.headersOnly_of_store` — what is stored, by
  induction on the recipe.
* `Agrees`, `Packet.Recipe.agrees`, `Action.Recipe.agrees` — what is stored is what comes out.
* `holds_headers_only` — all of this, what policies send, and how location fields are refused.
-/

open Json (Library Semantics Refusal streaming)

variable {L : Library} {S : Semantics L}

theorem Json.Refusal.check_eq_ok_iff {α : Type} {x : Except Error α} {a : α} :
    Refusal.check x = .ok a ↔ x = .ok a := by
  cases x <;> simp [Refusal.check]

/-! ### Agreement -/

/-- What is stored and what comes out is there at the same time, and then it is the same. -/
def Agrees {α : Type} (get : α → KeyMap Field Value) (x : Except Refusal (KeyMap Field Value))
    (y : Except Refusal α) : Prop :=
  ∀ m, x = .ok m ↔ ∃ a, y = .ok a ∧ get a = m

section

variable {α γ : Type} {get : α → KeyMap Field Value} {x : Except Refusal (KeyMap Field Value)}
  {y : Except Refusal α}

theorem agrees_ok {m : KeyMap Field Value} {a : α} (h : get a = m) : Agrees get (.ok m) (.ok a) := by
  intro n
  simp only [Except.ok.injEq, exists_eq_left', h]

theorem agrees_check {x : Except Error (KeyMap Field Value)} {y : Except Error α}
    (h : x = y.map get) : Agrees get (Refusal.check x) (Refusal.check y) := by
  intro m
  simp only [Refusal.check_eq_ok_iff, h, map_eq_ok_iff]

theorem Agrees.map (h : Agrees get x y) {f : KeyMap Field Value → KeyMap Field Value} {g : α → α}
    (hstep : ∀ a, f (get a) = get (g a)) : Agrees get (x.map f) (y.map g) := by
  intro m
  simp only [map_eq_ok_iff, h _]
  constructor
  · rintro ⟨_, ⟨a, ha, rfl⟩, rfl⟩
    exact ⟨g a, ⟨a, ha, rfl⟩, (hstep a).symm⟩
  · rintro ⟨_, ⟨a, ha, rfl⟩, rfl⟩
    exact ⟨get a, ⟨a, ha, rfl⟩, hstep a⟩

theorem Agrees.bind (h : Agrees get x y)
    {f : KeyMap Field Value → Except Refusal (KeyMap Field Value)} {g : α → Except Refusal α}
    (hstep : ∀ a, y = .ok a → Agrees get (f (get a)) (g a)) : Agrees get (x >>= f) (y >>= g) := by
  intro m
  simp only [bind_eq_ok_iff, h _]
  constructor
  · rintro ⟨_, ⟨a, ha, rfl⟩, hm⟩
    obtain ⟨b, hb, hget⟩ := (hstep a ha m).1 hm
    exact ⟨b, ⟨a, ha, hb⟩, hget⟩
  · rintro ⟨b, ⟨a, ha, hb⟩, hget⟩
    exact ⟨get a, ⟨a, ha, rfl⟩, (hstep a ha m).2 ⟨b, hb, hget⟩⟩

/-- What is read from a text agrees if the checks do. -/
theorem agrees_fromText (hS : S.Lawful) {f : γ → Except Error (KeyMap Field Value)}
    {g : γ → Except Error α} (hcheck : ∀ c, f c = (g c).map get) (r : L.Reader γ) (text : String) :
    Agrees get (L.fromText (L.check f r) text) (L.fromText (L.check g r) text) := by
  intro m
  constructor
  · intro hm
    obtain ⟨c, hc, hf⟩ := hS.fromText_of_check hm
    rw [hcheck, map_eq_ok_iff] at hf
    obtain ⟨a, ha, hget⟩ := hf
    exact ⟨a, (hS.fromText_check g hc).trans (Refusal.check_eq_ok_iff.2 ha), hget⟩
  · rintro ⟨a, ha, rfl⟩
    obtain ⟨c, hc, hg⟩ := hS.fromText_of_check ha
    refine (hS.fromText_check f hc).trans (Refusal.check_eq_ok_iff.2 ?_)
    rw [hcheck, hg]
    rfl

end

/-! ### Packets -/

namespace Packet

/-- How a packet is built. -/
inductive Recipe
  | blank
  | ofFields (entries : List (Field × Value))
  | ofNamed (entries : List (String × Value))
  | read (text : String)
  | set (r : Recipe) (f : Field) (v : Value)
  | overwrite (r : Recipe) (entries : List (Field × Value))

namespace Recipe

variable (L) in
/-- The packet that comes out, unless a step is refused. -/
def make : Recipe → Except Refusal Packet
  | blank => .ok .blank
  | ofFields entries => .ok (.ofFields entries)
  | ofNamed entries => Refusal.check (Packet.ofNamed entries)
  | read text => L.fromText (Packet.deserializer L) text
  | set r f v => r.make.map fun p => p.set f v
  | overwrite r entries => r.make.map fun p => p.overwrite entries

variable (L) in
/-- The map of fields that is filled, unless a step is refused. -/
def store : Recipe → Except Refusal (KeyMap Field Value)
  | blank => .ok ∅
  | ofFields entries => .ok (KeyMap.extend ∅ entries)
  | ofNamed entries => Refusal.check (KeyMap.ofNames entries)
  | read text => L.fromText (L.check KeyMap.guarded (Packet.unchecked L)) text
  | set r f v => r.store.map fun m => m.extend [(f, v)]
  | overwrite r entries => r.store.map fun m => m.extend entries

variable (L) in
/-- The fields that were asked for; the last value of a field counts. -/
def asked : Recipe → KeyMap Field Value
  | blank => ∅
  | ofFields entries => .ofList entries
  | ofNamed entries => .ofList (namedEntries entries)
  | read text =>
    match L.fromText (Packet.unchecked L) text with
    | .ok m => m
    | .error _ => ∅
  | set r f v => r.asked.insert f v
  | overwrite r entries => r.asked.insertAll entries

/-- **Packets.** No location field is stored, and of the other fields all that was asked for is. -/
theorem headersOnly_of_store (hS : S.Lawful) {r : Recipe} {m : KeyMap Field Value}
    (h : r.store L = .ok m) : m.HeadersOnly ∧ m = (r.asked L).dropLocation := by
  have hextend : ∀ {m n : KeyMap Field Value} (es : List (Field × Value)), m.HeadersOnly →
      m = n.dropLocation → (m.extend es).HeadersOnly ∧ m.extend es = (n.insertAll es).dropLocation := by
    intro m n es hm hn
    refine ⟨hm.extend es, (KeyMap.extend_eq hm es).trans (KeyMap.dropLocation_insertAll_congr ?_ es)⟩
    exact hm.dropLocation_eq.trans hn
  induction r generalizing m with
  | blank =>
    cases h
    exact ⟨KeyMap.headersOnly_empty, KeyMap.headersOnly_empty.dropLocation_eq.symm⟩
  | ofFields entries =>
    cases h
    exact hextend entries KeyMap.headersOnly_empty KeyMap.headersOnly_empty.dropLocation_eq.symm
  | ofNamed entries =>
    have hnames : KeyMap.ofNames entries = .ok m := Refusal.check_eq_ok_iff.1 h
    have hm := KeyMap.headersOnly_of_ofNames hnames
    rw [ofNames_eq_map_ofNamed, map_eq_ok_iff] at hnames
    obtain ⟨p, hp, rfl⟩ := hnames
    exact ⟨hm, (dropLocation_fields p).symm.trans (congrArg _ (ofNamed_eq_ok hp))⟩
  | read text =>
    obtain ⟨n, hn, hguard⟩ := hS.fromText_of_check h
    have hm := KeyMap.headersOnly_of_guarded hguard
    rw [guarded_eq_map_ofExactly, map_eq_ok_iff] at hguard
    obtain ⟨p, hp, rfl⟩ := hguard
    rw [asked, hn]
    exact ⟨hm, (dropLocation_fields p).symm.trans (congrArg _ (ofExactly_eq_ok_iff.1 hp))⟩
  | set r f v ih =>
    obtain ⟨n, hn, rfl⟩ := map_eq_ok_iff.1 h
    obtain ⟨hheaders, hasked⟩ := ih hn
    exact hextend [(f, v)] hheaders hasked
  | overwrite r entries ih =>
    obtain ⟨n, hn, rfl⟩ := map_eq_ok_iff.1 h
    obtain ⟨hheaders, hasked⟩ := ih hn
    exact hextend entries hheaders hasked

/-- **Packets.** What is stored is what the packet stores that comes out. -/
theorem agrees (hS : S.Lawful) (r : Recipe) : Agrees fields (r.store L) (r.make L) := by
  induction r with
  | blank => exact agrees_ok Header.asFields_empty
  | ofFields entries =>
    have hblank : Packet.blank.fields = ∅ := Header.asFields_empty
    refine agrees_ok ?_
    rw [← hblank, extend_fields]
    rfl
  | ofNamed entries => exact agrees_check (ofNames_eq_map_ofNamed entries)
  | read text => exact agrees_fromText hS guarded_eq_map_ofExactly _ text
  | set r f v ih => exact ih.map fun p => p.extend_fields [(f, v)]
  | overwrite r entries ih => exact ih.map fun p => p.extend_fields entries

end Recipe

/-- A text with a location field is refused, and the refusal names the first. -/
theorem fromText_eq_error (hS : S.Lawful) {text : String} {m : KeyMap Field Value} {f : Field}
    (h : L.fromText (unchecked L) text = .ok m) (hf : m.firstLocation? = some f) :
    L.fromText (deserializer L) text = .error (.rejected (.carriesLocation f)) := by
  rw [deserializer, hS.fromText_check ofExactly h, ofExactly_eq_error_iff.2 ⟨f, hf, rfl⟩]
  rfl

end Packet

/-! ### Actions -/

namespace Action

/-- How an action is built. -/
inductive Recipe
  | sendTo (switch : Value) (ports : List Value)
  | dropOn (switch : Value)
  | forward (switch port : Value)
  | read (text : String)
  | modifying (r : Recipe) (f : Field) (v : Value)
  | reportingTo (r : Recipe) (taps : List Value)
  | physical (r : Recipe) (m : AddressMap)

namespace Recipe

variable (L) in
/-- The action that comes out, unless a step is refused. -/
def make : Recipe → Except Refusal Action
  | sendTo switch ports => .ok (.sendTo switch ports)
  | dropOn switch => .ok (.dropOn switch)
  | forward switch port => .ok (.forward switch port)
  | read text => L.fromText (Action.deserializer L) text
  | modifying r f v => r.make >>= fun a => Refusal.check (a.modifying f v)
  | reportingTo r taps => r.make.map fun a => a.reportingTo taps
  | physical r m => r.make >>= fun a => Refusal.check (a.physical m)

variable (L) in
/-- The map of changes that is filled, unless a step is refused. -/
def store : Recipe → Except Refusal (KeyMap Field Value)
  | sendTo _ _ | dropOn _ | forward _ _ => .ok ∅
  | read text =>
    L.fromText (L.check (fun u => KeyMap.changeAll ∅ u.modify.toList) (Action.unchecked L)) text
  | modifying r f v => r.store >>= fun n => Refusal.check (n.change f v)
  | reportingTo r _ => r.store
  | physical r m => do
    let n ← r.store
    let _ ← Refusal.check ((← r.make L).physical m)
    return n

variable (L) in
/-- The changes that were asked for; the last value of a field counts. -/
def asked : Recipe → KeyMap Field Value
  | sendTo _ _ | dropOn _ | forward _ _ => ∅
  | read text =>
    match L.fromText (Action.unchecked L) text with
    | .ok u => u.modify
    | .error _ => ∅
  | modifying r f v => r.asked.insert f v
  | reportingTo r _ => r.asked
  | physical r _ => r.asked

/-- **Actions.** No change of the location is stored, and all changes that were asked for are. -/
theorem headersOnly_of_store (hS : S.Lawful) {r : Recipe} {m : KeyMap Field Value}
    (h : r.store L = .ok m) : m.HeadersOnly ∧ m = r.asked L := by
  induction r generalizing m with
  | sendTo switch ports =>
    cases h
    exact ⟨KeyMap.headersOnly_empty, rfl⟩
  | dropOn switch =>
    cases h
    exact ⟨KeyMap.headersOnly_empty, rfl⟩
  | forward switch port =>
    cases h
    exact ⟨KeyMap.headersOnly_empty, rfl⟩
  | read text =>
    obtain ⟨u, hu, hchanges⟩ := hS.fromText_of_check h
    refine ⟨KeyMap.headersOnly_empty.changeAll hchanges, ?_⟩
    rw [asked, hu]
    exact (KeyMap.eq_of_changeAll hchanges).trans (KeyMap.ofList_toList u.modify)
  | modifying r f v ih =>
    obtain ⟨n, hn, hchange⟩ := bind_eq_ok_iff.1 h
    obtain ⟨hheaders, hasked⟩ := ih hn
    have hchange := Refusal.check_eq_ok_iff.1 hchange
    refine ⟨hheaders.change hchange, ?_⟩
    rw [KeyMap.eq_of_change hchange, hasked, asked]
  | reportingTo r taps ih => exact ih h
  | physical r map ih =>
    obtain ⟨n, hn, hrest⟩ := bind_eq_ok_iff.1 h
    obtain ⟨a, ha, hrest⟩ := bind_eq_ok_iff.1 hrest
    obtain ⟨b, hb, hpure⟩ := bind_eq_ok_iff.1 hrest
    cases hpure
    exact ih hn

/-- **Actions.** What is stored is what the action changes that comes out. -/
theorem agrees (hS : S.Lawful) (r : Recipe) : Agrees changed (r.store L) (r.make L) := by
  induction r with
  | sendTo switch ports => exact agrees_ok Header.asFields_empty
  | dropOn switch => exact agrees_ok Header.asFields_empty
  | forward switch port => exact agrees_ok Header.asFields_empty
  | read text =>
    refine agrees_fromText hS (fun u => ?_) _ text
    have hempty : ((Action.sendTo u.switch u.ports).reportingTo u.observe.toList).changed = ∅ :=
      Header.asFields_empty
    rw [← hempty]
    exact changeAll_changed _ _
  | modifying r f v ih => exact ih.bind fun a _ => agrees_check (a.change_changed f v)
  | reportingTo r taps ih =>
    have hsame : r.store L = (r.store L).map id := by cases r.store L <;> rfl
    show Agrees changed (r.store L) _
    rw [hsame]
    exact ih.map fun _ => rfl
  | physical r map ih =>
    refine ih.bind fun a ha => ?_
    have hkept : ((a.physical map).map fun _ => a.changed) = (a.physical map).map changed := by
      cases hb : a.physical map with
      | error e => rfl
      | ok b =>
        have hchanged : b.changed = a.changed := congrArg Header.asFields (modify_physical hb).1
        show Except.ok a.changed = Except.ok b.changed
        rw [hchanged]
    have hstore : (do
        let _ ← Refusal.check ((← r.make L).physical map)
        return a.changed) = Refusal.check ((a.physical map).map fun _ => a.changed) := by
      rw [ha]
      show (Refusal.check (a.physical map) >>= fun _ => pure a.changed) = _
      cases a.physical map <;> rfl
    rw [hstore]
    exact agrees_check hkept

end Recipe

/-- A text with changes of the location is refused, and the refusal names the first. -/
theorem fromText_eq_error (hS : S.Lawful) {text : String} {u : Unchecked} {f : Field}
    (h : L.fromText (unchecked L) text = .ok u) (hf : u.modify.firstLocation? = some f) :
    L.fromText (deserializer L) text = .error (.rejected (.modifiesLocation f)) := by
  rw [deserializer, hS.fromText_check Unchecked.rebuild h, Unchecked.rebuild,
    modifyingAll_eq_error_iff.2 ⟨f, hf, rfl⟩]
  rfl

end Action

/-! ### Location fields are nowhere -/

/-- **Packets and actions hold no location.** Let texts be read with a lawful library. Whatever the steps
    are in which a packet or an action is built, no location field comes into its map of fields, and of
    the other fields all that was asked for does; the packet stores this map, and the action changes it.
    The packets that a policy sends store what the packet stored that came in, extended by the changes of
    one of its actions. A location field is refused that is named, that stands in a text or that is to
    be changed; the refusal names the first. -/
theorem holds_headers_only {L : Library} {S : Semantics L} (hS : S.Lawful) :
    (∀ (r : Packet.Recipe) (m : KeyMap Field Value), r.store L = .ok m →
      m.HeadersOnly ∧ m = (r.asked L).dropLocation) ∧
    (∀ (r : Packet.Recipe) (m : KeyMap Field Value),
      r.store L = .ok m ↔ ∃ p, r.make L = .ok p ∧ p.fields = m) ∧
    (∀ (r : Action.Recipe) (m : KeyMap Field Value), r.store L = .ok m →
      m.HeadersOnly ∧ m = r.asked L) ∧
    (∀ (r : Action.Recipe) (m : KeyMap Field Value),
      r.store L = .ok m ↔ ∃ a, r.make L = .ok a ∧ a.changed = m) ∧
    (∀ (p : Policy) (x : Packet) (l : Location), ∀ o ∈ p.outputs x l, o.1.fields.HeadersOnly ∧
      ∃ a ∈ p.actions x l, o.1.fields = x.fields.extend a.changed.toList) ∧
    (∀ (es : List (String × Value)) (f : Field), Packet.ofNamed es = .error (.carriesLocation f) ↔
      f.isLocation = true ∧ ((es.map Prod.fst).find? fun s => !Header.isName s) = some f.name) ∧
    (∀ (text : String) (m : KeyMap Field Value) (f : Field),
      L.fromText (Packet.unchecked L) text = .ok m → m.firstLocation? = some f →
        L.fromText (Packet.deserializer L) text = .error (.rejected (.carriesLocation f))) ∧
    (∀ (a : Action) (f : Field) (v : Value) (e : Error), a.modifying f v = .error e ↔
      f.isLocation = true ∧ e = .modifiesLocation f) ∧
    (∀ (text : String) (u : Action.Unchecked) (f : Field),
      L.fromText (Action.unchecked L) text = .ok u → u.modify.firstLocation? = some f →
        L.fromText (Action.deserializer L) text = .error (.rejected (.modifiesLocation f))) := by
  refine ⟨?_, ?_, ?_, ?_, ?_, ?_, ?_, ?_, ?_⟩
  · intro r m hm
    exact Packet.Recipe.headersOnly_of_store hS hm
  · exact Packet.Recipe.agrees hS
  · intro r m hm
    exact Action.Recipe.headersOnly_of_store hS hm
  · exact Action.Recipe.agrees hS
  · intro p x l o ho
    obtain ⟨a, ha, hfields⟩ := Policy.extend_of_mem_outputs ho
    -- the guard in front of the extension is what keeps the location out
    exact ⟨hfields ▸ x.headersOnly_fields.extend a.changed.toList, a, ha, hfields⟩
  · intro es f
    exact Packet.ofNamed_eq_error_iff
  · intro text m f hm hf
    exact Packet.fromText_eq_error hS hm hf
  · intro a f v e
    exact Action.modifying_eq_error_iff
  · intro text u f hu hf
    exact Action.fromText_eq_error hS hu hf

/-- A packet that was asked for a location and for two tags has the second tag, and so has what an
    action sends that was asked for a tag. In a list of names the port is refused if it stands before
    the switch; in a text the switch is refused in any case. -/
theorem holds_headers_only_tagged :
    let r : Packet.Recipe :=
      .overwrite (.set (.ofFields [(.switch, 3), (.header .vlan, 6)]) .port 4)
        [(.header .vlan, 7), (.switch, 1)]
    let c : Action.Recipe := .reportingTo (.modifying (.forward 1 2) (.header .vlan) 5) [4]
    let es : List (Field × Value) := [(.header .vlan, 6), (.port, 1), (.switch, 3)]
    (∃ m p, r.store streaming = .ok m ∧ m.HeadersOnly ∧ m = .ofList [(.header .vlan, 7)] ∧
      r.make streaming = .ok p ∧ p.fields = m) ∧
    (∃ m a, c.store streaming = .ok m ∧ m.HeadersOnly ∧ m = .ofList [(.header .vlan, 5)] ∧
      c.make streaming = .ok a ∧ a.changed = m ∧
      ∃ o ∈ (Policy.branch .top [a]).outputs .blank ⟨1, 1⟩, o.1.fields.HeadersOnly) ∧
    Packet.ofNamed [("vlan", 6), ("port", 1), ("switch", 3)] = .error (.carriesLocation .port) ∧
    streaming.fromText Packet.reader (Json.object [("fields", writeFields streaming es)]).compact
      = .error (.rejected (.carriesLocation .switch)) ∧
    (Action.forward 1 2).modifying .port 3 = .error (.modifiesLocation .port) ∧
    streaming.fromText Action.reader (Json.object
        [("switch", (1 : Value).toJson), ("ports", .array []), ("modify", writeFields streaming es),
          ("observe", .array [])]).compact
      = .error (.rejected (.modifiesLocation .switch)) := by
  intro r c es
  have hS := Json.streamed_lawful
  obtain ⟨hstored, hpackets, hchanged, hactions, hsent, hnamed, hpacketTexts, hchanges, hactionTexts⟩ :=
    holds_headers_only Json.streamed_lawful
  have hfirst : (KeyMap.ofList es).firstLocation? = some .switch := by decide
  have hpacket := hS.fromText_toText (Packet.reads_unchecked hS (reads_writeFields hS es)) (by decide)
  have haction := hS.fromText_toText
    (Action.reads_unchecked hS ⟨1, [], .ofList es, ∅⟩ (reads_writeFields hS es)) (by decide)
  obtain ⟨hr, hasked⟩ := hstored r _ rfl
  obtain ⟨p, hp, hfields⟩ := (hpackets r _).1 rfl
  let a : Action := ⟨1, [2], (∅ : KeyMap Header Value).insert .vlan 5, .ofList [4]⟩
  have hc : c.store streaming = .ok (.ofList [(.header .vlan, 5)]) :=
    (hactions c _).2 ⟨a, rfl, by decide⟩
  refine ⟨⟨_, p, rfl, hr, hasked.trans (by decide), hp, hfields⟩,
    ⟨_, a, hc, (hchanged c _ hc).1, rfl, rfl, by decide, ?_⟩, ?_, ?_, ?_, ?_⟩
  · have ho : (a.applyTo .blank, ⟨1, 2⟩) ∈ (Policy.branch .top [a]).outputs .blank ⟨1, 1⟩ := by decide
    exact ⟨_, ho, (hsent _ _ _ _ ho).1⟩
  · exact (hnamed _ .port).2 ⟨rfl, by decide⟩
  · exact hpacketTexts _ _ _ hpacket hfirst
  · exact (hchanges _ _ _ _).2 ⟨rfl, rfl⟩
  · exact hactionTexts _ _ _ haction hfirst

end SlicePolicy
