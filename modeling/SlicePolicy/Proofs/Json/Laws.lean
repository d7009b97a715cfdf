import Mathlib.Data.List.Forall2
import SlicePolicy.Json.Library

namespace SlicePolicy.Json

/-!
# What is known of a library

The wire formats are right for every library that keeps to its documentation. Two relations say what
the readers of a library do: one of them which values it makes of which documents, the other one which
values it can make of any text at all. The documentation says both shape by shape, with the brackets
that a shape takes up.

* `Semantics` — the two relations, and what they are for members and kinds.
* `Semantics.Lawful` — the documents of each shape, the values of each shape, and whole texts.
* `Semantics.Lawful.reads_writeList`, `Semantics.Lawful.reads_writeContents` and more — what is written
  in a shape is read in this shape.
-/

/-- What the readers of a library do. -/
structure Semantics (L : Library) where
  /-- The reader makes this value of this document, wherever it stands in a text. -/
  Reads {α : Type} : L.Reader α → Json → α → Prop
  /-- The reader can make this value of something that is nested no deeper than this. -/
  Accepts {α : Type} : Nat → L.Reader α → α → Prop

namespace Semantics

variable {L : Library} (S : Semantics L)

/-- The members of an object are those of a record, in its order, and are read as its values. Those
    for which something else can stand may be left out. -/
def ReadsMembers : {σ : Type} → Members L.Reader σ → List (String × Json) → σ → Prop
  | _, .nil, vs, _ => vs = []
  | _, .cons name r absent rest, vs, s =>
    (∃ v vs', vs = (name, v) :: vs' ∧ S.Reads r v s.1 ∧ ReadsMembers rest vs' s.2) ∨
      (absent = some s.1 ∧ ReadsMembers rest vs s.2)

/-- Each of the values can be accepted as a member, or stands for a member that is left out. -/
def AcceptsMembers (n : Nat) : {σ : Type} → Members L.Reader σ → σ → Prop
  | _, .nil, _ => True
  | _, .cons _ r absent rest, s =>
    (S.Accepts n r s.1 ∨ absent = some s.1) ∧ AcceptsMembers n rest s.2

variable {S} in
/-- A member for which nothing else can stand was read. -/
theorem accepts_of_required {α : Type} {r : L.Reader α} {a : α} {n : Nat}
    (h : S.Accepts n r a ∨ none = some a) : S.Accepts n r a :=
  h.resolve_right (Option.some_ne_none a).symm

/-- A document of a kind: its name alone, or an object that has the contents under its name. -/
def ReadsKind {α : Type} : Kind L.Reader α → Json → α → Prop
  | .bare name a, v, b => v = .string name ∧ b = a
  | .contents name r make, v, b => ∃ w c, v = .object [(name, w)] ∧ S.Reads r w c ∧ b = make c

/-- A value of a kind, with contents that can be accepted inside one more pair of brackets. -/
def AcceptsKind {α : Type} (n : Nat) : Kind L.Reader α → α → Prop
  | .bare _ a, b => b = a
  | .contents _ r make, b => ∃ m c, n = m + 1 ∧ S.Accepts m r c ∧ b = make c

/-- What the documentation says. -/
structure Lawful (S : Semantics L) : Prop where
  /-- Capital letters become small. -/
  lowercase_eq : ∀ s, L.lowercase s = String.ofList (s.toList.map Char.toLower)
  /-- Integers are written as they are. -/
  writeInteger_eq : ∀ v, L.writeInteger v = .number v.toInt
  /-- Lists are written as arrays. -/
  writeList_eq : ∀ vs, L.writeList vs = .array vs
  /-- Pairs are written as arrays. -/
  writePair_eq : ∀ v w, L.writePair v w = .array [v, w]
  /-- Maps are written as objects. -/
  writeMap_eq : ∀ ms, L.writeMap ms = .object ms
  /-- Records are written as objects. -/
  writeRecord_eq : ∀ ms, L.writeRecord ms = .object ms
  /-- Kinds without contents are written as their names. -/
  writeBare_eq : ∀ name, L.writeBare name = .string name
  /-- Kinds with contents are written as objects that have the contents under their names. -/
  writeContents_eq : ∀ name v, L.writeContents name v = .object [(name, v)]
  /-- All integers are read. -/
  reads_integer : ∀ v : Value, S.Reads L.integer (.number v.toInt) v
  /-- Arrays are read as lists, item by item. -/
  reads_list : ∀ {α : Type} {r : L.Reader α} {vs : List Json} {as : List α},
    List.Forall₂ (S.Reads r) vs as → S.Reads (L.list r) (.array vs) as
  /-- Arrays of two items are read as pairs. -/
  reads_pair : ∀ {α β : Type} {r : L.Reader α} {s : L.Reader β} {v w : Json} {a : α} {b : β},
    S.Reads r v a → S.Reads s w b → S.Reads (L.pair r s) (.array [v, w]) (a, b)
  /-- Objects are read as entries, if each of their members has the name of a key. -/
  reads_entries : ∀ {κ α : Type} {keys : List (String × κ)} {r : L.Reader α}
    {ms : List (String × Json)} {es : List (κ × α)}, (keys.map Prod.fst).Nodup →
    List.Forall₂ (fun m e => (m.1, e.1) ∈ keys ∧ S.Reads r m.2 e.2) ms es →
      S.Reads (L.entries keys r) (.object ms) es
  /-- Objects are read as records, if they have the members of the record. -/
  reads_record : ∀ {σ : Type} {ms : Members L.Reader σ} {vs : List (String × Json)} {s : σ},
    ms.names.Nodup → S.ReadsMembers ms vs s → S.Reads (L.record ms) (.object vs) s
  /-- Documents of a kind are read as values of the kind. -/
  reads_kinds : ∀ {α : Type} {ks : List (Kind L.Reader α)} {k : Kind L.Reader α} {v : Json} {a : α},
    (ks.map Kind.name).Nodup → k ∈ ks → S.ReadsKind k v a → S.Reads (L.kinds ks) v a
  /-- What a function makes of a value is read from the same document, unless it is refused. -/
  reads_check : ∀ {α β : Type} {f : α → Except Error β} {r : L.Reader α} {v : Json} {a : α} {b : β},
    S.Reads r v a → f a = .ok b → S.Reads (L.check f r) v b
  /-- There are brackets around the items of a list. -/
  accepts_list : ∀ {α : Type} {r : L.Reader α} {as : List α} {n : Nat},
    S.Accepts n (L.list r) as → ∃ m, n = m + 1 ∧ ∀ a ∈ as, S.Accepts m r a
  /-- There are brackets around the items of a pair. -/
  accepts_pair : ∀ {α β : Type} {r : L.Reader α} {s : L.Reader β} {e : α × β} {n : Nat},
    S.Accepts n (L.pair r s) e → ∃ m, n = m + 1 ∧ S.Accepts m r e.1 ∧ S.Accepts m s e.2
  /-- There are brackets around the entries of a map. -/
  accepts_entries : ∀ {κ α : Type} {keys : List (String × κ)} {r : L.Reader α} {es : List (κ × α)}
    {n : Nat}, S.Accepts n (L.entries keys r) es → ∃ m, n = m + 1 ∧ ∀ e ∈ es, S.Accepts m r e.2
  /-- There are brackets around the members of a record. -/
  accepts_record : ∀ {σ : Type} {ms : Members L.Reader σ} {s : σ} {n : Nat},
    S.Accepts n (L.record ms) s → ∃ m, n = m + 1 ∧ S.AcceptsMembers m ms s
  /-- There are no other values than those of the kinds. -/
  accepts_kinds : ∀ {α : Type} {ks : List (Kind L.Reader α)} {a : α} {n : Nat},
    S.Accepts n (L.kinds ks) a → ∃ k ∈ ks, S.AcceptsKind n k a
  /-- What a function has made was made of something that is accepted. -/
  accepts_check : ∀ {α β : Type} {f : α → Except Error β} {r : L.Reader α} {b : β} {n : Nat},
    S.Accepts n (L.check f r) b → ∃ a, S.Accepts n r a ∧ f a = .ok b
  /-- Documents are read from their texts, if they are not nested too deep. -/
  fromText_toText : ∀ {α : Type} {r : L.Reader α} {v : Json} {a : α},
    S.Reads r v a → v.depth ≤ L.limit → L.fromText r (L.toText v) = .ok a
  /-- Nothing is accepted from a text that has to be nested too deep. -/
  accepts_of_fromText : ∀ {α : Type} {r : L.Reader α} {text : String} {a : α},
    L.fromText r text = .ok a → S.Accepts L.limit r a
  /-- What a function makes of a value that is read from a text is the result. -/
  fromText_check : ∀ {α β : Type} (f : α → Except Error β) {r : L.Reader α} {text : String} {a : α},
    L.fromText r text = .ok a → L.fromText (L.check f r) text = Refusal.check (f a)
  /-- What a function has made was made of a value that is read from the text. -/
  fromText_of_check : ∀ {α β : Type} {f : α → Except Error β} {r : L.Reader α} {text : String}
    {b : β}, L.fromText (L.check f r) text = .ok b → ∃ a, L.fromText r text = .ok a ∧ f a = .ok b

namespace Lawful

variable {S} {α β γ : Type} {f : α → β} {r : L.Reader α} {s : L.Reader β} {v w : Json} {a : α} {b : β}
  {n : Nat}

/-! ### Functions without refusals -/

theorem reads_map (hS : S.Lawful) (h : S.Reads r v a) : S.Reads (L.map f r) v (f a) :=
  hS.reads_check h rfl

theorem accepts_map (hS : S.Lawful) (h : S.Accepts n (L.map f r) b) :
    ∃ a, S.Accepts n r a ∧ f a = b := by
  obtain ⟨a, ha, hb⟩ := hS.accepts_check h
  exact ⟨a, ha, Except.ok.inj hb⟩

/-! ### What is written is read -/

theorem reads_writeInteger (hS : S.Lawful) (v : Value) :
    S.Reads L.integer (L.writeInteger v) v := by
  rw [hS.writeInteger_eq]
  exact hS.reads_integer v

theorem reads_writeList (hS : S.Lawful) {write : α → Json} {as : List α}
    (h : ∀ a ∈ as, S.Reads r (write a) a) : S.Reads (L.list r) (L.writeList (as.map write)) as := by
  rw [hS.writeList_eq]
  exact hS.reads_list (List.forall₂_map_left_iff.2 (List.forall₂_same.2 h))

theorem reads_writePair (hS : S.Lawful) (hv : S.Reads r v a) (hw : S.Reads s w b) :
    S.Reads (L.pair r s) (L.writePair v w) (a, b) := by
  rw [hS.writePair_eq]
  exact hS.reads_pair hv hw

theorem reads_writeRecord (hS : S.Lawful) {σ : Type} {ms : Members L.Reader σ}
    {vs : List (String × Json)} {s : σ} (hnames : ms.names.Nodup) (h : S.ReadsMembers ms vs s) :
    S.Reads (L.record ms) (L.writeRecord vs) s := by
  rw [hS.writeRecord_eq]
  exact hS.reads_record hnames h

section

variable {ks : List (Kind L.Reader α)} {name : String}

theorem reads_writeBare (hS : S.Lawful) (hr : r = L.kinds ks) (hnames : (ks.map Kind.name).Nodup)
    (hk : .bare name a ∈ ks) : S.Reads r (L.writeBare name) a := by
  rw [hr]
  exact hS.reads_kinds hnames hk ⟨hS.writeBare_eq name, rfl⟩

theorem reads_writeContents (hS : S.Lawful) (hr : r = L.kinds ks)
    (hnames : (ks.map Kind.name).Nodup) {make : β → α} (hk : .contents name s make ∈ ks)
    (h : S.Reads s v b) : S.Reads r (L.writeContents name v) (make b) := by
  rw [hr]
  exact hS.reads_kinds hnames hk ⟨v, b, hS.writeContents_eq name v, h, rfl⟩

end

end Lawful

end Semantics

end SlicePolicy.Json
