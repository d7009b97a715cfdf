import SlicePolicy.Json.Reader.Shape
import SlicePolicy.Proofs.Outcome

namespace SlicePolicy.Json.Reader

/-!
# What the readers of the shapes accept

A text may say a value with more brackets than the written value has: a record may be an array of its
parts, a name may be the key of an object, and blanks and unknown members may stand in between. It
cannot do with fewer: the parts of a value that was read are accepted by their readers inside the
brackets that the shape takes up.

* `Accepts`, `Yields` — the values of a reader, and properties that all of them have.
* `yields_list`, `yields_pair`, `yields_entries` — arrays and maps.
* `DraftAccepts`, `yields_record` — records, through what was read of them so far.
-/

variable {α β κ δ : Type} {P : α → Prop} {Q : β → Prop} {r : Reader α} {n : Nat}

/-- There is a text off whose front the reader takes the value. -/
def Accepts (r : Reader α) (a : α) : Prop := ∃ cs rest : List Char, r.run cs = .ok (a, rest)

/-- Whatever the reader accepts has the property. -/
def Yields (r : Reader α) (P : α → Prop) : Prop := ∀ a : α, Accepts r a → P a

/-! ### Steps -/

theorem yields_accepts (r : Reader α) : Yields r (Accepts r) := fun _ ha => ha

theorem yields_true (r : Reader α) : Yields r fun _ => True := fun _ _ => trivial

theorem yields_malformed : Yields malformed P := by
  rintro a ⟨cs, rest, hrun⟩
  cases hrun

theorem yields_pure {a : α} (ha : P a) : Yields (pure a) P := by
  rintro b ⟨cs, rest, hrun⟩
  cases hrun
  exact ha

/-- A reader that reads nothing yields the result that it was given. -/
theorem yields_lift {x : Except Refusal α} (h : ∀ a, x = .ok a → P a) :
    Yields (liftM x : Reader α) P := by
  rintro a ⟨cs, rest, hrun⟩
  cases x with
  | error e => cases hrun
  | ok b =>
    cases hrun
    exact h a rfl

theorem Yields.bind {next : α → Reader β} (hr : Yields r P) (hnext : ∀ a, P a → Yields (next a) Q) :
    Yields (r >>= next) Q := by
  rintro b ⟨cs, rest, hrun⟩
  rw [StateT.run_bind, bind_eq_ok_iff] at hrun
  obtain ⟨⟨a, cs'⟩, ha, hb⟩ := hrun
  exact hnext a (hr a ⟨cs, cs', ha⟩) b ⟨cs', rest, hb⟩

/-- What the first reader takes off does not matter. -/
theorem yields_bind {next : α → Reader β} (hnext : ∀ a, Yields (next a) Q) : Yields (r >>= next) Q :=
  (yields_true r).bind fun a _ => hnext a

theorem Yields.map {f : α → β} (h : Yields r P) (hf : ∀ a, P a → Q (f a)) : Yields (f <$> r) Q := by
  rw [map_eq_pure_bind]
  exact h.bind fun a ha => yields_pure (hf a ha)

theorem yields_ite {c : Prop} [Decidable c] {s : Reader α} (hr : c → Yields r P)
    (hs : ¬c → Yields s P) : Yields (if c then r else s) P := by
  split
  · next hc => exact hr hc
  · next hc => exact hs hc

/-- Whoever has read something inside a bracket could open one. -/
theorem yields_nest {inner : Nested α} {P : Nat → α → Prop} (h : ∀ m, Yields (inner m) (P m)) :
    Yields (nest inner n) fun a => ∃ m, n = m + 1 ∧ P m a := by
  cases n with
  | zero => exact yields_malformed
  | succ m => exact fun a ha => ⟨m, rfl, h m a ha⟩

/-! ### Arrays -/

theorem yields_items (item : Reader α) (steps : Nat) :
    Yields (items item steps) fun as => ∀ a ∈ as, Accepts item a := by
  induction steps with
  | zero => exact yields_malformed
  | succ k ih =>
    refine (yields_accepts item).bind fun a ha => yields_bind fun c => ?_
    refine yields_ite (fun _ => ?_) fun _ => ?_
    · exact ih.bind fun as has => yields_pure (List.forall_mem_cons.2 ⟨ha, has⟩)
    · refine yields_ite (fun _ => yields_pure ?_) fun _ => yields_malformed
      exact List.forall_mem_singleton.2 ha

/-- The items of an array are accepted inside its brackets. -/
theorem yields_list (item : Nested α) :
    Yields (list item n) fun as => ∃ m, n = m + 1 ∧ ∀ a ∈ as, Accepts (item m) a := by
  refine yields_nest fun m => yields_bind fun _ => yields_bind fun c => ?_
  refine yields_ite (fun _ => ?_) fun _ => ?_
  · exact yields_bind fun _ => yields_pure (List.forall_mem_nil _)
  · exact yields_bind fun _ => yields_items (item m) _

theorem yields_pair (first : Nested α) (second : Nested β) : Yields (pair first second n)
    fun e => ∃ m, n = m + 1 ∧ Accepts (first m) e.1 ∧ Accepts (second m) e.2 := by
  refine yields_nest fun m => yields_bind fun _ => (yields_accepts _).bind fun a ha => ?_
  refine yields_bind fun _ => (yields_accepts _).bind fun b hb => yields_bind fun _ => ?_
  exact yields_pure ⟨ha, hb⟩

/-! ### Objects

A draft keeps a property that every member keeps. -/

section

variable {I : δ → Prop} {member : String → δ → Reader δ} {draft : δ}

theorem yields_membersRest (h : ∀ key d, I d → Yields (member key d) I) (steps : Nat)
    (hdraft : I draft) : Yields (membersRest member steps draft) I := by
  induction steps generalizing draft with
  | zero => exact yields_malformed
  | succ k ih =>
    refine yields_bind fun key => yields_bind fun _ => (h key draft hdraft).bind fun d hd => ?_
    refine yields_bind fun c => yields_ite (fun _ => ih hd) fun _ => ?_
    exact yields_ite (fun _ => yields_pure hd) fun _ => yields_malformed

theorem yields_members (h : ∀ key d, I d → Yields (member key d) I) (hdraft : I draft) :
    Yields (members member draft) I := by
  refine yields_bind fun c => yields_ite (fun _ => ?_) fun _ => ?_
  · exact yields_bind fun _ => yields_pure hdraft
  · exact yields_bind fun _ => yields_membersRest h _ hdraft

end

/-- The values of a map are accepted inside its brackets. -/
theorem yields_entries (keys : List (String × κ)) (value : Nested α) :
    Yields (entries keys value n) fun es => ∃ m, n = m + 1 ∧ ∀ e ∈ es, Accepts (value m) e.2 := by
  refine yields_nest fun m => yields_bind fun _ => ?_
  refine yields_members (fun key found hfound => ?_) (List.forall_mem_nil _)
  rw [entry]
  split
  · refine (yields_accepts (value m)).bind fun a ha => yields_pure ?_
    exact List.forall_mem_append.2 ⟨hfound, List.forall_mem_singleton.2 ha⟩
  · exact yields_malformed

/-! ### Records -/

/-- What was read of a record so far is accepted inside so many brackets. -/
def DraftAccepts (m : Nat) : {σ : Type} → (ms : Members Nested σ) → Draft ms → Prop
  | _, .nil, _ => True
  | _, .cons _ value _ rest, d => (∀ a ∈ d.1, Accepts (value m) a) ∧ DraftAccepts m rest d.2

theorem draftAccepts_blank {σ : Type} (m : Nat) (ms : Members Nested σ) :
    DraftAccepts m ms (blank ms) := by
  induction ms with
  | nil => trivial
  | cons name value absent rest ih => exact ⟨nofun, ih⟩

theorem yields_add {σ : Type} {m : Nat} {key : String} (ms : Members Nested σ) {d : Draft ms}
    (hd : DraftAccepts m ms d) : Yields (add m key ms d) (DraftAccepts m ms) := by
  induction ms with
  | nil => exact yields_bind fun _ => yields_pure trivial
  | cons name value absent rest ih =>
    rw [add]
    refine yields_ite (fun _ => ?_) fun _ => ?_
    · split
      · exact yields_malformed
      · exact (yields_accepts (value m)).map fun a ha => ⟨fun _ hb => Option.some.inj hb ▸ ha, hd.2⟩
    · exact (ih hd.2).map fun d' hd' => ⟨hd.1, hd'⟩

theorem yields_values {σ : Type} {m : Nat} (first : Bool) (ms : Members Nested σ) :
    Yields (values m first ms) (DraftAccepts m ms) := by
  induction ms generalizing first with
  | nil => exact fun _ _ => trivial
  | cons name value absent rest ih =>
    have hrest : Yields (do
        let a ← value m
        return (some a, ← values m false rest)) (DraftAccepts m (.cons name value absent rest)) :=
      (yields_accepts (value m)).bind fun a ha => (ih false).bind fun d hd =>
        yields_pure ⟨fun _ hb => Option.some.inj hb ▸ ha, hd⟩
    refine yields_bind fun c => yields_ite (fun _ => ?_) fun _ => ?_
    · exact yields_bind fun _ => yields_pure ⟨nofun, draftAccepts_blank m rest⟩
    · exact yields_ite (fun _ => yields_bind fun _ => hrest) fun _ => hrest

/-- A record is made of a draft that is accepted inside its brackets. -/
theorem yields_record {σ : Type} (ms : Members Nested σ) : Yields (record ms n)
    fun s => ∃ m, n = m + 1 ∧ ∃ d, DraftAccepts m ms d ∧ finish ms d = .ok s := by
  refine yields_nest fun m => ?_
  have hdone : ∀ d, DraftAccepts m ms d → Yields (liftM (finish ms d) : Reader σ)
      fun s => ∃ d, DraftAccepts m ms d ∧ finish ms d = .ok s :=
    fun d hd => yields_lift fun s hs => ⟨d, hd, hs⟩
  have hmembers : Yields (members (fun key => add m key ms) (blank ms)) (DraftAccepts m ms) :=
    yields_members (fun _ _ hd => yields_add ms hd) (draftAccepts_blank m ms)
  -- either form of a record leads to a draft, which is finished in the same way
  refine yields_bind fun c => yields_ite (fun _ => hmembers.bind hdone) fun _ => ?_
  exact yields_ite (fun _ => (yields_values true ms).bind hdone) fun _ => yields_malformed.bind hdone

end SlicePolicy.Json.Reader
