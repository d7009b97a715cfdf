import SlicePolicy.Json.Reading
import SlicePolicy.Proofs.Json.Accepted
import SlicePolicy.Proofs.Json.Laws
import SlicePolicy.Proofs.Json.Shapes

namespace SlicePolicy

/-!
# Reading from left to right is lawful

Documents without blanks and readers from left to right are a library that does what any library is
known to do: a reader makes a value of a document when it may open as many brackets as the document
needs, and it accepts what it takes off the front of some text.

* `Json.streamed` — what the readers do.
* `Json.exists_fills`, `Json.acceptsMembers_of_finish` — drafts of records, to and from the record.
* `Json.yields_kinds` — the kinds of accepted values.
* `Json.streamed_lawful` — the laws hold.
* `Json.tree_eq_kinds`, `Json.streamingTrees` — the readers of trees refer to themselves.
-/

namespace Json

open Reader

/-- What readers from left to right do. -/
@[reducible] def streamed : Semantics streaming where
  Reads r v a := ∀ n, v.depth ≤ n → Reader.Reads (r n) v a
  Accepts n r a := Reader.Accepts (r n) a

/-! ### Records -/

section

variable {α σ : Type} {name : String} {value : Nested α} {absent : Option α} {rest : Members Nested σ}
  {vs : List (String × Json)} {n : Nat}

theorem add_self (d : Draft rest) : add n name (.cons name value absent rest) (none, d)
    = (fun a => (some a, d)) <$> value n :=
  if_pos rfl

theorem add_of_ne {key : String} (h : name ≠ key) (x : Option α) (d : Draft rest) :
    add n key (.cons name value absent rest) (x, d) = (fun d' => (x, d')) <$> add n key rest d :=
  if_neg h

/-- Members with other names leave the draft of the first member as it is. -/
theorem fills_rest {x : Option α} {d d' : Draft rest} (h : Fills (fun key => add n key rest) vs d d')
    (hne : ∀ v ∈ vs, name ≠ v.1) :
    Fills (fun key => add n key (.cons name value absent rest)) vs (x, d) (x, d') := by
  induction h with
  | nil d => exact .nil (x, d)
  | @cons k v vs d d' d'' hread _ ih =>
    rw [List.forall_mem_cons] at hne
    have hother : Reader.Reads (add n k (.cons name value absent rest) (x, d)) v (x, d') := by
      rw [add_of_ne hne.1]
      exact hread.map fun d' => (x, d')
    exact .cons hother (ih hne.2)

theorem name_mem_of_readsMembers {ms : Members Nested σ} {s : σ} (h : streamed.ReadsMembers ms vs s) :
    ∀ v ∈ vs, v.1 ∈ ms.names := by
  induction ms generalizing vs with
  | nil =>
    cases h
    exact fun v hv => absurd hv List.not_mem_nil
  | cons name value absent rest ih =>
    rcases h with ⟨v, vs', rfl, _, hrest⟩ | ⟨_, hrest⟩
    · rw [List.forall_mem_cons]
      exact ⟨List.mem_cons_self, fun w hw => List.mem_cons_of_mem _ (ih hrest w hw)⟩
    · exact fun w hw => List.mem_cons_of_mem _ (ih hrest w hw)

/-- Members that are read one after the other lead to a draft that is finished as the record. -/
theorem exists_fills {ms : Members Nested σ} {s : σ} (hnames : ms.names.Nodup)
    (h : streamed.ReadsMembers ms vs s) (hn : ∀ v ∈ vs, v.2.depth ≤ n) :
    ∃ d, Fills (fun key => add n key ms) vs (blank ms) d ∧ finish ms d = .ok s := by
  induction ms generalizing vs with
  | nil =>
    cases h
    exact ⟨(), .nil (), rfl⟩
  | cons name value absent rest ih =>
    obtain ⟨hnew, hnames⟩ := List.nodup_cons.1 hnames
    have hne : ∀ {vs' : List (String × Json)}, streamed.ReadsMembers rest vs' s.2 →
        ∀ v ∈ vs', name ≠ v.1 :=
      fun hrest v hv heq => hnew (heq ▸ name_mem_of_readsMembers hrest v hv)
    rcases h with ⟨v, vs', rfl, hread, hrest⟩ | ⟨habsent, hrest⟩
    · rw [List.forall_mem_cons] at hn
      obtain ⟨d, hfills, hfinish⟩ := ih hnames hrest hn.2
      have hfirst : Reader.Reads (add n name (.cons name value absent rest) (none, blank rest)) v
          (some s.1, blank rest) := by
        rw [add_self]
        exact (hread n hn.1).map fun a => (some a, blank rest)
      refine ⟨(some s.1, d), .cons hfirst (fills_rest hfills (hne hrest)), ?_⟩
      · simp only [finish, Option.some_or, hfinish]
        rfl
    · obtain ⟨d, hfills, hfinish⟩ := ih hnames hrest hn
      refine ⟨(none, d), fills_rest hfills (hne hrest), ?_⟩
      simp only [finish, Option.none_or, habsent, hfinish]
      rfl

/-- A record has the values of the draft that it was made of, and others stand for what is missing. -/
theorem acceptsMembers_of_finish {ms : Members Nested σ} {d : Draft ms} {s : σ}
    (hd : DraftAccepts n ms d) (h : finish ms d = .ok s) : streamed.AcceptsMembers n ms s := by
  induction ms with
  | nil => trivial
  | cons name value absent rest ih =>
    rw [finish] at h
    split at h
    · next a ha =>
      obtain ⟨s', hs', rfl⟩ := map_eq_ok_iff.1 h
      refine ⟨?_, ih hd.2 hs'⟩
      rcases Option.or_eq_some_iff.1 ha with hread | ⟨_, habsent⟩
      · exact .inl (hd.1 a hread)
      · exact .inr habsent
    · cases h

end

/-! ### Kinds -/

/-- A value that is read by the name of a kind is read in the way of one of the kinds. -/
theorem yields_named {α : Type} {way : Kind Nested α → Reader α} {ks : List (Kind Nested α)}
    {P : α → Prop} (h : ∀ k ∈ ks, Yields (way k) P) (name : String) : Yields (named way ks name) P := by
  induction ks with
  | nil => exact yields_malformed
  | cons k ks ih =>
    rw [List.forall_mem_cons] at h
    exact yields_ite (fun _ => h.1) fun _ => ih h.2

/-- What is read as a value of one of several kinds is of one of these kinds. -/
theorem yields_kinds {α : Type} (ks : List (Kind Nested α)) (n : Nat) :
    Yields (kinds ks n) fun a => ∃ k ∈ ks, streamed.AcceptsKind n k a := by
  refine yields_bind fun c => yields_ite (fun _ => yields_bind fun name => ?_) fun _ => ?_
  · -- a name alone
    refine yields_named (fun k hk => ?_) name
    cases k with
    | bare name a => exact yields_pure ⟨_, hk, rfl⟩
    | contents name value make => exact yields_malformed
  · -- a name or contents behind a bracket, if one may be opened
    refine yields_ite (fun _ => ?_) fun _ => yields_malformed
    cases n with
    | zero => exact yields_malformed
    | succ m =>
      refine yields_bind fun _ => yields_bind fun name => yields_bind fun _ => Yields.bind ?_
        fun a ha => yields_bind fun _ => yields_pure ha
      refine yields_named (fun k hk => ?_) name
      cases k with
      | bare name a => exact yields_bind fun _ => yields_pure ⟨_, hk, rfl⟩
      | contents name value make =>
        exact (yields_accepts (value m)).map fun c hc => ⟨_, hk, m, c, rfl, hc, rfl⟩

/-! ### Whole texts -/

section

variable {α β : Type} {f : α → Except Error β} {value : Nested α} {text : String}

/-- A value that was read from a text is checked with the same blanks behind it. -/
theorem read_check {a : α} (h : Reader.read value text = .ok a) :
    Reader.read (check f value) text = Refusal.check (f a) := by
  obtain ⟨rest, hrun, hblank⟩ := read_eq_ok_iff.1 h
  rw [Reader.read, check, run_bind_ok hrun]
  cases f a with
  | error e => rfl
  | ok b =>
    show (if _ then _ else _) = _
    rw [if_pos hblank]
    rfl

theorem run_check {b : β} {n : Nat} {cs rest : List Char}
    (h : (check f value n).run cs = .ok (b, rest)) :
    ∃ a, (value n).run cs = .ok (a, rest) ∧ f a = .ok b := by
  rw [check, StateT.run_bind, bind_eq_ok_iff] at h
  obtain ⟨⟨a, rest'⟩, ha, hcheck⟩ := h
  dsimp only at hcheck
  cases hf : f a with
  | error e =>
    rw [hf] at hcheck
    cases hcheck
  | ok b' =>
    rw [hf] at hcheck
    cases hcheck
    exact ⟨a, ha, hf⟩

end

/-- **Lawful.** Readers from left to right do what any library is known to do. -/
theorem streamed_lawful : streamed.Lawful where
  lowercase_eq _ := rfl
  writeInteger_eq _ := rfl
  writeList_eq _ := rfl
  writePair_eq _ _ := rfl
  writeMap_eq _ := rfl
  writeRecord_eq _ := rfl
  writeBare_eq _ := rfl
  writeContents_eq _ _ := rfl
  reads_integer v _ _ := Reader.reads_integer v
  reads_list h n hn := by
    obtain ⟨k, rfl, hk⟩ := depth_array_le_iff.1 hn
    exact Reader.reads_list (((List.forall₂_and_left _ _).2 ⟨hk, h⟩).imp fun v a hv => hv.2 k hv.1)
  reads_pair hv hw n hn := by
    obtain ⟨k, rfl, hk⟩ := depth_array_le_iff.1 hn
    simp only [List.forall_mem_cons] at hk
    exact Reader.reads_pair (hv k hk.1) (hw k hk.2.1)
  reads_entries hkeys h n hn := by
    obtain ⟨k, rfl, hk⟩ := depth_object_le_iff.1 hn
    refine Reader.reads_entries hkeys (((List.forall₂_and_left _ _).2 ⟨hk, h⟩).imp fun m e hm => ?_)
    exact ⟨hm.2.1, hm.2.2 k hm.1⟩
  reads_record hnames h n hn := by
    obtain ⟨k, rfl, hk⟩ := depth_object_le_iff.1 hn
    obtain ⟨d, hfills, hfinish⟩ := exists_fills hnames h hk
    exact Reader.reads_record hfills hfinish
  reads_kinds {_ ks k v a} hnames hk h n hn := by
    cases k with
    | bare name b =>
      obtain ⟨rfl, rfl⟩ := h
      exact reads_bare (named_of_mem hnames hk)
    | contents name value make =>
      obtain ⟨w, c, rfl, hread, rfl⟩ := h
      obtain ⟨m, rfl, hm⟩ := depth_object_le_iff.1 hn
      exact reads_behind (named_of_mem hnames hk) ((hread m (hm _ List.mem_cons_self)).map make)
  reads_check h hf n hn rest hrest := by
    show (check _ _ n).run _ = _
    rw [check, run_bind_ok (h n hn rest hrest), hf]
    rfl
  accepts_list h := yields_list _ _ h
  accepts_pair h := yields_pair _ _ _ h
  accepts_entries h := yields_entries _ _ _ h
  accepts_record h := by
    obtain ⟨m, hm, d, hd, hfinish⟩ := yields_record _ _ h
    exact ⟨m, hm, acceptsMembers_of_finish hd hfinish⟩
  accepts_kinds h := yields_kinds _ _ _ h
  accepts_check := by
    rintro _ _ f r b n ⟨cs, rest, hrun⟩
    obtain ⟨a, ha, hf⟩ := run_check hrun
    exact ⟨a, ⟨cs, rest, ha⟩, hf⟩
  fromText_toText h hdepth := Reads.read_eq (h maxBrackets hdepth)
  accepts_of_fromText h := by
    obtain ⟨rest, hrun, _⟩ := read_eq_ok_iff.1 h
    exact ⟨_, rest, hrun⟩
  fromText_check _ _ _ _ h := read_check h
  fromText_of_check h := by
    obtain ⟨rest, hrun, hblank⟩ := read_eq_ok_iff.1 h
    obtain ⟨a, ha, hf⟩ := run_check hrun
    exact ⟨a, read_eq_ok_iff.2 ⟨rest, ha, hblank⟩, hf⟩

/-! ### Trees -/

section

variable {α β : Type} {n : Nat}

/-- What is read as a pair depends on how its items are read one bracket further inside. -/
theorem pair_congr {first first' : Nested α} {second second' : Nested β}
    (h : ∀ m, n = m + 1 → first m = first' m ∧ second m = second' m) :
    pair first second n = pair first' second' n := by
  cases n with
  | zero => rfl
  | succ m =>
    obtain ⟨hfirst, hsecond⟩ := h m rfl
    simp only [pair, nest, hfirst, hsecond]

/-- What is read as one of several kinds depends on what stands behind their names one bracket further
    inside. -/
theorem kinds_congr {ks ks' : List (Kind Nested α)} (halone : named alone ks = named alone ks')
    (hbehind : ∀ m, n = m + 1 → named (behind m) ks = named (behind m) ks') :
    kinds ks n = kinds ks' n := by
  cases n with
  | zero => simp only [kinds, nest, halone]
  | succ m => simp only [kinds, nest, halone, hbehind m rfl]

/-- **Trees.** Trees inside a tree are read with two brackets less, and with fewer than two there are
    none inside. So a reader of trees by recursion on the brackets refers to itself. -/
theorem tree_eq_kinds (kindsOf : Nested α → List (Kind Nested α))
    (halone : ∀ r r', named alone (kindsOf r) = named alone (kindsOf r'))
    (hbehind : ∀ (r r' : Nested α) (m : Nat), pair r r m = pair r' r' m →
      named (behind m) (kindsOf r) = named (behind m) (kindsOf r'))
    {tree : Nested α} (hzero : tree 0 = kinds (kindsOf fun _ => malformed) 0)
    (hone : tree 1 = kinds (kindsOf fun _ => malformed) 1)
    (htree : ∀ n, tree (n + 2) = kinds (kindsOf fun _ => tree n) (n + 2)) :
    tree = kinds (kindsOf tree) := by
  have hcongr {r r' : Nested α} {n : Nat} (h : ∀ m, n = m + 2 → r m = r' m) :
      kinds (kindsOf r) n = kinds (kindsOf r') n := by
    refine kinds_congr (halone r r') ?_
    rintro m rfl
    exact hbehind r r' m (pair_congr fun k hk => ⟨h k (hk ▸ rfl), h k (hk ▸ rfl)⟩)
  funext n
  rcases n with _ | _ | n
  · exact hzero.trans (hcongr fun m hm => absurd hm (by omega))
  · exact hone.trans (hcongr fun m hm => absurd hm (by omega))
  · refine (htree n).trans (hcongr fun m hm => ?_)
    rw [Nat.add_right_cancel hm]

end

/-- The readers of trees, which refer to themselves. -/
def streamingTrees : TreeReaders streaming where
  predicates := Predicate.reader
  policies := Policy.reader
  predicates_eq := by
    refine tree_eq_kinds (Predicate.kinds streaming) (fun _ _ => rfl) ?_ rfl rfl fun _ => rfl
    intro r r' m hpair
    funext name
    simp only [Predicate.kinds, named, Kind.name, behind, hpair]
    rfl
  policies_eq := by
    refine tree_eq_kinds (Policy.kinds streaming Predicate.reader) (fun _ _ => rfl) ?_ rfl rfl
      fun _ => rfl
    intro r r' m hpair
    funext name
    simp only [Policy.kinds, named, Kind.name, behind, hpair]
    rfl

end Json

end SlicePolicy
