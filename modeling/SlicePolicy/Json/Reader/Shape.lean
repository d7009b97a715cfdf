import SlicePolicy.Json.Reader.Skip

namespace SlicePolicy.Json.Reader

/-!
# Reading JSON texts: arrays, objects, records and kinds

The shapes that the wire formats are made of. Brackets may be nested 127 deep: the reader of a
shape is given the number of brackets that may still be opened.

* `Nested`, `nest` — readers that open brackets.
* `list`, `pair`, `entries` — arrays and maps.
* `record` — a record with named members.
* `kinds` — a value of one of several kinds.
* `read` — a whole text.
-/

/-- A reader that is given the number of brackets that may still be opened. -/
abbrev Nested (α : Type) : Type := Nat → Reader α

variable {α β κ δ : Type}

/-- Opens a bracket, if one more may be opened. -/
def nest (inner : Nested α) : Nested α
  | 0 => malformed
  | n + 1 => inner n

/-! ### Arrays -/

/-- At most so many items, separated by commas, and the closing bracket. -/
def items (item : Reader α) : Nat → Reader (List α)
  | 0 => malformed
  | n + 1 => do
    let a ← item
    let c ← next
    if c = ',' then return a :: (← items item n)
    else if c = ']' then return [a]
    else malformed

/-- An array of items. -/
def list (item : Nested α) : Nested (List α) :=
  nest fun left => do
    expect '['
    if (← peek) = some ']' then
      discard take
      return []
    else items (item left) (← get).length

/-- An array of exactly two items. -/
def pair (first : Nested α) (second : Nested β) : Nested (α × β) :=
  nest fun left => do
    expect '['
    let a ← first left
    expect ','
    let b ← second left
    expect ']'
    return (a, b)

/-! ### Objects -/

/-- At most so many members, and the closing bracket. What a member adds to the draft depends on
    its key. -/
def membersRest (member : String → δ → Reader δ) : Nat → δ → Reader δ
  | 0, _ => malformed
  | n + 1, draft => do
    let key ← string
    expect ':'
    let draft ← member key draft
    let c ← next
    if c = ',' then membersRest member n draft
    else if c = '\x7d' then return draft
    else malformed

/-- The members of an object after its opening bracket. -/
def members (member : String → δ → Reader δ) (draft : δ) : Reader δ := do
  if (← peek) = some '\x7d' then
    discard take
    return draft
  else membersRest member (← get).length draft

/-- A member of a map, whose name is that of a key, behind the entries that were found before it. -/
def entry (keys : List (String × κ)) (value : Reader β) (name : String) (found : List (κ × β)) :
    Reader (List (κ × β)) := do
  match keys.lookup name with
  | some k => return found ++ [(k, ← value)]
  | none => malformed

/-- The members of an object in their order, where the names are those of keys and the values are
    read in the same way. -/
def entries (keys : List (String × κ)) (value : Nested β) : Nested (List (κ × β)) :=
  nest fun left => do
    expect '\x7b'
    members (entry keys (value left)) []

/-! ### Records -/

/-- What was read of the members of a record so far. -/
def Draft : {σ : Type} → Members Nested σ → Type
  | _, .nil => Unit
  | _, .cons (α := α) _ _ _ rest => Option α × Draft rest

/-- Nothing was read yet. -/
def blank : {σ : Type} → (ms : Members Nested σ) → Draft ms
  | _, .nil => ()
  | _, .cons _ _ _ rest => (none, blank rest)

/-- Adds the value of a named member to a draft. A member that the record does not have is passed
    over, and none may be given twice. -/
def add (left : Nat) (key : String) : {σ : Type} → (ms : Members Nested σ) → Draft ms →
    Reader (Draft ms)
  | _, .nil, d => do
    skip
    return d
  | _, .cons name value _ rest, d =>
    if name = key then
      match d.1 with
      | some _ => malformed
      | none => (fun a => (some a, d.2)) <$> value left
    else (fun d' => (d.1, d')) <$> add left key rest d.2

/-- The values of the members in their order, as many as there are, and the closing bracket. -/
def values (left : Nat) (first : Bool) : {σ : Type} → (ms : Members Nested σ) → Reader (Draft ms)
  | _, .nil => expect ']'
  | _, .cons _ value _ rest => do
    if (← peek) = some ']' then
      discard take
      return (none, blank rest)
    else
      if !first then expect ','
      let a ← value left
      return (some a, ← values left false rest)

/-- The record of a draft, where something may stand for a member that was left out. -/
def finish : {σ : Type} → (ms : Members Nested σ) → Draft ms → Except Refusal σ
  | _, .nil, _ => .ok ()
  | _, .cons _ _ absent rest, d =>
    match d.1.or absent with
    | some a => (finish rest d.2).map (a, ·)
    | none => .error .malformed

/-- A record: an object with the given members, or an array of their values in order. -/
def record {σ : Type} (ms : Members Nested σ) : Nested σ :=
  nest fun left => do
    let c ← next
    let draft ←
      if c = '\x7b' then members (fun key => add left key ms) (blank ms)
      else if c = '[' then values left true ms
      else malformed
    finish ms draft

/-! ### Kinds -/

/-- Reads on in the way of the kind that has the name. -/
def named (way : Kind Nested α → Reader α) : List (Kind Nested α) → String → Reader α
  | [], _ => malformed
  | k :: ks, name => if k.name = name then way k else named way ks name

/-- A kind that stands there by its name alone, which has no contents. -/
def alone : Kind Nested α → Reader α
  | .bare _ a => return a
  | .contents _ _ _ => malformed

/-- What stands behind the name of a kind: its contents, or `null` for a kind without contents. -/
def behind (left : Nat) : Kind Nested α → Reader α
  | .bare _ a => null *> pure a
  | .contents _ value make => make <$> value left

/-- A value of one of several kinds: a name alone, or an object with the name as its only member. -/
def kinds (ks : List (Kind Nested α)) : Nested α := fun n => do
  let c ← peek
  if c = some '"' then named alone ks (← string)
  else if c = some '\x7b' then
    nest (fun left => do
      discard take
      let name ← string
      expect ':'
      let a ← named (behind left) ks name
      expect '\x7d'
      return a) n
  else malformed

/-- What a function makes of a value; it may refuse it. -/
def check (f : α → Except Error β) (value : Nested α) : Nested β := fun n => do
  let a ← value n
  Refusal.check (f a)

/-! ### Whole texts -/

/-- The number of brackets that may be open at once. -/
def maxBrackets : Nat := 127

/-- Reads a whole text; after the value there may be blanks only. -/
def read (value : Nested α) (text : String) : Except Refusal α := do
  let (a, rest) ← (value maxBrackets).run text.toList
  if (rest.dropWhile isBlank).isEmpty then return a else throw .malformed

end SlicePolicy.Json.Reader
