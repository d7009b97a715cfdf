import SlicePolicy.Text.Decimal

namespace SlicePolicy

/-!
# JSON values and their texts

* `Json` — the values that the wire formats and reports are made of; members keep their order.
* `Json.compact` — the text without blanks.
* `Json.pretty` — the text with one item on each line, indented by two spaces.
* `Json.depth` — how deep the brackets of a value are nested.
-/

/-- A JSON value. -/
inductive Json
  | null
  | number (n : Int)
  | string (s : String)
  | array (items : List Json)
  | object (members : List (String × Json))
  deriving Inhabited

namespace Json

/-! ### Strings -/

/-- A code point below 256 as two hexadecimal digits. -/
def twoHex (n : Nat) : List Char := [Nat.digitChar (n / 16), Nat.digitChar (n % 16)]

/-- One character between the quotes: quotes, backslashes and controls are escaped. -/
def escapeChar (c : Char) : List Char :=
  match c with
  | '"' => ['\\', '"']
  | '\\' => ['\\', '\\']
  | '\x08' => ['\\', 'b']
  | '\x0c' => ['\\', 'f']
  | '\n' => ['\\', 'n']
  | '\r' => ['\\', 'r']
  | '\t' => ['\\', 't']
  | c => if c.toNat < 0x20 then ['\\', 'u', '0', '0'] ++ twoHex c.toNat else [c]

/-- A string with its quotes. -/
def quote (s : String) : String :=
  "\"" ++ String.ofList (s.toList.flatMap escapeChar) ++ "\""

/-! ### Compact texts -/

mutual

/-- The text without blanks. -/
def compact : Json → String
  | null => "null"
  | number n => Text.integer n
  | string s => quote s
  | array items => "[" ++ compactItems items ++ "]"
  | object members => "\x7b" ++ compactMembers members ++ "\x7d"

/-- The items of an array, separated by commas. -/
def compactItems : List Json → String
  | [] => ""
  | [v] => v.compact
  | v :: vs => v.compact ++ "," ++ compactItems vs

/-- The members of an object, separated by commas. -/
def compactMembers : List (String × Json) → String
  | [] => ""
  | [(k, v)] => quote k ++ ":" ++ v.compact
  | (k, v) :: ms => quote k ++ ":" ++ v.compact ++ "," ++ compactMembers ms

end

/-! ### Indented texts -/

/-- The start of a line at a nesting depth. -/
def lineStart (depth : Nat) : String := "\n" ++ String.ofList (List.replicate (2 * depth) ' ')

mutual

/-- The text with one item on each line, inside so many brackets. -/
def prettyAt (depth : Nat) : Json → String
  | null => "null"
  | number n => Text.integer n
  | string s => quote s
  | array [] => "[]"
  | array items => "[" ++ prettyItems (depth + 1) items ++ lineStart depth ++ "]"
  | object [] => "\x7b\x7d"
  | object members => "\x7b" ++ prettyMembers (depth + 1) members ++ lineStart depth ++ "\x7d"

/-- The items of an array, each on its line. -/
def prettyItems (depth : Nat) : List Json → String
  | [] => ""
  | [v] => lineStart depth ++ prettyAt depth v
  | v :: vs => lineStart depth ++ prettyAt depth v ++ "," ++ prettyItems depth vs

/-- The members of an object, each on its line. -/
def prettyMembers (depth : Nat) : List (String × Json) → String
  | [] => ""
  | [(k, v)] => lineStart depth ++ quote k ++ ": " ++ prettyAt depth v
  | (k, v) :: ms =>
    lineStart depth ++ quote k ++ ": " ++ prettyAt depth v ++ "," ++ prettyMembers depth ms

end

/-- The text with one item on each line. -/
def pretty (v : Json) : String := prettyAt 0 v

/-! ### Nesting -/

mutual

/-- The largest number of brackets that are open at once. -/
def depth : Json → Nat
  | null | number _ | string _ => 0
  | array items => 1 + depthItems items
  | object members => 1 + depthMembers members

/-- The depth of the deepest item. -/
def depthItems : List Json → Nat
  | [] => 0
  | v :: vs => max v.depth (depthItems vs)

/-- The depth of the deepest member. -/
def depthMembers : List (String × Json) → Nat
  | [] => 0
  | (_, v) :: ms => max v.depth (depthMembers ms)

end

theorem depthItems_le_iff {vs : List Json} {n : Nat} :
    depthItems vs ≤ n ↔ ∀ v ∈ vs, v.depth ≤ n := by
  induction vs with
  | nil => simp [depthItems]
  | cons v vs ih => rw [depthItems, Nat.max_le, ih, List.forall_mem_cons]

theorem depthMembers_le_iff {ms : List (String × Json)} {n : Nat} :
    depthMembers ms ≤ n ↔ ∀ m ∈ ms, m.2.depth ≤ n := by
  induction ms with
  | nil => simp [depthMembers]
  | cons m ms ih => rw [depthMembers, Nat.max_le, ih, List.forall_mem_cons]

theorem depth_array_le_iff {vs : List Json} {n : Nat} :
    (array vs).depth ≤ n ↔ ∃ k, n = k + 1 ∧ ∀ v ∈ vs, v.depth ≤ k := by
  simp only [← depthItems_le_iff, depth]
  constructor
  · intro h
    exact ⟨n - 1, by omega, by omega⟩
  · rintro ⟨k, rfl, h⟩
    omega

theorem depth_object_le_iff {ms : List (String × Json)} {n : Nat} :
    (object ms).depth ≤ n ↔ ∃ k, n = k + 1 ∧ ∀ m ∈ ms, m.2.depth ≤ k := by
  simp only [← depthMembers_le_iff, depth]
  constructor
  · intro h
    exact ⟨n - 1, by omega, by omega⟩
  · rintro ⟨k, rfl, h⟩
    omega

end Json

end SlicePolicy
