import SlicePolicy.Error
import SlicePolicy.Json
import SlicePolicy.Location

namespace SlicePolicy.Json

/-!
# Libraries for JSON texts

Values are written as texts and read from texts by a library. It is told what the values of a type
consist of, shape by shape, and has a way to write and a way to read every shape. The wire formats are
the same for every library, so it is a parameter of them.

* `Refusal` — why a text is refused.
* `Members`, `Kind` — what a record consists of, and one of several kinds of values.
* `Library` — what a library provides.
-/

/-- Why a text is refused: it is not in the format, or it is and breaks a rule of the domain. -/
inductive Refusal
  | malformed
  | rejected (e : Error)
  deriving DecidableEq, Repr

/-- A result of the domain as a result of reading. -/
def Refusal.check {α : Type} : Except Error α → Except Refusal α
  | .ok a => .ok a
  | .error e => .error (.rejected e)

/-! ### Declarations of types -/

variable {Reader : Type → Type} {α : Type}

/-- The members of a record: their names, how they are read, and what stands for those that are left
    out. -/
inductive Members (Reader : Type → Type) : Type → Type 1
  | nil : Members Reader Unit
  | cons {α σ : Type} (name : String) (value : Reader α) (absent : Option α)
      (rest : Members Reader σ) : Members Reader (α × σ)

/-- The names of the members, in their order. -/
def Members.names : {σ : Type} → Members Reader σ → List String
  | _, .nil => []
  | _, .cons name _ _ rest => name :: rest.names

/-- One of the kinds of values that a type has: a value without contents, or all values that are made
    of some contents. -/
inductive Kind (Reader : Type → Type) (α : Type) : Type 1
  | bare (name : String) (value : α)
  | contents {γ : Type} (name : String) (contents : Reader γ) (make : γ → α)

/-- The name of the kind. -/
def Kind.name : Kind Reader α → String
  | .bare name _ => name
  | .contents name _ _ => name

/-! ### Libraries -/

/-- What a library provides. -/
structure Library where
  /-- The names of kinds where they are to be in lower case. -/
  lowercase : String → String
  writeInteger : Value → Json
  writeList : List Json → Json
  writePair : Json → Json → Json
  writeMap : List (String × Json) → Json
  writeRecord : List (String × Json) → Json
  /-- A kind without contents. -/
  writeBare : String → Json
  /-- A kind with contents. -/
  writeContents : String → Json → Json
  /-- The text of a document. -/
  toText : Json → String
  /-- Readers of values of a type. -/
  Reader : Type → Type
  integer : Reader Value
  list {α : Type} : Reader α → Reader (List α)
  pair {α β : Type} : Reader α → Reader β → Reader (α × β)
  /-- The entries of a map, with names for the keys. -/
  entries {κ α : Type} : List (String × κ) → Reader α → Reader (List (κ × α))
  record {σ : Type} : Members Reader σ → Reader σ
  kinds {α : Type} : List (Kind Reader α) → Reader α
  /-- What a function makes of the values that are read; it may refuse them. -/
  check {α β : Type} : (α → Except Error β) → Reader α → Reader β
  /-- The value that is read from a whole text. -/
  fromText {α : Type} : Reader α → String → Except Refusal α
  /-- How deep documents may be nested that are read. -/
  limit : Nat

namespace Library

variable (L : Library)

/-- What a function makes of the values that are read. -/
def map {α β : Type} (f : α → β) (r : L.Reader α) : L.Reader β := L.check (fun a => .ok (f a)) r

end Library

end SlicePolicy.Json
