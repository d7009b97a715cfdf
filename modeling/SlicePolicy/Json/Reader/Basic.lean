import SlicePolicy.Json.Library

namespace SlicePolicy.Json

/-!
# Reading JSON texts: characters, strings and integers

A reader takes a value of some type off the front of a text. Texts are read once, from left to
right, and the first thing that is wrong decides how they are refused.

* `Reader` — readers of texts.
* `Reader.string`, `Reader.integer` — the values without parts.
-/

/-- A reader of values of type `α`. -/
abbrev Reader (α : Type) : Type := StateT (List Char) (Except Refusal) α

namespace Reader

variable {α : Type}

/-! ### Characters -/

/-- Refuses the text as malformed. -/
def malformed : Reader α := throw .malformed

/-- Whether a character may stand between the parts of a value. -/
def isBlank (c : Char) : Bool := c = ' ' || c = '\n' || c = '\t' || c = '\r'

/-- Passes over blanks. -/
def blanks : Reader Unit := modify fun cs => cs.dropWhile isBlank

/-- The next character after blanks, which stays unread. -/
def peek : Reader (Option Char) := do
  blanks
  return (← get).head?

/-- Takes one character as it stands. -/
def take : Reader Char := do
  match ← get with
  | c :: cs =>
    set cs
    return c
  | [] => malformed

/-- Takes the next character after blanks. -/
def next : Reader Char := do
  blanks
  take

/-- Takes the next character after blanks, which has to be the given one. -/
def expect (c : Char) : Reader Unit := do
  if (← next) = c then return () else malformed

/-- Takes the given characters as they stand. -/
def literal : List Char → Reader Unit
  | [] => return ()
  | c :: cs => do
    if (← take) = c then literal cs else malformed

/-- Takes the word `null`. -/
def null : Reader Unit := do
  blanks
  literal ['n', 'u', 'l', 'l']

/-! ### Strings -/

/-- The value of a hexadecimal digit. -/
def hexDigit? (c : Char) : Option Nat :=
  if c.isDigit then some (c.toNat - '0'.toNat)
  else if 'a' ≤ c ∧ c ≤ 'f' then some (c.toNat - 'a'.toNat + 10)
  else if 'A' ≤ c ∧ c ≤ 'F' then some (c.toNat - 'A'.toNat + 10)
  else none

/-- Takes one hexadecimal digit. -/
def hexDigit : Reader Nat := do
  match hexDigit? (← take) with
  | some n => return n
  | none => malformed

/-- Takes four hexadecimal digits. -/
def fourHex : Reader Nat := do
  let a ← hexDigit
  let b ← hexDigit
  let c ← hexDigit
  let d ← hexDigit
  return ((a * 16 + b) * 16 + c) * 16 + d

/-- The character of a numeric escape after its `u`. A character outside the basic plane is
    written as two escapes, neither of which may stand alone. -/
def numericEscape : Reader Char := do
  let high ← fourHex
  if 0xD800 ≤ high ∧ high < 0xDC00 then
    literal ['\\', 'u']
    let low ← fourHex
    if 0xDC00 ≤ low ∧ low < 0xE000 then
      return Char.ofNat (0x10000 + (high - 0xD800) * 0x400 + (low - 0xDC00))
    else malformed
  else if 0xDC00 ≤ high ∧ high < 0xE000 then malformed
  else return Char.ofNat high

/-- The character of a short escape. -/
def shortEscape? : Char → Option Char
  | '"' => some '"'
  | '\\' => some '\\'
  | '/' => some '/'
  | 'b' => some '\x08'
  | 'f' => some '\x0c'
  | 'n' => some '\n'
  | 'r' => some '\r'
  | 't' => some '\t'
  | _ => none

/-- One character of a string, or nothing at the closing quote. -/
def stringChar : Reader (Option Char) := do
  match ← take with
  | '"' => return none
  | '\\' =>
    match ← take with
    | 'u' => return some (← numericEscape)
    | c => match shortEscape? c with
      | some e => return some e
      | none => malformed
  | c => if c.toNat < 0x20 then malformed else return some c

/-- The rest of a string after its opening quote; it has at most the given number of characters. -/
def stringRest : Nat → Reader (List Char)
  | 0 => malformed
  | n + 1 => do
    match ← stringChar with
    | none => return []
    | some c => return c :: (← stringRest n)

/-- A string. -/
def string : Reader String := do
  expect '"'
  return String.ofList (← stringRest (← get).length)

/-! ### Integers -/

/-- The digits at the front of the text. -/
def digits : Reader (List Char) := do
  let cs ← get
  set (cs.dropWhile Char.isDigit)
  return cs.takeWhile Char.isDigit

/-- Whether a numeral goes on as a fraction or with an exponent. -/
def isFractional (rest : List Char) : Bool :=
  match rest with
  | c :: _ => c = '.' || c = 'e' || c = 'E'
  | [] => false

/-- The integer of a sign and digits; there is no leading zero, no negative zero, and it fits into
    64 bits. -/
def integerOf? (negative : Bool) (ds : List Char) : Option Value :=
  let n := Nat.ofDigitChars 10 ds 0
  let i : Int := if negative then -n else n
  -- no digits at all, a leading zero, or a negative zero
  if ds.isEmpty || (1 < ds.length && ds.head? = some '0') || (negative && n = 0) then none
  else if Int64.minValue.toInt ≤ i ∧ i ≤ Int64.maxValue.toInt then some (Int64.ofInt i)
  else none

/-- An integer. -/
def integer : Reader Value := do
  let negative := (← peek) = some '-'
  if negative then discard take
  let ds ← digits
  if isFractional (← get) then malformed
  else match integerOf? negative ds with
    | some v => return v
    | none => malformed

end Reader

end SlicePolicy.Json
