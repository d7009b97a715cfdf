import SlicePolicy.Json.Reader.Basic

namespace SlicePolicy.Json.Reader

/-!
# Reading JSON texts: passing over values

A record may have members that mean nothing to it. `Reader.skip` passes over the value of such a
member, which has to be JSON but may have any shape and any depth.
-/

/-! ### Numerals -/

/-- Passes over digits, of which there has to be one. -/
def skipDigits : Reader Unit := do
  if (← digits).isEmpty then malformed else return ()

/-- Passes over an exponent, if there is one. -/
def skipExponent : Reader Unit := do
  match ← get with
  | c :: cs =>
    if c = 'e' || c = 'E' then
      set (match cs with
        | '+' :: r => r
        | '-' :: r => r
        | r => r)
      skipDigits
    else return ()
  | [] => return ()

/-- Passes over a numeral after its sign. -/
def skipNumber : Reader Unit := do
  let ds ← digits
  if ds.isEmpty || (1 < ds.length && ds.head? = some '0') then malformed
  match ← get with
  | '.' :: cs =>
    set cs
    skipDigits
    skipExponent
  | _ => skipExponent

/-! ### Strings -/

/-- Passes over one character of a string, and says whether it was the closing quote. What a
    numeric escape stands for does not matter. -/
def skipStringChar : Reader Bool := do
  match ← take with
  | '"' => return true
  | '\\' =>
    match ← take with
    | 'u' =>
      discard fourHex
      return false
    | c => if (shortEscape? c).isSome then return false else malformed
  | c => if c.toNat < 0x20 then malformed else return false

/-- Passes over the rest of a string of at most the given number of characters. -/
def skipStringRest : Nat → Reader Unit
  | 0 => malformed
  | n + 1 => do
    if ← skipStringChar then return () else skipStringRest n

/-- Passes over a string after its opening quote. -/
def skipString : Reader Unit := do
  skipStringRest (← get).length

/-! ### Values -/

mutual

/-- Passes over a value in at most the given number of steps. -/
def skipWithin : Nat → Reader Unit
  | 0 => malformed
  | n + 1 => do
    let c ← next
    if c = '"' then skipString
    else if c = '[' then
      if (← peek) = some ']' then discard take else skipItems n
    else if c = '\x7b' then
      if (← peek) = some '\x7d' then discard take else skipMembers n
    else if c = 'n' then literal ['u', 'l', 'l']
    else if c = 't' then literal ['r', 'u', 'e']
    else if c = 'f' then literal ['a', 'l', 's', 'e']
    else if c = '-' then skipNumber
    else if c.isDigit then
      -- the digit belongs to the numeral
      modify (c :: ·)
      skipNumber
    else malformed

/-- Passes over the items of an array and its closing bracket. -/
def skipItems : Nat → Reader Unit
  | 0 => malformed
  | n + 1 => do
    skipWithin n
    let c ← next
    if c = ',' then skipItems n else if c = ']' then return () else malformed

/-- Passes over the members of an object and its closing bracket. -/
def skipMembers : Nat → Reader Unit
  | 0 => malformed
  | n + 1 => do
    expect '"'
    skipString
    expect ':'
    skipWithin n
    let c ← next
    if c = ',' then skipMembers n else if c = '\x7d' then return () else malformed

end

/-- Passes over a value of any shape; every character needs at most two steps. -/
def skip : Reader Unit := do
  skipWithin (2 * (← get).length + 1)

end SlicePolicy.Json.Reader
