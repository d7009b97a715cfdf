namespace SlicePolicy.Text

/-!
# Decimal numerals

Numbers are written in base ten without leading zeros; a minus sign stands before a negative one.
-/

/-- The decimal digits of a natural number. -/
def digits (n : Nat) : List Char := Nat.toDigits 10 n

/-- A natural number in base ten. -/
def natural (n : Nat) : String := String.ofList (digits n)

/-- An integer in base ten. -/
def integer (i : Int) : String :=
  if i < 0 then "-" ++ natural i.natAbs else natural i.natAbs

end SlicePolicy.Text
