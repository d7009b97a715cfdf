namespace SlicePolicy.Text

/-!
# Lists in texts

Items are separated by a comma and a space; the two kinds of brackets say what is listed.
-/

/-- The items in square brackets: a sequence. -/
def bracketed (items : List String) : String := "[" ++ ", ".intercalate items ++ "]"

/-- The items in curly brackets: a set, or the entries of a map. -/
def braced (items : List String) : String := "\x7b" ++ ", ".intercalate items ++ "\x7d"

end SlicePolicy.Text
