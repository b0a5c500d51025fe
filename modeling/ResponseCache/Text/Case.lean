/-!
# Letter case

Header names, directive names and weekday names compare without regard to case, and only the letters
`A` to `Z` have one: every other character stands for itself.
-/

namespace ResponseCache.Text

/-- The text with `A` to `Z` replaced by `a` to `z`. -/
def lower (s : List Char) : List Char :=
  s.map Char.toLower

/-- Whether two texts are the same but for the case of `A` to `Z`. -/
def sameIgnoringCase (s t : List Char) : Bool :=
  lower s == lower t

/-- The rest of `s` after `lead`, when `s` starts with `lead` in any case. -/
def dropLead? : List Char → List Char → Option (List Char)
  | [], s => some s
  | _ :: _, [] => none
  | l :: lead, c :: s => if l.toLower == c.toLower then dropLead? lead s else none

end ResponseCache.Text
