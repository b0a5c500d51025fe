import ResponseCache.Decimal.Natural
import ResponseCache.Text.Blank
import ResponseCache.Text.Case

/-!
# Readers

A reader takes what it understands from the start of a text and leaves the rest, or fails. The
readers here take blanks, given characters and words, and numbers.
-/

namespace ResponseCache.Text

/-- A reader of an `α` from the start of a text. -/
abbrev Reader := StateT (List Char) Option

namespace Reader

/-- Takes the blanks that come next, if any. -/
def blanks : Reader Unit :=
  modify trimStart

/-- Takes the blanks that come next, at least one. -/
def someBlanks : Reader Unit := do
  let s ← get
  guard (s.head?.any isBlank)
  set (trimStart s)

def char (c : Char) : Reader Unit := do
  match ← get with
  | d :: rest => if d = c then set rest else failure
  | [] => failure

def chars : List Char → Reader Unit
  | [] => pure ()
  | c :: cs => do char c; chars cs

/-- Takes the given letters in either case. -/
def letters (word : List Char) : Reader Unit := do
  match dropLead? word (← get) with
  | some rest => set rest
  | none => failure

/-- Takes the first word of a list that comes next, in either case, and answers its value. -/
def oneOf {α : Type} : List (List Char × α) → Reader α
  | [] => failure
  | (word, a) :: words => (do letters word; pure a) <|> oneOf words

/-- Takes the digits that come next, at most `most` of them, which must be at least `least`. -/
def digitsUpTo (least most : Nat) : Reader (List Char) := do
  let s ← get
  let ds := (s.takeWhile Decimal.isDigit).take most
  guard (least ≤ ds.length)
  set (s.drop ds.length)
  return ds

/-- Takes all the digits that come next, which must be at least `least`. -/
def allDigits (least : Nat) : Reader (List Char) := do
  let s ← get
  let ds := s.takeWhile Decimal.isDigit
  guard (least ≤ ds.length)
  set (s.dropWhile Decimal.isDigit)
  return ds

/-- Takes a number of at most `most` digits, at least one. -/
def number (most : Nat) : Reader Nat :=
  Decimal.value <$> digitsUpTo 1 most

/-- Takes a number of exactly `width` digits. -/
def fixedNumber (width : Nat) : Reader Nat :=
  Decimal.value <$> digitsUpTo width width

/-- What a reader takes from a whole text, if it leaves nothing. -/
def all {α : Type} (r : Reader α) (s : List Char) : Option α := do
  let (a, rest) ← r.run s
  guard rest.isEmpty
  return a

end Reader

end ResponseCache.Text
