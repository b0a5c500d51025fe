import ResponseCache.Json.Number

/-!
# JSON tokens

The reader of tokens takes one character at a time. Between tokens it skips blanks; words and
numbers run as far as their characters go and are checked when they end; a string collects code
units, which become characters when it ends.
-/

namespace ResponseCache.Json

/-- A token of JSON. -/
inductive Token where
  | leftBrace | rightBrace | leftBracket | rightBracket | colon | comma
  | null
  | bool (value : Bool)
  | number (value : Number)
  | string (value : Option (List Char))

namespace Token

def ofWord? (word : List Char) : Option Token :=
  if word = ['n', 'u', 'l', 'l'] then some .null
  else if word = ['t', 'r', 'u', 'e'] then some (.bool true)
  else if word = ['f', 'a', 'l', 's', 'e'] then some (.bool false)
  else none

def ofPunctuation? : Char → Option Token
  | '\x7b' => some .leftBrace
  | '\x7d' => some .rightBrace
  | '[' => some .leftBracket
  | ']' => some .rightBracket
  | ':' => some .colon
  | ',' => some .comma
  | _ => none

/-- Whether `u` is the first of two units that make one character. -/
def isHighSurrogate (u : Nat) : Bool :=
  0xd800 ≤ u && u < 0xdc00

/-- Whether `u` is the second of two units that make one character. -/
def isLowSurrogate (u : Nat) : Bool :=
  0xdc00 ≤ u && u < 0xe000

/-- The characters that code units write: a high surrogate and the low one after it make one
character, and neither stands alone. -/
def textOfUnits? : List Nat → Option (List Char)
  | [] => some []
  | u :: v :: us =>
    if isHighSurrogate u then
      if isLowSurrogate v then
        (textOfUnits? us).map (Char.ofNat (0x10000 + (u - 0xd800) * 0x400 + (v - 0xdc00)) :: ·)
      else none
    else if isLowSurrogate u then none
    else (textOfUnits? (v :: us)).map (Char.ofNat u :: ·)
  | [u] => if isHighSurrogate u || isLowSurrogate u then none else some [Char.ofNat u]

/-- The value of a hexadecimal digit. -/
def hexDigit? (c : Char) : Option Nat :=
  if '0' ≤ c ∧ c ≤ '9' then some (c.toNat - 48)
  else if 'a' ≤ c ∧ c ≤ 'f' then some (c.toNat - 87)
  else if 'A' ≤ c ∧ c ≤ 'F' then some (c.toNat - 55)
  else none

/-- The unit that a backslash and one character write. -/
def escape? : Char → Option Nat
  | '"' => some 0x22
  | '\\' => some 0x5c
  | '/' => some 0x2f
  | 'b' => some 8
  | 'f' => some 12
  | 'n' => some 10
  | 'r' => some 13
  | 't' => some 9
  | _ => none

def isSeparator (c : Char) : Bool :=
  c == ' ' || c == '\t' || c == '\n' || c == '\r'

def isNumeric (c : Char) : Bool :=
  Decimal.isDigit c || c == '-' || c == '+' || c == '.' || c == 'e' || c == 'E'

/-- Where the reader stands. What it has collected comes last first. -/
inductive State where
  | between
  | word (letters : List Char)
  | number (chars : List Char)
  | string (units : List Nat)
  | escaped (units : List Nat)
  /-- In the digits of a unit given by number, `left` of them to come. -/
  | unit (units : List Nat) (left value : Nat)

/-- The tokens of a text, read from a state on. -/
def read? : State → List Char → Option (List Token)
  | .between, [] => some []
  | .word w, [] => do return [← ofWord? w.reverse]
  | .number n, [] => do return [.number (← Number.ofChars? n.reverse)]
  | .string _, [] => none
  | .escaped _, [] => none
  | .unit .., [] => none
  | .between, c :: s =>
    if isSeparator c then read? .between s
    else if c = '"' then read? (.string []) s
    else if Decimal.isDigit c || c == '-' then read? (.number [c]) s
    else if c.isAlpha then read? (.word [c]) s
    else do return (← ofPunctuation? c) :: (← read? .between s)
  | .word w, c :: s =>
    if c.isAlpha then read? (.word (c :: w)) s
    else do
      let t ← ofWord? w.reverse
      if isSeparator c then return t :: (← read? .between s)
      else return t :: (← ofPunctuation? c) :: (← read? .between s)
  | .number n, c :: s =>
    if isNumeric c then read? (.number (c :: n)) s
    else do
      let t := Token.number (← Number.ofChars? n.reverse)
      if isSeparator c then return t :: (← read? .between s)
      else return t :: (← ofPunctuation? c) :: (← read? .between s)
  | .string us, c :: s =>
    if c = '"' then do return .string (textOfUnits? us.reverse) :: (← read? .between s)
    else if c = '\\' then read? (.escaped us) s
    else if c.toNat < 0x20 then none
    else read? (.string (c.toNat :: us)) s
  | .escaped us, c :: s =>
    if c = 'u' then read? (.unit us 4 0) s
    else do read? (.string ((← escape? c) :: us)) s
  | .unit us left value, c :: s => do
    let value := value * 16 + (← hexDigit? c)
    if left ≤ 1 then read? (.string (value :: us)) s else read? (.unit us (left - 1) value) s

def ofChars? (s : List Char) : Option (List Token) :=
  read? .between s

end Token

end ResponseCache.Json
