/-!
# Octets and text

Bodies and header values are octets. Text goes to octets in UTF-8; octets come back as text in three
ways: only if all of them are visible ASCII (`visible?`), only if they are well-formed UTF-8
(`ofUtf8?`), or always, with U+FFFD in place of each malformed stretch (`ofUtf8Lossy`).

The UTF-8 reader takes one octet at a time. Between the octets of a character it remembers how many
are still owed and the range of the next one, which excludes overlong forms, surrogates and code
points beyond U+10FFFF at the first octet that leads to one. A malformed stretch is therefore as
long as possible: it ends before the first octet that cannot continue it.
-/

namespace ResponseCache

abbrev Bytes := List UInt8

namespace Bytes

def ofText (s : String) : Bytes :=
  s.toList.flatMap String.utf8EncodeChar

/-- Whether two rows of octets are the same. The first two that differ settle it. -/
def same : Bytes → Bytes → Bool
  | [], [] => true
  | a :: as, b :: bs => a == b && same as bs
  | _, _ => false

theorem same_iff {as bs : Bytes} : as.same bs = true ↔ as = bs := by
  induction as generalizing bs with
  | nil => cases bs <;> simp [same]
  | cons a as ih => cases bs <;> simp [same, ih]

/-- Whether an octet is a visible ASCII character, a blank or a tab. -/
def isVisible (b : UInt8) : Bool :=
  b == 9 || (0x20 ≤ b && b ≤ 0x7e)

/-- The text of octets that are all visible ASCII, blank or tab. -/
def visible? (bytes : Bytes) : Option (List Char) :=
  if bytes.all isVisible then some (bytes.map fun b => Char.ofNat b.toNat) else none

/-- Where the UTF-8 reader stands. -/
inductive Utf8State where
  | start
  /-- Inside a character: `count` octets owed, the next one from `least` to `greatest`; `bits` are
  the bits read so far. -/
  | owed (count : Nat) (least greatest : UInt8) (bits : Nat)

/-- What an octet does to the UTF-8 reader. -/
inductive Utf8Step where
  | char (c : Char)
  | more (state : Utf8State)
  | refused

/-- The first octet of a character. -/
def utf8First (b : UInt8) : Utf8Step :=
  let n := b.toNat
  if b ≤ 0x7f then .char (Char.ofNat n)
  else if 0xc2 ≤ b ∧ b ≤ 0xdf then .more (.owed 1 0x80 0xbf (n - 0xc0))
  else if b = 0xe0 then .more (.owed 2 0xa0 0xbf 0)
  else if b = 0xed then .more (.owed 2 0x80 0x9f 13)
  else if 0xe1 ≤ b ∧ b ≤ 0xef then .more (.owed 2 0x80 0xbf (n - 0xe0))
  else if b = 0xf0 then .more (.owed 3 0x90 0xbf 0)
  else if 0xf1 ≤ b ∧ b ≤ 0xf3 then .more (.owed 3 0x80 0xbf (n - 0xf0))
  else if b = 0xf4 then .more (.owed 3 0x80 0x8f 4)
  else .refused

/-- One octet: the state after it, the character that it ends, or a refusal. -/
def utf8Step : Utf8State → UInt8 → Utf8Step
  | .start, b => utf8First b
  | .owed count least greatest bits, b =>
    if least ≤ b ∧ b ≤ greatest then
      let bits := bits * 64 + (b.toNat - 0x80)
      if count ≤ 1 then .char (Char.ofNat bits) else .more (.owed (count - 1) 0x80 0xbf bits)
    else .refused

/-- The text of the octets from a state on, if they are well formed. -/
def utf8Run? : Utf8State → Bytes → Option (List Char)
  | .start, [] => some []
  | .owed .., [] => none
  | state, b :: bytes =>
    match utf8Step state b with
    | .char c => (utf8Run? .start bytes).map (c :: ·)
    | .more next => utf8Run? next bytes
    | .refused => none

/-- The text of octets that are well-formed UTF-8. -/
def ofUtf8? (bytes : Bytes) : Option (List Char) :=
  utf8Run? .start bytes

def replacement : Char := '\ufffd'

/-- The text of the octets from a state on. An octet refused inside a character ends a malformed
stretch and starts anew; one refused between characters is a stretch of its own. -/
def utf8Lossy : Utf8State → Bytes → List Char
  | .start, [] => []
  | .owed .., [] => [replacement]
  | .start, b :: bytes =>
    match utf8First b with
    | .char c => c :: utf8Lossy .start bytes
    | .more next => utf8Lossy next bytes
    | .refused => replacement :: utf8Lossy .start bytes
  | .owed count least greatest bits, b :: bytes =>
    match utf8Step (.owed count least greatest bits) b with
    | .char c => c :: utf8Lossy .start bytes
    | .more next => utf8Lossy next bytes
    | .refused =>
      match utf8First b with
      | .char c => replacement :: c :: utf8Lossy .start bytes
      | .more next => replacement :: utf8Lossy next bytes
      | .refused => replacement :: replacement :: utf8Lossy .start bytes

/-- The text of the octets, with U+FFFD in place of each malformed stretch. -/
def ofUtf8Lossy (bytes : Bytes) : List Char :=
  utf8Lossy .start bytes

end Bytes

end ResponseCache
