import ResponseCache.Bytes

/-!
# Tokens

The characters of methods and header names: letters, digits and fifteen punctuation marks.
-/

namespace ResponseCache

/-- Whether `c` may stand in a token. -/
def isTokenChar (c : Char) : Bool :=
  c.isAlphanum || c == '!' || c == '#' || c == '$' || c == '%' || c == '&' || c == '\'' || c == '*'
    || c == '+' || c == '-' || c == '.' || c == '^' || c == '_' || c == '\x60' || c == '|'
    || c == '~'

/-- Whether `b` is the octet of a character that may stand in a token. -/
def isTokenByte (b : UInt8) : Bool :=
  b < 0x80 && isTokenChar (Char.ofNat b.toNat)

end ResponseCache
