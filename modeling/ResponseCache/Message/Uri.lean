/-!
# Request targets

The target of a request in normal form: without a fragment, with `http` and `https` in lower case,
and with `/` for an empty path after an authority. All else stays as it was written.
-/

namespace ResponseCache

/-- A request target in normal form. No target holds a blank or a control character before it. -/
structure Uri where
  text : String
  noBlank : (text != "" && text.toList.all fun c => 0x20 < c.toNat) = true
deriving DecidableEq

namespace Uri

/-- Whether `c` may stand in a scheme. -/
def isSchemeChar (c : Char) : Bool :=
  c.isAlphanum || c == '+' || c == '-' || c == '.'

/-- A scheme in normal form: only `http` and `https` ignore case. -/
def normalScheme (scheme : List Char) : List Char :=
  let lower := scheme.map Char.toLower
  if lower = ['h', 't', 't', 'p'] ∨ lower = ['h', 't', 't', 'p', 's'] then lower else scheme

/-- What follows the authority, in normal form. -/
def normalPath : List Char → List Char
  | '/' :: s => '/' :: s
  | s => '/' :: s

/-- The part of a target before its fragment, in normal form. A target without a scheme is a path,
an asterisk or an authority alone. -/
def normal (s : List Char) : List Char :=
  let scheme := s.takeWhile isSchemeChar
  match s.dropWhile isSchemeChar with
  | ':' :: '/' :: '/' :: rest =>
    let isAuthorityChar := fun c => !(c == '/' || c == '?')
    normalScheme scheme ++ [':', '/', '/'] ++ rest.takeWhile isAuthorityChar
      ++ normalPath (rest.dropWhile isAuthorityChar)
  | _ => s

/-- The target that a text names. -/
def of? (s : String) : Option Uri :=
  let text := String.ofList (normal (s.toList.takeWhile (· != '#')))
  if h : (text != "" && text.toList.all fun c => 0x20 < c.toNat) = true then
    some ⟨text, h⟩
  else none

end Uri

end ResponseCache
