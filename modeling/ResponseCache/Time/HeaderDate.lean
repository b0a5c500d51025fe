import ResponseCache.Failure
import ResponseCache.Time.HttpDate.Parse

/-!
# Date headers

The value of a header that holds a date. `Expires` may say `0` or `-1` instead, which means that the
response has expired already.
-/

namespace ResponseCache

/-- What a date header says. -/
inductive HeaderDate where
  | instant (t : Instant)
  | alreadyExpired
deriving DecidableEq

namespace HeaderDate

def instant? : HeaderDate → Option Instant
  | instant t => some t
  | alreadyExpired => none

/-- What the value of a date header says. An absent or blank value says nothing; the sentinels `0`
and `-1` count only where `sentinels` allows them. -/
def read (header : String) (value : Option (List Char)) (sentinels : Bool) :
    Except HeaderFault (Option HeaderDate) :=
  let value := Text.trim (value.getD [])
  if value.isEmpty then .ok none
  else if sentinels ∧ (value = ['0'] ∨ value = ['-', '1']) then .ok (some alreadyExpired)
  else
    match HttpDate.parse? value with
    | some t => .ok (some (instant t))
    | none => .error (.badDate header (String.ofList value))

end HeaderDate

end ResponseCache
