import ResponseCache.Failure
import ResponseCache.Message.Basic

/-!
# Scripted origins

An origin that answers the first fetch by its first script, the second by its second, and so on; the
last script answers all further fetches.
-/

namespace ResponseCache.Scenario

/-- The answer to a fetch. -/
inductive Script where
  /-- A response, whose body tells the number of the fetch if none is given. -/
  | respond (version : Version) (status : Status) (headers : Headers) (body : Option Bytes)
  | fail (failure : Failure)

/-- The scripts of an origin, of which there is at least one. -/
structure Origin where
  first : List Script
  last : Script

namespace Origin

def ofList? (scripts : List Script) : Option Origin :=
  scripts.getLast?.map fun last => ⟨scripts.dropLast, last⟩

/-- The script of the `n`-th fetch, counted from 1. -/
def script (o : Origin) (n : Nat) : Script :=
  (o.first[n - 1]?).getD o.last

/-- The body of the `n`-th answer where the script gives none. -/
def standardBody (n : Nat) : Bytes :=
  Bytes.ofText ("fetch #" ++ toString n)

/-- The answer to the `n`-th fetch, counted from 1. -/
def answer (o : Origin) (n : Nat) : Except (Halt Failure) Response :=
  match o.script n with
  | .respond version status headers body =>
    .ok ⟨version, status, headers, body.getD (standardBody n)⟩
  | .fail failure => .error (.failed failure)

end Origin

end ResponseCache.Scenario
