import ResponseCache.Message.Basic
import ResponseCache.Text.Blank
import ResponseCache.Text.Case

/-!
# Keys

The key under which a response is kept: the method as it was received, a blank and the request
target. A request that says `Cache-Control: private` and carries a credential gets the credential
appended, so that entries of different principals never share a key. No other header has a part in
it.
-/

namespace ResponseCache

/-- The name of an entry in a store. -/
structure Key where
  text : String
deriving DecidableEq

namespace Key

/-- Whether a `Cache-Control` text is the one word `private`, in any case and with blanks around
it. -/
def isPrivate (cacheControl : List Char) : Bool :=
  Text.sameIgnoringCase (Text.trim cacheControl) "private".toList

/-- The credential that sets a private request apart, if there is one. -/
def partition? (cacheControl authorization : Option (List Char)) : Option (List Char) :=
  if cacheControl.any isPrivate then authorization.filter fun a => !a.isEmpty else none

def derive (method uri : String) (cacheControl authorization : Option (List Char)) : Key :=
  let credential :=
    match partition? cacheControl authorization with
    | some a => ' ' :: a
    | none => []
  ⟨String.ofList (method.toList ++ ' ' :: uri.toList ++ credential)⟩

/-- The key of a request. Header values that are not visible ASCII count as absent. -/
def ofRequest (r : Request) : Key :=
  derive r.method.name r.uri.text (r.headers.firstText? .cacheControl)
    (r.headers.firstText? .authorization)

end Key

end ResponseCache
