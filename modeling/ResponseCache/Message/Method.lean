import ResponseCache.Message.Token

/-!
# Methods

A request method is a token and its case matters: `get` is not `GET`.
-/

namespace ResponseCache

/-- A request method. -/
structure Method where
  name : String
  isToken : (name != "" && name.toList.all isTokenChar) = true
deriving DecidableEq

namespace Method

def of? (name : String) : Option Method :=
  if h : (name != "" && name.toList.all isTokenChar) = true then some ⟨name, h⟩ else none

/-! The methods that the cache knows by name. -/

def get : Method := ⟨"GET", by decide⟩
def head : Method := ⟨"HEAD", by decide⟩
def post : Method := ⟨"POST", by decide⟩
def put : Method := ⟨"PUT", by decide⟩
def delete : Method := ⟨"DELETE", by decide⟩
def connect : Method := ⟨"CONNECT", by decide⟩
def options : Method := ⟨"OPTIONS", by decide⟩
def trace : Method := ⟨"TRACE", by decide⟩
def patch : Method := ⟨"PATCH", by decide⟩

/-- The methods whose responses are never kept: they change the resource or describe the exchange.
-/
def uncacheable : List Method :=
  [put, delete, connect, options, trace, patch]

end Method

end ResponseCache
