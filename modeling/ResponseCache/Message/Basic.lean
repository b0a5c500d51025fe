import ResponseCache.Message.Headers
import ResponseCache.Message.Method
import ResponseCache.Message.Status
import ResponseCache.Message.Uri

/-!
# Requests and responses
-/

namespace ResponseCache

/-- The protocol version of a response. -/
inductive Version where
  | http09 | http10 | http11 | http2 | http3
deriving DecidableEq, Repr

namespace Version

def name : Version → String
  | http09 => "HTTP/0.9"
  | http10 => "HTTP/1.0"
  | http11 => "HTTP/1.1"
  | http2 => "HTTP/2.0"
  | http3 => "HTTP/3.0"

/-- The version of a name. The last two versions have a name without a minor number too. -/
def ofName? (name : String) : Option Version :=
  if name = "HTTP/0.9" then some http09
  else if name = "HTTP/1.0" then some http10
  else if name = "HTTP/1.1" then some http11
  else if name = "HTTP/2.0" ∨ name = "HTTP/2" then some http2
  else if name = "HTTP/3.0" ∨ name = "HTTP/3" then some http3
  else none

end Version

/-- A request with its whole body. -/
structure Request where
  method : Method
  uri : Uri
  headers : Headers
  body : Bytes
deriving DecidableEq

/-- A response with its whole body. -/
structure Response where
  version : Version
  status : Status
  headers : Headers
  body : Bytes
deriving DecidableEq

end ResponseCache
