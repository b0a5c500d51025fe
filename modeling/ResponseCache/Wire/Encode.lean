import ResponseCache.Message.Basic

/-!
# The wire form of a response

A complete response as octets: the status line, a line for each header value, a blank line and the
body. Lines end in carriage return and line feed.
-/

namespace ResponseCache.Wire

/-- The end of a line. -/
def lineEnd : Bytes := [13, 10]

/-- The status line without its end. A status without a registered reason ends in a blank. -/
def statusLine (r : Response) : Bytes :=
  Bytes.ofText (r.version.name ++ " " ++ r.status.codeText ++ " " ++ r.status.reason?.getD "")

/-- The line of one header value, without its end. -/
def headerLine (name : HeaderName) (value : HeaderValue) : Bytes :=
  name.bytes ++ [0x3a, 0x20] ++ value.bytes

def head (r : Response) : Bytes :=
  statusLine r ++ lineEnd ++ (r.headers.toList.flatMap fun h => headerLine h.1 h.2 ++ lineEnd)
    ++ lineEnd

/-- The wire form of a response. -/
def encode (r : Response) : Bytes :=
  head r ++ r.body

end ResponseCache.Wire
