import ResponseCache.Directive.Request
import ResponseCache.Directive.Response
import ResponseCache.Message.Basic
import ResponseCache.Time.HeaderDate

/-!
# The exchange under judgement

Whether a response may be kept, and how long it stays fresh, depends on some headers of the request
and of the response. They are read once, in a fixed order, and the first malformed one makes the
whole exchange malformed.
-/

namespace ResponseCache

/-- The parts of a request and its response that are judged. -/
structure Exchange where
  method : Method
  requestHeaders : Headers
  status : Status
  responseHeaders : Headers

/-- An exchange with its caching headers read. -/
structure Assessment where
  method : Method
  status : Status
  request : RequestDirectives
  response : ResponseDirectives
  expires : Option HeaderDate
  date : Option Instant
  lastModified : Option Instant
  now : Instant
  /-- When the response was received: now for a live response, the time of writing for a kept
  one. -/
  receivedAt : Instant

namespace Exchange

/-- The text of a header value, which must be visible ASCII. -/
def visible (label : String) (v : HeaderValue) : Except HeaderFault (List Char) :=
  match v.visible? with
  | some s => .ok s
  | none => .error (.notVisible label)

/-- The text of the first value under a name, if there is one. -/
def firstText (h : Headers) (name : HeaderName) (label : String) :
    Except HeaderFault (Option (List Char)) :=
  match h.first? name with
  | some v => (visible label v).map some
  | none => .ok none

/-- Texts as one list with commas between them. An empty text in front leaves no comma. -/
def joinLines (lines : List (List Char)) : List Char :=
  lines.foldl (fun sofar line => if sofar.isEmpty then line else sofar ++ [',', ' '] ++ line) []

def cacheControl (h : Headers) : Except HeaderFault (List Char) := do
  let lines ← (h.values .cacheControl).mapM (visible "Cache-Control")
  return joinLines lines

/-- What the date header of a name says. -/
def dateHeader (h : Headers) (name : HeaderName) (label : String) (sentinels : Bool) :
    Except HeaderFault (Option HeaderDate) := do
  HeaderDate.read label (← firstText h name label) sentinels

/-- The exchange with its caching headers read. -/
def assess (x : Exchange) (now receivedAt : Instant) : Except HeaderFault Assessment := do
  let request ← RequestDirectives.ofText (← cacheControl x.requestHeaders)
  let response ← ResponseDirectives.ofText (← cacheControl x.responseHeaders)
  let expires ← dateHeader x.responseHeaders .expires "Expires" true
  let date ← dateHeader x.responseHeaders .date "Date" false
  let lastModified ← dateHeader x.responseHeaders .lastModified "Last-Modified" false
  return {
    method := x.method
    status := x.status
    request := request
    response := response
    expires := expires
    date := date.bind HeaderDate.instant?
    lastModified := lastModified.bind HeaderDate.instant?
    now := now
    receivedAt := receivedAt }

end Exchange

namespace Assessment

/-- When the origin made the response: its `Date`, or the time of receipt without one. -/
def originDate (a : Assessment) : Instant :=
  a.date.getD a.receivedAt

end Assessment

end ResponseCache
