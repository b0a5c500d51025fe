import ResponseCache.Cache.Backend
import ResponseCache.Evaluation.Verdict

/-!
# One cache, one request

A cache answers a request in two parts. First it looks for a kept response (`start`): if it finds
one that may be served now, that is the answer. Otherwise the request goes on to the origin, and
when the answer comes back the cache may keep it (`settle`). What comes back from there is returned
as it is. There is one more way for the first part to end: an entry with more header names than a
collection has room for crashes the cache, and so does one that leaves the markers no room.
-/

namespace ResponseCache

/-- The parts of a request and a response to it that are judged. -/
def Request.exchange (r : Request) (response : Response) : Exchange where
  method := r.method
  requestHeaders := r.headers
  status := response.status
  responseHeaders := response.headers

namespace Marker

/-- Names the time of writing of a served response. -/
def storedAt : HeaderName := ⟨Bytes.ofText "x-httpcache-stored-at", by decide⟩

/-- Marks a served response. -/
def served : HeaderName := ⟨Bytes.ofText "x-httpcache", by decide⟩

/-- Names the tag of the storage that a served response comes from. -/
def origin : HeaderName := ⟨Bytes.ofText "x-httpcache-origin", by decide⟩

/-- The value of the mark. -/
def yes : HeaderValue := ⟨Bytes.ofText "true", by decide⟩

/-- What stands for a tag that no header can hold. -/
def unknown : HeaderValue := ⟨Bytes.ofText "unknown", by decide⟩

end Marker

/-- The headers of a served response: the kept ones and the three markers, if there is room. -/
def Headers.decorate? (h : Headers) (storedAt : Instant) (origin : String) : Option Headers := do
  let dated ←
    match HeaderValue.ofText? (String.ofList storedAt.httpDate) with
    | some v => h.append? Marker.storedAt v
    | none => some h
  let served ← dated.append? Marker.served Marker.yes
  served.append? Marker.origin ((HeaderValue.ofText? origin).getD Marker.unknown)

/-- A kept response as it is served, if there is room for the markers. -/
def Response.marked? (p : Response) (storedAt : Instant) (origin : String) : Option Response :=
  (p.headers.decorate? storedAt origin).map fun headers => { p with headers := headers }

namespace Cache

/-- What a lookup comes to. -/
inductive Finding where
  | serve (origin : String) (response : Response) (expiresAt : Instant)
  /-- There is nothing to serve. -/
  | pass (event : Event)
  | crash

namespace Finding

/-- What is reported of a lookup. -/
def event? : Finding → Option Event
  | serve origin _ expiresAt => some (.hit origin expiresAt)
  | pass event => some event
  | crash => none

def answer? : Finding → Option Response
  | serve _ response _ => some response
  | _ => none

end Finding

/-- What a lookup comes to that found `entry` in a storage of tag `origin`. -/
def consider (c : Config) (r : Request) (origin : String) (now : Instant) (entry : Entry) :
    Finding :=
  match entry.response r.method with
  | .error .crashed => .crash
  | .error (.failed fault) =>
    .pass (.lookupFailed ((Failure.codec fault).withKey (Key.ofRequest r)))
  | .ok response =>
    match (r.exchange response).assess now entry.storedAt with
    | .error fault => .pass (.validationFailed .lookup fault)
    | .ok a =>
      let v := a.verdict c
      if !v.isStorable then .pass (.miss .ineligible)
      else if a.freshness v.expiresAt = .stale then .pass (.miss .expired)
      else
        match response.marked? entry.storedAt origin with
        | some marked => .serve origin marked v.expiresAt
        | none => .crash

/-- What a lookup comes to, from the answer of the storage. -/
def find (c : Config) (r : Request) (origin : String) (now : Instant) :
    Except Failure Entry → Finding
  | .ok entry => consider c r origin now entry
  | .error failure =>
    if failure.kind = .expired then .pass (.miss .expired)
    else if failure.isMiss then .pass (.miss .notFound)
    else .pass (.lookupFailed failure)

/-- Whether a cache looks for a kept response at all: the first `Cache-Control` value of the request
decides, unless it is not visible ASCII. -/
def looksUp (c : Config) (r : Request) : Bool :=
  c.lookupPolicy.allowsLookup ((r.headers.firstText? .cacheControl).getD [])

/-- The first part of an answer. -/
structure Started (σ : Type) where
  storage : σ
  finding : Finding

namespace Started

variable {σ : Type}

def event? (s : Started σ) : Option Event :=
  s.finding.event?

def answer (s : Started σ) : Option Response :=
  s.finding.answer?

end Started

/-- Looks for a kept response. -/
def start {σ : Type} (b : Backend σ) (c : Config) (storage : σ) (r : Request) (now : Instant) :
    Started σ :=
  if looksUp c r then
    let (got, storage) := b.get storage (Key.ofRequest r) now
    ⟨storage, find c r (b.origin storage) now got⟩
  else ⟨storage, .pass .bypass⟩

/-- Whether a live response is to be kept. -/
inductive Admission where
  | write (entry : Entry) (expiresAt : Instant)
  | skip (event : Event)

/-- Whether the live response to a request is to be kept in a storage of tag `origin`. -/
def weigh (c : Config) (r : Request) (origin : String) (now : Instant) (response : Response) :
    Admission :=
  if !response.status.isCacheable then .skip (.storeSkipped (.status response.status))
  else
    match (r.exchange response).judge now now c with
    | .error fault => .skip (.validationFailed .store fault)
    | .ok v =>
      if v.isStorable then
        .write (Entry.ofResponse r.method r.uri.text now response origin) v.expiresAt
      else .skip (.storeSkipped (.ineligible v.reasons))

/-- The second part of an answer. -/
structure Settled (σ : Type) where
  storage : σ
  event : Event
  records : List LogRecord

/-- Keeps a live response if that is allowed. -/
def settle {σ : Type} (b : Backend σ) (c : Config) (storage : σ) (r : Request) (now : Instant)
    (response : Response) : Settled σ :=
  match weigh c r (b.origin storage) now response with
  | .skip event => ⟨storage, event, []⟩
  | .write entry expiresAt =>
    let reply := b.set storage (Key.ofRequest r) entry c.entryTtl now
    match reply.result with
    | .ok () => ⟨reply.state, .stored expiresAt, reply.records⟩
    | .error failure => ⟨reply.state, .storeFailed failure, reply.records⟩

end Cache

end ResponseCache
