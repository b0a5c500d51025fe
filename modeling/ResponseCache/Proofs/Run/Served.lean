import ResponseCache.Proofs.Run.Provenance
import ResponseCache.Proofs.Wire.RoundTrip

/-!
# What is served of what was written

Of a response that was written, a later hit gives version, status and header fields, with one value
more under each marker, whatever the response was. The body is another matter. The writer keeps it
as it came, but the reader cuts it to the response's own `Content-Length`, and nothing on the way to
a write compares the two. A response whose `Content-Length` is too large or is no number is reported
as written and can never be read back; one whose `Content-Length` is too small is served with a part
of its body. What is written can be served back unchanged exactly if its `Content-Length` fits.
-/

namespace ResponseCache

/-- The statuses that can be kept are statuses of responses with a body. -/
theorem Status.isBodiless_of_success {s : Status}
    (h : 200 ≤ s.code ∧ s.code < 300 ∧ s.code ≠ 204) : s.isBodiless = false := by
  have hinfo : ¬ s.code < 200 := by omega
  have hunmodified : ¬ s.code = 304 := by omega
  simp [isBodiless, hinfo, hunmodified, h.2.2]

/-- `q` is `p` as far as the head goes, served from a storage of tag `origin` where it was written
at `storedAt`: all header values are there in their order, and one more under each of the three
markers. -/
structure Response.ServedAs (p q : Response) (storedAt : Instant) (origin : String) : Prop where
  version : q.version = p.version
  status : q.status = p.status
  names : p.headers.fields.map HeaderField.name <+: q.headers.fields.map HeaderField.name
  values : ∃ date, HeaderValue.ofText? (String.ofList storedAt.httpDate) = some date
    ∧ ∀ name, q.headers.values name = p.headers.values name ++ Headers.markersUnder date origin name

/-- With its markers a response is served as it was, whatever body it is given. -/
theorem Response.servedAs_of_marked? {p q : Response} {body : Bytes} {storedAt : Instant}
    {origin : String} (h : ({ p with body := body } : Response).marked? storedAt origin = some q) :
    p.ServedAs q storedAt origin := by
  obtain ⟨headers, hheaders, rfl⟩ := Response.marked?_eq_some_iff.1 h
  exact ⟨rfl, rfl, Headers.names_of_decorate? hheaders, Headers.values_of_decorate? hheaders⟩

/-- What an entry of the wire form of `p` decodes to is `p` but for the body. -/
theorem Entry.exists_body {entry : Entry} {p p' : Response} {m : Method}
    (hwire : entry.wire = Wire.encode p) (h : entry.response m = .ok p') :
    ∃ body, p' = { p with body := body } := by
  rw [Entry.response, hwire, Wire.decode_encode, map_eq_ok_iff] at h
  obtain ⟨body, -, rfl⟩ := h
  exact ⟨body, rfl⟩

/-- An entry of the wire form of `p` crashes a cache only if the headers of `p` leave no room for
the markers. -/
theorem Cache.Overfull.capacity_le {c : Config} {r : Request} {now : Instant} {entry : Entry}
    {p : Response} (h : Cache.Overfull c r now entry) (hwire : entry.wire = Wire.encode p) :
    HeaderField.capacity ≤ p.headers.dressedLength := by
  cases h with
  | reading hread =>
    refine absurd ((Wire.decode_eq_crashed_iff _ r.method).2 hread) ?_
    rw [hwire]
    exact Wire.decode_encode_ne_crashed p r.method
  | marking hserved hfull =>
    obtain ⟨body, rfl⟩ := Entry.exists_body hwire hserved.decodes
    exact hfull

namespace Run

open Exchange

/-- What was written can be served back unchanged exactly if its `Content-Length`, where it has one,
is the length of its body. Let the last write under the key of `r'` have been of `p`, let a lookup
for `r'` at any later point of the run find its entry, and let the method not be `HEAD`. Then the
entry decodes to `p` exactly if the length fits, and decodes at all exactly if the length is a
number and the body has as many octets; and if `r'` is answered with a hit, the answer has version,
status and headers of `p` and the three markers, and it has the body of `p` exactly if the length
fits. -/
theorem served_back_iff (c : Config) (limits : Limits) (origin : String) (turns : List Turn)
    {r r' : Request} {p : Response} {stored e own : Instant} {entry : Entry}
    (hlast : (ofTurns c limits origin turns).lastWrite? (Key.ofRequest r')
      = some ⟨r, p, stored, e⟩)
    (hfound : ((ofTurns c limits origin turns).storage.lookup (Key.ofRequest r') own).1 = .ok entry)
    (hm : r'.method ≠ .head) :
    (entry.response r'.method = .ok p ↔ Wire.LengthFits p)
      ∧ ((∃ q, entry.response r'.method = .ok q) ↔ Wire.LengthCovered p)
      ∧ ∀ now tag e', ((ofTurns c limits origin turns).ask c now own r').event?
          = some (.hit tag e') →
        ∃ q, ((ofTurns c limits origin turns).ask c now own r').answer = some q
          ∧ p.ServedAs q stored origin ∧ (q.body = p.body ↔ Wire.LengthFits p) := by
  have hu := Accounted.ofTurns c limits origin turns
  obtain ⟨w, hkept⟩ := hu.kept_of_lookup hlast hfound
  have hs : p.status.isBodiless = false := Status.isBodiless_of_success hkept.admissible.success
  have hstored : entry.storedAt = stored := by
    rw [hkept.entry_eq]
    rfl
  have hresponse : entry.response r'.method = Wire.decode (Wire.encode p) r'.method :=
    hkept.response_eq r'.method
  refine ⟨?_, ?_, fun now tag e' hhit => ?_⟩
  · rw [hresponse]
    exact Wire.decode_encode_eq_ok_iff hm hs
  · rw [hresponse]
    exact Wire.exists_decode_encode_iff hm hs
  · obtain ⟨entry', p', w', q, hget, hserved, -, htag, hmarked, hanswer⟩ :=
      Cache.servable_of_hit hhit
    obtain rfl : entry = entry' := Except.ok.inj (hfound.symm.trans hget)
    have hdecode : Wire.decode (Wire.encode p) r'.method = .ok p' :=
      hresponse.symm.trans hserved.decodes
    have hbody := Wire.body_decode_encode_iff hm hs hdecode
    rw [Wire.decode_encode, map_eq_ok_iff] at hdecode
    obtain ⟨body, -, rfl⟩ := hdecode
    have horigin : tag = origin := htag.symm.trans (Store.origin_lookup.trans hu.origin_eq)
    rw [hstored, horigin] at hmarked
    refine ⟨q, hanswer, Response.servedAs_of_marked? hmarked, ?_⟩
    obtain ⟨headers, -, rfl⟩ := Response.marked?_eq_some_iff.1 hmarked
    exact hbody

end Run

namespace Sample

/-- The sample response, whose body has five octets, with a `Content-Length` of one digit: `five`
fits and `three` is too small. -/
def sized (digit : HeaderValue) : Response :=
  { response with
    headers := response.headers.append .contentLength digit (Headers.hasRoom_append_empty ..) }

def five : HeaderValue := ⟨Bytes.ofText "5", by decide⟩

def three : HeaderValue := ⟨Bytes.ofText "3", by decide⟩

end Sample

namespace Run

theorem served_back_sized_five :
    ∃ entry q, ((Sample.run (Sample.sized Sample.five)).storage.lookup
        (Key.ofRequest Sample.request) .epoch).1 = .ok entry
      ∧ entry.response Sample.request.method = .ok (Sample.sized Sample.five)
      ∧ ((Sample.run (Sample.sized Sample.five)).ask .sharedCache .epoch .epoch
        Sample.request).answer = some q
      ∧ (Sample.sized Sample.five).ServedAs q .epoch "memory"
      ∧ q.body = (Sample.sized Sample.five).body := by
  have hlast : (Sample.run (Sample.sized Sample.five)).lastWrite? (Key.ofRequest Sample.request)
      = some ⟨Sample.request, Sample.sized Sample.five, .epoch, Sample.expiry⟩ := by
    decide +kernel
  have hfound : ((Sample.run (Sample.sized Sample.five)).storage.lookup
      (Key.ofRequest Sample.request) .epoch).1
        = .ok (Entry.ofResponse .get "/" .epoch (Sample.sized Sample.five) "memory") :=
    eq_ok_of_toOption (by decide +kernel)
  have hhit : ((Sample.run (Sample.sized Sample.five)).ask .sharedCache .epoch .epoch
      Sample.request).event? = some (.hit "memory" Sample.expiry) :=
    Event.bind_hit?_eq_some_iff.1 (by decide +kernel)
  have hfits : Wire.LengthFits (Sample.sized Sample.five) := by decide +kernel
  obtain ⟨hdecodes, -, hserved⟩ := served_back_iff .sharedCache .standard Store.defaultOrigin _
    hlast hfound (by decide)
  obtain ⟨q, hanswer, hhead, hbody⟩ := hserved .epoch _ _ hhit
  exact ⟨_, q, hfound, hdecodes.2 hfits, hanswer, hhead, hbody.2 hfits⟩

/-- A response that declares three octets and has five is written, and the next request for it is
answered with a hit that has three. -/
theorem not_served_back_sized_three :
    (Sample.run (Sample.sized Sample.three)).lastWrite? (Key.ofRequest Sample.request)
        = some ⟨Sample.request, Sample.sized Sample.three, .epoch, Sample.expiry⟩
      ∧ ((Sample.run (Sample.sized Sample.three)).ask .sharedCache .epoch .epoch
        Sample.request).event? = some (.hit "memory" Sample.expiry)
      ∧ ∃ q, ((Sample.run (Sample.sized Sample.three)).ask .sharedCache .epoch .epoch
          Sample.request).answer = some q
        ∧ q.body = Bytes.ofText "hel"
        ∧ (Sample.sized Sample.three).body = Bytes.ofText "hello" := by
  have hlast : (Sample.run (Sample.sized Sample.three)).lastWrite? (Key.ofRequest Sample.request)
      = some ⟨Sample.request, Sample.sized Sample.three, .epoch, Sample.expiry⟩ := by
    decide +kernel
  have hhit : ((Sample.run (Sample.sized Sample.three)).ask .sharedCache .epoch .epoch
      Sample.request).event? = some (.hit "memory" Sample.expiry) :=
    Event.bind_hit?_eq_some_iff.1 (by decide +kernel)
  have hbody : ((Sample.run (Sample.sized Sample.three)).ask .sharedCache .epoch .epoch
      Sample.request).answer.map Response.body = some (Bytes.ofText "hel") := by decide +kernel
  obtain ⟨q, hanswer, hq⟩ := Option.map_eq_some_iff.1 hbody
  exact ⟨hlast, hhit, q, hanswer, hq, rfl⟩

end Run

end ResponseCache
