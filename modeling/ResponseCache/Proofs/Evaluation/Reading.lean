import ResponseCache.Evaluation.Verdict
import ResponseCache.Proofs.Directive.Whole
import ResponseCache.Proofs.Except

/-!
# What the caching headers of an exchange say

`Reads x w` lists what judging an exchange reads, header by header, and `assess_eq_ok_iff` says that
an exchange is assessed exactly if all of it can be read. `Admissible c x w` then says in the words
of the headers themselves when no rule keeps the response out of a cache: for a well-formed exchange
this is the same as a verdict without reasons (`reasons_eq_nil_iff`).
-/

namespace ResponseCache

namespace Exchange

/-- What the caching headers of an exchange say: the joined `Cache-Control` lines of the request
(`asked`) and of the response (`told`), the directives in them, and the three date headers. -/
structure Reading where
  asked : List Char
  told : List Char
  request : RequestDirectives
  response : ResponseDirectives
  expires : Option HeaderDate
  date : Option HeaderDate
  lastModified : Option HeaderDate

/-- The caching headers of `x` are well formed and say `w`. -/
structure Reads (x : Exchange) (w : Reading) : Prop where
  asked : cacheControl x.requestHeaders = .ok w.asked
  request : RequestDirectives.ofText w.asked = .ok w.request
  told : cacheControl x.responseHeaders = .ok w.told
  response : ResponseDirectives.ofText w.told = .ok w.response
  expires : dateHeader x.responseHeaders .expires "Expires" true = .ok w.expires
  date : dateHeader x.responseHeaders .date "Date" false = .ok w.date
  lastModified :
    dateHeader x.responseHeaders .lastModified "Last-Modified" false = .ok w.lastModified

/-- The assessment of an exchange whose headers say `w`. -/
def Reading.assessment (w : Reading) (x : Exchange) (now receivedAt : Instant) : Assessment where
  method := x.method
  status := x.status
  request := w.request
  response := w.response
  expires := w.expires
  date := w.date.bind HeaderDate.instant?
  lastModified := w.lastModified.bind HeaderDate.instant?
  now := now
  receivedAt := receivedAt

/-- An exchange is assessed exactly if its headers are well formed, and then as they say. -/
theorem assess_eq_ok_iff {x : Exchange} {now receivedAt : Instant} {a : Assessment} :
    x.assess now receivedAt = .ok a ↔ ∃ w, x.Reads w ∧ w.assessment x now receivedAt = a := by
  simp only [assess, bind_eq_ok_iff, pure_eq_ok_iff]
  constructor
  · rintro ⟨asked, ha, rq, hrq, told, ht, rs, hrs, ex, hex, date, hdate, lm, hlm, rfl⟩
    exact ⟨⟨asked, told, rq, rs, ex, date, lm⟩, ⟨ha, hrq, ht, hrs, hex, hdate, hlm⟩, rfl⟩
  · rintro ⟨w, h, rfl⟩
    exact ⟨_, h.asked, _, h.request, _, h.told, _, h.response, _, h.expires, _, h.date, _,
      h.lastModified, rfl⟩

theorem Reads.assess {x : Exchange} {w : Reading} (h : x.Reads w) (now receivedAt : Instant) :
    x.assess now receivedAt = .ok (w.assessment x now receivedAt) :=
  assess_eq_ok_iff.2 ⟨w, h, rfl⟩

theorem judge_eq_ok_iff {x : Exchange} {now receivedAt : Instant} {c : Config}
    {verdict : Verdict} :
    x.judge now receivedAt c = .ok verdict ↔
      ∃ w, x.Reads w ∧ (w.assessment x now receivedAt).verdict c = verdict := by
  rw [judge, map_eq_ok_iff]
  constructor
  · rintro ⟨a, ha, hverdict⟩
    obtain ⟨w, hw, rfl⟩ := assess_eq_ok_iff.1 ha
    exact ⟨w, hw, hverdict⟩
  · rintro ⟨w, hw, hverdict⟩
    exact ⟨_, hw.assess now receivedAt, hverdict⟩

/-- Exchange `x`, whose headers say `w`, is one whose response a cache of configuration `c` may
keep: the status is that of a success with content, the method one that can be kept, a `POST` states
its lifetime, and no directive of either side forbids it. -/
structure Admissible (c : Config) (x : Exchange) (w : Reading) : Prop extends Reads x w where
  success : 200 ≤ x.status.code ∧ x.status.code < 300 ∧ x.status.code ≠ 204
  method : x.method.name ∉ ["PUT", "DELETE", "CONNECT", "OPTIONS", "TRACE", "PATCH"]
  post : x.method.name = "POST" →
    Directive.isNamedIn "max-age" w.told = true
      ∨ c.shared = true ∧ Directive.isNamedIn "s-maxage" w.told = true
      ∨ w.expires.isSome = true
  asked_noStore : Directive.isNamedIn "no-store" w.asked = false
  told_noStore : Directive.isNamedIn "no-store" w.told = false
  told_noCache : w.response.noCacheUnqualified = false
  told_private : c.shared = true → Directive.isNamedIn "private" w.told = false

end Exchange

namespace Method

theorem mem_uncacheable_iff {m : Method} :
    m ∈ uncacheable ↔ m.name ∈ ["PUT", "DELETE", "CONNECT", "OPTIONS", "TRACE", "PATCH"] := by
  obtain ⟨name, _⟩ := m
  simp [uncacheable, put, delete, connect, options, trace, patch]

theorem eq_post_iff {m : Method} : m = post ↔ m.name = "POST" := by
  obtain ⟨name, _⟩ := m
  simp [post]

end Method

theorem Status.isCacheable_iff {s : Status} :
    s.isCacheable = true ↔ 200 ≤ s.code ∧ s.code < 300 ∧ s.code ≠ 204 := by
  simp [isCacheable, isSuccess, and_assoc]

namespace Exchange

open Assessment

variable {x : Exchange} {w : Reading}

/-- The method is no reason against keeping the response exactly if it is none of six and a `POST`
is answered with a stated lifetime. -/
theorem methodReasons_eq_nil_iff (h : x.Reads w) (c : Config) (now receivedAt : Instant) :
    (w.assessment x now receivedAt).methodReasons c = [] ↔
      x.method.name ∉ ["PUT", "DELETE", "CONNECT", "OPTIONS", "TRACE", "PATCH"] ∧
        (x.method.name = "POST" → Directive.isNamedIn "max-age" w.told = true
          ∨ c.shared = true ∧ Directive.isNamedIn "s-maxage" w.told = true
          ∨ w.expires.isSome = true) := by
  rw [← ResponseDirectives.isSome_maxAge_ofText h.response,
    ← ResponseDirectives.isSome_sharedMaxAge_ofText h.response]
  simp only [methodReasons, hasExplicitFreshness, Method.mem_uncacheable_iff, Method.eq_post_iff,
    Reading.assessment]
  by_cases hm : x.method.name ∈ ["PUT", "DELETE", "CONNECT", "OPTIONS", "TRACE", "PATCH"]
  · simp only [hm, if_true, not_true, false_and, reduceCtorEq]
  · by_cases hp : x.method.name = "POST"
    · simp only [hp, true_and, true_implies]
      cases w.response.maxAge.isSome <;> cases c.shared <;>
        cases w.response.sharedMaxAge.isSome <;> cases w.expires.isSome <;> simp
    · simp only [hm, hp, if_false, false_and, not_false_eq_true, false_implies, and_self]

/-- An exchange whose headers are well formed gets a verdict without reasons exactly if its response
may be kept by the rules for headers, method and status. -/
theorem reasons_eq_nil_iff (h : x.Reads w) (c : Config) (now receivedAt : Instant) :
    (w.assessment x now receivedAt).reasons c = [] ↔ x.Admissible c w := by
  have hasked := RequestDirectives.noStore_ofText h.request
  have htold := ResponseDirectives.noStore_ofText h.response
  have hprivate := ResponseDirectives.isPrivate_ofText h.response
  simp only [reasons, List.append_eq_nil_iff, ite_eq_right_iff, reduceCtorEq,
    methodReasons_eq_nil_iff h]
  simp only [Reading.assessment, hasked, htold, hprivate, imp_false, Bool.not_eq_true,
    Bool.not_eq_true', Bool.and_eq_false_iff, Status.isCacheable_iff, Bool.not_eq_false]
  constructor
  · rintro ⟨⟨⟨⟨⟨⟨hmethod, hpost⟩, ha⟩, hp⟩, ht⟩, hc⟩, hs⟩
    refine ⟨h, hs, hmethod, hpost, ha, ht, hc, fun hshared => ?_⟩
    exact hp.resolve_right (by simp [hshared])
  · intro ha
    refine ⟨⟨⟨⟨⟨⟨ha.method, ha.post⟩, ha.asked_noStore⟩, ?_⟩, ha.told_noStore⟩, ha.told_noCache⟩,
      ha.success⟩
    cases hshared : c.shared with
    | false => exact .inr rfl
    | true => exact .inl (ha.told_private hshared)

/-! ## The same response for another request -/

section Asking

variable {x' : Exchange} {asked : List Char} {ds : RequestDirectives}

/-- What the headers say if another request asks for the same response. -/
def Reading.asking (w : Reading) (asked : List Char) (ds : RequestDirectives) : Reading :=
  { w with asked := asked, request := ds }

/-- Another request for a response whose headers are well formed needs a well-formed `Cache-Control`
and no more. -/
theorem Reads.asking (h : x.Reads w) (hheaders : x'.responseHeaders = x.responseHeaders)
    (hasked : cacheControl x'.requestHeaders = .ok asked)
    (hds : RequestDirectives.ofText asked = .ok ds) : x'.Reads (w.asking asked ds) := by
  refine ⟨hasked, hds, ?_, h.response, ?_, ?_, ?_⟩
  all_goals rw [hheaders]
  · exact h.told
  · exact h.expires
  · exact h.date
  · exact h.lastModified

/-- Of a response that could be kept for one request, only `no-store` in another request of the same
method gives a reason to refuse it. -/
theorem reasons_asking {c : Config} (h : x.Admissible c w)
    (hreads : x'.Reads (w.asking asked ds)) (hmethod : x'.method = x.method)
    (hstatus : x'.status = x.status) (now receivedAt : Instant) :
    ((w.asking asked ds).assessment x' now receivedAt).reasons c
      = if ds.noStore then [.requestNoStore] else [] := by
  have hstore : w.response.noStore = false :=
    (ResponseDirectives.noStore_ofText h.response).trans h.told_noStore
  have hprivate : (w.response.isPrivate && c.shared) = false := by
    rw [ResponseDirectives.isPrivate_ofText h.response]
    cases hshared : c.shared with
    | false => exact Bool.and_false _
    | true => rw [h.told_private hshared, Bool.false_and]
  have hmethods : ((w.asking asked ds).assessment x' now receivedAt).methodReasons c = [] := by
    rw [methodReasons_eq_nil_iff hreads, hmethod]
    exact ⟨h.method, h.post⟩
  have hcacheable : x'.status.isCacheable = true := by
    rw [hstatus]
    exact Status.isCacheable_iff.2 h.success
  calc ((w.asking asked ds).assessment x' now receivedAt).reasons c
      = ((w.asking asked ds).assessment x' now receivedAt).methodReasons c
        ++ (if ds.noStore then [.requestNoStore] else [])
        ++ (if w.response.isPrivate && c.shared then [.responsePrivate] else [])
        ++ (if w.response.noStore then [.responseNoStore] else [])
        ++ (if w.response.noCacheUnqualified then [.responseNoCache] else [])
        ++ (if !x'.status.isCacheable then [.statusNotCacheable x'.status] else []) := rfl
    _ = if ds.noStore then [.requestNoStore] else [] := by
      rw [hmethods, hprivate, hstore, h.told_noCache, hcacheable]
      simp

end Asking

end Exchange

end ResponseCache
