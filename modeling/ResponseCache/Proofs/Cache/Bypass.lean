import ResponseCache.Proofs.Cache.Answer
import ResponseCache.Proofs.Directive.Lines
import ResponseCache.Proofs.Directive.Whole
import ResponseCache.Proofs.Run.Provenance
import ResponseCache.Proofs.Wire.RoundTrip

/-!
# Requests that rule out an answer from the cache

Whether a cache looks for a kept response is decided by the first `Cache-Control` line of the
request alone, while the response that it finds is judged for all lines together. What the first
line forbids all lines forbid (`forbids_of_looksUp_eq_false`), so no request is kept from the cache
that asks for none of it. The converse fails. A `no-store` behind the first line is still found by
the judgement of the response. But a `no-cache` has a part in no judgement, so behind the first line
nothing sees it: such a request is `Overlooked`, and there is always something that it can be
answered with from the cache (`hit_iff_overlooked`).
-/

namespace ResponseCache

namespace LookupPolicy

/-- What a request with this `Cache-Control` text, all lines taken together, says about answers from
the cache: that there must be none, as the policy understands it. -/
def Forbids (policy : LookupPolicy) (text : List Char) : Prop :=
  match policy with
  | skipIfEither =>
    Directive.isNamedIn "no-cache" text = true ∨ Directive.isNamedIn "no-store" text = true
  | skipIfBoth =>
    Directive.isNamedIn "no-cache" text = true ∧ Directive.isNamedIn "no-store" text = true

theorem allowsLookup_eq_false_iff {policy : LookupPolicy} {text : List Char} :
    policy.allowsLookup text = false ↔ policy.Forbids text := by
  cases policy with
  | skipIfEither =>
    rw [allowsLookup, Bool.not_eq_false', Bool.or_eq_true]
    rfl
  | skipIfBoth =>
    rw [allowsLookup, Bool.not_eq_false', Bool.and_eq_true]
    rfl

/-- What the first line forbids all lines together forbid. -/
theorem Forbids.joinLines_cons {policy : LookupPolicy} {line : List Char}
    (h : policy.Forbids line) (lines : List (List Char)) :
    policy.Forbids (Exchange.joinLines (line :: lines)) := by
  have hnamed : ∀ name : String, '"' ∉ name.toList → Directive.isNamedIn name line = true →
      Directive.isNamedIn name (Exchange.joinLines (line :: lines)) = true :=
    fun name hname hline => Directive.isNamedIn_joinLines_cons hname hline lines
  cases policy with
  | skipIfEither => exact h.imp (hnamed _ (by decide)) (hnamed _ (by decide))
  | skipIfBoth => exact h.imp (hnamed _ (by decide)) (hnamed _ (by decide))

end LookupPolicy

namespace Exchange

theorem exists_lines {h : Headers} {text : List Char} (htext : cacheControl h = .ok text) :
    ∃ lines, text = joinLines lines ∧ h.firstText? .cacheControl = lines.head? := by
  obtain ⟨lines, hlines, hjoin⟩ := bind_eq_ok_iff.1 htext
  refine ⟨lines, (pure_eq_ok_iff.1 hjoin).symm, ?_⟩
  rw [Headers.firstText?, Headers.first?]
  cases hvalues : h.values .cacheControl with
  | nil =>
    rw [hvalues, List.mapM_nil, pure_eq_ok_iff] at hlines
    rw [← hlines]
    rfl
  | cons v vs =>
    rw [hvalues, List.mapM_cons, bind_eq_ok_iff] at hlines
    obtain ⟨line, hline, hrest⟩ := hlines
    obtain ⟨more, -, hmore⟩ := bind_eq_ok_iff.1 hrest
    rw [← pure_eq_ok_iff.1 hmore, List.head?_cons, List.head?_cons, Option.bind_some]
    unfold visible at hline
    split at hline
    · rename_i s hs
      rw [hs, Except.ok.inj hline]
    · cases hline

end Exchange

namespace Cache

open Exchange

variable {c : Config} {r : Request} {asked : List Char}

/-- A cache that does not look for a kept response is forbidden to answer with one. -/
theorem forbids_of_looksUp_eq_false (hasked : cacheControl r.headers = .ok asked)
    (h : looksUp c r = false) : c.lookupPolicy.Forbids asked := by
  obtain ⟨lines, rfl, hfirst⟩ := exists_lines hasked
  rw [looksUp, hfirst, LookupPolicy.allowsLookup_eq_false_iff] at h
  cases lines with
  | nil => exact h
  | cons line lines => exact h.joinLines_cons lines

/-- A request with the `Cache-Control` text `asked`, all lines taken together, that rules out an
answer from the cache without being noticed: only a `no-cache` behind the first line does so, and
nothing else about the request keeps it from being answered. -/
structure Overlooked (c : Config) (r : Request) (asked : List Char) : Prop where
  policy : c.lookupPolicy = .skipIfEither
  looksUp : looksUp c r = true
  noCache : Directive.isNamedIn "no-cache" asked = true
  noStore : Directive.isNamedIn "no-store" asked = false
  wellFormed : ∃ ds, RequestDirectives.ofText asked = .ok ds
  method : r.method ∉ Method.uncacheable

/-- Only an overlooked request is answered from the cache though it rules that out. -/
theorem overlooked_of_hit {σ : Type} {b : Backend σ} {storage : σ} {now e : Instant} {tag : String}
    (hasked : cacheControl r.headers = .ok asked) (hforbids : c.lookupPolicy.Forbids asked)
    (h : (start b c storage r now).event? = some (.hit tag e)) : Overlooked c r asked := by
  obtain ⟨q, hserve, -⟩ := start_eq_hit_iff.1 h
  obtain ⟨hlooks, -⟩ := start_eq_serve_iff.1 hserve
  obtain ⟨entry, p, w, -, -, hserved, -⟩ := servable_of_hit h
  have hadm := hserved.admissible
  obtain rfl : w.asked = asked := Except.ok.inj (hadm.asked.symm.trans hasked)
  have hmethod : r.method ∉ Method.uncacheable := fun hm =>
    hadm.method (Method.mem_uncacheable_iff.1 hm)
  -- the answer was judged for all lines, so `no-store` is on none of them
  unfold LookupPolicy.Forbids at hforbids
  split at hforbids
  · rename_i hpolicy
    refine ⟨hpolicy, hlooks, ?_, hadm.asked_noStore, ⟨_, hadm.request⟩, hmethod⟩
    exact hforbids.resolve_right (by simp [hadm.asked_noStore])
  · exact absurd hforbids.2 (by simp [hadm.asked_noStore])

end Cache

/-! ## Something to answer with -/

namespace Sample

/-- The last second that a date header can name in four digits. -/
def lastDate : Instant :=
  ⟨253402300799, 0, by decide, by decide, Instant.epoch.nanos_lt, by decide⟩

/-- A response without a body that expires then. -/
def lasting : Response where
  version := .http11
  status := response.status
  headers := Headers.empty.append .expires
    ⟨Bytes.ofText "Fri, 31 Dec 9999 23:59:59 GMT", by decide⟩ (by decide)
  body := []

/-- The entry of this response to a request, written at the epoch. -/
def lastingEntry (r : Request) : Entry :=
  Entry.ofResponse r.method r.uri.text .epoch lasting Store.defaultOrigin

def lastingStore (r : Request) : Store :=
  store.link (Key.ofRequest r) (lastingEntry r) none

def lastingReading (asked : List Char) (ds : RequestDirectives) : Exchange.Reading :=
  ⟨asked, [], ds, {}, some (.instant lastDate), none, none⟩

end Sample

namespace Cache

open Exchange Sample

variable {c : Config} {r : Request} {asked : List Char} {ds : RequestDirectives}

theorem dateHeader_lasting :
    dateHeader lasting.headers .expires "Expires" true = .ok (some (.instant lastDate)) :=
  eq_ok_of_toOption (by decide +kernel)

theorem reads_lasting (hasked : cacheControl r.headers = .ok asked)
    (hds : RequestDirectives.ofText asked = .ok ds) :
    (r.exchange lasting).Reads (lastingReading asked ds) where
  asked := hasked
  request := hds
  told := rfl
  response := rfl
  expires := dateHeader_lasting
  date := rfl
  lastModified := rfl

theorem admissible_lasting (hasked : cacheControl r.headers = .ok asked)
    (hds : RequestDirectives.ofText asked = .ok ds)
    (hstore : Directive.isNamedIn "no-store" asked = false)
    (hmethod : r.method ∉ Method.uncacheable) :
    (r.exchange lasting).Admissible c (lastingReading asked ds) where
  toReads := reads_lasting hasked hds
  success := (by decide : 200 ≤ 200 ∧ 200 < 300 ∧ 200 ≠ 204)
  method hm := hmethod (Method.mem_uncacheable_iff.2 hm)
  post _ := .inr (.inr rfl)
  asked_noStore := hstore
  told_noStore := rfl
  told_noCache := rfl
  told_private _ := rfl

theorem expiresAt_lasting :
    ((lastingReading asked ds).assessment (r.exchange lasting) .epoch .epoch).expiresAt c
      = lastDate := by
  have hlifetime : ((lastingReading asked ds).assessment (r.exchange lasting) .epoch
      .epoch).lifetime c = .explicit (lastDate.since .epoch) := by
    unfold Assessment.lifetime
    cases c.shared <;> rfl
  have hdate : (Instant.epoch.shift? (Lifetime.explicit (lastDate.since .epoch)).span).getD .latest
      = lastDate := by decide +kernel
  rw [Assessment.expiresAt, hlifetime]
  exact hdate

theorem decode_lasting (m : Method) : (lastingEntry r).response m = .ok lasting := by
  have hframe : Wire.frame m lasting.status lasting.headers lasting.body = .ok [] := by
    unfold Wire.frame
    split <;> rfl
  show Wire.decode (Wire.encode lasting) m = .ok lasting
  rw [Wire.decode_encode, hframe]
  rfl

/-- A response that outlasts every `min-fresh` is served right after it was written, unless the
request says `no-store` or has a method that is never kept. -/
theorem servable_lasting (hasked : cacheControl r.headers = .ok asked)
    (hds : RequestDirectives.ofText asked = .ok ds)
    (hstore : Directive.isNamedIn "no-store" asked = false)
    (hmethod : r.method ∉ Method.uncacheable) :
    Servable c r .epoch (lastingEntry r) lasting (lastingReading asked ds) where
  decodes := decode_lasting r.method
  admissible := admissible_lasting hasked hds hstore hmethod
  fresh := by
    have hreserve : ds.minFresh.getD 0 ≤ 2147483648 := RequestDirectives.minFresh_le hds
    have hlast : lastDate.since .epoch = 253402300799 * 1000000000 := by decide
    show ((lastingReading asked ds).assessment (r.exchange lasting) .epoch .epoch).freshness
      (((lastingReading asked ds).assessment (r.exchange lasting) .epoch .epoch).expiresAt c) = _
    rw [expiresAt_lasting, Assessment.freshness_eq_fresh_iff]
    refine ⟨fun n _ => Int.mul_nonneg (Int.natCast_nonneg n) (by decide), ?_⟩
    show (ds.minFresh.getD 0 : Int) * 1000000000 < lastDate.since .epoch
    omega

theorem lookup_lastingStore (r : Request) :
    (Store.backend.get (lastingStore r) (Key.ofRequest r) .epoch).1 = .ok (lastingEntry r)
      ∧ Store.backend.origin (Store.backend.get (lastingStore r) (Key.ofRequest r) .epoch).2
        = Store.defaultOrigin := by
  have hfind : (lastingStore r).find? (Key.ofRequest r)
      = some ⟨Key.ofRequest r, lastingEntry r, none, 0⟩ := by
    simp [Store.find?, lastingStore, Store.link, store, Store.empty]
  refine ⟨?_, Store.origin_lookup⟩
  show ((lastingStore r).lookup (Key.ofRequest r) .epoch).1 = _
  rw [Store.lookup, hfind]
  rfl

theorem Overlooked.exists_hit (h : Overlooked c r asked)
    (hasked : cacheControl r.headers = .ok asked) :
    (start Store.backend c (lastingStore r) r .epoch).event?
      = some (.hit Store.defaultOrigin lastDate) := by
  obtain ⟨ds, hds⟩ := h.wellFormed
  obtain ⟨hget, horigin⟩ := lookup_lastingStore r
  obtain ⟨q, hq⟩ := (lasting.exists_marked?_iff .epoch Store.defaultOrigin).2 (by decide)
  have hserve : consider c r Store.defaultOrigin .epoch (lastingEntry r)
      = .serve Store.defaultOrigin q lastDate :=
    consider_eq_serve_iff.2 ⟨rfl, lasting, lastingReading asked ds,
      servable_lasting hasked hds h.noStore h.method, hq, expiresAt_lasting⟩
  have hstart := start_eq_serve_iff.2 ⟨h.looksUp, horigin, _, hget, hserve⟩
  exact congrArg Finding.event? hstart

/-- What of a request's `Cache-Control` lines a cache goes by when it answers from its storage. A
request that it does not look up has lines that forbid such an answer when they are taken together.
The converse is not so: of the requests whose lines forbid it, exactly the overlooked ones can be
answered from the storage all the same, if it has something for them. These are, where either
directive is to forbid it, the well-formed requests of a method that can be kept which say
`no-cache`, but not on the first line, and no `no-store`. Where only both directives together forbid
it there are none. -/
theorem hit_iff_overlooked (c : Config) (r : Request) {asked : List Char}
    (hasked : cacheControl r.headers = .ok asked) :
    (looksUp c r = false → c.lookupPolicy.Forbids asked)
      ∧ (c.lookupPolicy.Forbids asked →
        ((∃ (σ : Type) (b : Backend σ) (storage : σ) (now : Instant) (tag : String) (e : Instant),
            (start b c storage r now).event? = some (.hit tag e))
          ↔ Overlooked c r asked)) := by
  refine ⟨forbids_of_looksUp_eq_false hasked, fun hforbids => ⟨?_, fun h => ?_⟩⟩
  · rintro ⟨σ, b, storage, now, tag, e, hhit⟩
    exact overlooked_of_hit hasked hforbids hhit
  · exact ⟨Store, Store.backend, lastingStore r, .epoch, _, _, h.exists_hit hasked⟩

end Cache

namespace Sample

/-- The sample request with two `Cache-Control` lines, of which only the second says `no-cache`. -/
def twoLines : Request :=
  { request with
    headers :=
      (Headers.empty.append .cacheControl ⟨Bytes.ofText "max-age=100", by decide⟩
          Headers.hasRoom_empty).append .cacheControl ⟨Bytes.ofText "no-cache", by decide⟩
        (Headers.hasRoom_append_empty ..) }

end Sample

namespace Cache

theorem overlooked_twoLines :
    Exchange.cacheControl Sample.twoLines.headers = .ok "max-age=100, no-cache".toList
      ∧ Config.sharedCache.lookupPolicy.Forbids "max-age=100, no-cache".toList
      ∧ Overlooked .sharedCache Sample.twoLines "max-age=100, no-cache".toList
      ∧ ∃ (σ : Type) (b : Backend σ) (storage : σ) (now : Instant) (tag : String) (e : Instant),
        (start b .sharedCache storage Sample.twoLines now).event? = some (.hit tag e) := by
  have hasked : Exchange.cacheControl Sample.twoLines.headers
      = .ok "max-age=100, no-cache".toList := eq_ok_of_toOption (by decide +kernel)
  have hforbids : Config.sharedCache.lookupPolicy.Forbids "max-age=100, no-cache".toList :=
    .inl (by decide +kernel)
  have hds : RequestDirectives.ofText "max-age=100, no-cache".toList
      = .ok { noCache := true, maxAge := some 100 } := eq_ok_of_toOption (by decide +kernel)
  have hover : Overlooked .sharedCache Sample.twoLines "max-age=100, no-cache".toList :=
    ⟨rfl, by decide +kernel, by decide +kernel, by decide +kernel, ⟨_, hds⟩, by decide⟩
  obtain ⟨-, hiff⟩ := hit_iff_overlooked .sharedCache Sample.twoLines hasked
  exact ⟨hasked, hforbids, hover, (hiff hforbids).2 hover⟩

/-- After the sample response was written, the request that says `no-cache` on its second line is
answered with it, though the two lines together forbid an answer from the cache. -/
theorem hit_of_twoLines :
    Exchange.cacheControl Sample.twoLines.headers = .ok "max-age=100, no-cache".toList
      ∧ Config.sharedCache.lookupPolicy = .skipIfEither
      ∧ Directive.isNamedIn "no-cache" "max-age=100, no-cache".toList = true
      ∧ ((Sample.run Sample.response).ask .sharedCache .epoch .epoch Sample.twoLines).event?
        = some (.hit "memory" Sample.expiry) :=
  ⟨eq_ok_of_toOption (by decide +kernel), rfl, by decide +kernel,
    Event.bind_hit?_eq_some_iff.1 (by decide +kernel)⟩

end Cache

end ResponseCache
