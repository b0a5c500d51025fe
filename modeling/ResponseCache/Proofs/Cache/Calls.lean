import ResponseCache.Cache.Stack
import ResponseCache.Proofs.Cache.Answer

/-!
# The calls of a cache

While it answers a request a cache reaches outside itself in three ways: it asks its storage for an
entry, it passes the request on, and it offers an entry to its storage. Storage and origin are taken
together as one `World`, which answers each call as it likes and may be another one after each. A
world can keep the list of the calls made to it (`recorded`), and what it answers does not depend on
that list, so the list tells what a request came to. `calls_of_send`: either the list is one lookup
that gave an entry, and the answer is what the entry decodes to; or the request was passed on once,
as it is, and what came back is the answer. Faults of the storage only decide between these two, but
for one: an overfull entry crashes the cache at the lookup, so that there is neither an answer nor a
call of the origin (`send_of_overfull`).

For a cache on top of a stack the origin is the stack below it (`Stack.send_cons`), so the same
holds of each tier.
-/

namespace ResponseCache

/-- Backend `b'` answers like `b`, of whose states it sees the part `π` of its own, and keeps that
part as `b` does. -/
structure Backend.Lifts {σ τ : Type} (b : Backend σ) (b' : Backend τ) (π : τ → σ) : Prop where
  origin : ∀ s, b'.origin s = b.origin (π s)
  get_result : ∀ s key now, (b'.get s key now).1 = (b.get (π s) key now).1
  get_state : ∀ s key now, π (b'.get s key now).2 = (b.get (π s) key now).2
  set_result : ∀ s key entry ttl now,
    (b'.set s key entry ttl now).result = (b.set (π s) key entry ttl now).result
  set_state : ∀ s key entry ttl now,
    π (b'.set s key entry ttl now).state = (b.set (π s) key entry ttl now).state

namespace Backend.Lifts

variable {σ τ : Type} {b : Backend σ} {b' : Backend τ} {π : τ → σ}

theorem finding_eq (h : b.Lifts b' π) (c : Config) (s : τ) (r : Request) (now : Instant) :
    (Cache.start b' c s r now).finding = (Cache.start b c (π s) r now).finding := by
  cases hlooks : Cache.looksUp c r with
  | false => rw [Cache.start_of_bypass hlooks, Cache.start_of_bypass hlooks]
  | true =>
    rw [Cache.start_of_looksUp hlooks, Cache.start_of_looksUp hlooks]
    dsimp only
    rw [h.get_result, h.origin, h.get_state]

end Backend.Lifts

/-- What a cache reaches outside itself, with the states of the world in `ω`. -/
structure World (ω : Type) where
  storage : Backend ω
  fetch : ω → Request → Except (Halt Failure) Response × ω

/-- A call that leaves a cache, and what it gave. -/
inductive Call where
  | got (key : Key) (result : Except Failure Entry)
  | fetched (r : Request) (result : Except (Halt Failure) Response)
  | put (key : Key) (entry : Entry) (ttl : Duration) (result : Except Failure Unit)

namespace World

variable {ω : Type}

/-- A request to a cache whose clock shows `now` when it looks for a kept response and `later` when
a live one is in. -/
def send (w : World ω) (c : Config) (s : ω) (r : Request) (now later : Instant) :
    Except (Halt Failure) Response × ω :=
  let started := Cache.start w.storage c s r now
  match started.finding with
  | .serve _ q _ => (.ok q, started.storage)
  | .pass _ =>
    match w.fetch started.storage r with
    | (.ok p, s) => (.ok p, (Cache.settle w.storage c s r later p).storage)
    | (.error halt, s) => (.error halt, s)
  | .crash => (.error .crashed, started.storage)

/-- The world with the list of the calls made to it, in order. -/
def recorded (w : World ω) : World (ω × List Call) where
  storage := {
    origin := fun s => w.storage.origin s.1
    get := fun s key now =>
      let got := w.storage.get s.1 key now
      (got.1, got.2, s.2 ++ [.got key got.1])
    set := fun s key entry ttl now =>
      let reply := w.storage.set s.1 key entry ttl now
      ⟨reply.result, reply.records, reply.state, s.2 ++ [.put key entry ttl reply.result]⟩ }
  fetch s r :=
    let fetched := w.fetch s.1 r
    (fetched.1, fetched.2, s.2 ++ [.fetched r fetched.1])

variable {w : World ω} {c : Config} {s : ω} {r : Request} {now later e : Instant} {p q : Response}
  {tag : String} {event : Event}

/-! ## One part of an answer -/

section Parts

def lookupCalls (w : World ω) (c : Config) (s : ω) (r : Request) (now : Instant) : List Call :=
  if Cache.looksUp c r then
    [.got (Key.ofRequest r) (w.storage.get s (Key.ofRequest r) now).1]
  else []

def writeCalls (w : World ω) (c : Config) (s : ω) (r : Request) (later : Instant) (p : Response) :
    List Call :=
  match Cache.weigh c r (w.storage.origin s) later p with
  | .skip _ => []
  | .write entry _ => [.put (Key.ofRequest r) entry c.entryTtl
      (w.storage.set s (Key.ofRequest r) entry c.entryTtl later).result]

theorem lifts_recorded (w : World ω) : w.storage.Lifts w.recorded.storage Prod.fst where
  origin _ := rfl
  get_result _ _ _ := rfl
  get_state _ _ _ := rfl
  set_result _ _ _ _ _ := rfl
  set_state _ _ _ _ _ := rfl

/-- Recording changes nothing about the first part of an answer, whose one call is the lookup. -/
theorem start_recorded (w : World ω) (c : Config) (s : ω) (calls : List Call) (r : Request)
    (now : Instant) :
    let started := Cache.start w.storage c s r now
    Cache.start w.recorded.storage c (s, calls) r now
      = ⟨(started.storage, calls ++ lookupCalls w c s r now), started.finding⟩ := by
  intro started
  have hfinding := (lifts_recorded w).finding_eq c (s, calls) r now
  have hstorage : (Cache.start w.recorded.storage c (s, calls) r now).storage
      = (started.storage, calls ++ lookupCalls w c s r now) := by
    rw [Cache.start_storage, show started.storage = _ from Cache.start_storage, lookupCalls]
    split
    · rfl
    · rw [List.append_nil]
  cases hrecorded : Cache.start w.recorded.storage c (s, calls) r now
  rw [hrecorded] at hfinding hstorage
  simp only at hfinding hstorage
  rw [hfinding, hstorage]

/-- Recording changes nothing about the second part of an answer, whose one call is the write. -/
theorem settle_recorded (w : World ω) (c : Config) (s : ω) (calls : List Call) (r : Request)
    (later : Instant) (p : Response) :
    (Cache.settle w.recorded.storage c (s, calls) r later p).storage
      = ((Cache.settle w.storage c s r later p).storage,
        calls ++ writeCalls w c s r later p) := by
  rw [Cache.settle_storage, Cache.settle_storage, writeCalls, (lifts_recorded w).origin]
  cases Cache.weigh c r (w.storage.origin s) later p with
  | skip event => simp
  | write entry e => rfl

end Parts

/-! ## The whole answer -/

section Send

theorem send_of_serve (h : (Cache.start w.storage c s r now).finding = .serve tag q e) :
    w.send c s r now later = (.ok q, (Cache.start w.storage c s r now).storage) := by
  simp only [send, h]

theorem send_of_crash (h : (Cache.start w.storage c s r now).finding = .crash) :
    w.send c s r now later = (.error .crashed, (Cache.start w.storage c s r now).storage) := by
  simp only [send, h]

theorem send_of_response {t : ω} (h : (Cache.start w.storage c s r now).finding = .pass event)
    (hfetch : w.fetch (Cache.start w.storage c s r now).storage r = (.ok p, t)) :
    w.send c s r now later = (.ok p, (Cache.settle w.storage c t r later p).storage) := by
  simp only [send, h, hfetch]

theorem send_of_halt {t : ω} {halt : Halt Failure}
    (h : (Cache.start w.storage c s r now).finding = .pass event)
    (hfetch : w.fetch (Cache.start w.storage c s r now).storage r = (.error halt, t)) :
    w.send c s r now later = (.error halt, t) := by
  simp only [send, h, hfetch]

theorem recorded_of_serve (h : (Cache.start w.storage c s r now).finding = .serve tag q e) :
    w.recorded.send c (s, []) r now later
      = (.ok q, (Cache.start w.storage c s r now).storage, lookupCalls w c s r now) := by
  have hstart := start_recorded w c s [] r now
  rw [send_of_serve (by rw [hstart, h]), hstart, List.nil_append]

theorem recorded_of_crash (h : (Cache.start w.storage c s r now).finding = .crash) :
    w.recorded.send c (s, []) r now later
      = (.error .crashed, (Cache.start w.storage c s r now).storage,
        lookupCalls w c s r now) := by
  have hstart := start_recorded w c s [] r now
  rw [send_of_crash (by rw [hstart, h]), hstart, List.nil_append]

/-- After the lookup of a request that is passed on, the fetch is recorded. -/
theorem recorded_fetch {t : ω} {result : Except (Halt Failure) Response}
    (h : (Cache.start w.storage c s r now).finding = .pass event)
    (hfetch : w.fetch (Cache.start w.storage c s r now).storage r = (result, t)) :
    (Cache.start w.recorded.storage c (s, []) r now).finding = .pass event
      ∧ w.recorded.fetch (Cache.start w.recorded.storage c (s, []) r now).storage r
        = (result, t, lookupCalls w c s r now ++ [.fetched r result]) := by
  rw [start_recorded w c s [] r now, List.nil_append]
  exact ⟨h, by simp only [recorded, hfetch]⟩

theorem recorded_of_response {t : ω} (h : (Cache.start w.storage c s r now).finding = .pass event)
    (hfetch : w.fetch (Cache.start w.storage c s r now).storage r = (.ok p, t)) :
    w.recorded.send c (s, []) r now later
      = (.ok p, (Cache.settle w.storage c t r later p).storage,
        lookupCalls w c s r now ++ .fetched r (.ok p) :: writeCalls w c t r later p) := by
  obtain ⟨hpassed, hrecorded⟩ := recorded_fetch h hfetch
  rw [send_of_response hpassed hrecorded, settle_recorded, List.append_assoc,
    List.singleton_append]

theorem recorded_of_halt {t : ω} {halt : Halt Failure}
    (h : (Cache.start w.storage c s r now).finding = .pass event)
    (hfetch : w.fetch (Cache.start w.storage c s r now).storage r = (.error halt, t)) :
    w.recorded.send c (s, []) r now later
      = (.error halt, t, lookupCalls w c s r now ++ [.fetched r (.error halt)]) := by
  obtain ⟨hpassed, hrecorded⟩ := recorded_fetch h hfetch
  exact send_of_halt hpassed hrecorded

theorem exists_lookupCalls (w : World ω) (c : Config) (s : ω) (r : Request) (now : Instant) :
    ∃ got, lookupCalls w c s r now
      = if Cache.looksUp c r then [.got (Key.ofRequest r) got] else [] :=
  ⟨_, rfl⟩

theorem lookupCalls_of_get {entry : Entry} (hlooks : Cache.looksUp c r = true)
    (hget : (w.storage.get s (Key.ofRequest r) now).1 = .ok entry) :
    lookupCalls w c s r now = [.got (Key.ofRequest r) (.ok entry)] := by
  rw [lookupCalls, if_pos hlooks, hget]

/-- The one call of a request that is answered from the storage is a lookup that gave an entry, and
the answer is what this entry decodes to. -/
theorem lookupCalls_of_serve (h : (Cache.start w.storage c s r now).finding = .serve tag q e) :
    ∃ entry p, lookupCalls w c s r now = [.got (Key.ofRequest r) (.ok entry)]
      ∧ entry.response r.method = .ok p ∧ p.marked? entry.storedAt tag = some q := by
  obtain ⟨hlooks, -, entry, hget, hserve⟩ := Cache.start_eq_serve_iff.1 h
  obtain ⟨-, p, _, hserved, hmarked, -⟩ := Cache.consider_eq_serve_iff.1 hserve
  exact ⟨entry, p, lookupCalls_of_get hlooks hget, hserved.decodes, hmarked⟩

/-- The storage gives an overfull entry to the lookup of `r`. -/
def Overfull (w : World ω) (c : Config) (s : ω) (r : Request) (now : Instant) (entry : Entry) :
    Prop :=
  Cache.looksUp c r = true ∧ (w.storage.get s (Key.ofRequest r) now).1 = .ok entry
    ∧ Cache.Overfull c r now entry

/-- An overfull entry ends a request: the lookup is its only call, and nobody gets an answer. -/
theorem send_of_overfull {entry : Entry} (h : w.Overfull c s r now entry) :
    (w.send c s r now later).1 = .error .crashed
      ∧ w.recorded.send c (s, []) r now later
        = (.error .crashed, (w.send c s r now later).2,
          [.got (Key.ofRequest r) (.ok entry)]) := by
  obtain ⟨hlooks, hget, hfull⟩ := h
  have hcrash : (Cache.start w.storage c s r now).finding = .crash :=
    Cache.start_eq_crash_iff.2 ⟨hlooks, entry, hget, hfull⟩
  rw [recorded_of_crash hcrash, send_of_crash hcrash, lookupCalls_of_get hlooks hget]
  exact ⟨rfl, rfl⟩

theorem writeCalls_cases (w : World ω) (c : Config) (s : ω) (r : Request) (later : Instant)
    (p : Response) :
    writeCalls w c s r later p = []
      ∨ ∃ tag put, writeCalls w c s r later p = [.put (Key.ofRequest r)
        (Entry.ofResponse r.method r.uri.text later p tag) c.entryTtl put] := by
  unfold writeCalls
  cases hweigh : Cache.weigh c r (w.storage.origin s) later p with
  | skip event => exact .inl rfl
  | write entry e =>
    obtain ⟨-, -, rfl, -⟩ := Cache.weigh_eq_write_iff.1 hweigh
    exact .inr ⟨_, _, rfl⟩

/-- Whatever storage and origin do and whatever the clock shows, a request to which the storage
gives no overfull entry comes to one of two things. Either the cache makes no call but a lookup,
which gives an entry, and answers with what the entry decodes to and the three markers. Or it passes
the request on exactly once, as it is, and its answer is what came back, be that a response or a
failure; before that it makes a lookup unless the request rules it out, and after that at most one
write, of the response that came back, under the key of the lookup. An overfull entry crashes the
cache, which has then made no call but the lookup. So a failure is always one of the origin, and of
no kind that the origin never shows. -/
theorem calls_of_send (w : World ω) (c : Config) (s : ω) (r : Request) (now later : Instant) :
    let sent := w.send c s r now later
    ∃ calls, w.recorded.send c (s, []) r now later = (sent.1, sent.2, calls)
      ∧ ((∀ entry, ¬ w.Overfull c s r now entry) →
        (∃ entry p q tag, calls = [.got (Key.ofRequest r) (.ok entry)]
          ∧ entry.response r.method = .ok p
          ∧ p.marked? entry.storedAt tag = some q ∧ sent.1 = .ok q)
        ∨ ∃ before after, calls = before ++ .fetched r sent.1 :: after
          ∧ (∃ got, before
            = if Cache.looksUp c r then [.got (Key.ofRequest r) got] else [])
          ∧ (after = [] ∨ ∃ p tag put, sent.1 = .ok p
            ∧ after = [.put (Key.ofRequest r)
              (Entry.ofResponse r.method r.uri.text later p tag) c.entryTtl put]))
      ∧ (∀ entry, w.Overfull c s r now entry →
        calls = [.got (Key.ofRequest r) (.ok entry)] ∧ sent.1 = .error .crashed)
      ∧ ∀ kind, (∀ t failure, (w.fetch t r).1 = .error (.failed failure) → failure.kind ≠ kind) →
        ∀ failure, sent.1 = .error (.failed failure) → failure.kind ≠ kind := by
  intro sent
  have hbefore := exists_lookupCalls w c s r now
  have hclear : ∀ event, (Cache.start w.storage c s r now).finding = .pass event →
      ∀ entry, ¬ w.Overfull c s r now entry := fun event hpass entry h => by
    rw [Cache.start_eq_crash_iff.2 ⟨h.1, entry, h.2⟩] at hpass
    cases hpass
  -- whether the origin is asked is all that the start decides for what follows
  cases hfinding : (Cache.start w.storage c s r now).finding with
  | serve tag q e =>
    obtain ⟨entry, p, hcalls, hdecodes, hmarked⟩ := lookupCalls_of_serve hfinding
    simp only [sent, send_of_serve hfinding]
    refine ⟨_, recorded_of_serve hfinding, fun _ => .inl ⟨entry, p, q, tag, hcalls, hdecodes,
      hmarked, rfl⟩, fun entry h => ?_, fun kind _ failure hfailure => by cases hfailure⟩
    rw [Cache.start_eq_crash_iff.2 ⟨h.1, entry, h.2⟩] at hfinding
    cases hfinding
  | crash =>
    simp only [sent, send_of_crash hfinding]
    refine ⟨_, recorded_of_crash hfinding, fun hnone => ?_, fun entry h => ?_,
      fun kind _ failure hfailure => by cases hfailure⟩
    · obtain ⟨hlooks, entry, hget, hfull⟩ := Cache.start_eq_crash_iff.1 hfinding
      exact absurd ⟨hlooks, hget, hfull⟩ (hnone entry)
    · exact ⟨lookupCalls_of_get h.1 h.2.1, trivial⟩
  | pass event =>
    rcases hfetch : w.fetch (Cache.start w.storage c s r now).storage r with ⟨result, t⟩
    cases result with
    | ok p =>
      simp only [sent, send_of_response hfinding hfetch]
      refine ⟨_, recorded_of_response hfinding hfetch, fun _ => .inr ⟨_, _, rfl, hbefore, ?_⟩,
        fun entry h => absurd h (hclear event hfinding entry),
        fun kind _ failure hfailure => by cases hfailure⟩
      rcases writeCalls_cases w c t r later p with hnone | ⟨tag, put, hwrite⟩
      · exact .inl hnone
      · exact .inr ⟨p, tag, put, rfl, hwrite⟩
    | error halt =>
      simp only [sent, send_of_halt hfinding hfetch]
      refine ⟨_, recorded_of_halt hfinding hfetch, fun _ => .inr ⟨_, _, rfl, hbefore, .inl rfl⟩,
        fun entry h => absurd h (hclear event hfinding entry), ?_⟩
      intro kind hkind failure hfailure
      cases hfailure
      exact hkind _ failure (congrArg Prod.fst hfetch)

end Send

end World

namespace Sample

/-- An entry with more header names than there is room for. -/
def overfull : Entry :=
  ⟨.get, "/", .epoch, crowd, Store.defaultOrigin⟩

/-- A storage that has the overfull entry under every key and takes every write, and an origin that
gives the sample response. -/
def overfullWorld : World Unit where
  storage := {
    origin := fun _ => Store.defaultOrigin
    get := fun _ _ _ => (.ok overfull, ())
    set := fun _ _ _ _ _ => ⟨.ok (), [], ()⟩ }
  fetch := fun _ _ => (.ok response, ())

end Sample

namespace World

open Sample

/-- The lookup is given the overfull entry: the origin is not asked, and there is no answer. -/
theorem crash_of_send_overfull :
    let sent := overfullWorld.send .sharedCache () request .epoch .epoch
    sent.1 = .error .crashed
      ∧ overfullWorld.recorded.send .sharedCache ((), []) request .epoch .epoch
        = (.error .crashed, sent.2, [.got (Key.ofRequest request) (.ok overfull)]) := by
  have hfull : overfullWorld.Overfull .sharedCache () request .epoch overfull :=
    ⟨by decide, rfl, .reading Wire.overfull_crowd⟩
  exact send_of_overfull hfull

end World

end ResponseCache
