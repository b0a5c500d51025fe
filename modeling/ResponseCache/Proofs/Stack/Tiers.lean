import ResponseCache.Proofs.Cache.Calls

/-!
# What a request does to each tier

A request goes down to the first tier that does not pass it on (`passed_descend`), where it is
answered or ends in a crash (`standing_descend`); the tiers up to that one have looked it up, the
ones below have not been reached (`tiers_descend`). On the way up every tier that passed the request
on settles the same response on its own (`tiers_ascend`), and the tiers that report a write are
those of them whose storage took it (`mem_keepers_ascend`). Depths only number the notices.

So a stack is a cache in front of a smaller stack: what the first tier reaches as its origin is the
stack of the others (`send_cons`).
-/

namespace ResponseCache.Stack

variable {σ : Type} {b : Backend σ} {r : Request} {now e : Instant} {p q : Response}
  {tag : String} {event : Event} {fetch : Request → Except (Halt Failure) Response}

/-- An operation on the first tiers leaves the others as they are. -/
theorem getElem?_map_take (tiers : List (Tier σ)) (g : Tier σ → Tier σ) (count i : Nat) :
    ((tiers.take count).map g ++ tiers.drop count)[i]?
      = tiers[i]?.map fun t => if i < count then g t else t := by
  induction tiers generalizing count i with
  | nil => simp
  | cons t ts ih =>
    cases count with
    | zero => simp
    | succ count =>
      cases i with
      | zero => simp
      | succ i => simpa using ih count i

theorem length_map_take (tiers : List (Tier σ)) (g : Tier σ → Tier σ) (count : Nat) :
    ((tiers.take count).map g ++ tiers.drop count).length = tiers.length := by
  rw [List.length_append, List.length_map, ← List.length_append, List.take_append_drop]

/-! ## Down -/

section Descend

/-- There is an answer on the way down if a tier gave it. -/
theorem Descent.answer_eq_some_iff {d : Descent σ} :
    d.answer = some q ↔ d.standing = .answered q := by
  unfold Descent.answer
  cases d.standing <;> simp [Standing.answer?]

/-- Where a request stops after a lookup, unless it is passed on. -/
def stop? : Cache.Finding → Option Standing
  | .serve _ q _ => some (.answered q)
  | .pass _ => none
  | .crash => some .crashed

/-- Where a request stops at a tier, unless the tier passes it on. -/
def stopAt (b : Backend σ) (r : Request) (now : Instant) (t : Tier σ) : Option Standing :=
  stop? (Cache.start b t.config t.storage r now).finding

def started (b : Backend σ) (r : Request) (now : Instant) (t : Tier σ) : Tier σ :=
  { t with storage := (Cache.start b t.config t.storage r now).storage }

section Cons

variable {t : Tier σ} {ts : List (Tier σ)}

theorem stopAt_of_serve
    (h : (Cache.start b t.config t.storage r now).finding = .serve tag q e) :
    stopAt b r now t = some (.answered q) := by
  rw [stopAt, h, stop?]

theorem stopAt_of_pass (h : (Cache.start b t.config t.storage r now).finding = .pass event) :
    stopAt b r now t = none := by
  rw [stopAt, h, stop?]

theorem stopAt_of_crash (h : (Cache.start b t.config t.storage r now).finding = .crash) :
    stopAt b r now t = some .crashed := by
  rw [stopAt, h, stop?]

/-- An answer is a response that the tier serves. -/
theorem serve_of_stopAt (h : stopAt b r now t = some (.answered q)) :
    ∃ tag e, (Cache.start b t.config t.storage r now).finding = .serve tag q e := by
  unfold stopAt at h
  cases hfinding : (Cache.start b t.config t.storage r now).finding with
  | serve tag q' e =>
    rw [hfinding, stop?, Option.some.injEq, Standing.answered.injEq] at h
    exact ⟨tag, e, by rw [h]⟩
  | pass event =>
    rw [hfinding] at h
    cases h
  | crash =>
    rw [hfinding] at h
    cases h

theorem descend_cons_of_serve (depth : Nat)
    (h : (Cache.start b t.config t.storage r now).finding = .serve tag q e) :
    descend b r now depth (t :: ts) =
      ⟨started b r now t :: ts, [eventAt depth r (.hit tag e)], 0, .answered q⟩ := by
  simp only [descend, h, started]

theorem descend_cons_of_pass (depth : Nat)
    (h : (Cache.start b t.config t.storage r now).finding = .pass event) :
    descend b r now depth (t :: ts) =
      let below := descend b r now (depth + 1) ts
      ⟨started b r now t :: below.tiers, eventAt depth r event :: below.notices,
        below.passed + 1, below.standing⟩ := by
  simp only [descend, h, started]

theorem descend_cons_of_crash (depth : Nat)
    (h : (Cache.start b t.config t.storage r now).finding = .crash) :
    descend b r now depth (t :: ts) = ⟨started b r now t :: ts, [], 0, .crashed⟩ := by
  simp only [descend, h, started]

end Cons

/-- The tiers that pass a request on are those before the first one where it stops. -/
theorem passed_descend (tiers : List (Tier σ)) (depth : Nat) :
    (descend b r now depth tiers).passed
      = tiers.findIdx fun t => (stopAt b r now t).isSome := by
  induction tiers generalizing depth with
  | nil => rfl
  | cons t ts ih =>
    rw [List.findIdx_cons]
    cases h : (Cache.start b t.config t.storage r now).finding with
    | serve tag q e =>
      rw [descend_cons_of_serve depth h, stopAt_of_serve h]
      rfl
    | pass event =>
      rw [descend_cons_of_pass depth h, stopAt_of_pass h]
      simp [ih]
    | crash =>
      rw [descend_cons_of_crash depth h, stopAt_of_crash h]
      rfl

/-- The first tier that stops the way down decides where the request stands. -/
theorem standing_descend (tiers : List (Tier σ)) (depth : Nat) :
    (descend b r now depth tiers).standing = (tiers.findSome? (stopAt b r now)).getD .passed := by
  induction tiers generalizing depth with
  | nil => rfl
  | cons t ts ih =>
    rw [List.findSome?_cons]
    cases h : (Cache.start b t.config t.storage r now).finding with
    | serve tag q e =>
      rw [descend_cons_of_serve depth h, stopAt_of_serve h]
      rfl
    | pass event =>
      rw [descend_cons_of_pass depth h, stopAt_of_pass h]
      exact ih (depth + 1)
    | crash =>
      rw [descend_cons_of_crash depth h, stopAt_of_crash h]
      rfl

/-- The tiers down to the one where the request stops have looked for it, the others are as
before. -/
theorem tiers_descend (tiers : List (Tier σ)) (depth : Nat) :
    (descend b r now depth tiers).tiers
      = let count := (descend b r now depth tiers).passed + 1
        (tiers.take count).map (started b r now) ++ tiers.drop count := by
  induction tiers generalizing depth with
  | nil => rfl
  | cons t ts ih =>
    cases h : (Cache.start b t.config t.storage r now).finding with
    | serve tag q e =>
      rw [descend_cons_of_serve depth h]
      simp
    | pass event =>
      rw [descend_cons_of_pass depth h]
      simpa using ih (depth + 1)
    | crash =>
      rw [descend_cons_of_crash depth h]
      simp

/-- No tier is lost on the way down. -/
theorem length_descend (tiers : List (Tier σ)) (depth : Nat) :
    (descend b r now depth tiers).tiers.length = tiers.length := by
  rw [tiers_descend, length_map_take]

/-- The depth at which a request starts only shows in the notices. -/
theorem descend_depth (b : Backend σ) (r : Request) (now : Instant) (tiers : List (Tier σ))
    (depth depth' : Nat) :
    (descend b r now depth tiers).passed = (descend b r now depth' tiers).passed
      ∧ (descend b r now depth tiers).standing = (descend b r now depth' tiers).standing
      ∧ (descend b r now depth tiers).tiers = (descend b r now depth' tiers).tiers := by
  have hpassed : (descend b r now depth tiers).passed = (descend b r now depth' tiers).passed := by
    rw [passed_descend, passed_descend]
  refine ⟨hpassed, ?_, ?_⟩
  · rw [standing_descend, standing_descend]
  · rw [tiers_descend tiers depth, tiers_descend tiers depth', hpassed]

/-- A request that stops does so at the tier below those that passed it on. -/
theorem getElem?_passed_descend {tiers : List (Tier σ)} {depth : Nat}
    (h : (descend b r now depth tiers).standing ≠ .passed) :
    ∃ t, tiers[(descend b r now depth tiers).passed]? = some t
      ∧ stopAt b r now t = some (descend b r now depth tiers).standing := by
  induction tiers generalizing depth with
  | nil => exact absurd rfl h
  | cons t ts ih =>
    cases ht : (Cache.start b t.config t.storage r now).finding with
    | serve tag q e =>
      rw [descend_cons_of_serve depth ht]
      exact ⟨t, rfl, stopAt_of_serve ht⟩
    | pass event =>
      rw [descend_cons_of_pass depth ht] at h ⊢
      obtain ⟨u, hu, hstop⟩ := ih h
      exact ⟨u, by simpa using hu, hstop⟩
    | crash =>
      rw [descend_cons_of_crash depth ht]
      exact ⟨t, rfl, stopAt_of_crash ht⟩

/-- A request that comes through has passed every tier. -/
theorem passed_descend_of_passed {tiers : List (Tier σ)} {depth : Nat}
    (h : (descend b r now depth tiers).standing = .passed) :
    (descend b r now depth tiers).passed = tiers.length := by
  induction tiers generalizing depth with
  | nil => rfl
  | cons t ts ih =>
    cases ht : (Cache.start b t.config t.storage r now).finding with
    | serve tag q e =>
      rw [descend_cons_of_serve depth ht] at h
      cases h
    | pass event =>
      rw [descend_cons_of_pass depth ht] at h ⊢
      exact congrArg (· + 1) (ih h)
    | crash =>
      rw [descend_cons_of_crash depth ht] at h
      cases h

end Descend

/-! ## Up -/

section Ascend

def settled (b : Backend σ) (r : Request) (now : Instant) (p : Response) (t : Tier σ) : Tier σ :=
  { t with storage := (Cache.settle b t.config t.storage r now p).storage }

def keeper? (n : TierNotice) : Option Nat :=
  match n.notice with
  | .event ⟨_, .stored _⟩ => some n.depth
  | _ => none

def keepers (notices : List TierNotice) : List Nat :=
  notices.filterMap keeper?

theorem tiers_ascend (tiers : List (Tier σ)) (depth count : Nat) :
    (ascend b r now p depth count tiers).1
      = (tiers.take count).map (settled b r now p) ++ tiers.drop count := by
  induction tiers generalizing depth count with
  | nil => simp [ascend]
  | cons t ts ih =>
    cases count with
    | zero => simp [ascend]
    | succ count => simp [ascend, ih, settled]

/-- Whether a response that comes up to a tier is reported as written there. -/
def Keeps (b : Backend σ) (r : Request) (now : Instant) (p : Response) (t : Tier σ) : Prop :=
  ∃ e, (Cache.settle b t.config t.storage r now p).event = .stored e

theorem keepers_append (l l' : List TierNotice) : keepers (l ++ l') = keepers l ++ keepers l' :=
  List.filterMap_append

theorem keepers_records (depth : Nat) (records : List LogRecord) :
    keepers (records.map fun record => ⟨depth, .record record⟩) = [] := by
  simp [keepers, keeper?, Function.comp_def]

theorem mem_keepers_event {d depth : Nat} {event : Event} :
    d ∈ keepers [eventAt depth r event] ↔ d = depth ∧ ∃ e, event = .stored e := by
  cases event <;> simp [keepers, keeper?, eventAt, eq_comm]

/-- The tiers that report a write are those that passed the request on and whose storage took the
response. -/
theorem mem_keepers_ascend {tiers : List (Tier σ)} {depth count d : Nat} :
    d ∈ keepers (ascend b r now p depth count tiers).2 ↔
      ∃ i t, d = depth + i ∧ i < count ∧ tiers[i]? = some t ∧ Keeps b r now p t := by
  induction tiers generalizing depth count with
  | nil => simp [ascend, keepers]
  | cons t ts ih =>
    cases count with
    | zero => simp [ascend, keepers]
    | succ count =>
      simp only [ascend, keepers_append, keepers_records, List.append_nil, List.mem_append,
        mem_keepers_event, ih]
      constructor
      · rintro (⟨i, u, rfl, hi, hu, hkeeps⟩ | ⟨rfl, hkeeps⟩)
        · exact ⟨i + 1, u, by omega, by omega, by simpa using hu, hkeeps⟩
        · exact ⟨0, t, rfl, by omega, rfl, hkeeps⟩
      · rintro ⟨i, u, rfl, hi, hu, hkeeps⟩
        cases i with
        | zero =>
          obtain rfl : t = u := by simpa using hu
          exact .inr ⟨rfl, hkeeps⟩
        | succ i => exact .inl ⟨i, u, by omega, by omega, by simpa using hu, hkeeps⟩

/-- The tiers that keep a response on its way up are among those that the request has passed. -/
theorem mem_keepers_ascend_zero {tiers : List (Tier σ)} {count d : Nat} :
    d ∈ keepers (ascend b r now p 0 count tiers).2 ↔
      d < count ∧ ∃ t, tiers[d]? = some t ∧ Keeps b r now p t := by
  rw [mem_keepers_ascend]
  constructor
  · rintro ⟨i, t, rfl, hi, ht, hkeeps⟩
    rw [Nat.zero_add]
    exact ⟨hi, t, ht, hkeeps⟩
  · rintro ⟨hd, t, ht, hkeeps⟩
    exact ⟨d, t, (Nat.zero_add d).symm, hd, ht, hkeeps⟩

end Ascend

/-! ## One tier in front of the others -/

section Cons

/-- What the first tier of a stack reaches outside itself: its storage, and the tiers below. -/
def outside (b : Backend σ) (now : Instant) (fetch : Request → Except (Halt Failure) Response) :
    World (σ × List (Tier σ)) where
  storage := {
    origin := fun s => b.origin s.1
    get := fun s key t =>
      let got := b.get s.1 key t
      (got.1, got.2, s.2)
    set := fun s key entry ttl t =>
      let reply := b.set s.1 key entry ttl t
      ⟨reply.result, reply.records, reply.state, s.2⟩ }
  fetch s r :=
    let below := send b s.2 r now fetch
    (below.result, s.1, below.tiers)

theorem lifts_outside : b.Lifts (outside b now fetch).storage Prod.fst where
  origin _ := rfl
  get_result _ _ _ := rfl
  get_state _ _ _ := rfl
  set_result _ _ _ _ _ := rfl
  set_state _ _ _ _ _ := rfl

/-- What a tier does at the start of a send depends on its own storage, and not on the tiers behind
it. -/
theorem start_outside (b : Backend σ) (r : Request) (now : Instant)
    (fetch : Request → Except (Halt Failure) Response) (c : Config) (storage : σ)
    (ts : List (Tier σ)) :
    (Cache.start (outside b now fetch).storage c (storage, ts) r now).finding
        = (Cache.start b c storage r now).finding
      ∧ (Cache.start (outside b now fetch).storage c (storage, ts) r now).storage
        = ((started b r now ⟨c, storage⟩).storage, ts) := by
  refine ⟨lifts_outside.finding_eq c (storage, ts) r now, ?_⟩
  rw [Cache.start_storage, started, Cache.start_storage]
  split <;> rfl

theorem settle_outside (c : Config) (storage : σ) (ts : List (Tier σ)) :
    (Cache.settle (outside b now fetch).storage c (storage, ts) r now p).storage
      = ((settled b r now p ⟨c, storage⟩).storage, ts) := by
  rw [Cache.settle_storage, settled, Cache.settle_storage, lifts_outside.origin]
  cases Cache.weigh c r (b.origin storage) now p with
  | skip event => rfl
  | write entry e => rfl

/-- What a request comes to that stands so after it has gone down. -/
def resultOf (r : Request) (fetch : Request → Except (Halt Failure) Response) :
    Standing → Except (Halt Failure) Response
  | .answered q => .ok q
  | .passed => fetch r
  | .crashed => .error .crashed

/-- The answer of a stack and its tiers afterwards, without the notices. -/
theorem send_eq (b : Backend σ) (r : Request) (now : Instant)
    (fetch : Request → Except (Halt Failure) Response) (tiers : List (Tier σ)) :
    let d := descend b r now 0 tiers
    (send b tiers r now fetch).result = resultOf r fetch d.standing
      ∧ (send b tiers r now fetch).tiers = (match (send b tiers r now fetch).result with
        | .ok p => (d.tiers.take d.passed).map (settled b r now p) ++ d.tiers.drop d.passed
        | .error _ => d.tiers) := by
  intro d
  obtain ⟨hresult, htiers⟩ : (send b tiers r now fetch).result = resultOf r fetch d.standing
      ∧ (send b tiers r now fetch).tiers
        = (finish b r now d.passed (resultOf r fetch d.standing) d.tiers).1 := by
    unfold send
    cases hstanding : d.standing <;> simp only [d] at hstanding ⊢ <;> rw [hstanding]
      <;> exact ⟨rfl, rfl⟩
  refine ⟨hresult, ?_⟩
  rw [htiers, ← hresult]
  cases (send b tiers r now fetch).result with
  | ok p => simp only [finish, tiers_ascend]
  | error halt => rfl

/-- A stack is a cache in front of the stack of its other tiers: the first tier answers or crashes,
or else passes the request to them as to its origin and may keep what comes back. -/
theorem send_cons (t : Tier σ) (ts : List (Tier σ)) :
    let above := (outside b now fetch).send t.config (t.storage, ts) r now now
    (send b (t :: ts) r now fetch).result = above.1
      ∧ (send b (t :: ts) r now fetch).tiers = ⟨t.config, above.2.1⟩ :: above.2.2 := by
  intro above
  obtain ⟨hfound, hstarted⟩ := start_outside b r now fetch t.config t.storage ts
  obtain ⟨hresult, htiers⟩ := send_eq b r now fetch (t :: ts)
  cases hfinding : (Cache.start b t.config t.storage r now).finding with
  | serve tag q e =>
    rw [descend_cons_of_serve 0 hfinding] at hresult htiers
    have habove : above = (.ok q, (started b r now t).storage, ts) := by
      rw [show above = _ from World.send_of_serve (hfound.trans hfinding), hstarted]
    rw [habove]
    dsimp only [resultOf] at hresult htiers
    rw [hresult] at htiers
    exact ⟨hresult, htiers⟩
  | crash =>
    rw [descend_cons_of_crash 0 hfinding] at hresult htiers
    have habove : above = (.error .crashed, (started b r now t).storage, ts) := by
      rw [show above = _ from World.send_of_crash (hfound.trans hfinding), hstarted]
    rw [habove]
    dsimp only [resultOf] at hresult htiers
    rw [hresult] at htiers
    exact ⟨hresult, htiers⟩
  | pass event =>
    obtain ⟨hbelow, htiersBelow⟩ := send_eq b r now fetch ts
    have hfetch : (outside b now fetch).fetch ((started b r now t).storage, ts) r
        = ((send b ts r now fetch).result, (started b r now t).storage,
          (send b ts r now fetch).tiers) := rfl
    obtain ⟨hpassed, hstandings, htiersDown⟩ := descend_depth b r now ts 1 0
    rw [descend_cons_of_pass 0 hfinding] at hresult htiers
    dsimp only at hresult htiers
    rw [hstandings, ← hbelow] at hresult
    rw [hresult, hpassed, htiersDown] at htiers
    have hpass := hfound.trans hfinding
    rw [← hstarted] at hfetch
    cases hsent : (send b ts r now fetch).result with
    | ok p =>
      rw [hsent] at hfetch htiers htiersBelow hresult
      have habove : above = (.ok p, (settled b r now p (started b r now t)).storage,
          (send b ts r now fetch).tiers) := by
        rw [show above = _ from World.send_of_response hpass hfetch, settle_outside]
        rfl
      rw [habove, htiers, htiersBelow]
      exact ⟨hresult, rfl⟩
    | error halt =>
      rw [hsent] at hfetch htiers htiersBelow hresult
      have habove : above = (.error halt, (started b r now t).storage,
          (send b ts r now fetch).tiers) :=
        World.send_of_halt hpass hfetch
      rw [habove, htiers, htiersBelow]
      exact ⟨hresult, rfl⟩

end Cons

/-! ## A stack of one tier -/

section Single

variable {c : Config} {s : σ} {halt : Halt Failure}

theorem send_single_of_serve (h : (Cache.start b c s r now).finding = .serve tag q e) :
    send b [⟨c, s⟩] r now fetch = ⟨[⟨c, (Cache.start b c s r now).storage⟩],
      [eventAt 0 r (.hit tag e)], [], .ok q⟩ := by
  simp [send, descend, finish, ascend, h]

theorem send_single_of_crash (h : (Cache.start b c s r now).finding = .crash) :
    send b [⟨c, s⟩] r now fetch
      = ⟨[⟨c, (Cache.start b c s r now).storage⟩], [], [], .error .crashed⟩ := by
  simp [send, descend, finish, h]

theorem send_single_of_error (h : (Cache.start b c s r now).finding = .pass event)
    (hfetch : fetch r = .error halt) :
    send b [⟨c, s⟩] r now fetch = ⟨[⟨c, (Cache.start b c s r now).storage⟩],
      [eventAt 0 r event], [r], .error halt⟩ := by
  simp [send, descend, finish, h, hfetch]

theorem send_single_of_ok (h : (Cache.start b c s r now).finding = .pass event)
    (hfetch : fetch r = .ok p) :
    send b [⟨c, s⟩] r now fetch =
      let settled := Cache.settle b c (Cache.start b c s r now).storage r now p
      ⟨[⟨c, settled.storage⟩], eventAt 0 r event
          :: (settled.records.map (fun record => ⟨0, .record record⟩)
            ++ [eventAt 0 r settled.event]), [r], .ok p⟩ := by
  simp [send, descend, finish, ascend, h, hfetch]

/-- Log records are no events. -/
theorem events_of_settled (depth : Nat) (records : List LogRecord) (first last : Event) :
    (eventAt depth r first :: (records.map (fun record => ⟨depth, .record record⟩)
        ++ [eventAt depth r last])).filterMap TierNotice.event?
      = [(depth, ⟨Key.ofRequest r, first⟩), (depth, ⟨Key.ofRequest r, last⟩)] := by
  simp [TierNotice.event?, eventAt, Function.comp_def]

end Single

end ResponseCache.Stack
