import ResponseCache.Proofs.Directive.First
import ResponseCache.Proofs.Evaluation.Reading
import ResponseCache.Proofs.Time.Later

/-!
# Expiry and freshness

The time of expiry belongs to the response: it depends on its receipt and on the headers that came
with it, but not on the request that it is judged for nor on the time of judging
(`expiresAt_asking`). Freshness is the other way round: given the time of expiry it depends on
the clock, the receipt and the two limits in the request (`freshness_eq_fresh_iff`). Outside leap
seconds a fresh response has not expired yet, whatever the request asks for, and a stale one stays
stale when time passes (`stale_of_le`) and for a request that is no looser (`stale_of_noLooser`).
The first limit of a name counts, so that a larger `max-age` in front of the one that is there makes
a request looser. Then there is a response that is stale for the one request and fresh for the other
(`exists_fresh_of_looser`).
-/

namespace ResponseCache

namespace Assessment

variable {a : Assessment} {e : Instant}

theorem isLeap_expiresAt (c : Config) (h : a.receivedAt.isLeap = false) :
    (a.expiresAt c).isLeap = false := by
  unfold expiresAt
  cases hs : a.receivedAt.shift? (a.lifetime c).span with
  | none => rfl
  | some t => exact (Instant.shift?_eq_some h hs).1

theorem freshness_eq_stale_iff : a.freshness e = .stale ↔ a.freshness e ≠ .fresh := by
  cases a.freshness e with
  | fresh => simp
  | stale => simp

/-- A response is fresh if it is no older than the request allows and does not expire within the
time that the request wants it to last. -/
theorem freshness_eq_fresh_iff :
    a.freshness e = .fresh ↔
      (∀ n, a.request.maxAge = some n → a.age ≤ n * nanosPerSecond)
        ∧ (a.request.minFresh.getD 0 : Nat) * nanosPerSecond < e.since a.now := by
  have hage : a.admitsAge = true ↔
      ∀ n, a.request.maxAge = some n → a.age ≤ n * nanosPerSecond := by
    unfold admitsAge
    cases a.request.maxAge <;> simp
  simp only [freshness, ite_eq_left_iff, reduceCtorEq, imp_false, Decidable.not_not, hage]
  refine and_congr_right fun _ => ?_
  omega

/-- Outside leap seconds, what is fresh expires after now. No directive of the request can defer
this: `min-fresh` only brings the end forward and `max-stale` has no part in it. -/
theorem lt_of_freshness_eq_fresh (hnow : a.now.isLeap = false) (he : e.isLeap = false)
    (h : a.freshness e = .fresh) : a.now < e := by
  obtain ⟨-, hmin⟩ := freshness_eq_fresh_iff.1 h
  rw [Instant.since_eq he hnow] at hmin
  rw [Instant.lt_iff_toNanos_lt hnow he]
  have hreserve : 0 ≤ ((a.request.minFresh.getD 0 : Nat) : Int) * nanosPerSecond :=
    Int.mul_nonneg (Int.natCast_nonneg _) (by decide)
  omega

/-! ## Other limits, and later times -/

section Stale

variable {r : RequestDirectives} {later : Instant}

/-- The same response judged for another request. -/
def asking (a : Assessment) (r : RequestDirectives) : Assessment := { a with request := r }

/-- The same exchange judged at another time. -/
def judgedAt (a : Assessment) (now : Instant) : Assessment := { a with now := now }

theorem age_eq (hnow : a.now.isLeap = false) (hreceived : a.receivedAt.isLeap = false) :
    a.age = max 0 (a.now.toNanos - a.receivedAt.toNanos) := by
  rw [age, Instant.since_eq hnow hreceived, Int.max_comm]

open RequestDirectives in
/-- For a request that is no looser, what is stale stays so. -/
theorem stale_of_noLooser {asked asked' : List Directive}
    (hasked : ofDirectives asked = .ok a.request) (hasked' : ofDirectives asked' = .ok r)
    (hno : NoLooser asked asked') (h : a.freshness e = .stale) :
    (a.asking r).freshness e = .stale := by
  obtain ⟨hage, hfresh⟩ := (noLooser_iff hasked hasked').1 hno
  rw [freshness_eq_stale_iff] at h ⊢
  intro hfewer
  obtain ⟨hadmits, hlasts⟩ := freshness_eq_fresh_iff.1 hfewer
  refine h (freshness_eq_fresh_iff.2 ⟨fun n hn => ?_, ?_⟩)
  · obtain ⟨m, hm, hr⟩ := hage n hn
    exact Int.le_trans (hadmits m hr)
      (Int.mul_le_mul_of_nonneg_right (Int.ofNat_le.2 hm) (by decide))
  · refine Int.lt_of_le_of_lt ?_ hlasts
    exact Int.mul_le_mul_of_nonneg_right (Int.ofNat_le.2 hfresh) (by decide)

/-- Outside leap seconds, what is stale is stale at all later times. -/
theorem stale_of_le (hnow : a.now.isLeap = false) (hlater : later.isLeap = false)
    (hreceived : a.receivedAt.isLeap = false) (he : e.isLeap = false) (hle : a.now ≤ later)
    (h : a.freshness e = .stale) : (a.judgedAt later).freshness e = .stale := by
  rw [freshness_eq_stale_iff] at h ⊢
  intro hlasting
  obtain ⟨hadmits, hlasts⟩ := freshness_eq_fresh_iff.1 hlasting
  have hage := age_eq hnow hreceived
  have hage' : (a.judgedAt later).age = max 0 (later.toNanos - a.receivedAt.toNanos) :=
    age_eq hlater hreceived
  have hleft := Instant.since_eq he hnow
  have hleft' : e.since (a.judgedAt later).now = e.toNanos - later.toNanos :=
    Instant.since_eq he hlater
  rw [Instant.le_iff_toNanos_le hnow hlater] at hle
  refine h (freshness_eq_fresh_iff.2 ⟨fun n hn => ?_, ?_⟩)
  · have holder := hadmits n hn
    omega
  · refine Int.lt_of_lt_of_le hlasts ?_
    omega

end Stale

/-- Outside leap seconds a response is fresh if it does not expire within the `min-fresh` that the
request asks for, and is no older than the `max-age` that the request asks for. -/
theorem freshness_expiresAt_iff (c : Config) (hnow : a.now.isLeap = false)
    (hreceived : a.receivedAt.isLeap = false) :
    a.freshness (a.expiresAt c) = .fresh ↔
      a.now.toNanos + (a.request.minFresh.getD 0 : Nat) * nanosPerSecond
          < (a.expiresAt c).toNanos
        ∧ ∀ n, a.request.maxAge = some n →
          max 0 (a.now.toNanos - a.receivedAt.toNanos) ≤ n * nanosPerSecond := by
  rw [freshness_eq_fresh_iff, age_eq hnow hreceived,
    Instant.since_eq (isLeap_expiresAt c hreceived) hnow, and_comm]
  refine and_congr_left fun _ => ?_
  omega

/-! ## Looser limits -/

section Looser

open RequestDirectives

variable {ds r : RequestDirectives} {lifetime age : Nat}

/-- A response that was received at the epoch, expires after `lifetime` seconds, and is judged for a
request after `age` seconds. -/
def sinceEpoch (lifetime age : Nat) (ds : RequestDirectives) : Assessment where
  method := .get
  status := ⟨206, by decide, by decide⟩
  request := ds
  response := {}
  expires := some (.instant (Instant.epoch.afterSeconds lifetime))
  date := none
  lastModified := none
  now := Instant.epoch.afterSeconds age
  receivedAt := .epoch

theorem asking_sinceEpoch :
    (sinceEpoch lifetime age ds).asking r = sinceEpoch lifetime age r := by
  rw [asking, sinceEpoch, sinceEpoch]

theorem isLeap_now_sinceEpoch : (sinceEpoch lifetime age ds).now.isLeap = false := by
  have hepoch : Instant.epoch.isLeap = false := rfl
  rw [sinceEpoch, Instant.isLeap_afterSeconds_of_isLeap hepoch]

/-- The date in `Expires` is the one source of the lifetime, in every cache. -/
theorem toNanos_expiresAt_sinceEpoch (c : Config) (hlifetime : lifetime ≤ 8210266876799) :
    ((sinceEpoch lifetime age ds).expiresAt c).toNanos = lifetime * nanosPerSecond := by
  have hepoch : Instant.epoch.toNanos = 0 := rfl
  have hend : (Instant.epoch.afterSeconds lifetime).since .epoch = lifetime * 1000000000 := by
    rw [Instant.since_eq (Instant.isLeap_afterSeconds_of_isLeap rfl) rfl,
      Instant.toNanos_epoch_afterSeconds hlifetime, hepoch, Int.sub_zero]
  have hspan : ((sinceEpoch lifetime age ds).lifetime c).span = lifetime * 1000000000 := by
    simp only [Assessment.lifetime, dateLifetime, sinceEpoch, ite_self, Lifetime.explicit,
      Assessment.originDate, Option.getD_none, hend]
    omega
  rw [expiresAt, hspan]
  exact Instant.toNanos_epoch_afterSeconds hlifetime

/-- Within the calendar the rule is one on numbers of seconds. -/
theorem freshness_sinceEpoch_iff (c : Config) (hlifetime : lifetime ≤ 8210266876799)
    (hage : age ≤ 8210266876799) :
    (sinceEpoch lifetime age ds).freshness ((sinceEpoch lifetime age ds).expiresAt c) = .fresh ↔
      age + ds.minFresh.getD 0 < lifetime ∧ ∀ n, ds.maxAge = some n → age ≤ n := by
  have hnow : (sinceEpoch lifetime age ds).now.toNanos = age * nanosPerSecond := by
    rw [sinceEpoch, Instant.toNanos_epoch_afterSeconds hage, nanosPerSecond]
  have hreceived : (sinceEpoch lifetime age ds).receivedAt.toNanos = 0 := rfl
  rw [freshness_expiresAt_iff c isLeap_now_sinceEpoch rfl, hnow, hreceived,
    toNanos_expiresAt_sinceEpoch c hlifetime]
  show (_ : Int) + (ds.minFresh.getD 0 : Nat) * nanosPerSecond < _
    ∧ (∀ n, ds.maxAge = some n → _) ↔ _
  simp only [nanosPerSecond]
  refine and_congr (by omega) (forall₂_congr fun n _ => ?_)
  omega

/-- Where a request admits more than another, there is a response that is stale for the other and
fresh for it: one that has just got older than the other's `max-age`, or one that lasts just as long
as the other's `min-fresh`. -/
theorem exists_fresh_of_looser {asked asked' : List Directive} (c : Config)
    (hds : ofDirectives asked = .ok ds) (hr : ofDirectives asked' = .ok r)
    (hlooser : ¬ NoLooser asked asked') :
    ∃ b : Assessment, b.request = ds ∧ b.now.isLeap = false ∧ b.receivedAt.isLeap = false
      ∧ b.freshness (b.expiresAt c) = .stale
      ∧ (b.asking r).freshness ((b.asking r).expiresAt c) = .fresh := by
  have hfresh : ds.minFresh.getD 0 ≤ 2147483648 := minFresh_le hds
  have hfresh' : r.minFresh.getD 0 ≤ 2147483648 := minFresh_le hr
  rw [noLooser_iff hds hr, not_and_or] at hlooser
  rcases hlooser with hage | hmin
  · push Not at hage
    obtain ⟨n, hn, hnone⟩ := hage
    have hle : ds.maxAge.getD 0 ≤ 2147483648 := maxAge_le hds
    rw [hn, Option.getD_some] at hle
    refine ⟨sinceEpoch (n + 2 + r.minFresh.getD 0) (n + 1) ds, rfl,
      isLeap_now_sinceEpoch, rfl, ?_, ?_⟩
    · rw [freshness_eq_stale_iff, ne_eq, freshness_sinceEpoch_iff c (by omega) (by omega)]
      exact fun h => absurd (h.2 n hn) (by omega)
    · rw [asking_sinceEpoch, freshness_sinceEpoch_iff c (by omega) (by omega)]
      refine ⟨by omega, fun m hm => ?_⟩
      by_contra hlt
      exact hnone m (by omega) hm
  · refine ⟨sinceEpoch (ds.minFresh.getD 0) 0 ds, rfl, isLeap_now_sinceEpoch, rfl, ?_, ?_⟩
    · rw [freshness_eq_stale_iff, ne_eq, freshness_sinceEpoch_iff c (by omega) (by omega)]
      exact fun h => absurd h.1 (by omega)
    · rw [asking_sinceEpoch, freshness_sinceEpoch_iff c (by omega) (by omega)]
      exact ⟨by omega, fun m _ => Nat.zero_le m⟩

end Looser

/-! ## The rule in nanoseconds -/

section Rule

open RequestDirectives

/-- When a response may be served, as a rule on numbers of nanoseconds outside leap seconds: it does
not expire within the `min-fresh` that the request asks for, and it is no older than the `max-age`
that the request asks for. The first directive of a name counts. So a directive that is added to a
request does not make a stale response fresh, unless it is a `max-age` or `min-fresh` in front of
all of its own name, and neither do further lines, a larger `min-fresh`, a smaller `max-age` or the
passage of time. This is as much as can be said of any two requests: if the one is looser than the
other, there is a response that is fresh for it and stale for the other. -/
theorem freshness_rule (c : Config) (hnow : a.now.isLeap = false)
    (hreceived : a.receivedAt.isLeap = false) :
    (a.freshness (a.verdict c).expiresAt = .fresh ↔
        a.now.toNanos + (a.request.minFresh.getD 0 : Nat) * nanosPerSecond
            < (a.verdict c).expiresAt.toNanos
          ∧ ∀ n, a.request.maxAge = some n →
            max 0 (a.now.toNanos - a.receivedAt.toNanos) ≤ n * nanosPerSecond)
      ∧ (a.freshness (a.verdict c).expiresAt = .stale →
        (∀ front d back r, ofDirectives (front ++ back) = .ok a.request →
            ofDirectives (front ++ d :: back) = .ok r →
            (d.name ∈ ["max-age", "min-fresh"] →
              Directive.isNamed d.name front = true ∨ Directive.isNamed d.name back = false) →
            (a.asking r).freshness ((a.asking r).verdict c).expiresAt = .stale)
          ∧ (∀ lines more r, ofText (Exchange.joinLines lines) = .ok a.request →
            ofText (Exchange.joinLines (lines ++ more)) = .ok r →
            (a.asking r).freshness ((a.asking r).verdict c).expiresAt = .stale)
          ∧ (∀ asked asked' r, ofDirectives asked = .ok a.request →
            ofDirectives asked' = .ok r → NoLooser asked asked' →
            (a.asking r).freshness ((a.asking r).verdict c).expiresAt = .stale)
          ∧ ∀ later, later.isLeap = false → a.now ≤ later →
            (a.judgedAt later).freshness ((a.judgedAt later).verdict c).expiresAt = .stale)
      ∧ ∀ asked asked' ds r, ofDirectives asked = .ok ds → ofDirectives asked' = .ok r →
        ¬ NoLooser asked asked' →
        ∃ b : Assessment, b.request = ds ∧ b.now.isLeap = false ∧ b.receivedAt.isLeap = false
          ∧ b.freshness (b.verdict c).expiresAt = .stale
          ∧ (b.asking r).freshness ((b.asking r).verdict c).expiresAt = .fresh := by
  simp only [verdict]
  refine ⟨freshness_expiresAt_iff c hnow hreceived, fun hstale => ⟨?_, ?_, ?_, ?_⟩, ?_⟩
  · intro front d back r hasked hasked' hplace
    exact stale_of_noLooser hasked hasked' (noLooser_insert hplace) hstale
  · intro lines more r hasked hasked'
    exact stale_of_noLooser hasked hasked' (noLooser_joinLines_append hasked') hstale
  · intro asked asked' r hasked hasked' hno
    exact stale_of_noLooser hasked hasked' hno hstale
  · intro later hlater hle
    exact stale_of_le hnow hlater hreceived (isLeap_expiresAt c hreceived) hle hstale
  · intro asked asked' ds r hds hr hlooser
    exact exists_fresh_of_looser c hds hr hlooser

end Rule

end Assessment

namespace Sample

/-- The time of the given number of seconds after the epoch, up to a day. -/
def second (n : Fin 86400) : Instant where
  seconds := n.val
  nanos := 0
  seconds_ge := by omega
  seconds_le := by omega
  nanos_lt := Instant.epoch.nanos_lt
  leap_last h := absurd h (by decide)

/-- A response with a lifetime of one minute that was received at the epoch, one minute later, when
a request takes it up to an age of a hundred seconds. -/
def minuteOld : Assessment where
  method := .get
  status := ⟨206, by decide, by decide⟩
  request := { maxAge := some 100 }
  response := { maxAge := some 60 }
  expires := none
  date := none
  lastModified := none
  now := second 60
  receivedAt := .epoch

/-- The directives `min-fresh=5` and `max-age=100`. -/
def withReserve : RequestDirectives := { maxAge := some 100, minFresh := some 5 }

/-- The directives `max-stale`, `max-age=90` and `min-fresh=5`. -/
def stricter : RequestDirectives :=
  { maxAge := some 90, minFresh := some 5, maxStale := some .any }

/-- The directives of the two lines `max-age=100` and `max-stale, max-age=200`. -/
def lenient : RequestDirectives := { maxAge := some 100, maxStale := some .any }

/-- The same response after twenty seconds, when a request takes it up to an age of ten. -/
def twentySecondsOld : Assessment :=
  { minuteOld with request := { maxAge := some 10 }, now := second 20 }

end Sample

namespace Assessment

open Sample RequestDirectives in
theorem freshness_rule_minuteOld :
    minuteOld.now.isLeap = false ∧ minuteOld.receivedAt.isLeap = false
      ∧ minuteOld.freshness (minuteOld.verdict .sharedCache).expiresAt = .stale
      ∧ (minuteOld.asking withReserve).freshness
          ((minuteOld.asking withReserve).verdict .sharedCache).expiresAt = .stale
      ∧ (minuteOld.asking lenient).freshness
          ((minuteOld.asking lenient).verdict .sharedCache).expiresAt = .stale
      ∧ (minuteOld.asking stricter).freshness
          ((minuteOld.asking stricter).verdict .sharedCache).expiresAt = .stale
      ∧ (minuteOld.judgedAt (second 61)).freshness
          ((minuteOld.judgedAt (second 61)).verdict .sharedCache).expiresAt = .stale
      ∧ ∃ b : Assessment, b.request = minuteOld.request
        ∧ b.now.isLeap = false ∧ b.receivedAt.isLeap = false
        ∧ b.freshness (b.verdict .sharedCache).expiresAt = .stale
        ∧ (b.asking {}).freshness ((b.asking {}).verdict .sharedCache).expiresAt = .fresh := by
  have hstale : minuteOld.freshness (minuteOld.verdict .sharedCache).expiresAt = .stale := by
    decide +kernel
  have hasked : ofDirectives [⟨"max-age", some "100"⟩] = .ok minuteOld.request :=
    eq_ok_of_toOption (by decide)
  have hfront : ofDirectives [⟨"min-fresh", some "5"⟩, ⟨"max-age", some "100"⟩] = .ok withReserve :=
    eq_ok_of_toOption (by decide)
  have hline : ofText (Exchange.joinLines ["max-age=100".toList]) = .ok minuteOld.request :=
    eq_ok_of_toOption (by decide +kernel)
  have hlines : ofText (Exchange.joinLines ["max-age=100".toList, "max-stale, max-age=200".toList])
      = .ok lenient :=
    eq_ok_of_toOption (by decide +kernel)
  have hstricter : ofDirectives
      [⟨"max-stale", none⟩, ⟨"max-age", some "90"⟩, ⟨"min-fresh", some "5"⟩] = .ok stricter :=
    eq_ok_of_toOption (by decide)
  have hno := (noLooser_iff hasked hstricter).2
    ⟨fun n hn => ⟨90, by cases hn; decide, rfl⟩, by decide⟩
  have hlooser : ¬ NoLooser [⟨"max-age", some "100"⟩] [] := fun h => by
    obtain ⟨m, -, hm⟩ := h.maxAge 100 (by decide)
    cases hm
  obtain ⟨-, hrule, hexact⟩ := freshness_rule (a := minuteOld) .sharedCache rfl rfl
  obtain ⟨hinsert, hadded, hkept, hlater⟩ := hrule hstale
  exact ⟨rfl, rfl, hstale, hinsert [] ⟨"min-fresh", some "5"⟩ _ _ hasked hfront (by decide),
    hadded _ [_] _ hline hlines, hkept _ _ _ hasked hstricter hno, hlater _ rfl (by decide),
    hexact _ _ _ _ hasked (eq_ok_of_toOption (by decide)) hlooser⟩

open Sample RequestDirectives in
/-- A `max-age` that is added in front of a smaller one makes a stale response fresh. -/
theorem fresh_of_looser_in_front :
    ofText "max-age=10".toList = .ok twentySecondsOld.request
      ∧ ofText "max-age=100, max-age=10".toList = .ok { maxAge := some 100 }
      ∧ twentySecondsOld.now.isLeap = false ∧ twentySecondsOld.receivedAt.isLeap = false
      ∧ twentySecondsOld.freshness (twentySecondsOld.verdict .sharedCache).expiresAt = .stale
      ∧ (twentySecondsOld.asking { maxAge := some 100 }).freshness
          ((twentySecondsOld.asking { maxAge := some 100 }).verdict .sharedCache).expiresAt
            = .fresh :=
  ⟨eq_ok_of_toOption (by decide +kernel), eq_ok_of_toOption (by decide +kernel), rfl, rfl,
    by decide +kernel, by decide +kernel⟩

end Assessment

namespace Exchange

/-- The time of expiry of a response stays the same whoever asks for it, and whenever, as long as
the time of receipt is the same. -/
theorem expiresAt_asking (w : Reading) (asked : List Char) (ds : RequestDirectives) (c : Config)
    (x x' : Exchange) (now now' receivedAt : Instant) :
    ((w.asking asked ds).assessment x' now' receivedAt).expiresAt c
      = (w.assessment x now receivedAt).expiresAt c := by
  simp only [Assessment.expiresAt, Assessment.lifetime, Assessment.dateLifetime,
    Assessment.originDate, Reading.assessment, Reading.asking]

end Exchange

end ResponseCache
