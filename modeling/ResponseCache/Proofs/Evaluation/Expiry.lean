import ResponseCache.Proofs.Directive.First
import ResponseCache.Proofs.Evaluation.Estimate
import ResponseCache.Proofs.Evaluation.Freshness

/-!
# When a response expires

A response can state its lifetime in more ways than one. The statements that a cache follows are the
sources of the lifetime, in their order (`Reading.sources`), and the first of them alone counts
(`Reading.lifetime_eq`): responses that were received together and whose first sources are the same
expire together (`expiresAt_of_head?_eq`). Outside leap seconds each source gives a number of
nanoseconds (`Source.span`), which is not negative, so the time of expiry is this number behind the
receipt, cut off at the end of the calendar (`expiry_rule`).
-/

namespace ResponseCache

open Exchange

/-- A statement of a response from which a cache takes its lifetime. -/
inductive Source where
  /-- The number of seconds in `s-maxage` or `max-age`. -/
  | seconds (n : Nat)
  /-- An `Expires` that says that the response has expired already. -/
  | expired
  /-- The date in `Expires`, and when the origin made the response. -/
  | expires (t made : Instant)
  /-- The date in `Last-Modified`, and when the origin made the response. -/
  | modified (t made : Instant)

namespace Source

variable {c : Config} {s : Source}

/-- What `Expires` states about a response that was made at the given time. -/
def ofExpires (made : Instant) : HeaderDate → Source
  | .alreadyExpired => expired
  | .instant t => expires t made

def lifetime (c : Config) : Source → Lifetime
  | seconds n => .ofSeconds n
  | expired => .explicit 0
  | expires t made => .explicit (t.since made)
  | modified t made => .estimate (made.since t) c

/-- The nanoseconds for which a response with this source is fresh after its receipt. -/
def span (c : Config) : Source → Int
  | seconds n => n * 1000000000
  | expired => 0
  | expires t made => max 0 (t.toNanos - made.toNanos)
  | modified t made =>
    if t < made then
      min (Lifetime.scaled (made.toNanos - t.toNanos) c.heuristicFraction) c.heuristicCap.toNanos
    else 0

/-- Whether the lifetime is estimated. -/
def IsEstimate : Source → Prop
  | modified t made => t < made
  | _ => False

/-- The instants of the source lie outside leap seconds. -/
def AvoidsLeaps : Source → Prop
  | expires t made => t.isLeap = false ∧ made.isLeap = false
  | modified t made => t.isLeap = false ∧ made.isLeap = false
  | _ => True

theorem span_lifetime (h : s.AvoidsLeaps) : (s.lifetime c).span = s.span c := by
  cases s with
  | seconds n => exact Int.max_eq_left (Int.mul_nonneg (Int.natCast_nonneg n) (by decide))
  | expired => rfl
  | expires t made =>
    rw [lifetime, Lifetime.explicit, span, Instant.since_eq h.1 h.2, Int.max_comm]
  | modified t made =>
    have hlt : ¬ made.toNanos - t.toNanos ≤ 0 ↔ t < made := by
      rw [Instant.lt_iff_toNanos_lt h.1 h.2]
      omega
    rw [lifetime, Lifetime.estimate, span, Instant.since_eq h.2 h.1]
    by_cases hmade : t < made
    · rw [if_neg (hlt.2 hmade), if_pos hmade, Lifetime.min_scaled_cap]
    · rw [if_pos (Decidable.not_not.1 (mt hlt.1 hmade)), if_neg hmade]
      rfl

theorem heuristic_lifetime (h : s.AvoidsLeaps) :
    (s.lifetime c).heuristic = true ↔ s.IsEstimate := by
  cases s with
  | modified t made =>
    rw [lifetime, Lifetime.estimate, Instant.since_eq h.2 h.1, IsEstimate,
      Instant.lt_iff_toNanos_lt h.1 h.2]
    split
    · rename_i hlate
      exact iff_of_false Bool.false_ne_true (by omega)
    · rename_i hage
      exact iff_of_true rfl (by omega)
  | _ => exact iff_of_false Bool.false_ne_true id

theorem span_nonneg (hc : 0 ≤ c.heuristicFraction) (h : s.AvoidsLeaps) : 0 ≤ s.span c := by
  cases s with
  | seconds n => exact Int.mul_nonneg (Int.natCast_nonneg n) (by decide)
  | expired => exact Int.le_refl 0
  | expires t made => exact Int.le_max_left _ _
  | modified t made =>
    show 0 ≤ if t < made then _ else 0
    split
    · rename_i hmade
      rw [Instant.lt_iff_toNanos_lt h.1 h.2] at hmade
      have hage : 0 ≤ made.toNanos - t.toNanos := by omega
      exact Int.le_min.2 ⟨Lifetime.scaled_nonneg hage hc, Int.natCast_nonneg _⟩
    · exact Int.le_refl 0

/-- An estimated lifetime is no longer than the configured cap. -/
theorem span_le_of_isEstimate (h : s.IsEstimate) : s.span c ≤ c.heuristicCap.toNanos := by
  cases s with
  | modified t made =>
    rw [IsEstimate] at h
    rw [span, if_pos h]
    exact Int.min_le_right _ _
  | _ => cases h

end Source

namespace Exchange.Reading

variable {w w' : Reading} {c : Config} {x : Exchange} {now receivedAt : Instant}

/-- When the origin made the response: its `Date`, or the time of receipt without one. -/
def made (w : Reading) (receivedAt : Instant) : Instant :=
  (w.date.bind HeaderDate.instant?).getD receivedAt

/-- The statements about its lifetime that a cache of this configuration finds in a response, in the
order in which they count. Only a shared cache follows `s-maxage`. -/
def sources (w : Reading) (c : Config) (receivedAt : Instant) : List Source :=
  (if c.shared then w.response.sharedMaxAge.map Source.seconds else none).toList
    ++ (w.response.maxAge.map Source.seconds).toList
    ++ (w.expires.map (Source.ofExpires (w.made receivedAt))).toList
    ++ ((w.lastModified.bind HeaderDate.instant?).map (.modified · (w.made receivedAt))).toList

/-- No date header says a leap second. -/
def AvoidsLeaps (w : Reading) : Prop :=
  ∀ d ∈ [w.expires, w.date, w.lastModified], ∀ t, d = some (.instant t) → t.isLeap = false

/-- The nanoseconds for which the response is fresh after its receipt: what its first source gives,
and nothing without a source. -/
def span (w : Reading) (c : Config) (receivedAt : Instant) : Int :=
  ((w.sources c receivedAt).head?.map (Source.span c)).getD 0

/-- Of the sources of a lifetime the first alone counts. -/
theorem lifetime_eq :
    (w.assessment x now receivedAt).lifetime c
      = ((w.sources c receivedAt).head?.map (Source.lifetime c)).getD (.explicit 0) := by
  have hdates : (w.assessment x now receivedAt).dateLifetime c
      = (((w.expires.map (Source.ofExpires (w.made receivedAt))).toList
          ++ ((w.lastModified.bind HeaderDate.instant?).map
            (Source.modified · (w.made receivedAt))).toList).head?.map (Source.lifetime c)).getD
            (.explicit 0) := by
    unfold Assessment.dateLifetime assessment
    cases w.expires with
    | some d => cases d <;> rfl
    | none => cases w.lastModified.bind HeaderDate.instant? <;> rfl
  unfold Assessment.lifetime
  rw [hdates, sources]
  unfold assessment
  cases c.shared with
  | false => cases w.response.maxAge <;> simp [Source.lifetime]
  | true => cases w.response.sharedMaxAge <;> cases w.response.maxAge <;> simp [Source.lifetime]

theorem avoidsLeaps_made (hw : w.AvoidsLeaps) (hreceived : receivedAt.isLeap = false) :
    (w.made receivedAt).isLeap = false := by
  unfold made
  cases hdate : w.date with
  | none => exact hreceived
  | some d =>
    cases d with
    | alreadyExpired => exact hreceived
    | instant t => exact hw w.date (by simp) t hdate

theorem avoidsLeaps_of_mem_sources (hw : w.AvoidsLeaps) (hreceived : receivedAt.isLeap = false)
    {s : Source} (hs : s ∈ w.sources c receivedAt) : s.AvoidsLeaps := by
  have hmade := avoidsLeaps_made hw hreceived
  simp only [sources, List.mem_append, Option.mem_toList, Option.map_eq_some_iff,
    Option.bind_eq_some_iff] at hs
  rcases hs with ((hshared | ⟨n, -, rfl⟩) | ⟨d, hd, rfl⟩) | ⟨t, ⟨d, hd, ht⟩, rfl⟩
  · split at hshared
    · obtain ⟨n, -, rfl⟩ := Option.map_eq_some_iff.1 hshared
      trivial
    · cases hshared
  · trivial
  · cases d with
    | alreadyExpired => trivial
    | instant t => exact ⟨hw w.expires (by simp) t hd, hmade⟩
  · cases d with
    | alreadyExpired => cases ht
    | instant t' =>
      cases ht
      exact ⟨hw w.lastModified (by simp) _ hd, hmade⟩

/-- Outside leap seconds the lifetime is the number of nanoseconds that the first source gives, and
an estimate exactly if this source is one. -/
theorem lifetime_eq_span (c : Config) (x : Exchange) (now : Instant) (hw : w.AvoidsLeaps)
    (hreceived : receivedAt.isLeap = false) :
    ((w.assessment x now receivedAt).lifetime c).span = w.span c receivedAt
      ∧ (((w.assessment x now receivedAt).lifetime c).heuristic = true ↔
        ∃ s ∈ (w.sources c receivedAt).head?, s.IsEstimate) := by
  rw [lifetime_eq, span]
  cases hhead : (w.sources c receivedAt).head? with
  | none => simp [Lifetime.explicit]
  | some s =>
    have hs := avoidsLeaps_of_mem_sources hw hreceived (List.mem_of_head? hhead)
    simp [s.span_lifetime hs, s.heuristic_lifetime hs]

theorem span_nonneg (hc : 0 ≤ c.heuristicFraction) (hw : w.AvoidsLeaps)
    (hreceived : receivedAt.isLeap = false) : 0 ≤ w.span c receivedAt := by
  rw [span]
  cases hhead : (w.sources c receivedAt).head? with
  | none => exact Int.le_refl 0
  | some s =>
    exact s.span_nonneg hc (avoidsLeaps_of_mem_sources hw hreceived (List.mem_of_head? hhead))

/-- The first source is an estimate only where the response states no lifetime that the cache
follows, but was last modified before it was made. -/
theorem exists_isEstimate_iff :
    (∃ s ∈ (w.sources c receivedAt).head?, s.IsEstimate) ↔
      (c.shared = true → w.response.sharedMaxAge = none) ∧ w.response.maxAge = none
        ∧ w.expires = none ∧ ∃ t, w.lastModified = some (.instant t) ∧ t < w.made receivedAt := by
  have hmodified : (∃ t, w.lastModified = some (.instant t) ∧ t < w.made receivedAt) ↔
      ∃ t, w.lastModified.bind HeaderDate.instant? = some t ∧ t < w.made receivedAt := by
    cases w.lastModified with
    | none => simp
    | some d => cases d <;> simp [HeaderDate.instant?]
  rw [hmodified, sources]
  cases c.shared <;> cases w.response.sharedMaxAge <;> cases w.response.maxAge <;>
    cases hexpires : w.expires with
    | none => cases w.lastModified.bind HeaderDate.instant? <;> simp [Source.IsEstimate]
    | some d => cases d <;> simp [Source.IsEstimate, Source.ofExpires]

end Exchange.Reading

namespace Exchange

variable {x x' : Exchange} {w w' : Reading} {c : Config} {receivedAt : Instant}

namespace Reading

/-- The headers of two responses state the same, directives of the given name aside. -/
structure AgreeBesides (name : String) (w w' : Reading) : Prop where
  directives : (Directive.ofText w'.told).filter (fun d => d.name ≠ name)
    = (Directive.ofText w.told).filter fun d => d.name ≠ name
  expires : w'.expires = w.expires
  date : w'.date = w.date
  lastModified : w'.lastModified = w.lastModified

theorem sources_eq_of_agreeBesides (hshared : c.shared = false) (h : x.Reads w) (h' : x'.Reads w')
    (hagree : w.AgreeBesides "s-maxage" w') : w'.sources c receivedAt = w.sources c receivedAt := by
  have hage : w'.response.maxAge = w.response.maxAge := by
    rw [ResponseDirectives.maxAge_ofDirectives h.response,
      ResponseDirectives.maxAge_ofDirectives h'.response,
      ← Directive.firstSeconds?_filter (by decide : "max-age" ≠ "s-maxage"), hagree.directives,
      Directive.firstSeconds?_filter (by decide)]
  simp only [sources, made, hshared, hage, hagree.expires, hagree.date, hagree.lastModified,
    Bool.false_eq_true, if_false]

theorem sources_eq_of_responseHeaders (h : x.Reads w) (h' : x'.Reads w')
    (heq : x'.responseHeaders = x.responseHeaders) :
    w'.sources c receivedAt = w.sources c receivedAt := by
  have htold : w'.told = w.told := Except.ok.inj (h'.told.symm.trans (heq ▸ h.told))
  have hresponse : w'.response = w.response :=
    Except.ok.inj (h'.response.symm.trans (htold ▸ h.response))
  have hexpires : w'.expires = w.expires :=
    Except.ok.inj (h'.expires.symm.trans (heq ▸ h.expires))
  have hdate : w'.date = w.date := Except.ok.inj (h'.date.symm.trans (heq ▸ h.date))
  have hmodified : w'.lastModified = w.lastModified :=
    Except.ok.inj (h'.lastModified.symm.trans (heq ▸ h.lastModified))
  simp only [sources, made, hresponse, hexpires, hdate, hmodified]

end Reading

/-- Responses that were received together and whose first sources are the same expire together. -/
theorem expiresAt_of_head?_eq {now now' : Instant}
    (hhead : (w'.sources c receivedAt).head? = (w.sources c receivedAt).head?) :
    (w'.assessment x' now' receivedAt).expiresAt c = (w.assessment x now receivedAt).expiresAt c
      ∧ ((w'.assessment x' now' receivedAt).lifetime c).heuristic
        = ((w.assessment x now receivedAt).lifetime c).heuristic := by
  have hlifetime : (w'.assessment x' now' receivedAt).lifetime c
      = (w.assessment x now receivedAt).lifetime c := by
    rw [Reading.lifetime_eq, Reading.lifetime_eq, hhead]
  have hreceived : (w'.assessment x' now' receivedAt).receivedAt
      = (w.assessment x now receivedAt).receivedAt := rfl
  simp only [Assessment.expiresAt, hlifetime, hreceived, and_self]

/-- A response expires when the lifetime from its first source has passed since its receipt, or at
the end of the calendar if that is earlier, but never before its receipt. Only an estimate, made
where the response states no lifetime, is marked as one, and it stays within the cap. Neither a
source behind the first one, nor `s-maxage` in a private cache, nor the request or the time of
judging makes a difference. -/
theorem expiry_rule (hc : c.check = .ok ()) (h : x.Reads w) (hw : w.AvoidsLeaps)
    (hreceived : receivedAt.isLeap = false) (now : Instant) :
    ∃ v, x.judge now receivedAt c = .ok v
      ∧ v.expiresAt.isLeap = false
      ∧ v.expiresAt.toNanos
          = min (receivedAt.toNanos + w.span c receivedAt) Instant.latest.toNanos
      ∧ receivedAt ≤ v.expiresAt
      ∧ (v.heuristic = true ↔ (c.shared = true → w.response.sharedMaxAge = none)
          ∧ w.response.maxAge = none ∧ w.expires = none
          ∧ ∃ t, w.lastModified = some (.instant t) ∧ t < w.made receivedAt)
      ∧ (v.heuristic = true →
          v.expiresAt.toNanos ≤ receivedAt.toNanos + c.heuristicCap.toNanos)
      ∧ ∀ (x' : Exchange) (w' : Reading) (now' : Instant) (v' : Verdict),
          x'.Reads w' → x'.judge now' receivedAt c = .ok v' →
          ((w'.sources c receivedAt).head? = (w.sources c receivedAt).head?
            ∨ c.shared = false ∧ w.AgreeBesides "s-maxage" w'
            ∨ x'.responseHeaders = x.responseHeaders) →
          v'.expiresAt = v.expiresAt ∧ v'.heuristic = v.heuristic := by
  obtain ⟨hfraction, -⟩ := Config.check_eq_ok_iff.1 hc
  obtain ⟨hspan, hheuristic⟩ := Reading.lifetime_eq_span c x now hw hreceived
  have hnonneg := Reading.span_nonneg hfraction hw hreceived
  have hleap : ((w.assessment x now receivedAt).expiresAt c).isLeap = false :=
    Assessment.isLeap_expiresAt c hreceived
  have hnanos : ((w.assessment x now receivedAt).expiresAt c).toNanos
      = min (receivedAt.toNanos + w.span c receivedAt) Instant.latest.toNanos := by
    rw [← hspan] at hnonneg ⊢
    exact Instant.toNanos_shift hreceived hnonneg
  have hlatest := Instant.toNanos_le_latest hreceived
  refine ⟨_, judge_eq_ok_iff.2 ⟨w, h, rfl⟩, ?_⟩
  simp only [Assessment.verdict]
  refine ⟨hleap, hnanos, ?_, hheuristic.trans Reading.exists_isEstimate_iff, ?_, ?_⟩
  · rw [Instant.le_iff_toNanos_le hreceived hleap, hnanos]
    omega
  · intro hmarked
    obtain ⟨s, hs, hestimate⟩ := hheuristic.1 hmarked
    have hcap := s.span_le_of_isEstimate (c := c) hestimate
    rw [hnanos, Reading.span, Option.mem_def.1 hs, Option.map_some, Option.getD_some]
    omega
  · intro x' w' now' v' h' hjudge hsame
    obtain ⟨w'', hw'', rfl⟩ := judge_eq_ok_iff.1 hjudge
    have hsources : w''.sources c receivedAt = w'.sources c receivedAt :=
      Reading.sources_eq_of_responseHeaders h' hw'' rfl
    have hhead : (w''.sources c receivedAt).head? = (w.sources c receivedAt).head? := by
      rw [hsources]
      rcases hsame with hhead | ⟨hshared, hagree⟩ | heq
      · exact hhead
      · rw [Reading.sources_eq_of_agreeBesides hshared h h' hagree]
      · rw [Reading.sources_eq_of_responseHeaders h h' heq]
    simp only [Assessment.verdict]
    exact expiresAt_of_head?_eq hhead

end Exchange

namespace Sample

/-- The headers of a response last modified at the epoch, with a line of `Cache-Control`. -/
def modifiedAtEpoch (line : HeaderValue) : Headers :=
  (Headers.empty.append .cacheControl line Headers.hasRoom_empty).append .lastModified
    ⟨Bytes.ofText "Thu, 01 Jan 1970 00:00:00 GMT", by decide⟩ (Headers.hasRoom_append_empty ..)

/-- Lifetimes for shared and for private caches. -/
def twoLifetimes : Exchange :=
  ⟨.get, .empty, minuteOld.status,
    modifiedAtEpoch ⟨Bytes.ofText "s-maxage=10, max-age=30", by decide⟩⟩

/-- The lifetime for private caches alone. -/
def oneLifetime : Exchange :=
  ⟨.get, .empty, minuteOld.status, modifiedAtEpoch ⟨Bytes.ofText "max-age=30", by decide⟩⟩

/-- What the two exchanges say. -/
def modifiedReading (told : String) (ds : ResponseDirectives) : Exchange.Reading :=
  ⟨[], told.toList, {}, ds, none, none, some (.instant .epoch)⟩

def readingTwo : Exchange.Reading :=
  modifiedReading "s-maxage=10, max-age=30" { sharedMaxAge := some 10, maxAge := some 30 }

def readingOne : Exchange.Reading := modifiedReading "max-age=30" { maxAge := some 30 }

end Sample

namespace Exchange

open Sample

/-- A private cache follows `max-age`, with or without `s-maxage` beside it. -/
theorem expiry_rule_twoLifetimes :
    Config.privateCache.check = .ok ()
      ∧ ∃ v v', twoLifetimes.judge .epoch .epoch .privateCache = .ok v
        ∧ v.expiresAt.toNanos = 30000000000 ∧ v.heuristic = false
        ∧ oneLifetime.judge (second 60) .epoch .privateCache = .ok v'
        ∧ v'.expiresAt = v.expiresAt := by
  have hcheck : Config.privateCache.check = .ok () := eq_ok_of_toOption (by decide +kernel)
  have htwo : twoLifetimes.Reads readingTwo :=
    ⟨rfl, rfl, eq_ok_of_toOption (by decide +kernel), eq_ok_of_toOption (by decide +kernel), rfl,
      rfl, eq_ok_of_toOption (by decide +kernel)⟩
  have hone : oneLifetime.Reads readingOne :=
    ⟨rfl, rfl, eq_ok_of_toOption (by decide +kernel), eq_ok_of_toOption (by decide +kernel), rfl,
      rfl, eq_ok_of_toOption (by decide +kernel)⟩
  have hagree : readingTwo.AgreeBesides "s-maxage" readingOne :=
    ⟨by decide +kernel, rfl, rfl, rfl⟩
  have hleaps : readingTwo.AvoidsLeaps := by
    intro d hd t ht
    simp only [readingTwo, modifiedReading, List.mem_cons, List.not_mem_nil, or_false] at hd
    rcases hd with rfl | rfl | rfl
    · cases ht
    · cases ht
    · cases ht
      rfl
  have hepoch : Instant.epoch.isLeap = false := rfl
  have hhead : (readingTwo.sources .privateCache .epoch).head? = some (.seconds 30) := rfl
  have hspan : readingTwo.span .privateCache .epoch = 30000000000 := by
    rw [Reading.span, hhead]
    rfl
  have hend : min (Instant.epoch.toNanos + 30000000000) Instant.latest.toNanos = 30000000000 := by
    decide +kernel
  obtain ⟨v, hv, -, hnanos, -, hmarked, -, hkept⟩ := expiry_rule hcheck htwo hleaps hepoch .epoch
  obtain ⟨v', hv'⟩ : ∃ v', oneLifetime.judge (second 60) .epoch .privateCache = .ok v' :=
    ⟨_, judge_eq_ok_iff.2 ⟨_, hone, rfl⟩⟩
  refine ⟨hcheck, v, v', hv, ?_, ?_, hv', ?_⟩
  · rw [hnanos, hspan, hend]
  · refine Bool.eq_false_iff.2 fun h => ?_
    obtain ⟨-, hage, -⟩ := hmarked.1 h
    cases hage
  · exact (hkept _ _ _ _ hone hv' (.inr (.inl ⟨rfl, hagree⟩))).1

end Exchange

end ResponseCache
