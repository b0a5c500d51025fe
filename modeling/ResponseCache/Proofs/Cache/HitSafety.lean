import ResponseCache.Cache.Stack
import ResponseCache.Proofs.Cache.Answer

/-!
# Safety of hits

A cache trusts its storage with nothing: whatever entry the storage comes up with, a hit is reported
only for one that may be kept and served by all rules, at the time of the lookup. This holds at
every tier of a stack. Hits happen on the way down alone (`not_mem_ascend`), where each tier looks
into its own storage (`hit_mem_descend`), so all that remains is what a single lookup promises.
-/

namespace ResponseCache

namespace Stack

open Cache Exchange

variable {σ : Type} {b : Backend σ} {c : Config} {storage : σ} {r : Request} {now e : Instant}
  {p q : Response} {origin : String} {fetch : Request → Except (Halt Failure) Response}

theorem eventAt_inj {d d' : Nat} {ev ev' : Event} (h : eventAt d r ev = eventAt d' r ev') :
    d = d' ∧ ev = ev' := by
  simp only [eventAt, TierNotice.mk.injEq, Notice.event.injEq, KeyedEvent.mk.injEq,
    true_and] at h
  exact h

theorem settle_ne_hit : (settle b c storage r now p).event ≠ .hit origin e := by
  rcases settle_cases b c storage r now p with
    ⟨w, e', -, -, -, h⟩ | ⟨failure, -, h⟩ | ⟨event, ⟨cause, rfl⟩ | ⟨fault, rfl⟩, h⟩
  all_goals
    rw [h]
    exact nofun

theorem not_mem_ascend {d : Nat} (tiers : List (Tier σ)) (depth count : Nat) :
    eventAt d r (.hit origin e) ∉ (ascend b r now p depth count tiers).2 := by
  induction tiers generalizing depth count with
  | nil => simp [ascend]
  | cons t ts ih =>
    cases count with
    | zero => simp [ascend]
    | succ count =>
      simp only [ascend, List.mem_append, List.mem_map, List.mem_singleton, not_or]
      refine ⟨⟨ih (depth + 1) count, ?_⟩, ?_⟩
      · rintro ⟨record, -, h⟩
        simp [eventAt] at h
      · intro h
        exact settle_ne_hit (eventAt_inj h).2.symm

theorem event_mem_send {t : Tier σ} {event : Event}
    (h : (start b t.config t.storage r now).event? = some event) (ts : List (Tier σ))
    (fetch : Request → Except (Halt Failure) Response) :
    eventAt 0 r event ∈ (send b (t :: ts) r now fetch).notices := by
  unfold Started.event? at h
  unfold send descend
  dsimp only
  refine List.mem_append_left _ ?_
  cases hfinding : (start b t.config t.storage r now).finding with
  | serve tag q e =>
    rw [hfinding] at h
    obtain rfl := Option.some.inj h
    exact List.mem_singleton_self _
  | pass event' =>
    rw [hfinding] at h
    obtain rfl := Option.some.inj h
    exact List.mem_cons_self
  | crash =>
    rw [hfinding] at h
    cases h

/-- A hit reported on the way down is one of the lookup of the tier that reports it. -/
theorem hit_mem_descend {d : Nat} (tiers : List (Tier σ)) (depth : Nat)
    (h : eventAt d r (.hit origin e) ∈ (descend b r now depth tiers).notices) :
    ∃ k t, d = depth + k ∧ tiers[k]? = some t
      ∧ (start b t.config t.storage r now).event? = some (.hit origin e) := by
  induction tiers generalizing depth with
  | nil => simp [descend] at h
  | cons t ts ih =>
    have hhere : ∀ event, (start b t.config t.storage r now).event? = some event →
        eventAt d r (.hit origin e) = eventAt depth r event →
        ∃ k u, d = depth + k ∧ (t :: ts)[k]? = some u
          ∧ (start b u.config u.storage r now).event? = some (.hit origin e) :=
      fun event hevent h => by
        obtain ⟨rfl, rfl⟩ := eventAt_inj h
        exact ⟨0, t, rfl, rfl, hevent⟩
    unfold descend at h
    dsimp only at h
    split at h
    · rename_i hfinding
      exact hhere _ (congrArg Finding.event? hfinding) (List.mem_singleton.1 h)
    · rename_i hfinding
      rcases List.mem_cons.1 h with h | h
      · exact hhere _ (congrArg Finding.event? hfinding) h
      · obtain ⟨k, u, rfl, hu, hevent⟩ := ih (depth + 1) h
        exact ⟨k + 1, u, by omega, hu, hevent⟩
    · cases h

/-- Whatever the storages hold and whoever wrote it: a tier that reports a hit was given an entry by
its own storage, the entry decodes as the answer to the request, headers, status and method on both
sides let a cache of that configuration keep the response, and outside leap seconds it is earlier
than the reported time of expiry. -/
theorem admissible_of_hit (tiers : List (Tier σ)) (depth : Nat)
    (h : eventAt depth r (.hit origin e) ∈ (send b tiers r now fetch).notices) :
    ∃ t entry p w, tiers[depth]? = some t
      ∧ (b.get t.storage (Key.ofRequest r) now).1 = .ok entry
      ∧ entry.response r.method = .ok p
      ∧ (r.exchange p).Admissible t.config w
      ∧ (now.isLeap = false → entry.storedAt.isLeap = false → now < e) := by
  have hdown : eventAt depth r (.hit origin e) ∈ (descend b r now 0 tiers).notices := by
    simp only [send, List.mem_append] at h
    refine h.resolve_right fun hup => ?_
    unfold finish at hup
    split at hup
    · exact not_mem_ascend _ _ _ hup
    · exact List.not_mem_nil hup
  obtain ⟨k, t, rfl, ht, hevent⟩ := hit_mem_descend tiers 0 hdown
  obtain ⟨entry, p, w, -, hget, hs, rfl, -⟩ := servable_of_hit hevent
  refine ⟨t, entry, p, w, by rw [Nat.zero_add]; exact ht, hget, hs.decodes, hs.admissible,
    fun hnow hstored => ?_⟩
  exact Assessment.lt_of_freshness_eq_fresh
    (a := w.assessment (r.exchange p) now entry.storedAt) hnow
    (Assessment.isLeap_expiresAt t.config hstored) hs.fresh

/-- A tier that keeps the sample response from the epoch on. -/
def Sample.tier : Tier Store :=
  ⟨.sharedCache, (settle Store.backend .sharedCache Sample.store Sample.request .epoch
    Sample.response).storage⟩

theorem admissible_of_sample_hit :
    eventAt 0 Sample.request (.hit "memory" Sample.expiry)
        ∈ (send Store.backend [Sample.tier] Sample.request .epoch
          fun _ => .ok Sample.response).notices
      ∧ ∃ t entry p w, [Sample.tier][0]? = some t
        ∧ (Store.backend.get t.storage (Key.ofRequest Sample.request) .epoch).1 = .ok entry
        ∧ entry.response Sample.request.method = .ok p
        ∧ (Sample.request.exchange p).Admissible t.config w
        ∧ Instant.epoch < Sample.expiry := by
  have hevent : (start Store.backend Sample.tier.config Sample.tier.storage Sample.request
      .epoch).event? = some (.hit "memory" Sample.expiry) :=
    Event.bind_hit?_eq_some_iff.1 (by decide +kernel)
  have hleap : (Store.backend.get Sample.tier.storage (Key.ofRequest Sample.request)
      .epoch).1.toOption.map (fun entry => entry.storedAt.isLeap) = some false := by decide +kernel
  have h := event_mem_send hevent [] fun _ => .ok Sample.response
  obtain ⟨t, entry, p, w, ht, hget, hp, hw, hlt⟩ := admissible_of_hit _ _ h
  refine ⟨h, t, entry, p, w, ht, hget, hp, hw, hlt rfl ?_⟩
  obtain rfl : Sample.tier = t := Option.some.inj ht
  rw [hget] at hleap
  exact Option.some.inj hleap

end Stack

end ResponseCache
