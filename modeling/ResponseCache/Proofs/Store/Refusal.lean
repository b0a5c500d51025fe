import ResponseCache.Proofs.Store.View
import ResponseCache.Proofs.Time.Later

/-!
# Writes that are refused

A write drops the old entry of its key, makes room and links the new entry, but only after the three
checks that can refuse it. So a refused write has done nothing at all, and a write that has passed
the checks goes through: what stands in its way it drops. Its deadline lies ahead
(`isExpired_of_deadline`), so the entry can be read back at once, whatever had to go for it
(`view_insert_self`).
-/

namespace ResponseCache.Store

variable {s : Store} {key : Key} {entry : Entry} {deadline : Option Instant} {ttl : Duration}
  {now : Instant}

/-- What a write makes of the entry, if it may be written. -/
theorem result_insert (s : Store) (key : Key) (entry : Entry) (ttl : Duration) (now : Instant) :
    (s.insert key entry ttl now).result =
      match s.accept entry ttl now with
      | .error fault => .error ((Failure.storage (.store fault)).withKey key)
      | .ok _ => .ok () := by
  cases haccept : s.accept entry ttl now <;> simp only [insert, haccept]

theorem deadline_eq_error_iff (ttl : Duration) (now : Instant) :
    (∃ fault, Store.deadline ttl now = .error fault) ↔
      ttl ≠ .zero ∧ Duration.longestSpan < ttl.toNanos := by
  rw [deadline_eq]
  by_cases hlong : Duration.longestSpan < ttl.toNanos
  · have hne : ttl ≠ .zero := by
      rintro rfl
      exact absurd hlong (by decide)
    simp [hlong, hne]
  · simp [hlong]

theorem accept_eq_error_iff (s : Store) (entry : Entry) (ttl : Duration) (now : Instant) :
    (∃ fault, s.accept entry ttl now = .error fault) ↔
      s.limits.maxEntries = 0 ∨ s.limits.maxBytes < UInt64.ofNat entry.size
        ∨ ttl ≠ .zero ∧ Duration.longestSpan < ttl.toNanos := by
  rw [← deadline_eq_error_iff ttl now]
  unfold accept
  dsimp only
  split
  · rename_i hzero
    simp [hzero]
  · rename_i hentries
    split
    · rename_i hlarge
      simp [hlarge]
    · rename_i hsize
      simp [hentries, hsize]

theorem lt_of_deadline {d : Instant} (h : Recency.deadline ttl now = some d) : now < d := by
  unfold Recency.deadline at h
  split at h
  · cases h
  · rename_i hnanos
    have hspan : (0 : Int) < ttl.toNanos := by omega
    exact Instant.lt_of_shift?_eq_some hspan h

/-- A time to live of a second or more leaves no later deadline if it is cut to whole seconds. -/
theorem exists_deadline_ofSeconds_le {d : Instant} (hseconds : 1 ≤ ttl.seconds)
    (h : Store.deadline ttl now = .ok (some d)) :
    ∃ cut, Store.deadline (.ofSeconds ttl.seconds) now = .ok (some cut) ∧ cut ≤ d := by
  have hpos : 0 < ttl.seconds.toNat := UInt64.le_iff_toNat_le.1 hseconds
  have hcut : (Duration.ofSeconds ttl.seconds).toNanos = ttl.seconds.toNat * 1000000000 := by
    rw [Duration.toNanos, Duration.ofSeconds, Nat.add_zero]
  have hwhole : ttl.toNanos = ttl.seconds.toNat * 1000000000 + ttl.nanos := rfl
  rw [deadline_eq] at h ⊢
  split at h
  · cases h
  · rename_i hshort
    rw [if_neg (by omega), Recency.deadline, if_neg (by omega), hcut]
    have hd := Except.ok.inj h
    rw [Recency.deadline, if_neg (by omega), hwhole] at hd
    push_cast at hd ⊢
    obtain ⟨cut, hshift, hle⟩ := Instant.exists_shift?_seconds_le hpos ttl.nanos_lt hd
    exact ⟨cut, congrArg _ hshift, hle⟩

/-- The deadline of a new entry lies ahead, if there is one. -/
theorem isExpired_of_deadline (h : Store.deadline ttl now = .ok deadline) :
    (⟨key, entry, deadline⟩ : Item).isExpired now = false := by
  rw [deadline_eq] at h
  split at h
  · cases h
  · rw [← Except.ok.inj h]
    cases hd : Recency.deadline ttl now with
    | none => rfl
    | some d => exact decide_eq_false (not_not_intro (lt_of_deadline hd))

/-- A successful write leaves its entry under its key, with its deadline. -/
theorem view_insert_self (hok : (s.insert key entry ttl now).result = .ok ()) :
    ∃ deadline, Store.deadline ttl now = .ok deadline
      ∧ (s.insert key entry ttl now).store.view key = some ⟨key, entry, deadline⟩ := by
  cases haccept : s.accept entry ttl now with
  | error fault =>
    rw [result_insert, haccept] at hok
    cases hok
  | ok deadline =>
    refine ⟨deadline, (accept_eq_ok_iff.1 haccept).2.2, ?_⟩
    have hgone : ((s.remove key).makeRoom (UInt64.ofNat entry.size) now).1.view key = none := by
      rw [view_eq_none]
      intro slot hslot
      exact (mem_slots_remove ((sublist_makeRoom _ _ _).subset hslot)).2
    simp only [insert, haccept]
    rw [view_link hgone, if_pos rfl]

/-- A write is refused or done as a whole. It is refused exactly if the store holds no entries, if
the entry alone takes more octets than the store may hold, or if the time to live is longer than the
longest span; the failure is one of the storage and carries the key. The store is then the very
store that it was, with all its entries, the one of this key included, their order of use and its
counters. A write that is not refused succeeds, and a lookup at the same time gives its entry. -/
theorem insert_refused_or_done (s : Store) (key : Key) (entry : Entry) (ttl : Duration)
    (now : Instant) :
    ((∃ failure, (s.insert key entry ttl now).result = .error failure) ↔
        s.limits.maxEntries = 0 ∨ s.limits.maxBytes < UInt64.ofNat entry.size
          ∨ ttl ≠ .zero ∧ Duration.longestSpan < ttl.toNanos)
      ∧ (∀ failure, (s.insert key entry ttl now).result = .error failure →
        failure.kind = .storage ∧ failure.key = some key
          ∧ (s.insert key entry ttl now).store = s)
      ∧ ((s.insert key entry ttl now).result = .ok () →
        ((s.insert key entry ttl now).store.lookup key now).1 = .ok entry) := by
  refine ⟨?_, ?_, ?_⟩
  · rw [← accept_eq_error_iff s entry ttl now, result_insert]
    cases s.accept entry ttl now <;> simp
  · intro failure hfailure
    refine ⟨?_, ?_, insert_of_error hfailure⟩ <;> rw [result_insert] at hfailure <;>
      split at hfailure <;> cases hfailure <;> rfl
  · intro hok
    obtain ⟨deadline, hdeadline, hview⟩ := view_insert_self hok
    rw [lookup_fst, hview]
    simp only [isExpired_of_deadline hdeadline, Bool.false_eq_true, if_false]

end ResponseCache.Store
