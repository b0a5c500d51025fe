import ResponseCache.Store.Basic

/-!
# What a store keeps

How the operations of a store change its slots, as far as keys, entries and deadlines go. Whatever
makes room only drops slots (`sublist_makeRoom`); a lookup drops at most the slot it finds expired
and otherwise touches ticks alone (`mem_slots_lookup`); a write leaves the other slots under other
keys and puts its own entry under its key (`mem_slots_insert`). An entry that a lookup gives is
therefore the one that stands under its key (`lookup_eq_ok`).
-/

namespace ResponseCache

/-- A slot holds what another one holds, under the same key and until the same deadline. -/
def Slot.Agrees (a b : Slot) : Prop :=
  a.key = b.key ∧ a.entry = b.entry ∧ a.deadline = b.deadline

namespace Store

variable {s : Store} {key : Key} {entry : Entry} {ttl : Duration} {now : Instant} {slot : Slot}

/-! ## Making room -/

section Room

variable (P : Store → Prop) {incoming : UInt64}

theorem unlinkAll_inv (hunlink : ∀ s slot, P s → P (s.unlink slot)) (slots : List Slot)
    (hs : P s) : P (s.unlinkAll slots) := by
  unfold unlinkAll
  induction slots generalizing s with
  | nil => exact hs
  | cons slot slots ih => exact ih (hunlink s slot hs)

theorem evict_inv (hunlink : ∀ s slot, P s → P (s.unlink slot))
    (hcount : ∀ s n, P s → P { s with evictions := n }) (candidates : List Slot) (hs : P s) :
    P (evict incoming candidates s).1 := by
  induction candidates generalizing s with
  | nil => exact hs
  | cons slot slots ih =>
    unfold evict
    split
    · apply ih
      apply hcount
      exact hunlink s slot hs
    · exact hs

/-- What holds of a store still holds after making room if neither the drop of a slot nor the count
of evictions can change it. -/
theorem makeRoom_inv (hunlink : ∀ s slot, P s → P (s.unlink slot))
    (hcount : ∀ s n, P s → P { s with evictions := n }) (hs : P s) :
    P (s.makeRoom incoming now).1 := by
  unfold makeRoom
  split
  · apply evict_inv P hunlink hcount
    exact unlinkAll_inv P hunlink _ hs
  · exact hs

/-- Making room drops slots and does nothing else to them. -/
theorem sublist_makeRoom (s : Store) (incoming : UInt64) (now : Instant) :
    (s.makeRoom incoming now).1.slots.Sublist s.slots := by
  apply makeRoom_inv fun t => t.slots.Sublist s.slots
  · intro t slot ht
    exact List.filter_sublist.trans ht
  · intro t n ht
    exact ht
  · exact List.Sublist.refl _

theorem origin_makeRoom (s : Store) (incoming : UInt64) (now : Instant) :
    (s.makeRoom incoming now).1.origin = s.origin := by
  apply makeRoom_inv fun t => t.origin = s.origin
  · intro t slot ht
    exact ht
  · intro t n ht
    exact ht
  · rfl

theorem mem_slots_remove (h : slot ∈ (s.remove key).slots) : slot ∈ s.slots ∧ slot.key ≠ key := by
  unfold remove at h
  split at h
  · rename_i found hfound
    have hkey : found.key = key := by simpa using List.find?_some hfound
    rw [unlink, List.mem_filter] at h
    refine ⟨h.1, fun e => ?_⟩
    simp [e, hkey] at h
  · rename_i hnone
    exact ⟨h, fun e => by simpa [e] using List.find?_eq_none.1 hnone slot h⟩

theorem origin_remove : (s.remove key).origin = s.origin := by
  unfold remove
  split <;> rfl

end Room

/-! ## Lookups -/

section Lookup

/-- A successful lookup gives the entry of a slot of its key. -/
theorem lookup_eq_ok (h : (s.lookup key now).1 = .ok entry) :
    ∃ slot ∈ s.slots, slot.key = key ∧ slot.entry = entry := by
  unfold lookup at h
  split at h
  · cases h
  · rename_i slot hfound
    split at h
    · cases h
    · have hkey : slot.key = key := by simpa using List.find?_some hfound
      exact ⟨slot, List.mem_of_find?_eq_some hfound, hkey, Except.ok.inj h⟩

theorem origin_lookup : (s.lookup key now).2.origin = s.origin := by
  unfold lookup
  split
  · rfl
  · split <;> rfl

/-- After a lookup the store has no slot that it did not have before, ticks aside. -/
theorem mem_slots_lookup (h : slot ∈ (s.lookup key now).2.slots) :
    ∃ old ∈ s.slots, slot.Agrees old := by
  unfold lookup at h
  split at h
  · exact ⟨slot, h, rfl, rfl, rfl⟩
  · split at h
    · exact ⟨slot, (List.mem_filter.1 h).1, rfl, rfl, rfl⟩
    · rw [touch, List.mem_map] at h
      obtain ⟨old, hold, rfl⟩ := h
      refine ⟨old, hold, ?_⟩
      split <;> exact ⟨rfl, rfl, rfl⟩

end Lookup

/-! ## Writes -/

section Insert

theorem origin_insert : (s.insert key entry ttl now).store.origin = s.origin := by
  unfold insert
  split
  · rfl
  · exact (origin_makeRoom _ _ _).trans origin_remove

/-- A refused write leaves the store as it was. -/
theorem insert_of_error {failure : Failure}
    (h : (s.insert key entry ttl now).result = .error failure) :
    (s.insert key entry ttl now).store = s := by
  unfold insert at h ⊢
  split
  · rfl
  · rename_i hok
    rw [hok] at h
    cases h

/-- After a successful write a slot is the written one or an old one under another key. -/
theorem mem_slots_insert (hok : (s.insert key entry ttl now).result = .ok ())
    (h : slot ∈ (s.insert key entry ttl now).store.slots) :
    slot.key = key ∧ slot.entry = entry ∨ slot ∈ s.slots ∧ slot.key ≠ key := by
  unfold insert at hok h
  split at h
  · rename_i herror
    rw [herror] at hok
    cases hok
  · simp only [link, List.mem_append, List.mem_singleton] at h
    rcases h with h | rfl
    · exact .inr (mem_slots_remove ((sublist_makeRoom _ _ _).subset h))
    · exact .inl ⟨rfl, rfl⟩

end Insert

end Store

end ResponseCache
