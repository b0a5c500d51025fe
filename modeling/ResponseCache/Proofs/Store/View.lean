import ResponseCache.Proofs.Store.Recency

/-!
# What stands under each key

To those who use a store one key at a time it is a function from keys to items, its `view`. Each
operation changes this function at its own key alone: a lookup drops an item that has expired there
(`view_lookup`), and a write for which nothing has to go puts its item there (`view_link_remove`).
What a lookup answers depends on the view of its key (`lookup_fst`). That nothing has to go can be
told from the counter of evictions (`insert_of_evictions_eq`).
-/

namespace ResponseCache

namespace Store

variable {s t : Store} {slot : Slot} {key other : Key} {entry : Entry} {deadline : Option Instant}
  {ttl : Duration} {now : Instant} {incoming : UInt64}

/-- The item under a key, if there is one. -/
def view (s : Store) (key : Key) : Option Item :=
  (s.find? key).map Slot.item

/-- The view of a store only depends on its items. -/
theorem view_eq_find? (s : Store) (key : Key) :
    s.view key = (s.slots.map Slot.item).find? fun i => i.key = key := by
  rw [List.find?_map]
  rfl

theorem view_eq_none : s.view key = none ↔ ∀ slot ∈ s.slots, slot.key ≠ key := by
  simp [view, find?]

theorem view_eq_some {i : Item} (h : s.view key = some i) :
    ∃ slot ∈ s.slots, slot.item = i ∧ slot.key = key := by
  obtain ⟨slot, hfound, hitem⟩ := Option.map_eq_some_iff.1 h
  obtain ⟨hmem, hkey⟩ := find?_eq_some hfound
  exact ⟨slot, hmem, hitem, hkey⟩

/-! ## Single changes -/

theorem length_link : (s.link key entry deadline).slots.length = s.slots.length + 1 := by
  rw [link, List.length_append, List.length_singleton]

theorem length_touch : (s.touch key).slots.length = s.slots.length :=
  List.length_map ..

theorem sublist_remove (s : Store) (key : Key) : (s.remove key).slots.Sublist s.slots := by
  unfold remove
  split
  · exact List.filter_sublist
  · exact List.Sublist.refl _

/-- Without a slot its key shows nothing, and all other keys show what they did. -/
theorem view_unlink :
    (s.unlink slot).view other = if other = slot.key then none else s.view other := by
  split
  · rename_i hkey
    rw [view_eq_none, hkey]
    intro kept hkept
    exact of_decide_eq_true (List.mem_filter.1 hkept).2
  · rename_i hne
    simp only [view, find?, unlink, List.find?_filter]
    congr 2
    funext kept
    by_cases hkept : kept.key = other
    · simp [hkept, hne]
    · simp [hkept]

/-- The order of use is not in the view. -/
theorem view_touch : (s.touch key).view other = s.view other := by
  rw [view_eq_find?, view_eq_find?, map_slots_touch fun _ _ => rfl]

/-- A new slot shows its item under its key. -/
theorem view_link (h : s.view key = none) :
    (s.link key entry deadline).view other
      = if other = key then some ⟨key, entry, deadline⟩ else s.view other := by
  have hlink : (s.link key entry deadline).view other
      = (s.view other).or (if key = other then some ⟨key, entry, deadline⟩ else none) := by
    rw [view_eq_find?, view_eq_find?, link, List.map_append, List.find?_append]
    by_cases hkey : key = other <;> simp [Slot.item, hkey]
  by_cases hkey : other = key
  · rw [hlink, if_pos hkey, if_pos hkey.symm, hkey, h, Option.none_or]
  · rw [hlink, if_neg hkey, if_neg (Ne.symm hkey), Option.or_none]

theorem view_remove : (s.remove key).view other = if other = key then none else s.view other := by
  unfold remove
  split
  · rename_i slot hfound
    rw [view_unlink, (find?_eq_some hfound).2]
  · rename_i hnone
    split
    · rename_i hkey
      rw [hkey, view, hnone, Option.map_none]
    · rfl

/-! ## Lookups -/

/-- The answer to a lookup depends on what stands under its key. -/
theorem lookup_fst (s : Store) (key : Key) (now : Instant) :
    (s.lookup key now).1 = match s.view key with
      | none => .error (.notFound key)
      | some i => if i.isExpired now then .error (.expired key) else .ok i.entry := by
  unfold lookup view
  cases s.find? key with
  | none => rfl
  | some slot =>
    simp only [Option.map_some, Slot.isExpired_item]
    split <;> rfl

/-- A lookup drops what has expired under its key, and nothing else. -/
theorem view_lookup (s : Store) (key other : Key) (now : Instant) :
    (s.lookup key now).2.view other
      = if other = key then (s.view key).filter fun i => !i.isExpired now else s.view other := by
  unfold lookup
  split
  · rename_i hnone
    split
    · rename_i hkey
      rw [hkey, view, hnone]
      rfl
    · rfl
  · rename_i slot hfound
    have hview : s.view key = some slot.item := by rw [view, hfound, Option.map_some]
    have hkey := (find?_eq_some hfound).2
    rw [hview, Option.filter_some, Slot.isExpired_item]
    cases hlate : slot.isExpired now with
    | true =>
      simp only [if_true, view_unlink, hkey]
      rfl
    | false =>
      simp only [Bool.false_eq_true, if_false, view_touch]
      split
      · rename_i hother
        rw [hother, hview]
        rfl
      · rfl

/-! ## Writes -/

/-- Where there is room none is made. -/
theorem makeRoom_of_room (h : s.isFull incoming = false) : s.makeRoom incoming now = (s, 0) := by
  rw [makeRoom, if_neg (by simp [h])]

theorem unlinkAll_nil (s : Store) : s.unlinkAll [] = s := rfl

/-- An eviction drops a number of its candidates. The counter of the store and the number that goes
to the log both count them, each in its word; and only if there is room or no candidate is left does
it drop none. -/
theorem exists_evicted (incoming : UInt64) (candidates : List Slot) (s : Store) :
    ∃ n ≤ candidates.length,
      (evict incoming candidates s).1.evictions = s.evictions + UInt64.ofNat n
      ∧ (evict incoming candidates s).2 = UInt32.ofNat n
      ∧ (n = 0 → candidates = [] ∨ s.isFull incoming = false) := by
  induction candidates generalizing s with
  | nil => exact ⟨0, Nat.le_refl 0, (UInt64.add_zero _).symm, rfl, fun _ => .inl rfl⟩
  | cons slot slots ih =>
    unfold evict
    split
    · obtain ⟨n, hle, hevictions, hevicted, -⟩ :=
        ih { s.unlink slot with evictions := (s.unlink slot).evictions + 1 }
      refine ⟨n + 1, Nat.succ_le_succ hle, ?_, ?_, fun h => absurd h (Nat.succ_ne_zero n)⟩
      · dsimp only
        rw [hevictions, UInt64.ofNat_add, UInt64.add_comm (UInt64.ofNat n), ← UInt64.add_assoc]
        rfl
      · dsimp only
        rw [hevicted, UInt32.ofNat_add]
        rfl
    · rename_i hroom
      refine ⟨0, Nat.zero_le _, (UInt64.add_zero _).symm, rfl, fun _ => .inr ?_⟩
      exact Bool.eq_false_of_not_eq_true hroom

/-- A store of which nothing is to expire and that counts no eviction while it makes room had room
before, or nothing to evict. -/
theorem room_of_evictions_eq (hexpired : s.expired now = []) (hlength : s.slots.length < 2 ^ 64)
    (h : (s.makeRoom incoming now).1.evictions = s.evictions) :
    s.slots = [] ∨ s.isFull incoming = false := by
  unfold makeRoom purge at h
  rw [hexpired, unlinkAll_nil] at h
  split at h
  · obtain ⟨n, hle, hevictions, -, hroom⟩ := exists_evicted incoming s.byLastUse s
    have hword : UInt64.ofNat n = 0 := UInt64.add_eq_left.1 (hevictions.symm.trans h)
    have hlt : n < 2 ^ 64 := Nat.lt_of_le_of_lt (s.byLastUse_perm.length_eq ▸ hle) hlength
    have hnone : n = 0 := by
      rw [UInt64.ofNat_eq_iff_mod_eq_toNat, Nat.mod_eq_of_lt hlt] at hword
      exact hword
    refine (hroom hnone).imp_left fun hnil => ?_
    exact List.perm_nil.1 (hnil ▸ s.byLastUse_perm.symm)
  · rename_i hfull
    exact .inr (Bool.eq_false_of_not_eq_true hfull)

/-- A store with room, or with nothing to evict, makes no room. -/
theorem makeRoom_eq_self (hexpired : s.expired now = [])
    (h : s.slots = [] ∨ s.isFull incoming = false) : s.makeRoom incoming now = (s, 0) := by
  rcases h with hnil | hroom
  · have hlast : s.byLastUse = [] := List.perm_nil.1 (hnil ▸ s.byLastUse_perm)
    unfold makeRoom purge
    rw [hexpired, unlinkAll_nil]
    dsimp only
    rw [hlast]
    split <;> rfl
  · exact makeRoom_of_room hroom

/-- A write that finds room puts its item under its key and leaves everything else alone. -/
theorem insert_of_room (haccept : s.accept entry ttl now = .ok deadline)
    (hroom : (s.remove key).makeRoom (UInt64.ofNat entry.size) now = (s.remove key, 0)) :
    s.insert key entry ttl now = ⟨.ok (), (s.remove key).link key entry deadline, 0⟩ := by
  simp only [insert, haccept, hroom]

/-- A successful write that counts no eviction has found room, if nothing was there to expire. -/
theorem insert_of_evictions_eq (hok : (s.insert key entry ttl now).result = .ok ())
    (hevictions : (s.insert key entry ttl now).store.evictions = s.evictions)
    (hexpired : s.expired now = []) (hlength : s.slots.length < 2 ^ 64) :
    ∃ deadline, Store.deadline ttl now = .ok deadline
      ∧ ((s.remove key).slots = []
        ∨ (s.remove key).isFull (UInt64.ofNat entry.size) = false)
      ∧ (s.insert key entry ttl now).store = (s.remove key).link key entry deadline := by
  cases haccept : s.accept entry ttl now with
  | error fault =>
    simp only [insert, haccept] at hok
    cases hok
  | ok deadline =>
    have hnone : (s.remove key).expired now = [] := by
      refine List.filter_eq_nil_iff.2 fun slot hslot => ?_
      exact List.filter_eq_nil_iff.1 hexpired slot (mem_slots_remove hslot).1
    have hshorter := Nat.lt_of_le_of_lt (sublist_remove s key).length_le hlength
    have hroom : (s.remove key).slots = []
        ∨ (s.remove key).isFull (UInt64.ofNat entry.size) = false := by
      apply room_of_evictions_eq hnone hshorter
      simp only [insert, haccept] at hevictions
      rw [evictions_remove]
      exact hevictions
    exact ⟨deadline, (accept_eq_ok_iff.1 haccept).2.2, hroom,
      by rw [insert_of_room haccept (makeRoom_eq_self hnone hroom)]⟩

/-- An entry shows in place of the one that was there under its key. -/
theorem view_link_remove :
    ((s.remove key).link key entry deadline).view other
      = if other = key then some ⟨key, entry, deadline⟩ else s.view other := by
  have hnone : (s.remove key).view key = none := by rw [view_remove, if_pos rfl]
  rw [view_link hnone, view_remove]
  split <;> rfl

/-! ## Stores without time limits -/

/-- A store whose entries have no deadlines, one under each key, and are counted. -/
structure Lasting (s : Store) : Prop where
  keys_nodup : (s.slots.map Slot.key).Nodup
  count_eq : s.entryCount.toNat = s.slots.length
  deadline_eq : ∀ slot ∈ s.slots, slot.deadline = none

namespace Lasting

theorem empty (limits : Limits) (origin : String) : Lasting (Store.empty limits origin) :=
  ⟨List.nodup_nil, rfl, fun _ h => nomatch h⟩

variable (h : Lasting s)
include h

/-- A slot without a deadline does not expire. -/
theorem isExpired_eq (hmem : slot ∈ s.slots) (now : Instant) : slot.isExpired now = false := by
  rw [Slot.isExpired, h.deadline_eq slot hmem]
  rfl

theorem expired_eq (now : Instant) : s.expired now = [] := by
  refine List.filter_eq_nil_iff.2 fun slot hslot => ?_
  rw [h.isExpired_eq hslot]
  exact Bool.false_ne_true

theorem lookup_eq (key : Key) (now : Instant) :
    (s.lookup key now).2 = s ∨ (s.lookup key now).2 = s.touch key := by
  unfold lookup
  split
  · exact .inl rfl
  · rename_i slot hfound
    rw [h.isExpired_eq (find?_eq_some hfound).1]
    exact .inr rfl

theorem lookup (key : Key) (now : Instant) : Lasting (s.lookup key now).2 := by
  rcases h.lookup_eq key now with hsame | htouch
  · rw [hsame]
    exact h
  · rw [htouch]
    refine ⟨?_, ?_, fun slot hslot => ?_⟩
    · rw [map_slots_touch fun _ _ => rfl]
      exact h.keys_nodup
    · rw [length_touch]
      exact h.count_eq
    · obtain ⟨old, hold, rfl⟩ := List.mem_map.1 hslot
      split
      · exact h.deadline_eq old hold
      · exact h.deadline_eq old hold

theorem view_lookup_eq (key : Key) (now : Instant) : (s.lookup key now).2.view = s.view := by
  rcases h.lookup_eq key now with hsame | htouch
  · rw [hsame]
  · rw [htouch]
    exact funext fun _ => view_touch

theorem length_lt : s.slots.length < 2 ^ 64 := by
  rw [← h.count_eq]
  exact s.entryCount.toNat_lt

theorem unlink (hmem : slot ∈ s.slots) : Lasting (s.unlink slot) := by
  have hsub : (s.unlink slot).slots.Sublist s.slots := List.filter_sublist
  have hlength : s.slots.length = (s.unlink slot).slots.length + 1 :=
    (Slot.perm_filter_key h.keys_nodup hmem).length_eq
  have hone : (1 : UInt64) ≤ s.entryCount := by
    rw [UInt64.le_iff_toNat_le, h.count_eq, hlength]
    exact Nat.le_add_left 1 _
  have hcount : (s.unlink slot).entryCount.toNat = s.entryCount.toNat - 1 :=
    UInt64.toNat_sub_of_le _ _ hone
  refine ⟨(hsub.map _).nodup h.keys_nodup, ?_, fun kept hkept => ?_⟩
  · rw [hcount, h.count_eq, hlength, Nat.add_sub_cancel]
  · exact h.deadline_eq kept (hsub.subset hkept)

theorem remove (key : Key) : Lasting (s.remove key) := by
  unfold Store.remove
  split
  · rename_i slot hfound
    exact h.unlink (find?_eq_some hfound).1
  · exact h

theorem link (hnew : ∀ slot ∈ s.slots, slot.key ≠ key)
    (hroom : s.slots = [] ∨ s.isFull incoming = false) : Lasting (s.link key entry none) := by
  have hcount : s.entryCount.toNat + 1 < 2 ^ 64 := by
    rcases hroom with hnil | hroom
    · rw [h.count_eq, hnil]
      decide
    · rw [isFull, Bool.or_eq_false_iff, decide_eq_false_iff_not, UInt64.le_iff_toNat_le] at hroom
      have hmax := s.limits.maxEntries.toNat_lt
      omega
  refine ⟨Slot.nodup_map_append h.keys_nodup hnew, ?_, fun slot hslot => ?_⟩
  · rw [length_link, ← h.count_eq]
    exact toNat_add_of_lt hcount
  · rcases List.mem_append.1 hslot with hold | hnew
    · exact h.deadline_eq slot hold
    · rw [List.mem_singleton.1 hnew]

/-- A successful write without a time limit that counts no eviction puts its entry there and leaves
a store of this kind. -/
theorem insert (hok : (s.insert key entry .zero now).result = .ok ())
    (hevictions : (s.insert key entry .zero now).store.evictions = s.evictions) :
    (s.insert key entry .zero now).store = (s.remove key).link key entry none
      ∧ Lasting ((s.remove key).link key entry none) := by
  obtain ⟨deadline, hdeadline, hroom, hstore⟩ :=
    insert_of_evictions_eq hok hevictions (h.expired_eq now) h.length_lt
  obtain rfl : none = deadline := Except.ok.inj hdeadline
  exact ⟨hstore, (h.remove key).link (fun slot hslot => (mem_slots_remove hslot).2) hroom⟩

end Lasting

end Store

end ResponseCache
