import ResponseCache.Proofs.Store.View

/-!
# Counters of any store

However many steps a store has gone through, its counters are the number of its slots and the sum of
their sizes, as far as words can tell (`Tallied`). Where the limits leave room the words tell it all
(`isFull_of_room`). So two stores with the same view have the same items, and the same counters.
-/

namespace ResponseCache.Store

open Scenario (StorageStep)

/-- The counters of a store are those of its slots, up to the range of words, and no two of the
slots have one key. -/
structure Tallied (s : Store) : Prop where
  keys_nodup : (s.slots.map Slot.key).Nodup
  count_eq : s.entryCount = UInt64.ofNat s.slots.length
  usage_eq : s.memoryUsage = UInt64.ofNat (bytesOf s.slots)

/-- A store has gone through some steps since it was empty. -/
def Reachable (s : Store) : Prop :=
  ∃ limits origin turns, s = (empty limits origin).after turns

variable {s t : Store} {slot : Slot} {key other : Key} {entry : Entry} {deadline : Option Instant}
  {ttl : Duration} {now : Instant} {incoming : UInt64}

/-- A new slot adds its size, which is the one of the entry up to the range of words. -/
theorem bytesOf_link : bytesOf (s.link key entry deadline).slots
    = bytesOf s.slots + (UInt64.ofNat entry.size).toNat := by
  unfold bytesOf link
  rw [List.map_append, List.sum_append]
  rfl

theorem bytesOf_touch : bytesOf (s.touch key).slots = bytesOf s.slots :=
  congrArg List.sum (map_slots_touch fun _ _ => rfl)

namespace Tallied

theorem empty (limits : Limits) (origin : String) : Tallied (Store.empty limits origin) :=
  ⟨List.nodup_nil, rfl, rfl⟩

variable (h : Tallied s)
include h

/-- The counters go down by one slot and its size. Words wrap, so that this needs no bound. -/
theorem unlink (hmem : slot ∈ s.slots) : Tallied (s.unlink slot) := by
  have hperm := Slot.perm_filter_key h.keys_nodup hmem
  have hlength : s.slots.length = (s.unlink slot).slots.length + 1 := hperm.length_eq
  have hbytes : bytesOf s.slots = slot.size.toNat + bytesOf (s.unlink slot).slots :=
    (hperm.map _).sum_nat
  refine ⟨(List.filter_sublist.map _).nodup h.keys_nodup, ?_, ?_⟩
  · show s.entryCount - 1 = _
    rw [h.count_eq, hlength, UInt64.ofNat_add]
    exact UInt64.add_sub_cancel _ _
  · show s.memoryUsage - slot.size = _
    rw [h.usage_eq, hbytes, UInt64.ofNat_add, UInt64.ofNat_toNat, UInt64.add_comm]
    exact UInt64.add_sub_cancel _ _

/-- A slot that is evicted is counted off as one that is removed. -/
theorem drop (hmem : slot ∈ s.slots) : Tallied (s.drop slot) :=
  ⟨(h.unlink hmem).keys_nodup, (h.unlink hmem).count_eq, (h.unlink hmem).usage_eq⟩

theorem touch (key : Key) : Tallied (s.touch key) := by
  refine ⟨?_, ?_, ?_⟩
  · rw [map_slots_touch fun _ _ => rfl]
    exact h.keys_nodup
  · rw [length_touch]
    exact h.count_eq
  · rw [bytesOf_touch]
    exact h.usage_eq

/-- A slot under a key that no other slot has is counted in. -/
theorem link (hnew : ∀ slot ∈ s.slots, slot.key ≠ key) : Tallied (s.link key entry deadline) := by
  refine ⟨Slot.nodup_map_append h.keys_nodup hnew, ?_, ?_⟩
  · rw [length_link, UInt64.ofNat_add, ← h.count_eq]
    rfl
  · rw [bytesOf_link, UInt64.ofNat_add, ← h.usage_eq, UInt64.ofNat_toNat]
    rfl

/-- Slots of different keys can be counted off one after the other. -/
theorem unlinkAll {slots : List Slot} (hmem : ∀ slot ∈ slots, slot ∈ s.slots)
    (hkeys : (slots.map Slot.key).Nodup) : Tallied (s.unlinkAll slots) := by
  apply unlinkAll_induction Tallied
  · exact fun t slot hslot ht => ht.unlink hslot
  · exact hmem
  · exact hkeys
  · exact h

theorem purge (now : Instant) : Tallied (s.purge now) := by
  have hsub : (s.expired now).Sublist s.slots := List.filter_sublist
  exact h.unlinkAll (fun _ hslot => hsub.subset hslot) ((hsub.map _).nodup h.keys_nodup)

theorem clear : Tallied s.clear :=
  h.unlinkAll (fun _ hslot => hslot) h.keys_nodup

/-- What has no slot under the key is left alone. -/
theorem remove (key : Key) : Tallied (s.remove key) := by
  unfold Store.remove
  split
  · rename_i slot hfound
    exact h.unlink (List.mem_of_find?_eq_some hfound)
  · exact h

theorem evict : Tallied (Store.evict incoming s.byLastUse s).1 := by
  apply evict_induction Tallied
  · exact fun t slot hslot ht => ht.drop hslot
  · exact fun slot hslot => mem_byLastUse.1 hslot
  · exact (s.byLastUse_perm.map _).nodup_iff.2 h.keys_nodup
  · exact h

theorem makeRoom : Tallied (s.makeRoom incoming now).1 := by
  unfold Store.makeRoom
  split
  · exact (h.purge now).evict
  · exact h

/-- The slot under the key of the entry goes first, and making room only takes more slots out. So
the new slot has a key of its own. -/
theorem insert : Tallied (s.insert key entry ttl now).store := by
  unfold Store.insert
  split
  · exact h
  · apply (h.remove key).makeRoom.link
    intro slot hslot
    exact (mem_slots_remove ((sublist_makeRoom _ _ _).subset hslot)).2

/-- A lookup takes the slot of an expired entry out, or makes a slot the last one used. -/
theorem lookup (key : Key) (now : Instant) : Tallied (s.lookup key now).2 := by
  unfold Store.lookup
  split
  · exact h
  · rename_i slot hfound
    split
    · exact h.unlink (List.mem_of_find?_eq_some hfound)
    · exact h.touch key

/-- Every step keeps the counters of a store in step with its slots. -/
theorem run (now : Instant) (step : StorageStep) : Tallied (step.run s now).store := by
  cases step with
  | insert key entry ttl =>
    rw [store_run_insert]
    exact h.insert
  | lookup key =>
    rw [store_run_lookup]
    exact h.lookup key now
  | remove key => exact h.remove key
  | purge => exact h.purge now
  | clear => exact h.clear
  | inspect => exact h
  | origin => exact h

end Tallied

/-- By induction on the steps that a store has gone through. -/
theorem Reachable.tallied (h : Reachable s) : Tallied s := by
  obtain ⟨limits, origin, turns, rfl⟩ := h
  unfold after
  suffices hrun : ∀ s, Tallied s →
      Tallied (turns.foldl (fun s turn => (turn.2.run s turn.1).store) s) from
    hrun _ (.empty limits origin)
  induction turns with
  | nil => exact fun s hs => hs
  | cons turn turns ih => exact fun s hs => ih _ (hs.run turn.1 turn.2)

/-- A store that was reached is still so after one more step. -/
theorem Reachable.run (h : Reachable s) (now : Instant) (step : StorageStep) :
    Reachable (step.run s now).store := by
  obtain ⟨limits, origin, turns, rfl⟩ := h
  exact ⟨limits, origin, turns ++ [(now, step)], (after_append _ turns [(now, step)]).symm⟩

/-! ## Room -/

/-- Where the limits leave room for an entry, the words of the counters tell that they do. -/
theorem Tallied.isFull_eq_false (h : Tallied s)
    (hentries : s.slots.length < s.limits.maxEntries.toNat)
    (hbytes : bytesOf s.slots + incoming.toNat ≤ s.limits.maxBytes.toNat) :
    s.isFull incoming = false := by
  have hmaxEntries := s.limits.maxEntries.toNat_lt
  have hmaxBytes := s.limits.maxBytes.toNat_lt
  have hcount : s.entryCount.toNat = s.slots.length := by
    rw [h.count_eq, UInt64.toNat_ofNat', Nat.mod_eq_of_lt (by omega)]
  have husage : s.memoryUsage.toNat = bytesOf s.slots := by
    rw [h.usage_eq, UInt64.toNat_ofNat', Nat.mod_eq_of_lt (by omega)]
  rw [isFull, Bool.or_eq_false_iff, decide_eq_false_iff_not, decide_eq_false_iff_not, saturatingSum,
    if_pos (by omega), UInt64.le_iff_toNat_le, UInt64.lt_iff_toNat_lt, hcount, toNat_add_of_lt
    (by omega), husage]
  omega

/-! ## Stores with the same view -/

/-- An item has the key of its slot. -/
theorem Tallied.item_keys_nodup (h : Tallied s) :
    ((s.slots.map Slot.item).map Item.key).Nodup := by
  rw [List.map_map]
  exact h.keys_nodup

/-- With one slot for a key, an item is in the store if the view shows it under its key. -/
theorem Tallied.mem_items_iff (h : Tallied s) {i : Item} :
    i ∈ s.slots.map Slot.item ↔ s.view i.key = some i := by
  constructor
  · intro hmem
    rw [view_eq_find?]
    exact find?_eq_some_of_mem h.item_keys_nodup hmem
  · intro hview
    obtain ⟨slot, hslot, rfl, -⟩ := view_eq_some hview
    exact List.mem_map_of_mem hslot

/-- Stores of one view have the same items, in whatever order they were used. -/
theorem Tallied.perm_of_view_eq (hs : Tallied s) (ht : Tallied t) (h : s.view = t.view) :
    (s.slots.map Slot.item).Perm (t.slots.map Slot.item) := by
  rw [List.perm_ext_iff_of_nodup (.of_map _ hs.item_keys_nodup) (.of_map _ ht.item_keys_nodup)]
  intro i
  rw [hs.mem_items_iff, ht.mem_items_iff, h]

/-- The size of a slot is the one of its item. -/
theorem bytesOf_eq (slots : List Slot) :
    bytesOf slots = ((slots.map Slot.item).map Item.bytes).sum := by
  unfold bytesOf
  rw [List.map_map]
  exact congrArg List.sum (List.map_congr_left fun slot _ => slot.bytes_item.symm)

/-- The counters depend on the items alone, and not on their order. -/
theorem Tallied.counters_eq (hs : Tallied s) (ht : Tallied t)
    (h : (s.slots.map Slot.item).Perm (t.slots.map Slot.item)) :
    s.entryCount = t.entryCount ∧ s.memoryUsage = t.memoryUsage := by
  have hlength : s.slots.length = t.slots.length := by simpa using h.length_eq
  have hbytes : bytesOf s.slots = bytesOf t.slots := by
    rw [bytesOf_eq, bytesOf_eq, (h.map Item.bytes).sum_nat]
  rw [hs.count_eq, ht.count_eq, hlength, hs.usage_eq, ht.usage_eq, hbytes]
  exact ⟨rfl, rfl⟩

end ResponseCache.Store
