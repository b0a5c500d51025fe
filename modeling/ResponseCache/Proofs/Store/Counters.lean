import Mathlib
import ResponseCache.Proofs.Store.Slots
import ResponseCache.Scenario.Storage

/-!
# What a store counts

The counters of a store stand beside its slots and are moved apart from them, in words that wrap.
`Sound` says that they are right all the same: the counters are the number of the slots and the sum
of their sizes, both are within the limits, and the ticks of the slots are distinct and have all
been given out. The last field is the reason why the count of evictions never wraps: every slot and
every eviction goes back to a write of its own, and each write took a tick.

All that an operation does to a store it does by dropping slots that are there, using one, or
linking a new one. `Change` is one such change that takes no counter out of its range, and `Reached`
follows an operation through its loops: each change leads from a sound store to a sound store. For a
link this needs the room that `makeRoom` has made (`isFull_makeRoom`).
-/

namespace ResponseCache

/-- A slot and the slots under other keys are all slots. -/
theorem Slot.perm_filter_key {slots : List Slot} {slot : Slot}
    (hkeys : (slots.map Slot.key).Nodup) (hmem : slot ∈ slots) :
    slots.Perm (slot :: slots.filter fun other => other.key ≠ slot.key) := by
  induction slots with
  | nil => cases hmem
  | cons head slots ih =>
    rw [List.map_cons, List.nodup_cons] at hkeys
    rcases List.mem_cons.1 hmem with rfl | hmem
    · have hothers : (slots.filter fun other => other.key ≠ slot.key) = slots := by
        refine List.filter_eq_self.2 fun other hother => decide_eq_true fun e => hkeys.1 ?_
        exact e ▸ List.mem_map_of_mem hother
      rw [List.filter_cons_of_neg (by simp), hothers]
    · have hne : head.key ≠ slot.key := fun e => hkeys.1 (e ▸ List.mem_map_of_mem hmem)
      rw [List.filter_cons_of_pos (by simpa using hne)]
      exact ((ih hkeys.2 hmem).cons head).trans (List.Perm.swap slot head _)

theorem Slot.nodup_map_append {α : Type} {f : Slot → α} {slots : List Slot} {slot : Slot}
    (hnodup : (slots.map f).Nodup) (hne : ∀ other ∈ slots, f other ≠ f slot) :
    ((slots ++ [slot]).map f).Nodup := by
  rw [List.map_append, List.nodup_append]
  refine ⟨hnodup, List.nodup_singleton _, ?_⟩
  intro a ha b hb e
  obtain ⟨other, hother, rfl⟩ := List.mem_map.1 ha
  rw [List.map_singleton, List.mem_singleton] at hb
  exact hne other hother (e.trans hb)

namespace Store

open Scenario (StorageStep)

/-- The octets that the entries of some slots take together. -/
def bytesOf (slots : List Slot) : Nat :=
  (slots.map fun slot => slot.size.toNat).sum

/-- The counters and ticks of a store are right, and it keeps its limits. -/
structure Sound (limits : Limits) (s : Store) : Prop where
  limits_eq : s.limits = limits
  keys_nodup : (s.slots.map Slot.key).Nodup
  count_eq : s.entryCount.toNat = s.slots.length
  usage_eq : s.memoryUsage.toNat = bytesOf s.slots
  count_le : s.entryCount ≤ limits.maxEntries
  usage_le : s.memoryUsage ≤ limits.maxBytes
  uses_nodup : (s.slots.map Slot.lastUse).Nodup
  uses_lt : ∀ slot ∈ s.slots, slot.lastUse < s.tick
  written_le : s.evictions.toNat + s.slots.length ≤ s.tick.toNat

/-- The store without a slot that was dropped to make room. -/
def drop (s : Store) (slot : Slot) : Store :=
  { s.unlink slot with evictions := s.evictions + 1 }

/-- One change of a store. None of its counters and ticks goes below zero or beyond its word. -/
inductive Change : Store → Store → Prop
  | unlink {s : Store} {slot : Slot} (hmem : slot ∈ s.slots) (hcount : 1 ≤ s.entryCount)
    (husage : slot.size ≤ s.memoryUsage) : Change s (s.unlink slot)
  | drop {s : Store} {slot : Slot} (hmem : slot ∈ s.slots) (hcount : 1 ≤ s.entryCount)
    (husage : slot.size ≤ s.memoryUsage) (hevictions : s.evictions.toNat + 1 < 2 ^ 64) :
    Change s (s.drop slot)
  | touch {s : Store} {key : Key} (htick : s.tick.toNat + 1 < 2 ^ 64) : Change s (s.touch key)
  | link {s : Store} {key : Key} {entry : Entry} {deadline : Option Instant}
    (hcount : s.entryCount.toNat + 1 < 2 ^ 64)
    (husage : s.memoryUsage.toNat + (UInt64.ofNat entry.size).toNat < 2 ^ 64)
    (htick : s.tick.toNat + 1 < 2 ^ 64) : Change s (s.link key entry deadline)

variable {limits : Limits} {s t : Store} {slot : Slot} {key : Key} {entry : Entry}
  {deadline : Option Instant} {ttl : Duration} {now : Instant} {incoming : UInt64}

/-- To use a slot changes its tick alone. -/
theorem map_slots_touch {α : Type} {f : Slot → α}
    (hf : ∀ slot tick, f { slot with lastUse := tick } = f slot) :
    (s.touch key).slots.map f = s.slots.map f := by
  rw [touch, List.map_map]
  refine List.map_congr_left fun other _ => ?_
  dsimp only [Function.comp]
  split
  · exact hf other s.tick
  · rfl

theorem toNat_add_of_lt {a b : UInt64} (h : a.toNat + b.toNat < 2 ^ 64) :
    (a + b).toNat = a.toNat + b.toNat := by
  rw [UInt64.toNat_add, Nat.mod_eq_of_lt h]

/-! ## Single changes -/

namespace Sound

theorem empty (limits : Limits) (origin : String) : Sound limits (Store.empty limits origin) where
  limits_eq := rfl
  keys_nodup := List.nodup_nil
  count_eq := rfl
  usage_eq := rfl
  count_le := UInt64.zero_le
  usage_le := UInt64.zero_le
  uses_nodup := List.nodup_nil
  uses_lt := fun _ h => nomatch h
  written_le := Nat.le_refl 0

variable (hs : Sound limits s)
include hs

theorem one_le_count (hmem : slot ∈ s.slots) : 1 ≤ s.entryCount := by
  have hlength := List.length_pos_of_mem hmem
  rw [UInt64.le_iff_toNat_le, hs.count_eq]
  exact hlength

/-- The sizes of the slots are the one of a slot and those of the others. -/
theorem bytesOf_unlink (hmem : slot ∈ s.slots) :
    bytesOf s.slots = slot.size.toNat + bytesOf (s.unlink slot).slots :=
  ((Slot.perm_filter_key hs.keys_nodup hmem).map _).sum_nat

theorem length_unlink (hmem : slot ∈ s.slots) :
    s.slots.length = (s.unlink slot).slots.length + 1 :=
  (Slot.perm_filter_key hs.keys_nodup hmem).length_eq

theorem size_le_usage (hmem : slot ∈ s.slots) : slot.size ≤ s.memoryUsage := by
  rw [UInt64.le_iff_toNat_le, hs.usage_eq, hs.bytesOf_unlink hmem]
  exact Nat.le_add_right _ _

theorem unlink (hmem : slot ∈ s.slots) : Sound limits (s.unlink slot) := by
  have hsub : (s.unlink slot).slots.Sublist s.slots := List.filter_sublist
  have hlength := hs.length_unlink hmem
  have hbytes := hs.bytesOf_unlink hmem
  have hcount : (s.unlink slot).entryCount.toNat = s.entryCount.toNat - 1 :=
    UInt64.toNat_sub_of_le _ _ (hs.one_le_count hmem)
  have husage : (s.unlink slot).memoryUsage.toNat = s.memoryUsage.toNat - slot.size.toNat :=
    UInt64.toNat_sub_of_le _ _ (hs.size_le_usage hmem)
  have hcount_eq := hs.count_eq
  have husage_eq := hs.usage_eq
  have hcount_le := UInt64.le_iff_toNat_le.1 hs.count_le
  have husage_le := UInt64.le_iff_toNat_le.1 hs.usage_le
  have hwritten : s.evictions.toNat + s.slots.length ≤ s.tick.toNat := hs.written_le
  constructor
  case limits_eq => exact hs.limits_eq
  case keys_nodup => exact (hsub.map _).nodup hs.keys_nodup
  case count_eq => omega
  case usage_eq => omega
  case count_le =>
    rw [UInt64.le_iff_toNat_le]
    omega
  case usage_le =>
    rw [UInt64.le_iff_toNat_le]
    omega
  case uses_nodup => exact (hsub.map _).nodup hs.uses_nodup
  case uses_lt =>
    intro other hother
    exact hs.uses_lt other (hsub.subset hother)
  case written_le =>
    show s.evictions.toNat + (s.unlink slot).slots.length ≤ s.tick.toNat
    omega

/-- The number of evictions has room for one more, since every slot there is was linked at a tick of
its own. -/
theorem evictions_lt (hmem : slot ∈ s.slots) : s.evictions.toNat + 1 < 2 ^ 64 := by
  have hwritten := hs.written_le
  have hlength := List.length_pos_of_mem hmem
  have htick := s.tick.toNat_lt
  omega

/-- An eviction is counted. -/
theorem drop (hmem : slot ∈ s.slots) : Sound limits (s.drop slot) := by
  have hunlink := hs.unlink hmem
  refine { hunlink with written_le := ?_ }
  have hevictions : (s.drop slot).evictions.toNat = s.evictions.toNat + 1 :=
    toNat_add_of_lt (hs.evictions_lt hmem)
  have hlength := hs.length_unlink hmem
  have hwritten := hs.written_le
  show (s.drop slot).evictions.toNat + (s.unlink slot).slots.length ≤ s.tick.toNat
  omega

theorem touch (htick : s.tick.toNat + 1 < 2 ^ 64) : Sound limits (s.touch key) := by
  have htick_eq : (s.touch key).tick.toNat = s.tick.toNat + 1 := toNat_add_of_lt htick
  have hkeys : (s.touch key).slots.map Slot.key = s.slots.map Slot.key :=
    map_slots_touch fun _ _ => rfl
  have hsizes : bytesOf (s.touch key).slots = bytesOf s.slots :=
    congrArg List.sum (map_slots_touch fun _ _ => rfl)
  have hlength : (s.touch key).slots.length = s.slots.length := List.length_map ..
  constructor
  case limits_eq => exact hs.limits_eq
  case keys_nodup =>
    rw [hkeys]
    exact hs.keys_nodup
  case count_eq =>
    rw [hlength]
    exact hs.count_eq
  case usage_eq =>
    rw [hsizes]
    exact hs.usage_eq
  case count_le => exact hs.count_le
  case usage_le => exact hs.usage_le
  case uses_nodup =>
    -- only one slot gets the new tick, and no slot had it before
    have hold : s.slots.Pairwise fun a b => a.lastUse ≠ b.lastUse :=
      List.pairwise_map.1 hs.uses_nodup
    have hkey : s.slots.Pairwise fun a b => a.key ≠ b.key := List.pairwise_map.1 hs.keys_nodup
    rw [Store.touch, List.map_map]
    refine List.pairwise_map.2 ((hold.and hkey).imp_of_mem ?_)
    intro a b ha hb hab
    have ha' := UInt64.ne_of_lt (hs.uses_lt a ha)
    have hb' := UInt64.ne_of_lt (hs.uses_lt b hb)
    dsimp only [Function.comp]
    split <;> split
    · rename_i hak hbk
      exact absurd (hak.trans hbk.symm) hab.2
    · exact hb'.symm
    · exact ha'
    · exact hab.1
  case uses_lt =>
    intro other hother
    obtain ⟨old, hold, rfl⟩ := List.mem_map.1 hother
    have hlt := UInt64.lt_iff_toNat_lt.1 (hs.uses_lt old hold)
    rw [UInt64.lt_iff_toNat_lt, htick_eq]
    split
    · exact Nat.lt_succ_self _
    · omega
  case written_le =>
    have hwritten := hs.written_le
    rw [hlength, htick_eq]
    exact Nat.le_succ_of_le hwritten

/-- A store has room exactly if one slot more and its octets are within the limits. The sum of words
is cut off at the largest word, which no limit reaches. -/
theorem isFull_eq_false_iff (hbytes : limits.maxBytes.toNat < 2 ^ 64 - 1) :
    s.isFull incoming = false ↔
      s.slots.length < limits.maxEntries.toNat
        ∧ bytesOf s.slots + incoming.toNat ≤ limits.maxBytes.toNat := by
  have hsum : limits.maxBytes < saturatingSum s.memoryUsage incoming ↔
      limits.maxBytes.toNat < bytesOf s.slots + incoming.toNat := by
    rw [UInt64.lt_iff_toNat_lt, saturatingSum, ← hs.usage_eq]
    split
    · rename_i hlt
      rw [toNat_add_of_lt hlt]
    · rename_i hge
      have hword : (18446744073709551615 : UInt64).toNat = 2 ^ 64 - 1 := rfl
      rw [hword]
      constructor
      · intro _
        omega
      · exact fun _ => hbytes
  rw [isFull, Bool.or_eq_false_iff, decide_eq_false_iff_not, decide_eq_false_iff_not,
    hs.limits_eq, hsum, UInt64.le_iff_toNat_le, hs.count_eq, Nat.not_le, Nat.not_lt]

/-- Where there is room for an entry the counters go up without wrapping. -/
theorem link (hbytes : limits.maxBytes.toNat < 2 ^ 64 - 1)
    (hnew : ∀ slot ∈ s.slots, slot.key ≠ key)
    (hroom : s.isFull (UInt64.ofNat entry.size) = false) (htick : s.tick.toNat + 1 < 2 ^ 64) :
    Sound limits (s.link key entry deadline) := by
  obtain ⟨hlength, hsum⟩ := (hs.isFull_eq_false_iff hbytes).1 hroom
  have hmax := limits.maxEntries.toNat_lt
  have hcount_eq := hs.count_eq
  have husage_eq := hs.usage_eq
  have htick_eq : (s.link key entry deadline).tick.toNat = s.tick.toNat + 1 :=
    toNat_add_of_lt htick
  have hone : (1 : UInt64).toNat = 1 := rfl
  have hcount : (s.link key entry deadline).entryCount.toNat = s.entryCount.toNat + 1 :=
    toNat_add_of_lt (by omega)
  have husage : (s.link key entry deadline).memoryUsage.toNat
      = s.memoryUsage.toNat + (UInt64.ofNat entry.size).toNat := toNat_add_of_lt (by omega)
  have hslots : (s.link key entry deadline).slots = s.slots ++ [⟨key, entry, deadline, s.tick⟩] :=
    rfl
  have hlength_eq : (s.link key entry deadline).slots.length = s.slots.length + 1 := by
    rw [hslots, List.length_append, List.length_singleton]
  have hbytes_eq : bytesOf (s.link key entry deadline).slots
      = bytesOf s.slots + (UInt64.ofNat entry.size).toNat := by
    rw [hslots, bytesOf, List.map_append, List.sum_append]
    rfl
  constructor
  case limits_eq => exact hs.limits_eq
  case keys_nodup => exact Slot.nodup_map_append hs.keys_nodup hnew
  case count_eq => omega
  case usage_eq => omega
  case count_le =>
    rw [UInt64.le_iff_toNat_le]
    omega
  case usage_le =>
    rw [UInt64.le_iff_toNat_le]
    omega
  case uses_nodup =>
    apply Slot.nodup_map_append hs.uses_nodup
    intro slot hslot
    exact UInt64.ne_of_lt (hs.uses_lt slot hslot)
  case uses_lt =>
    intro slot hslot
    rw [UInt64.lt_iff_toNat_lt, htick_eq]
    rcases List.mem_append.1 (hslots ▸ hslot) with hold | hlast
    · have := UInt64.lt_iff_toNat_lt.1 (hs.uses_lt slot hold)
      omega
    · rw [List.mem_singleton.1 hlast]
      exact Nat.lt_succ_self _
  case written_le =>
    have hwritten := hs.written_le
    have hevictions : (s.link key entry deadline).evictions = s.evictions := rfl
    rw [hlength_eq, htick_eq, hevictions]
    omega

end Sound

/-! ## Operations -/

/-- Store `t` is sound and `s` has become it by changes that left every counter in its range. -/
structure Reached (limits : Limits) (s t : Store) : Prop where
  sound : Sound limits t
  path : Relation.ReflTransGen Change s t

/-- What holds of a store still holds after some of its slots have been unlinked. -/
theorem unlinkAll_induction (P : Store → Prop)
    (hunlink : ∀ s slot, slot ∈ s.slots → P s → P (s.unlink slot)) {slots : List Slot}
    (hmem : ∀ slot ∈ slots, slot ∈ s.slots) (hkeys : (slots.map Slot.key).Nodup) (hs : P s) :
    P (s.unlinkAll slots) := by
  unfold unlinkAll
  induction slots generalizing s with
  | nil => exact hs
  | cons slot slots ih =>
    rw [List.map_cons, List.nodup_cons] at hkeys
    refine ih ?_ hkeys.2 (hunlink s slot (hmem slot List.mem_cons_self) hs)
    -- the further slots have other keys, so they are still there
    intro other hother
    refine List.mem_filter.2 ⟨hmem other (List.mem_cons_of_mem _ hother), decide_eq_true ?_⟩
    exact fun e => hkeys.1 (e ▸ List.mem_map_of_mem hother)

/-- What holds of a store still holds after some of its slots have been dropped to make room. -/
theorem evict_induction (P : Store → Prop)
    (hdrop : ∀ s slot, slot ∈ s.slots → P s → P (s.drop slot)) {candidates : List Slot}
    (hmem : ∀ slot ∈ candidates, slot ∈ s.slots) (hkeys : (candidates.map Slot.key).Nodup)
    (hs : P s) : P (evict incoming candidates s).1 := by
  induction candidates generalizing s with
  | nil => exact hs
  | cons slot slots ih =>
    rw [List.map_cons, List.nodup_cons] at hkeys
    unfold evict
    split
    · refine ih ?_ hkeys.2 (hdrop s slot (hmem slot List.mem_cons_self) hs)
      intro other hother
      refine List.mem_filter.2 ⟨hmem other (List.mem_cons_of_mem _ hother), decide_eq_true ?_⟩
      exact fun e => hkeys.1 (e ▸ List.mem_map_of_mem hother)
    · exact hs

theorem mem_byLastUse : slot ∈ s.byLastUse ↔ slot ∈ s.slots :=
  (List.mergeSort_perm _ _).mem_iff

/-- Eviction stops when there is room, or else with an empty store. -/
theorem evict_cases {candidates : List Slot} (hall : ∀ slot ∈ s.slots, slot ∈ candidates) :
    (evict incoming candidates s).1.isFull incoming = false
      ∨ (evict incoming candidates s).1.slots = [] := by
  induction candidates generalizing s with
  | nil => exact .inr (List.eq_nil_iff_forall_not_mem.2 fun slot h => nomatch hall slot h)
  | cons slot slots ih =>
    unfold evict
    split
    · apply ih
      intro other hother
      obtain ⟨hother, hne⟩ := List.mem_filter.1 hother
      rcases List.mem_cons.1 (hall other hother) with rfl | hrest
      · simp at hne
      · exact hrest
    · rename_i hroom
      exact .inl (eq_false_of_ne_true hroom)

section Tick

theorem tick_unlinkAll (s : Store) (slots : List Slot) : (s.unlinkAll slots).tick = s.tick := by
  apply unlinkAll_inv (fun t => t.tick = s.tick)
  · exact fun _ _ ht => ht
  · rfl

theorem tick_makeRoom : (s.makeRoom incoming now).1.tick = s.tick := by
  apply makeRoom_inv (fun t => t.tick = s.tick)
  · exact fun _ _ ht => ht
  · exact fun _ _ ht => ht
  · rfl

theorem tick_remove : (s.remove key).tick = s.tick := by
  unfold remove
  split <;> rfl

theorem store_run_insert :
    ((StorageStep.insert key entry ttl).run s now).store = (s.insert key entry ttl now).store := by
  unfold StorageStep.run
  dsimp only
  split <;> rfl

theorem store_run_lookup :
    ((StorageStep.lookup key).run s now).store = (s.lookup key now).2 := by
  unfold StorageStep.run
  dsimp only
  split <;> rename_i hlookup <;> rw [hlookup]

/-- A step takes one tick at most. -/
theorem tick_run_le (s : Store) (now : Instant) (step : StorageStep) :
    (step.run s now).store.tick.toNat ≤ s.tick.toNat + 1 := by
  have hsucc : (s.tick + 1).toNat ≤ s.tick.toNat + 1 := by
    rw [UInt64.toNat_add]
    exact Nat.mod_le _ _
  have hsame : s.tick.toNat ≤ s.tick.toNat + 1 := Nat.le_succ _
  cases step with
  | insert key entry ttl =>
    rw [store_run_insert, insert]
    split
    · exact hsame
    · dsimp only [link]
      rw [tick_makeRoom, tick_remove]
      exact hsucc
  | lookup key =>
    rw [store_run_lookup, lookup]
    split
    · exact hsame
    · split
      · exact hsame
      · exact hsucc
  | remove key =>
    show (s.remove key).tick.toNat ≤ s.tick.toNat + 1
    rw [tick_remove]
    exact hsame
  | purge =>
    show (s.unlinkAll _).tick.toNat ≤ s.tick.toNat + 1
    rw [tick_unlinkAll]
    exact hsame
  | clear =>
    show (s.unlinkAll _).tick.toNat ≤ s.tick.toNat + 1
    rw [tick_unlinkAll]
    exact hsame
  | inspect => exact hsame
  | origin => exact hsame

end Tick

namespace Reached

theorem refl (hs : Sound limits s) : Reached limits s s :=
  ⟨hs, .refl⟩

variable (h : Reached limits s t)
include h

theorem unlink (hmem : slot ∈ t.slots) : Reached limits s (t.unlink slot) :=
  ⟨h.sound.unlink hmem,
    h.path.tail (.unlink hmem (h.sound.one_le_count hmem) (h.sound.size_le_usage hmem))⟩

theorem drop (hmem : slot ∈ t.slots) : Reached limits s (t.drop slot) :=
  ⟨h.sound.drop hmem,
    h.path.tail (.drop hmem (h.sound.one_le_count hmem) (h.sound.size_le_usage hmem)
      (h.sound.evictions_lt hmem))⟩

theorem touch (htick : t.tick.toNat + 1 < 2 ^ 64) : Reached limits s (t.touch key) :=
  ⟨h.sound.touch htick, h.path.tail (.touch htick)⟩

theorem link (hbytes : limits.maxBytes.toNat < 2 ^ 64 - 1)
    (hnew : ∀ slot ∈ t.slots, slot.key ≠ key)
    (hroom : t.isFull (UInt64.ofNat entry.size) = false) (htick : t.tick.toNat + 1 < 2 ^ 64) :
    Reached limits s (t.link key entry deadline) := by
  obtain ⟨hlength, hsum⟩ := (h.sound.isFull_eq_false_iff hbytes).1 hroom
  have hmax := limits.maxEntries.toNat_lt
  have hcount := h.sound.count_eq
  have husage := h.sound.usage_eq
  refine ⟨h.sound.link hbytes hnew hroom htick, h.path.tail (.link ?_ ?_ htick)⟩
  · omega
  · omega

theorem unlinkAll {slots : List Slot} (hmem : ∀ slot ∈ slots, slot ∈ t.slots)
    (hkeys : (slots.map Slot.key).Nodup) : Reached limits s (t.unlinkAll slots) := by
  apply unlinkAll_induction (Reached limits s)
  · exact fun t slot hslot ht => ht.unlink hslot
  · exact hmem
  · exact hkeys
  · exact h

theorem purge : Reached limits s (t.purge now) := by
  have hsub : (t.expired now).Sublist t.slots := List.filter_sublist
  exact h.unlinkAll (fun _ hslot => hsub.subset hslot) ((hsub.map _).nodup h.sound.keys_nodup)

theorem clear : Reached limits s t.clear :=
  h.unlinkAll (fun _ hslot => hslot) h.sound.keys_nodup

theorem remove : Reached limits s (t.remove key) := by
  unfold Store.remove
  split
  · rename_i slot hfound
    exact h.unlink (List.mem_of_find?_eq_some hfound)
  · exact h

theorem evict : Reached limits s (Store.evict incoming t.byLastUse t).1 := by
  apply evict_induction (Reached limits s)
  · exact fun t slot hslot ht => ht.drop hslot
  · exact fun slot hslot => mem_byLastUse.1 hslot
  · exact ((List.mergeSort_perm _ _).map _).nodup_iff.2 h.sound.keys_nodup
  · exact h

theorem makeRoom : Reached limits s (t.makeRoom incoming now).1 := by
  unfold Store.makeRoom
  split
  · exact h.purge.evict
  · exact h

end Reached

/-- An entry that is within the limits has room when room has been made for it. -/
theorem isFull_makeRoom (hs : Sound limits s) (hbytes : limits.maxBytes.toNat < 2 ^ 64 - 1)
    (hentries : limits.maxEntries ≠ 0) (hsize : incoming ≤ limits.maxBytes) :
    (s.makeRoom incoming now).1.isFull incoming = false := by
  unfold makeRoom
  split
  · have hevict : Reached limits s (evict incoming (s.purge now).byLastUse (s.purge now)).1 :=
      (Reached.refl hs).purge.evict
    have hall : ∀ slot ∈ (s.purge now).slots, slot ∈ (s.purge now).byLastUse :=
      fun slot hslot => mem_byLastUse.2 hslot
    rcases evict_cases hall with hroom | hnone
    · exact hroom
    · have hpos : limits.maxEntries.toNat ≠ 0 := fun e => hentries (UInt64.toNat_inj.1 e)
      rw [hevict.sound.isFull_eq_false_iff hbytes, hnone]
      refine ⟨Nat.pos_of_ne_zero hpos, ?_⟩
      rw [UInt64.le_iff_toNat_le] at hsize
      simpa [bytesOf] using hsize
  · rename_i hroom
    exact eq_false_of_ne_true hroom

theorem accept_eq_ok_iff :
    s.accept entry ttl now = .ok deadline ↔
      s.limits.maxEntries ≠ 0 ∧ UInt64.ofNat entry.size ≤ s.limits.maxBytes
        ∧ Store.deadline ttl now = .ok deadline := by
  unfold accept
  dsimp only
  split
  · rename_i hzero
    simp [hzero]
  · rename_i hentries
    split
    · rename_i hlarge
      simp [hentries, UInt64.not_le.2 hlarge]
    · rename_i hsize
      simp [hentries, UInt64.not_lt.1 hsize]

namespace Reached

variable (h : Reached limits s t)
include h

theorem insert (hbytes : limits.maxBytes.toNat < 2 ^ 64 - 1) (htick : t.tick.toNat + 1 < 2 ^ 64) :
    Reached limits s (t.insert key entry ttl now).store := by
  unfold Store.insert
  split
  · exact h
  · rename_i deadline haccept
    rw [accept_eq_ok_iff, h.sound.limits_eq] at haccept
    have hremove : Reached limits s (t.remove key) := h.remove
    refine hremove.makeRoom.link hbytes ?_ ?_ ?_
    · intro slot hslot
      exact (mem_slots_remove ((sublist_makeRoom _ _ _).subset hslot)).2
    · exact isFull_makeRoom hremove.sound hbytes haccept.1 haccept.2.1
    · rw [tick_makeRoom, tick_remove]
      exact htick

theorem lookup (htick : t.tick.toNat + 1 < 2 ^ 64) : Reached limits s (t.lookup key now).2 := by
  unfold Store.lookup
  split
  · exact h
  · rename_i slot hfound
    split
    · exact h.unlink (List.mem_of_find?_eq_some hfound)
    · exact h.touch htick

theorem run (hbytes : limits.maxBytes.toNat < 2 ^ 64 - 1) (htick : t.tick.toNat + 1 < 2 ^ 64)
    (step : StorageStep) : Reached limits s (step.run t now).store := by
  cases step with
  | insert key entry ttl =>
    rw [store_run_insert]
    exact h.insert hbytes htick
  | lookup key =>
    rw [store_run_lookup]
    exact h.lookup htick
  | remove key => exact h.remove
  | purge => exact h.purge
  | clear => exact h.clear
  | inspect => exact h
  | origin => exact h

end Reached

/-! ## Runs -/

/-- The store after some steps, each at its own reading of the clock. -/
def after (s : Store) (turns : List (Instant × StorageStep)) : Store :=
  turns.foldl (fun s turn => (turn.2.run s turn.1).store) s

theorem after_append (s : Store) (earlier later : List (Instant × StorageStep)) :
    s.after (earlier ++ later) = (s.after earlier).after later :=
  List.foldl_append

/-- A step moves the tick on by one at most. -/
theorem tick_after_le (s : Store) (turns : List (Instant × StorageStep)) :
    (s.after turns).tick.toNat ≤ s.tick.toNat + turns.length := by
  induction turns generalizing s with
  | nil => exact Nat.le_refl _
  | cons turn turns ih =>
    have hstep := tick_run_le s turn.1 turn.2
    have hrest := ih (turn.2.run s turn.1).store
    show ((turn.2.run s turn.1).store.after turns).tick.toNat ≤ s.tick.toNat + (turns.length + 1)
    omega

/-- As long as the ticks last, a run leads from a sound store to a sound store. -/
theorem Reached.after (turns : List (Instant × StorageStep))
    (hbytes : limits.maxBytes.toNat < 2 ^ 64 - 1)
    (hturns : t.tick.toNat + turns.length < 2 ^ 64) (h : Reached limits s t) :
    Reached limits s (t.after turns) := by
  induction turns generalizing t with
  | nil => exact h
  | cons turn turns ih =>
    have hstep := tick_run_le t turn.1 turn.2
    rw [List.length_cons] at hturns
    have hrest : (turn.2.run t turn.1).store.tick.toNat + turns.length < 2 ^ 64 := by omega
    exact ih hrest (h.run hbytes (by omega) turn.2)

theorem Change.evictions_le (h : Change s t) : s.evictions ≤ t.evictions := by
  cases h with
  | unlink => exact UInt64.le_refl _
  | drop _ _ _ hevictions =>
    rw [UInt64.le_iff_toNat_le]
    show s.evictions.toNat ≤ (s.evictions + 1).toNat
    rw [toNat_add_of_lt hevictions]
    exact Nat.le_succ _
  | touch => exact UInt64.le_refl _
  | link => exact UInt64.le_refl _

/-- Evictions are never taken back, along any path. -/
theorem evictions_le_of_path (h : Relation.ReflTransGen Change s t) :
    s.evictions ≤ t.evictions := by
  induction h with
  | refl => exact UInt64.le_refl _
  | tail _ hlast ih => exact UInt64.le_trans ih hlast.evictions_le

/-- The counters of a store are exact and its limits hold. Let a store that was empty go through
fewer than 2^64 steps, each at any reading of the clock. Then it is sound: it counts its slots and
their octets, which are within the limits, and each slot has a tick of its own that was given out
before. Between any two points of the run it was changed only in ways that take no counter below
zero or beyond its word, and its count of evictions never went down. -/
theorem counters_exact (limits : Limits) (origin : String)
    (turns : List (Instant × StorageStep)) (hbytes : limits.maxBytes.toNat < 2 ^ 64 - 1)
    (hturns : turns.length < 2 ^ 64) :
    Sound limits ((empty limits origin).after turns)
      ∧ ∀ earlier later, turns = earlier ++ later →
        Relation.ReflTransGen Change ((empty limits origin).after earlier)
            ((empty limits origin).after turns)
          ∧ ((empty limits origin).after earlier).evictions
            ≤ ((empty limits origin).after turns).evictions := by
  have hempty : Reached limits (empty limits origin) (empty limits origin) :=
    .refl (.empty limits origin)
  have hzero : (empty limits origin).tick.toNat = 0 := rfl
  refine ⟨(hempty.after turns hbytes (by omega)).sound, ?_⟩
  rintro earlier later rfl
  rw [List.length_append] at hturns
  have hearlier := hempty.after earlier hbytes (by omega)
  have htick := tick_after_le (empty limits origin) earlier
  have hpath := ((Reached.refl hearlier.sound).after later hbytes (by omega)).path
  rw [after_append]
  exact ⟨hpath, evictions_le_of_path hpath⟩

end Store

namespace Sample

open Scenario (StorageStep)

/-- A store for one entry that gets two, the second without a deadline, and looks the first one up
again. -/
def crowding : List (Instant × StorageStep) :=
  [(.epoch, .insert ⟨"a"⟩ ⟨.get, "/a", .epoch, [], "memory"⟩ Config.day),
    (.epoch, .insert ⟨"b"⟩ ⟨.get, "/b", .epoch, [], "memory"⟩ .zero),
    (.epoch, .lookup ⟨"a"⟩)]

end Sample

namespace Store

theorem counters_exact_crowding :
    (⟨1, 100⟩ : Limits).maxBytes.toNat < 2 ^ 64 - 1 ∧ Sample.crowding.length < 2 ^ 64
      ∧ Sound ⟨1, 100⟩ ((empty ⟨1, 100⟩ "memory").after Sample.crowding)
      ∧ ((empty ⟨1, 100⟩ "memory").after Sample.crowding).evictions = 1
      ∧ (empty ⟨1, 100⟩ "memory").evictions
        ≤ ((empty ⟨1, 100⟩ "memory").after Sample.crowding).evictions := by
  have hbytes : (⟨1, 100⟩ : Limits).maxBytes.toNat < 2 ^ 64 - 1 := by decide
  have hturns : Sample.crowding.length < 2 ^ 64 := by decide
  obtain ⟨hsound, hpath⟩ := counters_exact ⟨1, 100⟩ "memory" Sample.crowding hbytes hturns
  exact ⟨hbytes, hturns, hsound, by decide +kernel, (hpath [] Sample.crowding rfl).2⟩

end Store

end ResponseCache
