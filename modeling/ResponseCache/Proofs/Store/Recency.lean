import ResponseCache.Proofs.Store.Counters

/-!
# A store as a list by recency

`Recency` is what a store is to those who use it: a list of items, the least recently used one in
front, and the number of items that had to go for others. It has no ticks, no counters and no
sorting. A use moves an item to the end, and room is made by cutting off the shortest prefix that is
long enough.

A store mirrors such a list if sorting its slots by their ticks gives the items (`Mirrors`). The
ticks of a sound store are distinct, so any list of its slots with rising ticks is the sorted one
(`byLastUse_eq`). From this follows what each change does to the items: to unlink a slot filters
them, to link one adds an item at the end, because the tick that is given out next is above all
others, and a use does both (`items_unlink`, `items_link`, `items_touch`).
-/

namespace ResponseCache

/-- What a write leaves: an entry under its key, and the deadline of the entry if it has one. -/
structure Item where
  key : Key
  entry : Entry
  deadline : Option Instant
deriving DecidableEq

namespace Item

def isExpired (i : Item) (now : Instant) : Bool :=
  match i.deadline with
  | some d => d ≤ now
  | none => false

/-- The octets of the entry, as a word counts them. -/
def bytes (i : Item) : Nat :=
  i.entry.size % 2 ^ 64

end Item

/-- The items of a store of the given limits and tag, from the least to the most recently used one,
and how many were evicted. -/
structure Recency where
  limits : Limits
  origin : String
  items : List Item
  evictions : Nat

namespace Recency

open Scenario (StorageStep StorageAnswer)

def empty (limits : Limits) (origin : String) : Recency :=
  ⟨limits, origin, [], 0⟩

/-- Whether one item more of the given size is within the limits. -/
def Fits (limits : Limits) (bytes : Nat) (items : List Item) : Prop :=
  items.length < limits.maxEntries.toNat
    ∧ (items.map Item.bytes).sum + bytes ≤ limits.maxBytes.toNat

instance (limits : Limits) (bytes : Nat) (items : List Item) :
    Decidable (Fits limits bytes items) :=
  inferInstanceAs (Decidable (_ ∧ _))

/-- The items without the shortest prefix that is enough to make room. -/
def shed (limits : Limits) (bytes : Nat) (items : List Item) : List Item :=
  (items.tails.find? fun rest => Fits limits bytes rest).getD []

/-- The items that stay when one more of the given size comes, and the number of those that are
evicted for it. If there is no room, the items past their deadlines go without being counted, and
then the least recently used ones. -/
def makeRoom (limits : Limits) (bytes : Nat) (now : Instant) (items : List Item) :
    List Item × Nat :=
  if Fits limits bytes items then (items, 0)
  else
    let live := items.filter fun i => !i.isExpired now
    let kept := shed limits bytes live
    (kept, live.length - kept.length)

/-- Why an entry is refused, if it is: the store holds no entries, the entry alone is too large, or
its time to live is longer than the longest span. -/
def refusal? (limits : Limits) (entry : Entry) (ttl : Duration) : Option StoreFault :=
  if limits.maxEntries.toNat = 0 then some .noCapacity
  else if limits.maxBytes.toNat < entry.size % 2 ^ 64 then
    some (.tooLarge (UInt64.ofNat entry.size) limits.maxBytes)
  else if Duration.longestSpan < ttl.toNanos then some .lifeTooLong
  else none

/-- The deadline of an entry that is to live for `ttl`: none if that is zero or beyond the
calendar. -/
def deadline (ttl : Duration) (now : Instant) : Option Instant :=
  if ttl.toNanos = 0 then none else now.shift? ttl.toNanos

/-- A write replaces the item of its key, makes room if it must, and comes last. -/
def insert (ref : Recency) (key : Key) (entry : Entry) (ttl : Duration) (now : Instant) :
    StorageAnswer × Recency :=
  match refusal? ref.limits entry ttl with
  | some fault => (.failed ((Failure.storage (.store fault)).withKey key), ref)
  | none =>
    let item : Item := ⟨key, entry, deadline ttl now⟩
    let room := makeRoom ref.limits item.bytes now (ref.items.filter fun i => i.key ≠ key)
    (.done, { ref with items := room.1 ++ [item], evictions := ref.evictions + room.2 })

/-- A lookup moves the item of its key to the end, or drops it if its deadline has passed. -/
def lookup (ref : Recency) (key : Key) (now : Instant) : StorageAnswer × Recency :=
  match ref.items.find? fun i => i.key = key with
  | none => (.failed (.notFound key), ref)
  | some item =>
    let others := ref.items.filter fun i => i.key ≠ key
    if item.isExpired now then (.failed (.expired key), { ref with items := others })
    else (.entry item.entry, { ref with items := others ++ [item] })

/-- The diagnostic form of the store with these items. -/
def inspect (ref : Recency) : String :=
  Text.inspectPartly "MemoryStorage" [
    ("entries", toString ref.items.length),
    ("limits", Store.inspectLimits ref.limits),
    ("origin", Text.quote ref.origin)]

/-- One step on the items, and the answer to it. -/
def step (ref : Recency) (now : Instant) : StorageStep → StorageAnswer × Recency
  | .insert key entry ttl => ref.insert key entry ttl now
  | .lookup key => ref.lookup key now
  | .remove key => (.done, { ref with items := ref.items.filter fun i => i.key ≠ key })
  | .purge =>
    (.count (ref.items.filter fun i => i.isExpired now).length,
      { ref with items := ref.items.filter fun i => !i.isExpired now })
  | .clear => (.done, { ref with items := [] })
  | .inspect => (.text ref.inspect, ref)
  | .origin => (.text ref.origin, ref)

/-- The answers to some steps, each at its own reading of the clock. -/
def answers (ref : Recency) : List (Instant × StorageStep) → List StorageAnswer
  | [] => []
  | turn :: turns =>
    let next := ref.step turn.1 turn.2
    next.1 :: answers next.2 turns

def after (ref : Recency) (turns : List (Instant × StorageStep)) : Recency :=
  turns.foldl (fun ref turn => (ref.step turn.1 turn.2).2) ref

variable {limits : Limits} {bytes : Nat} {i : Item} {items : List Item}

/-- Room is made from the front, where the items are that were used the longest time ago. -/
theorem shed_suffix (limits : Limits) (bytes : Nat) (items : List Item) :
    shed limits bytes items <:+ items := by
  unfold shed
  cases h : items.tails.find? fun rest => Fits limits bytes rest with
  | none => exact List.nil_suffix
  | some rest => exact (List.mem_tails rest items).1 (List.mem_of_find?_eq_some h)

theorem shed_nil : shed limits bytes [] = [] :=
  List.suffix_nil.1 (shed_suffix limits bytes [])

theorem shed_of_fits (h : Fits limits bytes items) : shed limits bytes items = items := by
  cases items <;> simp [shed, h]

theorem shed_cons (h : ¬ Fits limits bytes (i :: items)) :
    shed limits bytes (i :: items) = shed limits bytes items := by
  simp [shed, h]

end Recency

theorem Duration.toNanos_eq_zero_iff {d : Duration} : d.toNanos = 0 ↔ d = .zero := by
  obtain ⟨seconds, nanos, _⟩ := d
  simp only [toNanos, zero, Duration.mk.injEq, ← UInt64.toNat_inj]
  show seconds.toNat * 1000000000 + nanos = 0 ↔ seconds.toNat = 0 ∧ nanos = 0
  omega

/-- A slot without its tick. -/
def Slot.item (slot : Slot) : Item :=
  ⟨slot.key, slot.entry, slot.deadline⟩

theorem Slot.isExpired_item (slot : Slot) (now : Instant) :
    slot.item.isExpired now = slot.isExpired now := by
  unfold Item.isExpired Slot.isExpired Slot.item
  cases slot.deadline <;> rfl

theorem Slot.bytes_item (slot : Slot) : slot.item.bytes = slot.size.toNat :=
  UInt64.toNat_ofNat'.symm

namespace Store

open Scenario (StorageStep StorageAnswer)

/-- The answers of a store to some steps, each at its own reading of the clock. -/
def answers (s : Store) : List (Instant × StorageStep) → List StorageAnswer
  | [] => []
  | turn :: turns =>
    let reply := turn.2.run s turn.1
    reply.answer :: answers reply.store turns

/-- The items of a store in the order of their last uses. -/
def items (s : Store) : List Item :=
  s.byLastUse.map Slot.item

/-- The store has the items, limits and tag of `ref`, and has evicted as many. -/
structure Mirrors (s : Store) (ref : Recency) : Prop where
  limits_eq : s.limits = ref.limits
  origin_eq : s.origin = ref.origin
  items_eq : s.items = ref.items
  evictions_eq : s.evictions.toNat = ref.evictions

variable {limits : Limits} {s t : Store} {slot : Slot} {slots : List Slot} {key : Key}
  {entry : Entry} {deadline : Option Instant} {ttl : Duration} {now : Instant} {incoming : UInt64}

/-! ## The order of the slots -/

section Order

theorem byLastUse_perm (s : Store) : s.byLastUse.Perm s.slots :=
  List.mergeSort_perm _ _

theorem byLastUse_sorted (s : Store) :
    s.byLastUse.Pairwise fun a b => a.lastUse ≤ b.lastUse := by
  have hsorted : s.byLastUse.Pairwise fun a b => decide (a.lastUse ≤ b.lastUse) = true := by
    apply List.pairwise_mergeSort
    · intro a b c hab hbc
      exact decide_eq_true (UInt64.le_trans (of_decide_eq_true hab) (of_decide_eq_true hbc))
    · intro a b
      simpa using UInt64.le_total a.lastUse b.lastUse
  exact hsorted.imp of_decide_eq_true

/-- Slots with rising ticks are in the order of their last uses. -/
theorem byLastUse_eq (hperm : slots.Perm s.slots)
    (hrising : slots.Pairwise fun a b => a.lastUse < b.lastUse) : s.byLastUse = slots := by
  have hasymm : slots.Pairwise fun a b => a.lastUse ≠ b.lastUse :=
    hrising.imp UInt64.ne_of_lt
  have hsorted : slots.Pairwise fun a b => a.lastUse ≤ b.lastUse := hrising.imp UInt64.le_of_lt
  refine List.Perm.eq_of_pairwise ?_ s.byLastUse_sorted hsorted
    (s.byLastUse_perm.trans hperm.symm)
  intro a b ha hb hab hba
  have ha' : a ∈ slots := hperm.mem_iff.2 (s.byLastUse_perm.mem_iff.1 ha)
  have huses : (slots.map Slot.lastUse).Nodup := List.pairwise_map.2 hasymm
  exact List.inj_on_of_nodup_map huses ha' hb (UInt64.le_antisymm hab hba)

/-- No two slots were used at the same tick. -/
theorem Sound.rising_byLastUse (hs : Sound limits s) :
    s.byLastUse.Pairwise fun a b => a.lastUse < b.lastUse := by
  have huses : (s.byLastUse.map Slot.lastUse).Nodup :=
    (s.byLastUse_perm.map _).nodup_iff.2 hs.uses_nodup
  have hne : s.byLastUse.Pairwise fun a b => a.lastUse ≠ b.lastUse := List.pairwise_map.1 huses
  refine (s.byLastUse_sorted.and hne).imp ?_
  intro a b hab
  exact UInt64.lt_of_le_of_ne hab.1 hab.2

/-- To sort some of the slots is to choose among the sorted ones. -/
theorem Sound.byLastUse_filter (hs : Sound limits s) {p : Slot → Bool}
    (ht : t.slots = s.slots.filter p) : t.byLastUse = s.byLastUse.filter p := by
  apply byLastUse_eq
  · rw [ht]
    exact s.byLastUse_perm.filter p
  · exact hs.rising_byLastUse.filter p

/-- A slot with the present tick comes last, in whatever order the slots are kept. -/
theorem Sound.byLastUse_append (hs : Sound limits s) (hnew : slot.lastUse = s.tick)
    (ht : t.slots.Perm (s.slots ++ [slot])) : t.byLastUse = s.byLastUse ++ [slot] := by
  apply byLastUse_eq
  · exact (s.byLastUse_perm.append_right [slot]).trans ht.symm
  · rw [List.pairwise_append]
    refine ⟨hs.rising_byLastUse, List.pairwise_singleton _ _, ?_⟩
    intro a ha b hb
    rw [List.mem_singleton.1 hb, hnew]
    exact hs.uses_lt a (mem_byLastUse.1 ha)

end Order

/-! ## Items after a change -/

section Items

theorem items_perm (s : Store) : s.items.Perm (s.slots.map Slot.item) :=
  s.byLastUse_perm.map _

theorem length_items (s : Store) : s.items.length = s.slots.length := by
  rw [items, List.length_map, s.byLastUse_perm.length_eq]

theorem bytes_items (s : Store) : (s.items.map Item.bytes).sum = bytesOf s.slots := by
  have hmap : (s.items.map Item.bytes).Perm (s.slots.map fun slot => slot.size.toNat) := by
    have hperm := s.items_perm.map Item.bytes
    rw [List.map_map] at hperm
    refine hperm.trans (List.Perm.of_eq (List.map_congr_left fun slot _ => ?_))
    exact slot.bytes_item
  exact hmap.sum_nat

theorem Sound.items_filter (hs : Sound limits s) {p : Item → Bool}
    (ht : t.slots = s.slots.filter fun slot => p slot.item) : t.items = s.items.filter p := by
  rw [items, hs.byLastUse_filter ht, items, List.filter_map]
  rfl

/-- A slot that is taken out takes the item of its key along. -/
theorem Sound.items_unlink (hs : Sound limits s) :
    (s.unlink slot).items = s.items.filter fun i => i.key ≠ slot.key :=
  hs.items_filter rfl

theorem slots_unlinkAll (s : Store) (slots : List Slot) :
    (s.unlinkAll slots).slots
      = s.slots.filter fun other => slots.all fun slot => other.key ≠ slot.key := by
  unfold unlinkAll
  induction slots generalizing s with
  | nil => simp
  | cons slot slots ih =>
    rw [List.foldl_cons, ih, unlink, List.filter_filter]
    refine List.filter_congr fun other _ => ?_
    rw [List.all_cons, Bool.and_comm]

theorem Sound.items_purge (hs : Sound limits s) :
    (s.purge now).items = s.items.filter fun i => !i.isExpired now := by
  apply hs.items_filter
  rw [purge, slots_unlinkAll]
  refine List.filter_congr fun other hother => ?_
  rw [other.isExpired_item, Bool.eq_iff_iff, List.all_eq_true]
  simp only [decide_eq_true_eq, Bool.not_eq_true']
  constructor
  · intro h
    refine Bool.eq_false_iff.2 fun hexpired => ?_
    exact h other (List.mem_filter.2 ⟨hother, hexpired⟩) rfl
  · intro hlive slot hslot e
    obtain ⟨hslot, hexpired⟩ := List.mem_filter.1 hslot
    rw [List.inj_on_of_nodup_map hs.keys_nodup hother hslot e] at hlive
    simp [hlive] at hexpired

theorem items_clear (s : Store) : s.clear.items = [] := by
  have hslots : s.clear.slots = [] := by
    rw [clear, slots_unlinkAll, List.filter_eq_nil_iff]
    intro slot hslot hall
    simpa using List.all_eq_true.1 hall slot hslot
  rw [← List.length_eq_zero_iff, length_items, hslots]
  rfl

theorem length_expired (s : Store) (now : Instant) :
    (s.expired now).length = (s.items.filter fun i => i.isExpired now).length := by
  have hperm := s.items_perm.filter fun i => i.isExpired now
  rw [hperm.length_eq, List.filter_map, List.length_map, expired]
  refine congrArg List.length (List.filter_congr fun slot _ => ?_)
  exact (slot.isExpired_item now).symm

/-- A new slot is the last one used. -/
theorem Sound.items_link (hs : Sound limits s) :
    (s.link key entry deadline).items = s.items ++ [⟨key, entry, deadline⟩] := by
  rw [items, hs.byLastUse_append rfl (List.Perm.refl _), List.map_append]
  rfl

theorem mem_items {i : Item} : i ∈ s.items ↔ ∃ slot ∈ s.slots, slot.item = i := by
  rw [s.items_perm.mem_iff, List.mem_map]

theorem find?_eq_some (h : s.find? key = some slot) : slot ∈ s.slots ∧ slot.key = key :=
  ⟨List.mem_of_find?_eq_some h, by simpa using List.find?_some h⟩

/-- Where no two entries of a list have one key, a search finds what there is under a key. -/
theorem find?_eq_some_of_mem {α : Type} {keyOf : α → Key} {list : List α} {a : α}
    (hkeys : (list.map keyOf).Nodup) (hmem : a ∈ list) :
    (list.find? fun b => keyOf b = keyOf a) = some a := by
  cases hfound : list.find? fun b => keyOf b = keyOf a with
  | none => exact absurd (decide_eq_true rfl) (List.find?_eq_none.1 hfound a hmem)
  | some b =>
    have hkey : keyOf b = keyOf a := by simpa using List.find?_some hfound
    rw [List.inj_on_of_nodup_map hkeys (List.mem_of_find?_eq_some hfound) hmem hkey]

/-- A slot is found under a key if there is an item under it. -/
theorem Sound.find?_items (hs : Sound limits s) (key : Key) :
    (s.items.find? fun i => i.key = key) = (s.find? key).map Slot.item := by
  have hkeys : (s.items.map Item.key).Nodup := by
    have hperm := s.items_perm.map Item.key
    rw [List.map_map] at hperm
    exact hperm.nodup_iff.2 hs.keys_nodup
  cases hfound : s.find? key with
  | none =>
    rw [Option.map_none, List.find?_eq_none]
    intro i hi
    obtain ⟨slot, hslot, rfl⟩ := mem_items.1 hi
    exact List.find?_eq_none.1 hfound slot hslot
  | some slot =>
    obtain ⟨hslot, rfl⟩ := find?_eq_some hfound
    exact find?_eq_some_of_mem hkeys (mem_items.2 ⟨slot, hslot, rfl⟩)

/-- To use a slot is to unlink it and to link it anew with the next tick. -/
theorem Sound.perm_touch (hs : Sound limits s) (hslot : slot ∈ s.slots) :
    (s.touch slot.key).slots.Perm
      ((s.unlink slot).slots ++ [{ slot with lastUse := s.tick }]) := by
  have hperm := (Slot.perm_filter_key hs.keys_nodup hslot).map fun other =>
    if other.key = slot.key then { other with lastUse := s.tick } else other
  have hothers : ((s.unlink slot).slots.map fun other =>
      if other.key = slot.key then { other with lastUse := s.tick } else other)
      = (s.unlink slot).slots := by
    refine (List.map_congr_left fun other hother => ?_).trans (List.map_id _)
    exact if_neg (of_decide_eq_true (List.mem_filter.1 hother).2)
  rw [List.map_cons, if_pos rfl] at hperm
  refine hperm.trans ?_
  show ({ slot with lastUse := s.tick } :: (s.unlink slot).slots.map _).Perm _
  rw [hothers]
  exact (List.perm_append_singleton _ _).symm

/-- A slot that is used again becomes the last one. -/
theorem Sound.items_touch (hs : Sound limits s) (hfound : s.find? key = some slot) :
    (s.touch key).items = (s.items.filter fun i => i.key ≠ key) ++ [slot.item] := by
  obtain ⟨hslot, rfl⟩ := find?_eq_some hfound
  have hlast := (hs.unlink hslot).byLastUse_append rfl (hs.perm_touch hslot)
  rw [items, hlast, List.map_append, ← hs.items_unlink, items]
  rfl

theorem Sound.items_remove (hs : Sound limits s) :
    (s.remove key).items = s.items.filter fun i => i.key ≠ key := by
  unfold remove
  split
  · rename_i slot hfound
    rw [hs.items_unlink, (find?_eq_some hfound).2]
  · rename_i hnone
    have hitems := hs.find?_items key
    rw [hnone, Option.map_none, List.find?_eq_none] at hitems
    refine (List.filter_eq_self.2 fun i hi => decide_eq_true ?_).symm
    exact fun e => hitems i hi (decide_eq_true e)

end Items

/-! ## Making room -/

section Room

/-- There is room for an entry in the store exactly if there is for its item among the items. -/
theorem Sound.isFull_eq_false_iff_fits (hs : Sound limits s)
    (hbytes : limits.maxBytes.toNat < 2 ^ 64 - 1) (incoming : UInt64) :
    s.isFull incoming = false ↔ Recency.Fits limits incoming.toNat s.items := by
  rw [hs.isFull_eq_false_iff hbytes, Recency.Fits, length_items, bytes_items]

theorem evictions_unlinkAll (s : Store) (slots : List Slot) :
    (s.unlinkAll slots).evictions = s.evictions := by
  apply unlinkAll_inv fun t => t.evictions = s.evictions
  · exact fun _ _ ht => ht
  · rfl

theorem origin_unlinkAll (s : Store) (slots : List Slot) :
    (s.unlinkAll slots).origin = s.origin := by
  apply unlinkAll_inv fun t => t.origin = s.origin
  · exact fun _ _ ht => ht
  · rfl

/-- The order of use stays the same for the slots that are not evicted. -/
theorem Sound.byLastUse_drop (hs : Sound limits s) (h : s.byLastUse = slot :: slots) :
    (s.drop slot).byLastUse = slots := by
  have hkeys : ((slot :: slots).map Slot.key).Nodup :=
    h ▸ (s.byLastUse_perm.map _).nodup_iff.2 hs.keys_nodup
  rw [List.map_cons, List.nodup_cons] at hkeys
  have hdrop : (s.drop slot).slots = s.slots.filter fun other => other.key ≠ slot.key := rfl
  rw [hs.byLastUse_filter hdrop, h, List.filter_cons_of_neg (by simp)]
  refine List.filter_eq_self.2 fun other hother => decide_eq_true ?_
  exact fun e => hkeys.1 (e ▸ List.mem_map_of_mem hother)

/-- Eviction cuts off the shortest prefix of the items that makes room, and counts what it cuts
off. -/
theorem Sound.items_evict (hs : Sound limits s) (hbytes : limits.maxBytes.toNat < 2 ^ 64 - 1)
    (incoming : UInt64) (hslots : s.byLastUse = slots) :
    (evict incoming slots s).1.items = Recency.shed limits incoming.toNat s.items
      ∧ (evict incoming slots s).1.evictions.toNat = s.evictions.toNat
        + (s.items.length - (Recency.shed limits incoming.toNat s.items).length) := by
  induction slots generalizing s with
  | nil =>
    have hitems : s.items = [] := by rw [items, hslots, List.map_nil]
    rw [hitems, Recency.shed_nil]
    exact ⟨hitems, rfl⟩
  | cons slot slots ih =>
    have hslot : slot ∈ s.slots := mem_byLastUse.1 (hslots ▸ List.mem_cons_self)
    have hitems : s.items = slot.item :: slots.map Slot.item := by
      rw [items, hslots, List.map_cons]
    have hfull := hs.isFull_eq_false_iff_fits hbytes incoming
    unfold evict
    split
    · rename_i htrue
      have hfits : ¬ Recency.Fits limits incoming.toNat s.items := by
        rw [← hfull, htrue]
        exact Bool.noConfusion
      -- the other candidates are the slots of what is left, and still in order
      have hrest : (s.drop slot).byLastUse = slots := hs.byLastUse_drop hslots
      have hdropped : (s.drop slot).items = slots.map Slot.item := by rw [items, hrest]
      have hevictions : (s.drop slot).evictions.toNat = s.evictions.toNat + 1 :=
        toNat_add_of_lt (hs.evictions_lt hslot)
      obtain ⟨hshed, hcount⟩ := ih (hs.drop hslot) hrest
      rw [hdropped] at hshed hcount
      have hle := (Recency.shed_suffix limits incoming.toNat (slots.map Slot.item)).length_le
      rw [hitems] at hfits ⊢
      rw [Recency.shed_cons hfits, List.length_cons]
      refine ⟨hshed, hcount.trans ?_⟩
      omega
    · rename_i hroom
      have hfits := hfull.1 (eq_false_of_ne_true hroom)
      rw [Recency.shed_of_fits hfits, Nat.sub_self]
      exact ⟨rfl, rfl⟩

/-- The store makes the same room as the list, and counts what it evicted. -/
theorem Sound.items_makeRoom (hs : Sound limits s) (hbytes : limits.maxBytes.toNat < 2 ^ 64 - 1)
    (incoming : UInt64) (now : Instant) :
    (s.makeRoom incoming now).1.items
        = (Recency.makeRoom limits incoming.toNat now s.items).1
      ∧ (s.makeRoom incoming now).1.evictions.toNat = s.evictions.toNat
        + (Recency.makeRoom limits incoming.toNat now s.items).2 := by
  have hfull := hs.isFull_eq_false_iff_fits hbytes incoming
  unfold makeRoom Recency.makeRoom
  split
  · rename_i htrue
    have hfits : ¬ Recency.Fits limits incoming.toNat s.items := by
      rw [← hfull, htrue]
      exact Bool.noConfusion
    have hpurge : Sound limits (s.purge now) := (Reached.refl hs).purge.sound
    have hevict := hpurge.items_evict hbytes incoming rfl
    rw [hs.items_purge, purge, evictions_unlinkAll] at hevict
    rw [if_neg hfits]
    exact hevict
  · rename_i hroom
    rw [if_pos (hfull.1 (eq_false_of_ne_true hroom))]
    exact ⟨rfl, rfl⟩

end Room

/-! ## Steps -/

section Steps

theorem deadline_eq (ttl : Duration) (now : Instant) :
    Store.deadline ttl now =
      if Duration.longestSpan < ttl.toNanos then .error .lifeTooLong
      else .ok (Recency.deadline ttl now) := by
  unfold Store.deadline Recency.deadline
  by_cases hzero : ttl = .zero
  · have hnanos : ttl.toNanos = 0 := Duration.toNanos_eq_zero_iff.2 hzero
    rw [if_pos hzero, if_pos hnanos, hnanos, if_neg (Nat.not_lt_zero _)]
  · have hnanos : ttl.toNanos ≠ 0 := fun e => hzero (Duration.toNanos_eq_zero_iff.1 e)
    rw [if_neg hzero, if_neg hnanos, Duration.toSpan?]
    by_cases hlong : Duration.longestSpan < ttl.toNanos
    · rw [if_pos hlong, if_neg (Nat.not_le.2 hlong)]
    · rw [if_neg hlong, if_pos (Nat.not_lt.1 hlong)]

/-- A store refuses what the list of items refuses, for the same reason. -/
theorem accept_eq (hlimits : s.limits = limits) (entry : Entry) (ttl : Duration)
    (now : Instant) :
    s.accept entry ttl now =
      match Recency.refusal? limits entry ttl with
      | some fault => .error fault
      | none => .ok (Recency.deadline ttl now) := by
  have hentries : limits.maxEntries = 0 ↔ limits.maxEntries.toNat = 0 := UInt64.toNat_inj.symm
  have hsize : limits.maxBytes < UInt64.ofNat entry.size ↔
      limits.maxBytes.toNat < entry.size % 2 ^ 64 := by
    rw [UInt64.lt_iff_toNat_lt, UInt64.toNat_ofNat']
  unfold accept Recency.refusal?
  simp only [hlimits, hentries, hsize, deadline_eq]
  split
  · rfl
  · split
    · rfl
    · split <;> rfl

theorem evictions_remove : (s.remove key).evictions = s.evictions := by
  unfold remove
  split <;> rfl

/-- A reply gives the answer of the list of items, and leaves a store that mirrors the list. -/
structure Follows (reply : Scenario.StorageReply Store) (next : StorageAnswer × Recency) :
    Prop where
  answer_eq : reply.answer = next.1
  mirrors : Mirrors reply.store next.2

namespace Mirrors

variable {ref : Recency} (h : Mirrors s ref) (hs : Sound ref.limits s)

include h hs in
theorem insert (hbytes : ref.limits.maxBytes.toNat < 2 ^ 64 - 1) (key : Key) (entry : Entry)
    (ttl : Duration) (now : Instant) :
    Follows ((StorageStep.insert key entry ttl).run s now) (ref.insert key entry ttl now) := by
  have haccept := accept_eq h.limits_eq entry ttl now
  unfold Recency.insert
  cases hrefusal : Recency.refusal? ref.limits entry ttl with
  | some fault =>
    rw [hrefusal] at haccept
    simp only [StorageStep.run, Store.insert, haccept]
    exact ⟨rfl, h⟩
  | none =>
    rw [hrefusal] at haccept
    simp only [StorageStep.run, Store.insert, haccept]
    have hremove : Reached ref.limits s (s.remove key) := (Reached.refl hs).remove
    have hroom : Reached ref.limits s
      ((s.remove key).makeRoom (UInt64.ofNat entry.size) now).1 := hremove.makeRoom
    obtain ⟨hitems, hevictions⟩ :=
      hremove.sound.items_makeRoom hbytes (UInt64.ofNat entry.size) now
    rw [hs.items_remove, h.items_eq, UInt64.toNat_ofNat'] at hitems hevictions
    rw [evictions_remove, h.evictions_eq] at hevictions
    refine ⟨rfl, hroom.sound.limits_eq, ?_, ?_, hevictions⟩
    · exact (origin_makeRoom _ _ _).trans (origin_remove.trans h.origin_eq)
    · rw [hroom.sound.items_link, hitems]
      rfl

include h hs in
theorem lookup (key : Key) (now : Instant) :
    Follows ((StorageStep.lookup key).run s now) (ref.lookup key now) := by
  have hfind := hs.find?_items key
  rw [h.items_eq] at hfind
  unfold Recency.lookup
  cases hfound : s.find? key with
  | none =>
    rw [hfound] at hfind
    simp only [StorageStep.run, Store.lookup, hfound, hfind]
    exact ⟨rfl, h⟩
  | some slot =>
    rw [hfound] at hfind
    have hkey : slot.key = key := (find?_eq_some hfound).2
    have hexpired := slot.isExpired_item now
    cases hlate : slot.isExpired now with
    | true =>
      rw [hlate] at hexpired
      simp only [StorageStep.run, Store.lookup, hfound, hfind, Option.map_some, hlate, hexpired,
        if_true]
      refine ⟨rfl, h.limits_eq, h.origin_eq, ?_, h.evictions_eq⟩
      rw [hs.items_unlink, h.items_eq, hkey]
    | false =>
      rw [hlate] at hexpired
      simp only [StorageStep.run, Store.lookup, hfound, hfind, Option.map_some, hlate, hexpired,
        Bool.false_eq_true, if_false]
      refine ⟨rfl, h.limits_eq, h.origin_eq, ?_, h.evictions_eq⟩
      show (s.touch key).items = _
      rw [hs.items_touch hfound, h.items_eq]

include h in
theorem inspect : s.inspect = ref.inspect := by
  rw [Store.inspect, size, ← length_items, h.items_eq, h.limits_eq, h.origin_eq]
  rfl

include h hs in
theorem run (hbytes : ref.limits.maxBytes.toNat < 2 ^ 64 - 1) (now : Instant) (step : StorageStep) :
    Follows (step.run s now) (ref.step now step) := by
  cases step with
  | insert key entry ttl => exact h.insert hs hbytes key entry ttl now
  | lookup key => exact h.lookup hs key now
  | remove key =>
    have hsound : Sound ref.limits (s.remove key) := (Reached.refl hs).remove.sound
    refine ⟨rfl, hsound.limits_eq, origin_remove.trans h.origin_eq, ?_, ?_⟩
    · exact hs.items_remove.trans (congrArg _ h.items_eq)
    · exact (congrArg _ evictions_remove).trans h.evictions_eq
  | purge =>
    have hsound : Sound ref.limits (s.purge now) := (Reached.refl hs).purge.sound
    have hcount : (s.expired now).length = (ref.items.filter fun i => i.isExpired now).length := by
      rw [length_expired, h.items_eq]
    refine ⟨congrArg StorageAnswer.count hcount, hsound.limits_eq, ?_, ?_, ?_⟩
    · exact (origin_unlinkAll _ _).trans h.origin_eq
    · exact hs.items_purge.trans (congrArg _ h.items_eq)
    · exact (congrArg _ (evictions_unlinkAll _ _)).trans h.evictions_eq
  | clear =>
    have hsound : Sound ref.limits s.clear := (Reached.refl hs).clear.sound
    refine ⟨rfl, hsound.limits_eq, ?_, items_clear s, ?_⟩
    · exact (origin_unlinkAll _ _).trans h.origin_eq
    · exact (congrArg _ (evictions_unlinkAll _ _)).trans h.evictions_eq
  | inspect => exact ⟨congrArg StorageAnswer.text h.inspect, h⟩
  | origin => exact ⟨congrArg StorageAnswer.text h.origin_eq, h⟩

end Mirrors

end Steps

/-! ## Runs -/

section Runs

variable {ref : Recency}

/-- An empty store has the empty list of items. -/
theorem Mirrors.empty (limits : Limits) (origin : String) :
    Mirrors (Store.empty limits origin) (Recency.empty limits origin) := by
  refine ⟨rfl, rfl, ?_, rfl⟩
  exact List.length_eq_zero_iff.1 (length_items (Store.empty limits origin))

/-- As long as the ticks last, a store that mirrors a list gives its answers and goes on mirroring
it. -/
theorem Mirrors.runs (h : Mirrors s ref) (hs : Sound ref.limits s)
    (hbytes : ref.limits.maxBytes.toNat < 2 ^ 64 - 1) (turns : List (Instant × StorageStep))
    (hturns : s.tick.toNat + turns.length < 2 ^ 64) :
    s.answers turns = ref.answers turns ∧ Mirrors (s.after turns) (ref.after turns) := by
  induction turns generalizing s ref with
  | nil => exact ⟨rfl, h⟩
  | cons turn turns ih =>
    rw [List.length_cons] at hturns
    have hstep := h.run hs hbytes turn.1 turn.2
    have hsound : Sound ref.limits (turn.2.run s turn.1).store :=
      ((Reached.refl hs).run hbytes (by omega) turn.2).sound
    have hlimits : (ref.step turn.1 turn.2).2.limits = ref.limits :=
      hstep.mirrors.limits_eq.symm.trans hsound.limits_eq
    have htick := tick_run_le s turn.1 turn.2
    rw [← hlimits] at hsound hbytes
    obtain ⟨hanswers, hmirrors⟩ := ih hstep.mirrors hsound hbytes (by omega)
    refine ⟨?_, hmirrors⟩
    rw [answers, Recency.answers, hstep.answer_eq, hanswers]

/-- A store does what the list by recency says. Let both be empty and go through the same steps,
each at any reading of the clock, which may run backwards too. Then all answers are the same, the
entries that survive are those of the list with the same deadlines and in the same order of use, and
as many were evicted.

The bound on the number of steps is that of the ticks, which come round after 2^64 uses. -/
theorem answers_eq_recency (limits : Limits) (origin : String)
    (turns : List (Instant × StorageStep)) (hbytes : limits.maxBytes.toNat < 2 ^ 64 - 1)
    (hturns : turns.length < 2 ^ 64) :
    (empty limits origin).answers turns = (Recency.empty limits origin).answers turns
      ∧ Mirrors ((empty limits origin).after turns)
        ((Recency.empty limits origin).after turns) := by
  have hzero : (empty limits origin).tick.toNat = 0 := rfl
  apply (Mirrors.empty limits origin).runs (.empty limits origin) hbytes
  omega

theorem answers_eq_recency_crowding :
    (⟨1, 100⟩ : Limits).maxBytes.toNat < 2 ^ 64 - 1 ∧ Sample.crowding.length < 2 ^ 64
      ∧ (empty ⟨1, 100⟩ "memory").answers Sample.crowding
        = (Recency.empty ⟨1, 100⟩ "memory").answers Sample.crowding
      ∧ ((empty ⟨1, 100⟩ "memory").after Sample.crowding).items
        = [⟨⟨"b"⟩, ⟨.get, "/b", .epoch, [], "memory"⟩, none⟩] := by
  have hbytes : (⟨1, 100⟩ : Limits).maxBytes.toNat < 2 ^ 64 - 1 := by decide
  have hturns : Sample.crowding.length < 2 ^ 64 := by decide
  obtain ⟨hanswers, hmirrors⟩ :=
    answers_eq_recency ⟨1, 100⟩ "memory" Sample.crowding hbytes hturns
  have hitems : ((Recency.empty ⟨1, 100⟩ "memory").after Sample.crowding).items
      = [⟨⟨"b"⟩, ⟨.get, "/b", .epoch, [], "memory"⟩, none⟩] := by decide +kernel
  exact ⟨hbytes, hturns, hanswers, hmirrors.items_eq.trans hitems⟩

end Runs

end Store

end ResponseCache
