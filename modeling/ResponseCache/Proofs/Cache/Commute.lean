import ResponseCache.Proofs.Run.Basic
import ResponseCache.Proofs.Stack.Tiers
import ResponseCache.Proofs.Store.Tally

/-!
# Requests with different keys

What a request does at a cache over a memory store depends on little of the store: its limits and
tag, and what stands under the key of the request (`SameAt`). And where the store has room it does
little to it: what stands under other keys stays, and the store grows by no more than the new entry
(`Moves`). So a request in front of another one that has a different key cannot be noticed by it,
and both orders leave the same items (`sends_commute`).
-/

namespace ResponseCache

namespace Store

/-- Two stores look the same to a request with this key. -/
structure SameAt (key : Key) (s t : Store) : Prop where
  limits_eq : s.limits = t.limits
  origin_eq : s.origin = t.origin
  view_eq : s.view key = t.view key

def octets (entries : List Entry) : Nat :=
  (entries.map fun entry => (UInt64.ofNat entry.size).toNat).sum

/-- The limits leave room for some new entries beside all that are there. -/
structure HasRoom (s : Store) (entries : List Entry) : Prop where
  length_le : s.slots.length + entries.length ≤ s.limits.maxEntries.toNat
  bytes_le : bytesOf s.slots + octets entries ≤ s.limits.maxBytes.toNat

/-- Store `s` becomes `t` by a change under one key that adds no more than some new entries. -/
structure Moves (key : Key) (entries : List Entry) (s t : Store) : Prop where
  limits_eq : t.limits = s.limits
  origin_eq : t.origin = s.origin
  evictions_eq : t.evictions = s.evictions
  tallied : s.Tallied → t.Tallied
  length_le : t.slots.length ≤ s.slots.length + entries.length
  bytes_le : bytesOf t.slots ≤ bytesOf s.slots + octets entries
  view_of_ne : ∀ other ≠ key, t.view other = s.view other

variable {s t u : Store} {key other : Key} {entry : Entry} {entries more : List Entry}
  {deadline : Option Instant} {ttl : Duration} {now : Instant}

theorem octets_append (entries more : List Entry) :
    octets (entries ++ more) = octets entries + octets more := by
  rw [octets, List.map_append, List.sum_append]
  rfl

/-- Fewer slots take no more room. -/
theorem bytesOf_le_of_sublist {slots slots' : List Slot} (h : slots.Sublist slots') :
    bytesOf slots ≤ bytesOf slots' :=
  (h.map _).sum_le_sum fun _ _ => Nat.zero_le _

namespace Moves

theorem refl (key : Key) (entries : List Entry) (s : Store) : Moves key entries s s :=
  ⟨rfl, rfl, rfl, id, Nat.le_add_right _ _, Nat.le_add_right _ _, fun _ _ => rfl⟩

/-- The entries of two moves under one key add up. -/
theorem trans (h : Moves key entries s t) (h' : Moves key more t u) :
    Moves key (entries ++ more) s u where
  limits_eq := h'.limits_eq.trans h.limits_eq
  origin_eq := h'.origin_eq.trans h.origin_eq
  evictions_eq := h'.evictions_eq.trans h.evictions_eq
  tallied hs := h'.tallied (h.tallied hs)
  length_le := by
    have hfirst := h.length_le
    have hsecond := h'.length_le
    rw [List.length_append]
    omega
  bytes_le := by
    have hfirst := h.bytes_le
    have hsecond := h'.bytes_le
    rw [octets_append]
    omega
  view_of_ne other hne := (h'.view_of_ne other hne).trans (h.view_of_ne other hne)

/-- What one request leaves is room for another one, if there was room for both. -/
theorem hasRoom (h : Moves key entries s t) (hroom : HasRoom s (entries ++ more)) :
    HasRoom t more := by
  obtain ⟨hlength, hbytes⟩ := hroom
  have hlength_le := h.length_le
  have hbytes_le := h.bytes_le
  rw [List.length_append] at hlength
  rw [octets_append] at hbytes
  constructor
  · rw [h.limits_eq]
    omega
  · rw [h.limits_eq]
    omega

/-- A move under one key leaves every other key as it was. -/
theorem sameAt (h : Moves key entries s t) (hne : other ≠ key) : SameAt other s t :=
  ⟨h.limits_eq.symm, h.origin_eq.symm, (h.view_of_ne other hne).symm⟩

end Moves

/-- Room for more entries is room for some of them. -/
theorem HasRoom.left (h : HasRoom s (entries ++ more)) : HasRoom s entries := by
  obtain ⟨hlength, hbytes⟩ := h
  rw [List.length_append] at hlength
  rw [octets_append] at hbytes
  exact ⟨by omega, by omega⟩

theorem HasRoom.swap (h : HasRoom s (entries ++ more)) : HasRoom s (more ++ entries) := by
  obtain ⟨hlength, hbytes⟩ := h
  rw [List.length_append] at hlength
  rw [octets_append] at hbytes
  constructor
  · rw [List.length_append]
    omega
  · rw [octets_append]
    omega

/-! ## Single changes -/

theorem Moves.unlink {slot : Slot} (hmem : slot ∈ s.slots) :
    Moves slot.key [] s (s.unlink slot) where
  limits_eq := rfl
  origin_eq := rfl
  evictions_eq := rfl
  tallied hs := hs.unlink hmem
  length_le := List.length_filter_le ..
  bytes_le := bytesOf_le_of_sublist List.filter_sublist
  view_of_ne other hne := by rw [view_unlink, if_neg hne]

theorem Moves.touch (s : Store) (key : Key) : Moves key [] s (s.touch key) where
  limits_eq := rfl
  origin_eq := rfl
  evictions_eq := rfl
  tallied hs := hs.touch key
  length_le := length_touch.le
  bytes_le := bytesOf_touch.le
  view_of_ne _ _ := view_touch

/-- A lookup only uses the slot of its key, or takes it out. -/
theorem Moves.lookup (s : Store) (key : Key) (now : Instant) :
    Moves key [] s (s.lookup key now).2 := by
  unfold Store.lookup
  split
  · exact .refl key [] s
  · rename_i slot hfound
    obtain ⟨hmem, rfl⟩ := find?_eq_some hfound
    split
    · exact .unlink hmem
    · exact .touch s slot.key

theorem limits_remove : (s.remove key).limits = s.limits := by
  unfold remove
  split <;> rfl

theorem Moves.link_remove (s : Store) (key : Key) (entry : Entry) (deadline : Option Instant) :
    Moves key [entry] s ((s.remove key).link key entry deadline) where
  limits_eq := limits_remove
  origin_eq := origin_remove
  evictions_eq := evictions_remove
  tallied hs := (hs.remove key).link fun slot hslot => (mem_slots_remove hslot).2
  length_le := by
    have hle := (sublist_remove s key).length_le
    rw [length_link]
    exact Nat.succ_le_succ hle
  bytes_le := by
    have hle := bytesOf_le_of_sublist (sublist_remove s key)
    rw [bytesOf_link]
    exact Nat.add_le_add_right hle _
  view_of_ne other hne := by rw [view_link_remove, if_neg hne]

/-- A write that has room makes none. -/
theorem Tallied.insert_of_accept (hs : Tallied s) (hroom : HasRoom s [entry])
    (haccept : s.accept entry ttl now = .ok deadline) :
    s.insert key entry ttl now = ⟨.ok (), (s.remove key).link key entry deadline, 0⟩ := by
  have hlength := (sublist_remove s key).length_le
  have hbytes := bytesOf_le_of_sublist (sublist_remove s key)
  have hlength_le := hroom.length_le
  have hbytes_le := hroom.bytes_le
  rw [octets, List.map_singleton, List.sum_singleton] at hbytes_le
  rw [List.length_singleton] at hlength_le
  apply insert_of_room haccept
  apply makeRoom_of_room
  apply (hs.remove key).isFull_eq_false
  · rw [limits_remove]
    omega
  · rw [limits_remove]
    omega

theorem SameAt.accept_eq (h : SameAt key s t) (entry : Entry) (ttl : Duration) (now : Instant) :
    s.accept entry ttl now = t.accept entry ttl now := by
  rw [accept, accept, h.limits_eq]

theorem SameAt.lookup_eq (h : SameAt key s t) (now : Instant) :
    (s.lookup key now).1 = (t.lookup key now).1
      ∧ SameAt key (s.lookup key now).2 (t.lookup key now).2 := by
  refine ⟨by rw [lookup_fst, lookup_fst, h.view_eq], ?_, ?_, ?_⟩
  · rw [(Moves.lookup s key now).limits_eq, (Moves.lookup t key now).limits_eq, h.limits_eq]
  · rw [origin_lookup, origin_lookup, h.origin_eq]
  · rw [view_lookup, view_lookup, if_pos rfl, if_pos rfl, h.view_eq]

theorem SameAt.link_remove (h : SameAt key s t) (entry : Entry) (deadline : Option Instant) :
    SameAt key ((s.remove key).link key entry deadline)
      ((t.remove key).link key entry deadline) := by
  refine ⟨?_, ?_, ?_⟩
  · rw [(Moves.link_remove s key entry deadline).limits_eq,
      (Moves.link_remove t key entry deadline).limits_eq, h.limits_eq]
  · rw [(Moves.link_remove s key entry deadline).origin_eq,
      (Moves.link_remove t key entry deadline).origin_eq, h.origin_eq]
  · rw [view_link_remove, view_link_remove, if_pos rfl, if_pos rfl]

end Store

namespace Cache

open Store (SameAt HasRoom Moves Tallied)

variable {c : Config} {s t : Store} {r : Request} {now own : Instant} {p : Response}
  {fetch : Request → Except (Halt Failure) Response}

/-! ## The parts of an answer -/

theorem moves_start (c : Config) (s : Store) (r : Request) (now own : Instant) :
    Moves (Key.ofRequest r) [] s (start (Store.backendAt own) c s r now).storage := by
  rw [start_storage]
  split
  · exact .lookup s (Key.ofRequest r) own
  · exact .refl _ [] s

/-- What a lookup comes to, and what it leaves under its key, is the same for stores that look the
same. -/
theorem start_eq (c : Config) (now own : Instant) (h : SameAt (Key.ofRequest r) s t) :
    let started := start (Store.backendAt own) c s r now
    let started' := start (Store.backendAt own) c t r now
    started.finding = started'.finding
      ∧ SameAt (Key.ofRequest r) started.storage started'.storage := by
  cases hlooks : looksUp c r with
  | false =>
    rw [start_of_bypass hlooks, start_of_bypass hlooks]
    exact ⟨rfl, h⟩
  | true =>
    obtain ⟨hresult, hsame⟩ := h.lookup_eq own
    have hget : ((Store.backendAt own).get s (Key.ofRequest r) now).1
        = ((Store.backendAt own).get t (Key.ofRequest r) now).1 := hresult
    have horigin : (Store.backendAt own).origin
          ((Store.backendAt own).get s (Key.ofRequest r) now).2
        = (Store.backendAt own).origin
          ((Store.backendAt own).get t (Key.ofRequest r) now).2 := hsame.origin_eq
    rw [start_of_looksUp hlooks, start_of_looksUp hlooks]
    dsimp only
    rw [hget, horigin]
    exact ⟨rfl, hsame⟩

/-- The entries that a live response adds to a store of tag `origin`: one or none. -/
def admitted (c : Config) (r : Request) (origin : String) (now : Instant) (p : Response) :
    List Entry :=
  match weigh c r origin now p with
  | .write entry _ => [entry]
  | .skip _ => []

/-- What becomes of a live response that has room. -/
theorem settle_of_room (hs : Tallied s) (hroom : HasRoom s (admitted c r s.origin now p)) :
    settle (Store.backendAt own) c s r now p =
      match weigh c r s.origin now p with
      | .skip event => ⟨s, event, []⟩
      | .write entry e =>
        match s.accept entry c.entryTtl own with
        | .error fault =>
          ⟨s, .storeFailed ((Failure.storage (.store fault)).withKey (Key.ofRequest r)), []⟩
        | .ok deadline =>
          ⟨(s.remove (Key.ofRequest r)).link (Key.ofRequest r) entry deadline, .stored e, []⟩ := by
  rw [settle, show (Store.backendAt own).origin s = s.origin from rfl]
  cases hweigh : weigh c r s.origin now p with
  | skip event => rfl
  | write entry e =>
    rw [admitted, hweigh] at hroom
    cases haccept : s.accept entry c.entryTtl own with
    | error fault =>
      simp only [Store.backendAt, Store.backend, Store.insert, haccept]
      rfl
    | ok deadline =>
      simp only [Store.backendAt, Store.backend, hs.insert_of_accept hroom haccept,
        haccept]
      rfl

/-- A settled response moves its own entries in, and nothing else. -/
theorem moves_settle (hs : Tallied s) (hroom : HasRoom s (admitted c r s.origin now p)) :
    Moves (Key.ofRequest r) (admitted c r s.origin now p) s
      (settle (Store.backendAt own) c s r now p).storage := by
  rw [settle_of_room hs hroom]
  unfold admitted
  cases weigh c r s.origin now p with
  | skip event => exact .refl _ [] s
  | write entry e =>
    dsimp only
    cases s.accept entry c.entryTtl own with
    | error fault => exact .refl _ [entry] s
    | ok deadline => exact .link_remove s (Key.ofRequest r) entry deadline

theorem settle_eq (own : Instant) (h : SameAt (Key.ofRequest r) s t) (hs : Tallied s)
    (ht : Tallied t) (hrooms : HasRoom s (admitted c r s.origin now p))
    (hroomt : HasRoom t (admitted c r t.origin now p)) :
    let settled := settle (Store.backendAt own) c s r now p
    let settled' := settle (Store.backendAt own) c t r now p
    settled.event = settled'.event ∧ settled.records = settled'.records
      ∧ SameAt (Key.ofRequest r) settled.storage settled'.storage := by
  rw [settle_of_room hs hrooms, settle_of_room ht hroomt, h.origin_eq]
  cases weigh c r t.origin now p with
  | skip event => exact ⟨rfl, rfl, h⟩
  | write entry e =>
    dsimp only
    rw [h.accept_eq]
    cases t.accept entry c.entryTtl own with
    | error fault => exact ⟨rfl, rfl, h⟩
    | ok deadline => exact ⟨rfl, rfl, h.link_remove entry deadline⟩

/-! ## Whole answers -/

/-- The entries that a request adds to a store: one or none. -/
def newEntries (c : Config) (s : Store) (r : Request) (now own : Instant)
    (fetch : Request → Except (Halt Failure) Response) : List Entry :=
  match (start (Store.backendAt own) c s r now).finding with
  | .pass _ =>
    match fetch r with
    | .ok p => admitted c r s.origin now p
    | .error _ => []
  | _ => []

/-- The store after a request. -/
def storeAfter (c : Config) (s : Store) (r : Request) (now own : Instant)
    (fetch : Request → Except (Halt Failure) Response) : Store :=
  let started := start (Store.backendAt own) c s r now
  match started.finding with
  | .pass _ =>
    match fetch r with
    | .ok p => (settle (Store.backendAt own) c started.storage r now p).storage
    | .error _ => started.storage
  | _ => started.storage

theorem tiers_send (c : Config) (s : Store) (r : Request) (now own : Instant)
    (fetch : Request → Except (Halt Failure) Response) :
    (Stack.send (Store.backendAt own) [⟨c, s⟩] r now fetch).tiers
      = [⟨c, storeAfter c s r now own fetch⟩] := by
  cases hfinding : (start (Store.backendAt own) c s r now).finding with
  | serve tag q e => simp only [Stack.send_single_of_serve hfinding, storeAfter, hfinding]
  | crash => simp only [Stack.send_single_of_crash hfinding, storeAfter, hfinding]
  | pass event =>
    cases hfetch : fetch r with
    | error halt =>
      simp only [Stack.send_single_of_error hfinding hfetch, storeAfter, hfinding, hfetch]
    | ok p => simp only [Stack.send_single_of_ok hfinding hfetch, storeAfter, hfinding, hfetch]

/-- A request leaves its store reachable: it does one lookup at most and one write at most. -/
theorem reachable_storeAfter (hs : s.Reachable) :
    (storeAfter c s r now own fetch).Reachable := by
  have hstart : (start (Store.backendAt own) c s r now).storage.Reachable := by
    rw [start_storage]
    split
    · have hlookup := hs.run own (.lookup (Key.ofRequest r))
      rw [Store.store_run_lookup] at hlookup
      exact hlookup
    · exact hs
  unfold storeAfter
  dsimp only
  split
  · split
    · rw [settle_storage]
      split
      · exact hstart
      · rename_i entry e _
        have hinsert := hstart.run own (.insert (Key.ofRequest r) entry c.entryTtl)
        rw [Store.store_run_insert] at hinsert
        exact hinsert
    · exact hstart
  · exact hstart

theorem moves_storeAfter (hs : Tallied s) (hroom : HasRoom s (newEntries c s r now own fetch)) :
    Moves (Key.ofRequest r) (newEntries c s r now own fetch) s
      (storeAfter c s r now own fetch) := by
  have hstart := moves_start c s r now own
  cases hfinding : (start (Store.backendAt own) c s r now).finding with
  | serve tag q e =>
    simp only [newEntries, storeAfter, hfinding]
    exact hstart
  | crash =>
    simp only [newEntries, storeAfter, hfinding]
    exact hstart
  | pass event =>
    cases hfetch : fetch r with
    | error halt =>
      simp only [newEntries, storeAfter, hfinding, hfetch]
      exact hstart
    | ok p =>
      simp only [newEntries, storeAfter, hfinding, hfetch] at hroom ⊢
      rw [← hstart.origin_eq] at hroom ⊢
      exact hstart.trans (moves_settle (hstart.tallied hs) (hstart.hasRoom hroom))

/-- What a send writes depends on what there is under its key. -/
theorem newEntries_eq (h : SameAt (Key.ofRequest r) s t) :
    newEntries c s r now own fetch = newEntries c t r now own fetch := by
  rw [newEntries, newEntries, (start_eq c now own h).1, h.origin_eq]

/-- A request comes to the same in two stores that look the same to it and have room. -/
theorem send_eq (h : SameAt (Key.ofRequest r) s t) (hs : Tallied s) (ht : Tallied t)
    (hrooms : HasRoom s (newEntries c s r now own fetch))
    (hroomt : HasRoom t (newEntries c t r now own fetch)) :
    let sent := Stack.send (Store.backendAt own) [⟨c, s⟩] r now fetch
    let sent' := Stack.send (Store.backendAt own) [⟨c, t⟩] r now fetch
    sent.result = sent'.result ∧ sent.notices = sent'.notices
      ∧ SameAt (Key.ofRequest r) (storeAfter c s r now own fetch)
        (storeAfter c t r now own fetch) := by
  obtain ⟨hfindings, hsame⟩ := start_eq c now own h
  cases hf : (start (Store.backendAt own) c s r now).finding with
  | serve tag q e =>
    have hf' := hfindings.symm.trans hf
    simp only [Stack.send_single_of_serve hf, Stack.send_single_of_serve hf', storeAfter, hf, hf']
    exact ⟨trivial, trivial, hsame⟩
  | crash =>
    have hf' := hfindings.symm.trans hf
    simp only [Stack.send_single_of_crash hf, Stack.send_single_of_crash hf', storeAfter, hf, hf']
    exact ⟨trivial, trivial, hsame⟩
  | pass event =>
    have hf' := hfindings.symm.trans hf
    cases hfetch : fetch r with
    | error halt =>
      simp only [Stack.send_single_of_error hf hfetch, Stack.send_single_of_error hf' hfetch,
        storeAfter, hf, hf', hfetch]
      exact ⟨trivial, trivial, hsame⟩
    | ok p =>
      simp only [newEntries, hf, hf', hfetch] at hrooms hroomt
      have hstart := moves_start c s r now own
      have hstart' := moves_start c t r now own
      rw [← hstart.origin_eq] at hrooms
      rw [← hstart'.origin_eq] at hroomt
      obtain ⟨hlast, hrecords, hafter⟩ := settle_eq own hsame (hstart.tallied hs)
        (hstart'.tallied ht) (hstart.hasRoom hrooms) (hstart'.hasRoom hroomt)
      simp only [Stack.send_single_of_ok hf hfetch, Stack.send_single_of_ok hf' hfetch, storeAfter,
        hf, hf', hfetch, hlast, hrecords]
      exact ⟨trivial, trivial, hafter⟩

section Two

variable {r' : Request} (hs : Tallied s) (hkeys : Key.ofRequest r ≠ Key.ofRequest r')
  (hroom : HasRoom s (newEntries c s r now own fetch ++ newEntries c s r' now own fetch))
include hs hkeys hroom

/-- After a request with another key, a request comes to what it would have come to before, and each
of the two has left its own key as it would have left it alone. -/
theorem send_after :
    let first := storeAfter c s r now own fetch
    let both := storeAfter c first r' now own fetch
    let sent := Stack.send (Store.backendAt own) [⟨c, first⟩] r' now fetch
    let alone := Stack.send (Store.backendAt own) [⟨c, s⟩] r' now fetch
    sent.result = alone.result ∧ sent.notices = alone.notices ∧ both.Tallied
      ∧ both.evictions = s.evictions
      ∧ both.view (Key.ofRequest r') = (storeAfter c s r' now own fetch).view (Key.ofRequest r')
      ∧ ∀ key ≠ Key.ofRequest r', both.view key = first.view key := by
  intro first both sent alone
  have hfirst := moves_storeAfter hs hroom.left
  have hsame : SameAt (Key.ofRequest r') s first := hfirst.sameAt hkeys.symm
  have hroom' : HasRoom first (newEntries c first r' now own fetch) := by
    rw [← newEntries_eq hsame]
    exact hfirst.hasRoom hroom
  have hboth : Moves (Key.ofRequest r') _ first both :=
    moves_storeAfter (hfirst.tallied hs) hroom'
  obtain ⟨hresult, hnotices, hafter⟩ :=
    send_eq hsame hs (hfirst.tallied hs) hroom.swap.left hroom'
  exact ⟨hresult.symm, hnotices.symm, hboth.tallied (hfirst.tallied hs),
    hboth.evictions_eq.trans hfirst.evictions_eq, hafter.view_eq.symm, hboth.view_of_ne⟩

/-- Both orders leave the same under each key. -/
theorem view_storeAfter_comm :
    (storeAfter c (storeAfter c s r now own fetch) r' now own fetch).view
      = (storeAfter c (storeAfter c s r' now own fetch) r now own fetch).view := by
  obtain ⟨-, -, -, -, hown, hother⟩ := send_after hs hkeys hroom
  obtain ⟨-, -, -, -, hown', hother'⟩ := send_after hs hkeys.symm hroom.swap
  have hfirst := moves_storeAfter hs hroom.left
  have hfirst' := moves_storeAfter hs hroom.swap.left
  funext key
  by_cases hkey' : key = Key.ofRequest r'
  · rw [hkey', hown, hother' _ hkeys.symm]
  · by_cases hkey : key = Key.ofRequest r
    · rw [hkey, hown', hother _ hkeys]
    · rw [hother key hkey', hother' key hkey, hfirst.view_of_ne key hkey,
        hfirst'.view_of_ne key hkey']

end Two

/-- Requests with different keys do not notice each other. Take any store that some steps have led
to, with room for the new entries of both requests beside all that are there, an origin whose answer
depends on the request alone, and one reading of the clocks. Then in either order each request gets
the same answer, or the same failure or crash, and reports the same events; and both orders leave
the same entries under the same keys with the same deadlines, and the same counts. -/
theorem sends_commute (c : Config) {s : Store} (hs : s.Reachable) {r r' : Request}
    (hkeys : Key.ofRequest r ≠ Key.ofRequest r') (now own : Instant)
    (fetch : Request → Except (Halt Failure) Response)
    (hroom : HasRoom s (newEntries c s r now own fetch ++ newEntries c s r' now own fetch)) :
    let send tiers r := Stack.send (Store.backendAt own) tiers r now fetch
    let first := send [⟨c, s⟩] r
    let second := send first.tiers r'
    let first' := send [⟨c, s⟩] r'
    let second' := send first'.tiers r
    first.result = second'.result ∧ first.notices = second'.notices
      ∧ second.result = first'.result ∧ second.notices = first'.notices
      ∧ ∃ t t', second.tiers = [⟨c, t⟩] ∧ second'.tiers = [⟨c, t'⟩]
        ∧ (t.slots.map Slot.item).Perm (t'.slots.map Slot.item)
        ∧ t.entryCount = t'.entryCount ∧ t.memoryUsage = t'.memoryUsage
        ∧ t.evictions = t'.evictions := by
  intro send first second first' second'
  have htallied := hs.tallied
  have hfirst : first.tiers = [⟨c, storeAfter c s r now own fetch⟩] := tiers_send ..
  have hfirst' : first'.tiers = [⟨c, storeAfter c s r' now own fetch⟩] := tiers_send ..
  obtain ⟨hresult, hnotices, ht, hevictions, -⟩ := send_after htallied hkeys hroom
  obtain ⟨hresult', hnotices', ht', hevictions', -⟩ := send_after htallied hkeys.symm hroom.swap
  have hitems := ht.perm_of_view_eq ht' (view_storeAfter_comm htallied hkeys hroom)
  obtain ⟨hcount, husage⟩ := ht.counters_eq ht' hitems
  simp only [second, second', hfirst, hfirst']
  refine ⟨hresult'.symm, hnotices'.symm, hresult, hnotices, _, _, tiers_send .., tiers_send ..,
    hitems, hcount, husage, hevictions.trans hevictions'.symm⟩

end Cache

/-- The sample request for the target `/b`. -/
def Sample.other : Request := { Sample.request with uri := ⟨"/b", by decide⟩ }

namespace Cache

open Store (HasRoom)

theorem sends_commute_sample :
    let fetch := fun _ : Request => (.ok Sample.response : Except (Halt Failure) Response)
    let send tiers r := Stack.send (Store.backendAt .epoch) tiers r .epoch fetch
    let tiers := [⟨.sharedCache, Sample.store⟩]
    Sample.store.Reachable ∧ Key.ofRequest Sample.request ≠ Key.ofRequest Sample.other
      ∧ newEntries .sharedCache Sample.store Sample.request .epoch .epoch fetch ≠ []
      ∧ HasRoom Sample.store
        (newEntries .sharedCache Sample.store Sample.request .epoch .epoch fetch
          ++ newEntries .sharedCache Sample.store Sample.other .epoch .epoch fetch)
      ∧ (send (send tiers Sample.request).tiers Sample.other).notices
        = (send tiers Sample.other).notices := by
  intro fetch send tiers
  have hreachable : Sample.store.Reachable := ⟨_, _, [], rfl⟩
  have hkeys : Key.ofRequest Sample.request ≠ Key.ofRequest Sample.other := by decide +kernel
  have hnew : (newEntries .sharedCache Sample.store Sample.request .epoch .epoch fetch).isEmpty
      = false := by decide +kernel
  have hroom : HasRoom Sample.store
      (newEntries .sharedCache Sample.store Sample.request .epoch .epoch fetch
        ++ newEntries .sharedCache Sample.store Sample.other .epoch .epoch fetch) :=
    ⟨by decide +kernel, by decide +kernel⟩
  obtain ⟨-, -, -, hnotices, -⟩ :=
    sends_commute .sharedCache hreachable hkeys .epoch .epoch fetch hroom
  have hne : newEntries .sharedCache Sample.store Sample.request .epoch .epoch fetch ≠ [] := by
    intro hnil
    rw [hnil] at hnew
    cases hnew
  exact ⟨hreachable, hkeys, hne, hroom, hnotices⟩

end Cache

end ResponseCache
