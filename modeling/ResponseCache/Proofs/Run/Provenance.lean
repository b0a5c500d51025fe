import ResponseCache.Proofs.Run.Basic
import ResponseCache.Proofs.Store.Slots

/-!
# Where kept entries come from

Over a memory store that nothing else writes to, every entry that a cache holds is the work of a
write in its history, and that write was in order: the request had been passed on before, the
response could be kept by all rules at that time, and nothing was written under the key since.

The invariant is `Accounted`. It says this of every slot (`Kept`), and of every waiting request that
it was passed on. A lookup and the drop of a slot only make the store smaller; a write accounts for
its own slot and drops the one that it replaces, so that what is left stands under other keys.
-/

namespace ResponseCache.Run

open Exchange

/-- `entry` is what the last write under `key` in the history wrote: `x`, of a response whose
headers say `w`, to a request that had been passed on. -/
structure Kept (c : Config) (origin : String) (history : List Deed) (key : Key) (entry : Entry)
    (x : Write) (w : Reading) : Prop where
  last : ∃ later earlier, history = later ++ x.deed :: earlier
    ∧ (∀ d ∈ later, d.write? key = none)
    ∧ ∃ t event, Deed.asked x.request t event none ∈ earlier
  key_eq : Key.ofRequest x.request = key
  admissible : (x.request.exchange x.response).Admissible c w
  expires : (w.assessment (x.request.exchange x.response) x.now x.now).expiresAt c = x.expiresAt
  entry_eq : entry =
    Entry.ofResponse x.request.method x.request.uri.text x.now x.response origin

/-- Every slot is accounted for by a write and every waiting request was passed on. -/
structure Accounted (c : Config) (origin : String) (u : Run Store) : Prop where
  origin_eq : u.storage.origin = origin
  waiting : ∀ r ∈ u.waiting, ∃ t event, Deed.asked r t event none ∈ u.history
  slots : ∀ slot ∈ u.storage.slots, ∃ x w, Kept c origin u.history slot.key slot.entry x w

variable {c : Config} {origin : String} {limits : Limits} {history : List Deed} {key : Key}
  {entry : Entry} {x : Write} {w : Reading} {u : Run Store} {r : Request} {d : Deed}

/-- What is kept stays accounted for as long as nothing is written under its key. -/
theorem Kept.cons (h : Kept c origin history key entry x w) (hd : d.write? key = none) :
    Kept c origin (d :: history) key entry x w := by
  obtain ⟨later, earlier, rfl, hlater, hasked⟩ := h.last
  refine ⟨⟨d :: later, earlier, rfl, fun d' hd' => ?_, hasked⟩, h.key_eq, h.admissible, h.expires,
    h.entry_eq⟩
  rcases List.mem_cons.1 hd' with rfl | hd'
  · exact hd
  · exact hlater d' hd'

theorem Kept.lastWrite? (h : Kept c origin u.history key entry x w) :
    u.lastWrite? key = some x := by
  obtain ⟨later, earlier, hhistory, hlater, -⟩ := h.last
  exact lastWrite?_eq_some.2 ⟨later, earlier, hhistory, h.key_eq, hlater⟩

theorem Kept.response_eq (h : Kept c origin history key entry x w) (m : Method) :
    entry.response m = Wire.decode (Wire.encode x.response) m := by
  rw [h.entry_eq]
  rfl

namespace Accounted

/-- An entry that a lookup finds is that of the last write under its key. -/
theorem kept_of_lookup (h : Accounted c origin u) {now : Instant}
    (hlast : u.lastWrite? key = some x) (hfound : (u.storage.lookup key now).1 = .ok entry) :
    ∃ w, Kept c origin u.history key entry x w := by
  obtain ⟨slot, hslot, rfl, rfl⟩ := Store.lookup_eq_ok hfound
  obtain ⟨x', w, hkept⟩ := h.slots slot hslot
  rw [hkept.lastWrite?, Option.some.injEq] at hlast
  exact ⟨w, hlast ▸ hkept⟩

theorem fresh (c : Config) (limits : Limits) (origin : String) :
    Accounted c origin (Run.fresh (Store.empty limits origin)) where
  origin_eq := rfl
  waiting _ h := absurd h List.not_mem_nil
  slots _ h := absurd h List.not_mem_nil

/-- A deed that writes nothing, with slots that all were there before, leaves everything accounted
for. -/
theorem of_agrees {v : Run Store} (h : Accounted c origin u) (horigin : v.storage.origin = origin)
    (hhistory : v.history = d :: u.history) (hd : ∀ key, d.write? key = none)
    (hwaiting : ∀ r ∈ v.waiting, r ∈ u.waiting ∨ ∃ t event, d = .asked r t event none)
    (hslots : ∀ slot ∈ v.storage.slots, ∃ old ∈ u.storage.slots, slot.Agrees old) :
    Accounted c origin v := by
  refine ⟨horigin, fun r hr => ?_, fun slot hslot => ?_⟩
  · rw [hhistory]
    rcases hwaiting r hr with hr | ⟨t, event, rfl⟩
    · obtain ⟨t, event, hasked⟩ := h.waiting r hr
      exact ⟨t, event, List.mem_cons_of_mem _ hasked⟩
    · exact ⟨t, event, List.mem_cons_self⟩
  · obtain ⟨old, hold, hkey, hentry, -⟩ := hslots slot hslot
    obtain ⟨x, w, hkept⟩ := h.slots old hold
    rw [hhistory, hkey, hentry]
    exact ⟨x, w, hkept.cons (hd _)⟩

theorem step_ask (h : Accounted c origin u) (now own : Instant) (r : Request) :
    Accounted c origin (u.step Store.backendAt c ⟨now, own, .ask r⟩) := by
  have hstorage : (Cache.start (Store.backendAt own) c u.storage r now).storage
      = if Cache.looksUp c r then (u.storage.lookup (Key.ofRequest r) own).2 else u.storage :=
    Cache.start_storage
  have horigin : (Cache.start (Store.backendAt own) c u.storage r now).storage.origin = origin := by
    rw [hstorage]
    split
    · exact Store.origin_lookup.trans h.origin_eq
    · exact h.origin_eq
  have hslots : ∀ slot ∈ (Cache.start (Store.backendAt own) c u.storage r now).storage.slots,
      ∃ old ∈ u.storage.slots, slot.Agrees old := by
    rw [hstorage]
    intro slot hslot
    split at hslot
    · exact Store.mem_slots_lookup hslot
    · exact ⟨slot, hslot, rfl, rfl, rfl⟩
  cases hfinding : (Cache.start (Store.backendAt own) c u.storage r now).finding with
  | serve tag q e =>
    rw [Run.step_ask_serve hfinding]
    exact h.of_agrees horigin rfl (fun _ => rfl) (fun r' hr' => .inl hr') hslots
  | pass event =>
    rw [Run.step_ask_pass hfinding]
    refine h.of_agrees horigin rfl (fun _ => rfl) (fun r' hr' => ?_) hslots
    rcases List.mem_append.1 hr' with hr' | hr'
    · exact .inl hr'
    · rw [List.mem_singleton.1 hr']
      exact .inr ⟨now, event, rfl⟩
  | crash =>
    rw [Run.step_ask_crash hfinding]
    exact h.of_agrees horigin rfl (fun _ => rfl) (fun r' hr' => .inl hr') hslots

/-- A live response that is taken accounts for its slot; all other slots are under other keys. -/
theorem step_reply_ok (h : Accounted c origin u) (now own : Instant) {place : Nat} {p : Response}
    (hr : u.waiting[place]? = some r) :
    Accounted c origin (u.step Store.backendAt c ⟨now, own, .reply place (.ok p)⟩) := by
  have hasked := h.waiting r (List.mem_of_getElem? hr)
  have hrest : ∀ r' ∈ u.waiting.eraseIdx place, r' ∈ u.waiting := fun r' hr' =>
    (List.eraseIdx_sublist _ _).subset hr'
  rw [Run.step_reply_ok hr]
  dsimp only
  rcases Cache.settle_cases (Store.backendAt own) c u.storage r now p with
    ⟨w, e, hadm, he, hresult, hsettle⟩ | ⟨failure, hresult, hsettle⟩ | ⟨event, hskip, hsettle⟩
  · rw [hsettle]
    refine ⟨Store.origin_insert.trans h.origin_eq, fun r' hr' => ?_, fun slot hslot => ?_⟩
    · obtain ⟨t, event, hmem⟩ := h.waiting r' (hrest r' hr')
      exact ⟨t, event, List.mem_cons_of_mem _ hmem⟩
    · rcases Store.mem_slots_insert hresult hslot with ⟨hkey, hentry⟩ | ⟨hold, hkey⟩
      · refine ⟨⟨r, p, now, e⟩, w, ⟨[], u.history, rfl, fun _ hd => absurd hd List.not_mem_nil,
          hasked⟩, hkey.symm, hadm, he, ?_⟩
        rw [hentry, ← h.origin_eq]
        rfl
      · obtain ⟨x, w', hkept⟩ := h.slots slot hold
        exact ⟨x, w', hkept.cons (if_neg (Ne.symm hkey))⟩
  · have hstore : (Cache.offer (Store.backendAt own) c u.storage r now p).state = u.storage :=
      Store.insert_of_error hresult
    rw [hsettle, hstore]
    exact h.of_agrees h.origin_eq rfl (fun _ => rfl) (fun r' hr' => .inl (hrest r' hr'))
      fun slot hslot => ⟨slot, hslot, rfl, rfl, rfl⟩
  · rw [hsettle]
    refine h.of_agrees h.origin_eq rfl (fun key => ?_) (fun r' hr' => .inl (hrest r' hr'))
      fun slot hslot => ⟨slot, hslot, rfl, rfl, rfl⟩
    obtain ⟨cause, rfl⟩ | ⟨fault, rfl⟩ := hskip <;> rfl

theorem step (h : Accounted c origin u) (t : Turn) :
    Accounted c origin (u.step Store.backendAt c t) := by
  obtain ⟨now, own, move⟩ := t
  cases move with
  | ask r => exact h.step_ask now own r
  | reply place result =>
    cases hr : u.waiting[place]? with
    | none =>
      rw [Run.step_reply_none hr]
      exact h
    | some r =>
      cases result with
      | ok p => exact h.step_reply_ok now own hr
      | error halt =>
        rw [Run.step_reply_error hr]
        exact h.of_agrees h.origin_eq rfl (fun _ => rfl)
          (fun r' hr' => .inl ((List.eraseIdx_sublist _ _).subset hr'))
          fun slot hslot => ⟨slot, hslot, rfl, rfl, rfl⟩

/-- Everything is accounted for at every point of every run over a store that was empty. -/
theorem ofTurns (c : Config) (limits : Limits) (origin : String) (turns : List Turn) :
    Accounted c origin (Run.ofTurns c limits origin turns) := by
  apply after_inv (Accounted c origin)
  · intro u t h
    exact h.step t
  · exact fresh c limits origin

end Accounted

/-- What a store may hold. At every point of every run that starts from an empty store, every kept
entry was written by the answer `p` to a request `r` of its key that had been passed on before:
status, method and the headers of both sides allowed a cache of this configuration to keep `p`, the
entry is `p` in wire form with the time of the write, and no write under the key came after it. -/
theorem exists_write_of_mem_slots (c : Config) (limits : Limits) (origin : String)
    (turns : List Turn) {slot : Slot} (h : slot ∈ (ofTurns c limits origin turns).storage.slots) :
    ∃ r p now e w later earlier,
      (ofTurns c limits origin turns).history = later ++ .received r p now (.stored e) :: earlier
        ∧ (∀ d ∈ later, d.write? slot.key = none)
        ∧ (∃ t event, Deed.asked r t event none ∈ earlier)
        ∧ Key.ofRequest r = slot.key
        ∧ (r.exchange p).Admissible c w
        ∧ slot.entry = Entry.ofResponse r.method r.uri.text now p origin
        ∧ slot.entry.wire = Wire.encode p ∧ slot.entry.storedAt = now := by
  obtain ⟨⟨r, p, now, e⟩, w, hkept⟩ := (Accounted.ofTurns c limits origin turns).slots slot h
  obtain ⟨later, earlier, hhistory, hlater, hasked⟩ := hkept.last
  refine ⟨r, p, now, e, w, later, earlier, hhistory, hlater, hasked, hkept.key_eq,
    hkept.admissible, hkept.entry_eq, ?_, ?_⟩
  · rw [hkept.entry_eq]
    rfl
  · rw [hkept.entry_eq]
    rfl

end ResponseCache.Run

namespace ResponseCache

namespace Sample

/-- The slot of the sample response. -/
def slot : Slot :=
  ⟨Key.ofRequest request, Entry.ofResponse .get "/" .epoch response Store.defaultOrigin, none, 0⟩

/-- The sample request comes in and is passed on, and a response comes back at once. -/
def turns (p : Response) : List Turn :=
  [⟨.epoch, .epoch, .ask request⟩, ⟨.epoch, .epoch, .reply 0 (.ok p)⟩]

/-- A shared cache after that. -/
def run (p : Response) : Run Store :=
  Run.ofTurns .sharedCache .standard Store.defaultOrigin (turns p)

end Sample

theorem Run.exists_write_of_sample_slot :
    Sample.slot ∈ (Sample.run Sample.response).storage.slots
      ∧ ∃ r p now w, Key.ofRequest r = Sample.slot.key
        ∧ (r.exchange p).Admissible .sharedCache w
        ∧ Sample.slot.entry.wire = Wire.encode p ∧ Sample.slot.entry.storedAt = now := by
  have h : Sample.slot ∈ (Sample.run Sample.response).storage.slots := by decide +kernel
  obtain ⟨r, p, now, -, w, -, -, -, -, -, hkey, hadm, -, hwire, hnow⟩ :=
    Run.exists_write_of_mem_slots .sharedCache .standard Store.defaultOrigin _ h
  exact ⟨h, r, p, now, w, hkey, hadm, hwire, hnow⟩

end ResponseCache
