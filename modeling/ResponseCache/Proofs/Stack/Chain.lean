import Mathlib.Logic.Function.Basic
import ResponseCache.Proofs.Stack.Tiers

/-!
# Caches in front of one another

A cache is reached like an origin, so it can stand in front of another one. `relay` follows a
request through such a chain as each cache sees it: it answers, or passes the request to the next
one as to its origin, waits for what comes back and may keep it; an overfull entry crashes it. Each
layer goes by its own clock, which may show another time when the answer is back. Storages and
origin share one state, of which each has its part, and two layers may well have one storage.

With storages of their own and clocks that stand still this is the way down and up again by which a
stack is run (`relay_eq_send`).
-/

namespace ResponseCache

/-- A part of a state, which can be read and replaced. -/
structure Lens (τ σ : Type) where
  get : τ → σ
  set : τ → σ → τ
  get_set : ∀ t x, get (set t x) = x
  set_get : ∀ t, set t (get t) = t

section Within

variable {τ σ : Type} (b : Backend σ) (l : Lens τ σ)

/-- A storage whose state is part of another one. -/
def Backend.within : Backend τ where
  origin t := b.origin (l.get t)
  get t key now :=
    let got := b.get (l.get t) key now
    (got.1, l.set t got.2)
  set t key entry ttl now :=
    let reply := b.set (l.get t) key entry ttl now
    ⟨reply.result, reply.records, l.set t reply.state⟩

/-- A lookup comes to the same in a part of a state as by itself. -/
theorem Cache.start_within (c : Config) (t : τ) (r : Request) (now : Instant) :
    let started := Cache.start b c (l.get t) r now
    Cache.start (b.within l) c t r now
      = ⟨l.set t started.storage, started.finding⟩ := by
  cases h : Cache.looksUp c r with
  | false => simp only [Cache.start_of_bypass h, l.set_get]
  | true =>
    rw [Cache.start_of_looksUp h, Cache.start_of_looksUp h]
    simp only [Backend.within, l.get_set]

/-- And so does a write. -/
theorem Cache.settle_within (c : Config) (t : τ) (r : Request) (now : Instant) (p : Response) :
    let settled := Cache.settle b c (l.get t) r now p
    Cache.settle (b.within l) c t r now p
      = ⟨l.set t settled.storage, settled.event, settled.records⟩ := by
  simp only [Cache.settle, Backend.within]
  cases Cache.weigh c r (b.origin (l.get t)) now p with
  | skip event => simp only [l.set_get]
  | write entry e =>
    dsimp only
    cases (b.set (l.get t) (Key.ofRequest r) entry c.entryTtl now).result <;> rfl

end Within

/-- One cache of a chain: its storage, and what its clock shows when it looks for a kept response
and when a live one is in. -/
structure Layer (ω : Type) where
  config : Config
  storage : Backend ω
  down : Instant
  up : Instant

/-- Caches in front of one another, by their depths, and the origin behind the last one. -/
structure Chain (ω : Type) where
  layer : Nat → Layer ω
  fetch : ω → Request → Except (Halt Failure) Response × ω

namespace Chain

open Stack (eventAt)

variable {ω : Type}

/-- What a request has come to: the state afterwards, what was observed, and the answer. -/
structure Relayed (ω : Type) where
  state : ω
  notices : List TierNotice
  result : Except (Halt Failure) Response

/-- A layer looks for a kept response. -/
def lookUp (k : Chain ω) (r : Request) (depth : Nat) (s : ω) : Cache.Started ω :=
  Cache.start (k.layer depth).storage (k.layer depth).config s r (k.layer depth).down

/-- What a result from behind does to a layer that passed the request on. -/
def comeUp (k : Chain ω) (r : Request) (depth : Nat) (s : ω) :
    Except (Halt Failure) Response → ω × List TierNotice
  | .error _ => (s, [])
  | .ok p =>
    let settled := Cache.settle (k.layer depth).storage (k.layer depth).config s r
      (k.layer depth).up p
    (settled.storage, settled.records.map (fun record => ⟨depth, .record record⟩)
      ++ [eventAt depth r settled.event])

/-- A request to the layers from `depth` on, of which there are `rest`. Each of them has the next
one as its origin, and the last one the origin of the chain. -/
def relay (k : Chain ω) (r : Request) : (depth rest : Nat) → ω → Relayed ω
  | _, 0, s =>
    let fetched := k.fetch s r
    ⟨fetched.2, [], fetched.1⟩
  | depth, rest + 1, s =>
    let started := k.lookUp r depth s
    match started.finding with
    | .serve tag q e => ⟨started.storage, [eventAt depth r (.hit tag e)], .ok q⟩
    | .pass event =>
      let below := k.relay r (depth + 1) rest started.storage
      let up := k.comeUp r depth below.state below.result
      ⟨up.1, eventAt depth r event :: (below.notices ++ up.2), below.result⟩
    | .crash => ⟨started.storage, [], .error .crashed⟩

section Steps

variable {k : Chain ω} {r : Request} {depth rest : Nat} {s : ω} {q : Response} {tag : String}
  {e : Instant} {event : Event}

theorem relay_of_serve (h : (k.lookUp r depth s).finding = .serve tag q e) :
    k.relay r depth (rest + 1) s =
      ⟨(k.lookUp r depth s).storage, [eventAt depth r (.hit tag e)], .ok q⟩ := by
  simp only [relay, h]

theorem relay_of_pass (h : (k.lookUp r depth s).finding = .pass event) :
    k.relay r depth (rest + 1) s =
      let below := k.relay r (depth + 1) rest (k.lookUp r depth s).storage
      let up := k.comeUp r depth below.state below.result
      ⟨up.1, eventAt depth r event :: (below.notices ++ up.2), below.result⟩ := by
  simp only [relay, h]

theorem relay_of_crash (h : (k.lookUp r depth s).finding = .crash) :
    k.relay r depth (rest + 1) s = ⟨(k.lookUp r depth s).storage, [], .error .crashed⟩ := by
  simp only [relay, h]

/-- A layer notes what it does under its own depth. -/
theorem depth_of_mem_comeUp {result : Except (Halt Failure) Response} {notice : TierNotice}
    (h : notice ∈ (k.comeUp r depth s result).2) : notice.depth = depth := by
  cases result with
  | error failure => cases h
  | ok p =>
    rcases List.mem_append.1 h with hrecord | hevent
    · obtain ⟨record, -, rfl⟩ := List.mem_map.1 hrecord
      rfl
    · rw [List.mem_singleton.1 hevent]
      rfl

end Steps

/-! ## Storages of their own and clocks that stand still -/

section Still

open Stack (Descent descend ascend started settled resultOf)

variable {σ : Type} {b : Backend σ} {r : Request} {now : Instant}
  {fetch : Request → Except (Halt Failure) Response} {configs : Nat → Config}

/-- One of a family of states. -/
def component (σ : Type) (depth : Nat) : Lens (Nat → σ) σ where
  get s := s depth
  set s x := Function.update s depth x
  get_set s x := by simp
  set_get s := by simp

/-- Layers with storages of one kind but each with its own, all clocks at `now`, and an origin whose
answer depends on the request alone. -/
def still (b : Backend σ) (now : Instant) (fetch : Request → Except (Halt Failure) Response)
    (configs : Nat → Config) : Chain (Nat → σ) where
  layer depth := ⟨configs depth, b.within (component σ depth), now, now⟩
  fetch s r := (fetch r, s)

/-- The tiers from `depth` on have these configurations and states of their storages. -/
def Holds (configs : Nat → Config) (s : Nat → σ) (depth : Nat) (tiers : List (Tier σ)) : Prop :=
  ∀ i t, tiers[i]? = some t → configs (depth + i) = t.config ∧ s (depth + i) = t.storage

/-- What a result does to the tiers from `depth` on that passed the request on. -/
def rise (b : Backend σ) (r : Request) (now : Instant) (depth : Nat) (d : Descent σ) :
    Except (Halt Failure) Response → List (Tier σ) × List TierNotice
  | .ok p => ascend b r now p depth d.passed d.tiers
  | .error _ => (d.tiers, [])

section Holds

variable {s : Nat → σ} {depth : Nat} {t : Tier σ} {ts : List (Tier σ)}

theorem Holds.cons (hconfig : configs depth = t.config) (hstorage : s depth = t.storage)
    (hrest : Holds configs s (depth + 1) ts) : Holds configs s depth (t :: ts) := by
  intro i u hu
  cases i with
  | zero =>
    obtain rfl : t = u := Option.some.inj hu
    exact ⟨hconfig, hstorage⟩
  | succ i =>
    have := hrest i u hu
    rwa [Nat.add_right_comm] at this

theorem Holds.tail (h : Holds configs s depth (t :: ts)) : Holds configs s (depth + 1) ts := by
  intro i u hu
  rw [Nat.add_right_comm]
  exact h (i + 1) u hu

theorem Holds.update (h : Holds configs s (depth + 1) ts) (x : σ) :
    Holds configs (Function.update s depth x) (depth + 1) ts := by
  intro i u hu
  rw [Function.update_of_ne (by omega)]
  exact h i u hu

end Holds

/-- A layer with a storage of its own looks a request up as the tier that it holds. -/
theorem still_lookUp {s : Nat → σ} {depth : Nat} {t : Tier σ}
    (hconfig : configs depth = t.config) (hstorage : s depth = t.storage) :
    (still b now fetch configs).lookUp r depth s
      = ⟨Function.update s depth (started b r now t).storage,
        (Cache.start b t.config t.storage r now).finding⟩ := by
  simp only [lookUp, still, Cache.start_within]
  rw [hconfig, show (component σ depth).get s = t.storage from hstorage]
  rfl

/-- And it settles a response as that tier. -/
theorem still_comeUp {s : Nat → σ} {depth : Nat} {t : Tier σ} {p : Response}
    (hconfig : configs depth = t.config) (hstorage : s depth = t.storage) :
    (still b now fetch configs).comeUp r depth s (.ok p)
      = (Function.update s depth (settled b r now p t).storage,
        (Cache.settle b t.config t.storage r now p).records.map
            (fun record => ⟨depth, .record record⟩)
          ++ [eventAt depth r (Cache.settle b t.config t.storage r now p).event]) := by
  simp only [comeUp, still, Cache.settle_within]
  rw [hconfig, show (component σ depth).get s = t.storage from hstorage]
  rfl

/-- A request that has gone down the tiers from some depth on, and what has come up again, is what
their layers relay; the storages in front stay as they are. -/
theorem relay_still {depth : Nat} {tiers : List (Tier σ)} {s : Nat → σ}
    (h : Holds configs s depth tiers) :
    let d := descend b r now depth tiers
    let up := rise b r now depth d (resultOf r fetch d.standing)
    let sent := (still b now fetch configs).relay r depth tiers.length s
    sent.result = resultOf r fetch d.standing ∧ sent.notices = d.notices ++ up.2
      ∧ Holds configs sent.state depth up.1 ∧ ∀ j < depth, sent.state j = s j := by
  induction tiers generalizing depth s with
  | nil =>
    intro d up sent
    have hup : up = ([], []) := by
      simp only [up, d, resultOf, descend]
      cases fetch r with
      | ok p => simp only [rise, ascend]
      | error halt => rfl
    rw [hup]
    exact ⟨rfl, rfl, h, fun _ _ => rfl⟩
  | cons t ts ih =>
    intro d up sent
    have hconfig : configs depth = t.config := (h 0 t rfl).1
    have hstorage : s depth = t.storage := (h 0 t rfl).2
    have hlook : (still b now fetch configs).lookUp r depth s = _ := still_lookUp hconfig hstorage
    have hstopped : Holds configs (Function.update s depth (started b r now t).storage) depth
        (started b r now t :: ts) :=
      Holds.cons hconfig (Function.update_self ..) (h.tail.update _)
    have hfront : ∀ x, ∀ j < depth, Function.update s depth x j = s j := fun x j hj =>
      Function.update_of_ne (Nat.ne_of_lt hj) ..
    cases hfinding : (Cache.start b t.config t.storage r now).finding with
    | serve tag q e =>
      have hd : d = _ := Stack.descend_cons_of_serve depth hfinding
      have hsent : sent = _ := relay_of_serve (by rw [hlook, hfinding])
      rw [hlook] at hsent
      have hup : up = (started b r now t :: ts, []) := by
        simp only [up, hd, resultOf, rise, ascend]
      rw [hsent, hd, hup]
      exact ⟨rfl, rfl, hstopped, hfront _⟩
    | crash =>
      have hd : d = _ := Stack.descend_cons_of_crash depth hfinding
      have hsent : sent = _ := relay_of_crash (by rw [hlook, hfinding])
      rw [hlook] at hsent
      have hup : up = (started b r now t :: ts, []) := by
        simp only [up, hd, resultOf, rise]
      rw [hsent, hd, hup]
      exact ⟨rfl, rfl, hstopped, hfront _⟩
    | pass event =>
      have hd : d = _ := Stack.descend_cons_of_pass depth hfinding
      have hsent : sent = _ := relay_of_pass (by rw [hlook, hfinding])
      rw [hlook] at hsent
      dsimp only at hsent hd
      obtain ⟨hresult, hnotices, hholds, hframe⟩ := ih (h.tail.update (started b r now t).storage)
      generalize (still b now fetch configs).relay r (depth + 1) ts.length
        (Function.update s depth (started b r now t).storage) = below
        at hsent hresult hnotices hholds hframe
      generalize descend b r now (depth + 1) ts = down at hd hresult hnotices hholds
      have hhere : below.state depth = (started b r now t).storage :=
        (hframe depth (Nat.lt_succ_self depth)).trans (Function.update_self ..)
      have hbefore : ∀ j < depth, below.state j = s j := fun j hj =>
        (hframe j (Nat.lt_succ_of_lt hj)).trans (hfront _ j hj)
      have hup : up = rise b r now depth d (resultOf r fetch down.standing) := by
        simp only [up]
        rw [hd]
      have houtcome : resultOf r fetch d.standing = resultOf r fetch down.standing := by
        rw [hd]
      rw [hsent, hup, houtcome, hd]
      refine ⟨hresult, ?_⟩
      rw [hresult]
      cases hout : resultOf r fetch down.standing with
      | error halt =>
        rw [hout] at hnotices hholds
        simp only [rise, List.append_nil] at hnotices
        simp only [comeUp, rise, List.append_nil, hnotices]
        exact ⟨trivial, Holds.cons hconfig hhere hholds, hbefore⟩
      | ok p =>
        rw [hout] at hnotices hholds
        rw [still_comeUp (t := started b r now t) hconfig hhere, hnotices]
        simp only [rise, ascend] at hholds ⊢
        refine ⟨?_, Holds.cons hconfig (Function.update_self ..) (hholds.update _), ?_⟩
        · simp only [List.cons_append, List.append_assoc]
        · intro j hj
          rw [Function.update_of_ne (Nat.ne_of_lt hj)]
          exact hbefore j hj

/-- A stack is a chain of caches with storages of their own, whose clocks all stand still and whose
origin gives each request the same answer at any time. -/
theorem relay_eq_send {tiers : List (Tier σ)} {s : Nat → σ} (h : Holds configs s 0 tiers) :
    let sent := Stack.send b tiers r now fetch
    let relayed := (still b now fetch configs).relay r 0 tiers.length s
    relayed.result = sent.result ∧ relayed.notices = sent.notices
      ∧ Holds configs relayed.state 0 sent.tiers := by
  intro sent relayed
  obtain ⟨hresult, hnotices, htiers⟩ : sent.result
        = resultOf r fetch (descend b r now 0 tiers).standing
      ∧ sent.notices = (descend b r now 0 tiers).notices
        ++ (rise b r now 0 (descend b r now 0 tiers) sent.result).2
      ∧ sent.tiers = (rise b r now 0 (descend b r now 0 tiers) sent.result).1 := by
    simp only [sent, Stack.send]
    cases (descend b r now 0 tiers).standing with
    | answered q => exact ⟨rfl, rfl, rfl⟩
    | passed =>
      dsimp only [resultOf]
      cases fetch r <;> exact ⟨rfl, rfl, rfl⟩
    | crashed => exact ⟨rfl, rfl, rfl⟩
  obtain ⟨hresult', hnotices', hholds, -⟩ := @relay_still σ b r now fetch configs 0 tiers s h
  rw [← hresult] at hresult' hnotices' hholds
  rw [hnotices, htiers]
  exact ⟨hresult', hnotices', hholds⟩

end Still

end Chain

end ResponseCache
