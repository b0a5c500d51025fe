import ResponseCache.Cache.Answer

/-!
# Stacks of caches

Caches may stand behind one another: what one cannot answer goes to the next, and the last one asks
the origin. A request goes down (`descend`) to the first tier that answers it, or past all of them;
the answer comes back up (`ascend`) through the tiers that passed the request on, and each of them
may keep it. An error of the origin comes back up too, and so does the crash of a tier, but nobody
keeps them.
-/

namespace ResponseCache

structure Tier (σ : Type) where
  config : Config
  storage : σ

/-- Something observed at a tier. -/
inductive Notice where
  | event (e : KeyedEvent)
  | record (r : LogRecord)

/-- Something observed, with the depth of the tier; the tier that gets the requests has depth 0. -/
structure TierNotice where
  depth : Nat
  notice : Notice

namespace TierNotice

def event? (n : TierNotice) : Option (Nat × KeyedEvent) :=
  match n.notice with
  | .event e => some (n.depth, e)
  | .record _ => none

/-- The log record of what was observed. -/
def logRecord (n : TierNotice) : LogRecord :=
  match n.notice with
  | .event e => LogRecord.ofEvent e
  | .record r => r

end TierNotice

namespace Stack

variable {σ : Type}

/-- The event of a request at a tier. -/
def eventAt (depth : Nat) (r : Request) (e : Event) : TierNotice :=
  ⟨depth, .event ⟨Key.ofRequest r, e⟩⟩

/-- Where a request stands that has gone down some tiers. -/
inductive Standing where
  | answered (response : Response)
  /-- It has gone past all of them. -/
  | passed
  /-- One of them has crashed. -/
  | crashed

/-- The way of a request down a stack. -/
structure Descent (σ : Type) where
  tiers : List (Tier σ)
  notices : List TierNotice
  /-- How many tiers passed the request on. -/
  passed : Nat
  standing : Standing

def Standing.answer? : Standing → Option Response
  | answered response => some response
  | _ => none

def Descent.answer (d : Descent σ) : Option Response :=
  d.standing.answer?

/-- A request goes down the tiers from `depth` on. -/
def descend (b : Backend σ) (r : Request) (now : Instant) : Nat → List (Tier σ) → Descent σ
  | _, [] => ⟨[], [], 0, .passed⟩
  | depth, t :: ts =>
    let started := Cache.start b t.config t.storage r now
    let t := { t with storage := started.storage }
    match started.finding with
    | .serve origin response expiresAt =>
      ⟨t :: ts, [eventAt depth r (.hit origin expiresAt)], 0, .answered response⟩
    | .pass event =>
      let below := descend b r now (depth + 1) ts
      ⟨t :: below.tiers, eventAt depth r event :: below.notices, below.passed + 1, below.standing⟩
    | .crash => ⟨t :: ts, [], 0, .crashed⟩

/-- A response comes up the first `count` tiers from `depth` on, the last of them first. -/
def ascend (b : Backend σ) (r : Request) (now : Instant) (response : Response) :
    (depth count : Nat) → List (Tier σ) → List (Tier σ) × List TierNotice
  | _, _, [] => ([], [])
  | _, 0, ts => (ts, [])
  | depth, count + 1, t :: ts =>
    let (ts, notices) := ascend b r now response (depth + 1) count ts
    let settled := Cache.settle b t.config t.storage r now response
    ({ t with storage := settled.storage } :: ts,
      notices ++ settled.records.map (fun record => ⟨depth, .record record⟩)
        ++ [eventAt depth r settled.event])

/-- The answer to a request and what came of it. -/
structure Answered (σ : Type) where
  tiers : List (Tier σ)
  notices : List TierNotice
  fetched : List Request
  result : Except (Halt Failure) Response

/-- What a result coming up the first `passed` tiers does to them. -/
def finish (b : Backend σ) (r : Request) (now : Instant) (passed : Nat)
    (result : Except (Halt Failure) Response) (tiers : List (Tier σ)) :
    List (Tier σ) × List TierNotice :=
  match result with
  | .ok response => ascend b r now response 0 passed tiers
  | .error _ => (tiers, [])

/-- A request that is answered at once, by a tier or else by the origin with `fetch`. -/
def send (b : Backend σ) (tiers : List (Tier σ)) (r : Request) (now : Instant)
    (fetch : Request → Except (Halt Failure) Response) : Answered σ :=
  let d := descend b r now 0 tiers
  let (fetched, result) :=
    match d.standing with
    | .answered response => ([], .ok response)
    | .passed => ([r], fetch r)
    | .crashed => ([], .error .crashed)
  let (tiers, notices) := finish b r now d.passed result d.tiers
  ⟨tiers, d.notices ++ notices, fetched, result⟩

end Stack

end ResponseCache
