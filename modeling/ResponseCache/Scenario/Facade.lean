import ResponseCache.Scenario.Session

/-!
# A cache from a builder

A scenario for one cache over a memory store, put together by a builder. The store always goes by
real time, and so does the cache if it has no clock of its own. Real time has a fixed start in a
scenario and moves by a microsecond with each step, so that every step is later than the one before
it and no step is long.
-/

namespace ResponseCache.Scenario

/-- The real time at which a scenario starts, 2026-07-01T00:00:00Z. -/
def realStart : Instant :=
  (Instant.of? 1782864000 0).getD .epoch

/-- A cache built by choices, in a session of its own. -/
structure Facade where
  builder : Builder
  session : Session
  realTime : Instant

namespace Facade

def builderOf (choices : List Choice) : Builder :=
  choices.foldl Builder.choose {}

def shelf : Shelf where
  store := Store.empty .standard Store.defaultOrigin
  failGet := false
  failSet := false
  ownTime := some realStart

def record (b : Builder) : LogRecord :=
  b.record Store.defaultOrigin

def build (b : Builder) (origin : Origin) (start : Instant) : Except Failure Facade := do
  let config ← b.build
  return ⟨b, ⟨origin, 0, start, [⟨config, shelf⟩], []⟩, realStart⟩

/-- The tier with its store at a real time. -/
def setRealTime (now : Instant) (t : Tier Shelf) : Tier Shelf :=
  { t with storage := { t.storage with ownTime := some now } }

/-- The facade when real time has moved by a microsecond. -/
def tick (f : Facade) : Facade :=
  let now := (f.realTime.shift? 1000).getD f.realTime
  { f with
    session := { f.session with tiers := f.session.tiers.map (setRealTime now) }
    realTime := now }

/-- A step of the clock or a request; the answer is that of the session. -/
def step (f : Facade) (s : Step) : Facade × Outcome :=
  let f := f.tick
  match s with
  | .clock c =>
    let o := f.session.step (.clock c)
    ({ f with session := o.session }, o)
  | s =>
    let now := f.session.now
    let o := { f.session with now := if f.builder.ownClock then now else f.realTime }.step s
    ({ f with session := { o.session with now := now } }, o)

/-- The events that the observer of the cache was told of in a step. -/
def observed (f : Facade) (o : Outcome) : List (Nat × KeyedEvent) :=
  if f.builder.observer = some .recorder then o.notices.filterMap TierNotice.event? else []

def run (f : Facade) : List Step → List (Facade × Outcome)
  | [] => []
  | s :: steps =>
    let r := f.step s
    r :: r.1.run steps

end Facade

end ResponseCache.Scenario
