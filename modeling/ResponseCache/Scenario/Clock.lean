import ResponseCache.Time.Instant

/-!
# Clocks that move when told to
-/

namespace ResponseCache.Scenario

/-- A step of a clock. -/
inductive ClockStep where
  | advance (span : Int)
  | set (time : Instant)

/-- The time after a step. A clock does not leave the calendar. -/
def ClockStep.run (now : Instant) : ClockStep → Instant
  | .advance span => (now.shift? span).getD now
  | .set time => time

end ResponseCache.Scenario
