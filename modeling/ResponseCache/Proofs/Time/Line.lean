import ResponseCache.Time.Instant

/-!
# Instants outside leap seconds

Without leap seconds the time line is the line of the whole numbers: an instant is a number of
nanoseconds (`toNanos`), earlier means less, the span between two instants is a difference and a
shift adds to the number. A shift never enters a leap second from outside one, and forward it fails
only where it would go beyond the calendar (`toNanos_shift`).
-/

namespace ResponseCache.Instant

/-- The nanoseconds from 1970-01-01T00:00:00Z to the instant, leap seconds aside. -/
def toNanos (t : Instant) : Int :=
  t.seconds * 1000000000 + t.nanos

variable {a b t : Instant}

theorem nanos_lt_of_isLeap (h : t.isLeap = false) : t.nanos < 1000000000 := by
  simpa [isLeap] using h

theorem lt_iff_toNanos_lt (ha : a.isLeap = false) (hb : b.isLeap = false) :
    a < b ↔ a.toNanos < b.toNanos := by
  have ha := nanos_lt_of_isLeap ha
  have hb := nanos_lt_of_isLeap hb
  show a.seconds < b.seconds ∨ a.seconds = b.seconds ∧ a.nanos < b.nanos ↔ _
  unfold toNanos
  omega

theorem le_iff_toNanos_le (ha : a.isLeap = false) (hb : b.isLeap = false) :
    a ≤ b ↔ a.toNanos ≤ b.toNanos := by
  show ¬ (b < a) ↔ _
  rw [lt_iff_toNanos_lt hb ha, Int.not_lt]

theorem since_eq (ha : a.isLeap = false) (hb : b.isLeap = false) :
    a.since b = a.toNanos - b.toNanos := by
  simp only [since, ha, hb, Bool.false_eq_true, and_false, if_false, toNanos]
  omega

theorem of?_eq_some {seconds : Int} {nanos : Nat} (h : of? seconds nanos = some a) :
    a.seconds = seconds ∧ a.nanos = nanos := by
  unfold of? at h
  split at h
  · cases h
    exact ⟨rfl, rfl⟩
  · cases h

/-- A shift from outside a leap second leads to the instant of the shifted number, outside leap
seconds too. -/
theorem shift?_eq_some {span : Int} (ht : t.isLeap = false) (h : t.shift? span = some a) :
    a.isLeap = false ∧ a.toNanos = t.toNanos + span := by
  have hn : (t.nanos : Int) < 1000000000 := Int.ofNat_lt.2 (nanos_lt_of_isLeap ht)
  have hspan := Int.mul_tdiv_add_tmod span 1000000000
  unfold shift? at h
  rw [if_pos hn] at h
  obtain ⟨hseconds, hnanos⟩ := of?_eq_some h
  rw [isLeap, decide_eq_false_iff_not]
  unfold toNanos
  constructor <;> omega

theorem toNanos_le_latest (ht : t.isLeap = false) : t.toNanos ≤ latest.toNanos := by
  have hseconds := t.seconds_le
  have hnanos := nanos_lt_of_isLeap ht
  have hlatest : latest.toNanos = 8210266876799 * 1000000000 + 999999999 := rfl
  unfold toNanos at *
  omega

/-- A shift forward that goes beyond the calendar is taken to end at its last instant. -/
theorem toNanos_shift {span : Int} (ht : t.isLeap = false) (hspan : 0 ≤ span) :
    ((t.shift? span).getD latest).toNanos = min (t.toNanos + span) latest.toNanos := by
  cases hshift : t.shift? span with
  | some a =>
    obtain ⟨ha, hnanos⟩ := shift?_eq_some ht hshift
    have hle := toNanos_le_latest ha
    rw [Option.getD_some]
    omega
  | none =>
    have hseconds := t.seconds_ge
    have hn : (t.nanos : Int) < 1000000000 := Int.ofNat_lt.2 (nanos_lt_of_isLeap ht)
    have hlatest : latest.toNanos = 8210266876799 * 1000000000 + 999999999 := rfl
    have hwhole := Int.tdiv_nonneg hspan (by decide : (0 : Int) ≤ 1000000000)
    have hrest := Int.tmod_nonneg 1000000000 hspan
    have hsum := Int.mul_tdiv_add_tmod span 1000000000
    unfold shift? at hshift
    rw [if_pos hn] at hshift
    dsimp only at hshift
    unfold of? at hshift
    split at hshift
    · cases hshift
    · rw [Option.getD_none]
      unfold toNanos at *
      omega

end ResponseCache.Instant
