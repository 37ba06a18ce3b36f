/-!
# Clocks and lengths of time

A clock is read in whole nanoseconds. Lengths of time are whole microseconds and shown in whole
milliseconds. What lies between two readings is rounded down only after the subtraction, so a
length of time is over exactly when its nanoseconds are (`Instant.le_since_iff`).
-/

set_option autoImplicit false

namespace RiscvBoot

structure Duration where
  micros : Nat
  deriving DecidableEq, Repr, Inhabited

namespace Duration

def ofMillis (ms : Nat) : Duration := ⟨1000 * ms⟩

/-- How long programs get to end unless a project says otherwise. -/
def usualSettleTime : Duration := ofMillis 2000

def millis (d : Duration) : Nat := d.micros / 1000

def nanos (d : Duration) : Nat := 1000 * d.micros

instance : LE Duration := ⟨fun d e => d.micros ≤ e.micros⟩

instance (d e : Duration) : Decidable (d ≤ e) :=
  inferInstanceAs (Decidable (d.micros ≤ e.micros))

theorem millis_ofMillis (ms : Nat) : (ofMillis ms).millis = ms := by
  simp [ofMillis, millis]

end Duration

/-- A reading of a clock. -/
structure Instant where
  nanos : Nat
  deriving DecidableEq, Repr, Inhabited

namespace Instant

instance : HAdd Instant Duration Instant := ⟨fun t d => ⟨t.nanos + d.nanos⟩⟩

instance : LE Instant := ⟨fun t u => t.nanos ≤ u.nanos⟩

instance (t u : Instant) : Decidable (t ≤ u) := inferInstanceAs (Decidable (t.nanos ≤ u.nanos))

/-- The time from `start` to `now`; it is zero if the clock ran backwards. -/
def since (now start : Instant) : Duration := ⟨(now.nanos - start.nanos) / 1000⟩

theorem le_since_iff (d : Duration) (now start : Instant) :
    d ≤ now.since start ↔ d.nanos ≤ now.nanos - start.nanos := by
  change d.micros ≤ (now.nanos - start.nanos) / 1000 ↔ 1000 * d.micros ≤ _
  rw [Nat.le_div_iff_mul_le (by decide), Nat.mul_comm]

end Instant

end RiscvBoot
