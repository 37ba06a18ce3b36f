import RiscvBoot.Duration

/-!
# Lengths of time in machine words

A machine keeps a length of time in two words, the whole seconds and the nanoseconds beyond them,
and so it keeps the readings of a clock. `Words.nanoseconds` is the number that the words stand
for. Nothing wraps around on the way: milliseconds are put into words without a loss
(`nanoseconds_ofMillis`), the time between two readings is exact (`nanoseconds_since`), and words
are compared as their numbers are (`le_iff`). So a length of time is over in words exactly if it is
over at all (`le_since_iff`).
-/

set_option autoImplicit false

namespace RiscvBoot.Duration

/-- A length of time in two words. The nanoseconds are less than a second. -/
structure Words where
  seconds : UInt64
  nanos : UInt32
  nanos_lt : nanos.toNat < 1000000000

namespace Words

def nanoseconds (w : Words) : Nat := 1000000000 * w.seconds.toNat + w.nanos.toNat

/-- The reading of a clock that the words stand for. -/
def instant (w : Words) : Instant := ⟨w.nanoseconds⟩

-- The seconds decide, and the nanoseconds count only between equal seconds.
instance : LE Words :=
  ⟨fun a b => a.seconds < b.seconds ∨ a.seconds = b.seconds ∧ a.nanos ≤ b.nanos⟩

instance (a b : Words) : Decidable (a ≤ b) :=
  inferInstanceAs (Decidable (a.seconds < b.seconds ∨ a.seconds = b.seconds ∧ a.nanos ≤ b.nanos))

theorem le_iff (a b : Words) : a ≤ b ↔ a.nanoseconds ≤ b.nanoseconds := by
  have ha := a.nanos_lt
  have hb := b.nanos_lt
  change (a.seconds < b.seconds ∨ a.seconds = b.seconds ∧ a.nanos ≤ b.nanos) ↔ _
  rw [UInt64.lt_iff_toNat_lt, ← UInt64.toNat_inj, UInt32.le_iff_toNat_le]
  unfold nanoseconds
  omega

/-! ## Whole seconds and milliseconds -/

def ofSeconds (s : UInt64) : Words := ⟨s, 0, by decide⟩

theorem nanoseconds_ofSeconds (s : UInt64) :
    (ofSeconds s).nanoseconds = 1000000000 * s.toNat := rfl

/-- The nanoseconds of less than a second fit into their word. -/
theorem toNat_nanos_ofMillis (ms : UInt64) :
    ((ms % 1000).toUInt32 * 1000000).toNat = ms.toNat % 1000 * 1000000 := by
  have hlt : ms.toNat % 1000 < 1000 := Nat.mod_lt _ (by omega)
  rw [UInt32.toNat_mul, UInt64.toNat_toUInt32, UInt64.toNat_mod]
  change ms.toNat % 1000 % 2 ^ 32 * 1000000 % 2 ^ 32 = _
  omega

def ofMillis (ms : UInt64) : Words where
  seconds := ms / 1000
  nanos := (ms % 1000).toUInt32 * 1000000
  nanos_lt := by
    rw [toNat_nanos_ofMillis]
    omega

theorem nanoseconds_ofMillis (ms : UInt64) :
    (ofMillis ms).nanoseconds = 1000000 * ms.toNat := by
  change 1000000000 * (ms / 1000).toNat + ((ms % 1000).toUInt32 * 1000000).toNat = _
  rw [toNat_nanos_ofMillis, UInt64.toNat_div]
  change 1000000000 * (ms.toNat / 1000) + _ = _
  omega

/-! ## The time between two readings -/

theorem toNat_nanos_borrowed (now start : Words) :
    (now.nanos + 1000000000 - start.nanos).toNat =
      now.nanos.toNat + 1000000000 - start.nanos.toNat := by
  have hnow := now.nanos_lt
  have hstart := start.nanos_lt
  have hsum : (now.nanos + 1000000000).toNat = now.nanos.toNat + 1000000000 := by
    rw [UInt32.toNat_add]
    change (now.nanos.toNat + 1000000000) % 2 ^ 32 = _
    omega
  have hle : start.nanos ≤ now.nanos + 1000000000 := by
    rw [UInt32.le_iff_toNat_le, hsum]
    omega
  rw [UInt32.toNat_sub_of_le _ _ hle, hsum]

/-- The time from `start` to `now`; it is zero if the clock ran backwards. A second is borrowed if
the nanoseconds of `start` are the later ones. -/
def since (now start : Words) : Words :=
  if start ≤ now then
    if h : start.nanos ≤ now.nanos then
      { seconds := now.seconds - start.seconds
        nanos := now.nanos - start.nanos
        nanos_lt := by
          rw [UInt32.toNat_sub_of_le _ _ h]
          have hnow := now.nanos_lt
          omega }
    else
      { seconds := now.seconds - 1 - start.seconds
        nanos := now.nanos + 1000000000 - start.nanos
        nanos_lt := by
          rw [toNat_nanos_borrowed]
          rw [UInt32.le_iff_toNat_le] at h
          omega }
  else ofSeconds 0

theorem nanoseconds_since (now start : Words) :
    (now.since start).nanoseconds = now.nanoseconds - start.nanoseconds := by
  unfold since
  split
  · rename_i hle
    have hseconds : start.seconds < now.seconds ∨
        start.seconds = now.seconds ∧ start.nanos ≤ now.nanos := hle
    rw [UInt64.lt_iff_toNat_lt, ← UInt64.toNat_inj] at hseconds
    split
    · rename_i hnanos
      have hwhole : start.seconds ≤ now.seconds := by
        rw [UInt64.le_iff_toNat_le]
        omega
      simp only [nanoseconds, UInt64.toNat_sub_of_le _ _ hwhole, UInt32.toNat_sub_of_le _ _ hnanos]
      rw [UInt32.le_iff_toNat_le] at hnanos
      omega
    · rename_i hnanos
      -- The later nanoseconds need an earlier second, so there is one to borrow.
      have hearlier : start.seconds.toNat < now.seconds.toNat :=
        hseconds.resolve_right fun h => hnanos h.2
      have hone : (1 : UInt64) ≤ now.seconds := by
        rw [UInt64.le_iff_toNat_le]
        change 1 ≤ now.seconds.toNat
        omega
      have hborrowed : (now.seconds - 1).toNat = now.seconds.toNat - 1 :=
        UInt64.toNat_sub_of_le _ _ hone
      have hwhole : start.seconds ≤ now.seconds - 1 := by
        rw [UInt64.le_iff_toNat_le, hborrowed]
        omega
      simp only [nanoseconds, UInt64.toNat_sub_of_le _ _ hwhole, hborrowed,
        toNat_nanos_borrowed]
      have hstart := start.nanos_lt
      omega
  · rename_i hlt
    rw [le_iff] at hlt
    rw [nanoseconds_ofSeconds, UInt64.toNat_zero]
    omega

theorem le_since_iff {w : Words} {d : Duration} (hw : w.nanoseconds = d.nanos)
    (now start : Words) : w ≤ now.since start ↔ d ≤ now.instant.since start.instant := by
  rw [le_iff, nanoseconds_since, Instant.le_since_iff, hw]
  rfl

end Words

end RiscvBoot.Duration
