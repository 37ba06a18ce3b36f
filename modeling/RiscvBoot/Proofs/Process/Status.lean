import RiscvBoot.Emulator.Command

/-!
# The bits of a wait status

The low seven bits and the byte above them decide how a process ended, and with it the code that
is passed on for an emulator.
-/

set_option autoImplicit false

namespace RiscvBoot

namespace WaitStatus

variable (s : WaitStatus)

theorem low_eq : s.low = (s.word &&& 0x7f).toNat := by
  rw [UInt32.toNat_and]
  exact (Nat.and_two_pow_sub_one_eq_mod s.word.toNat 7).symm

theorem toNat_second_byte : (s.word >>> 8 &&& 0xff).toNat = s.word.toNat / 256 % 256 := by
  rw [UInt32.toNat_and, UInt32.toNat_shiftRight]
  have hshift : s.word.toNat >>> 8 = s.word.toNat / 256 := Nat.shiftRight_eq_div_pow _ 8
  exact (Nat.and_two_pow_sub_one_eq_mod _ 8).trans (by rw [← hshift]; rfl)

theorem low_eq_iff (n : UInt32) : s.low = n.toNat ↔ s.word &&& 0x7f = n := by
  rw [low_eq, UInt32.toNat_inj]

/-- A process that has a code exited by itself, and any other one was ended by a signal or has not
ended. -/
theorem code?_eq_none_iff :
    s.code? = none ↔ (∃ signal, s.signal? = some signal) ∨ s.low = 127 := by
  unfold code? signal?
  by_cases hzero : s.low = 0
  · simp [hzero]
  · by_cases hlast : s.low = 127
    · simp [hlast]
    · simp [hzero, hlast]

theorem isSuccess_iff : s.isSuccess = true ↔ s = exited 0 := by
  obtain ⟨word⟩ := s
  simp [isSuccess, exited]

/-- The exit code that stands for the end of a process: its own code, 128 more than the signal
that ended it, or 1. -/
def passedOn : Nat :=
  if s.word &&& 0x7f = 0 then (s.word >>> 8 &&& 0xff).toNat
  else if s.word &&& 0x7f = 0x7f then 1
  else 128 + (s.word &&& 0x7f).toNat

theorem passedOn_le : s.passedOn ≤ 255 := by
  have hlow : s.low < 128 := Nat.mod_lt _ (by decide)
  have hcode : s.word.toNat / 256 % 256 < 256 := Nat.mod_lt _ (by decide)
  unfold passedOn
  rw [toNat_second_byte, ← low_eq]
  split
  · omega
  · split
    · omega
    · omega

/-- Zero is passed on only for a process that exited by itself with code zero. -/
theorem passedOn_eq_zero_iff :
    s.passedOn = 0 ↔ s.word &&& 0x7f = 0 ∧ s.word >>> 8 &&& 0xff = 0 := by
  unfold passedOn
  split
  · rename_i hlow
    rw [and_iff_right hlow, ← UInt32.toNat_inj]
    rfl
  · rename_i hlow
    split
    · simp [hlow]
    · simp [hlow]

end WaitStatus

theorem GuestExit.exitCode_ofStatus (s : WaitStatus) :
    (GuestExit.ofStatus s).exitCode = s.passedOn := by
  have hzero : s.low = 0 ↔ s.word &&& 0x7f = 0 := s.low_eq_iff 0
  have hlast : s.low = 127 ↔ s.word &&& 0x7f = 0x7f := s.low_eq_iff 0x7f
  unfold GuestExit.ofStatus WaitStatus.passedOn WaitStatus.signal? WaitStatus.code?
  rw [s.toNat_second_byte, ← s.low_eq]
  by_cases h : s.low = 0
  · have hword := hzero.1 h
    simp [h, hword, exitCode]
  · have hword : ¬s.word &&& 0x7f = 0 := fun hword => h (hzero.2 hword)
    by_cases h' : s.low = 127
    · have hword' := hlast.1 h'
      simp [h', hword', exitCode]
    · have hword' : ¬s.word &&& 0x7f = 0x7f := fun hword' => h' (hlast.2 hword')
      simp [h, h', hword, hword', exitCode]

end RiscvBoot
