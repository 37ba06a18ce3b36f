/-!
# How a process ended

A process that is waited for gives one 32-bit word. The low seven bits are zero when it exited
by itself, and bits 8 to 15 then hold its code; otherwise they hold the signal that ended it,
but for the value 127, which stands for a process that has not ended.
-/

set_option autoImplicit false

namespace RiscvBoot

/-- The word that waiting for a process gives. -/
structure WaitStatus where
  word : UInt32
  deriving DecidableEq, Repr

namespace WaitStatus

def low (s : WaitStatus) : Nat := s.word.toNat % 128

/-- The code of a process that exited by itself. -/
def code? (s : WaitStatus) : Option Nat :=
  if s.low = 0 then some (s.word.toNat / 256 % 256) else none

/-- The signal that ended a process. -/
def signal? (s : WaitStatus) : Option Nat :=
  if s.low = 0 ∨ s.low = 127 then none else some s.low

def isSuccess (s : WaitStatus) : Bool := s.word = 0

/-- The word of a process that exited with a code; a code is one byte. -/
def exited (code : Nat) : WaitStatus := ⟨UInt32.ofNat (code % 256 * 256)⟩

/-- The word of a process that a signal ended. -/
def killed (signal : Nat) : WaitStatus := ⟨UInt32.ofNat (signal % 128)⟩

def success : WaitStatus := exited 0

theorem toNat_word_exited (code : Nat) : (exited code).word.toNat = code % 256 * 256 := by
  have h : code % 256 < 256 := Nat.mod_lt _ (by decide)
  simp only [exited, UInt32.toNat_ofNat']
  omega

theorem toNat_word_killed (signal : Nat) : (killed signal).word.toNat = signal % 128 := by
  have h : signal % 128 < 128 := Nat.mod_lt _ (by decide)
  simp only [killed, UInt32.toNat_ofNat']
  omega

theorem code?_exited (code : Nat) : (exited code).code? = some (code % 256) := by
  simp only [code?, low, toNat_word_exited]
  rw [if_pos (by omega)]
  congr 1
  omega

theorem signal?_exited (code : Nat) : (exited code).signal? = none := by
  simp only [signal?, low, toNat_word_exited]
  exact if_pos (Or.inl (by omega))

theorem signal?_killed {signal : Nat} (h : 0 < signal) (h' : signal < 127) :
    (killed signal).signal? = some signal := by
  simp only [signal?, low, toNat_word_killed]
  rw [if_neg (by omega)]
  congr 1
  omega

theorem isSuccess_exited (code : Nat) : (exited code).isSuccess = decide (code % 256 = 0) := by
  simp only [isSuccess, decide_eq_decide, ← UInt32.toNat_inj, toNat_word_exited,
    UInt32.toNat_zero]
  omega

instance : Inhabited WaitStatus := ⟨success⟩

end WaitStatus

/-- What is said about the end of a program that failed. -/
def describeEnd : Option Int → String
  | some code => s!"exit code {code}"
  | none => "terminated by signal"

end RiscvBoot
