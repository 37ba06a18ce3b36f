import RiscvBoot.Emulator.Command

/-!
# Reading the arguments of an emulator back

An argument list has everything of its command but the emulator. It is read from the left: the
place of a word says whether it is the name of an option or a value, so a value may be spelled like
any option, and the extra arguments begin where the kernel has been read. Reading is exact: it
takes the argument lists of commands and no other list (`EmulatorCommand.ofArgs?_eq_some_iff`).
-/

set_option autoImplicit false

namespace RiscvBoot

/-! ## Readers of one part -/

namespace Text

variable {flag word value : String} {args rest : List String}

/-- The value of the option that has to come next, and what follows it. -/
def readOption? (flag : String) : List String → Option (String × List String)
  | word :: value :: rest => if word = flag then some (value, rest) else none
  | _ => none

theorem readOption?_cons (flag value : String) (rest : List String) :
    readOption? flag (flag :: value :: rest) = some (value, rest) := if_pos rfl

theorem readOption?_of_ne (hword : word ≠ flag) (rest : List String) :
    readOption? flag (word :: rest) = none := by
  cases rest with
  | nil => rfl
  | cons value rest => exact if_neg hword

theorem readOption?_eq_some_iff :
    readOption? flag args = some (value, rest) ↔ args = flag :: value :: rest := by
  constructor
  · intro hread
    match args, hread with
    | word :: v :: more, hread =>
      by_cases hword : word = flag
      · rw [hword, readOption?_cons] at hread
        cases hread
        rw [hword]
      · rw [readOption?_of_ne hword] at hread
        cases hread
  · rintro rfl
    exact readOption?_cons flag value rest

/-- An option that may come next with its value, and what follows it. -/
def readOptional (flag : String) (args : List String) : Option String × List String :=
  match readOption? flag args with
  | some (value, rest) => (some value, rest)
  | none => (none, args)

theorem readOptional_option (found : Option String) (hrest : readOption? flag rest = none) :
    readOptional flag (option flag found ++ rest) = (found, rest) := by
  unfold readOptional
  cases found with
  | none => rw [option, List.nil_append, hrest]
  | some value =>
    rw [option, List.cons_append, List.cons_append, List.nil_append, readOption?_cons]

theorem option_readOptional (flag : String) (args : List String) :
    option flag (readOptional flag args).1 ++ (readOptional flag args).2 = args := by
  unfold readOptional
  split
  · rename_i value rest hvalue
    exact (readOption?_eq_some_iff.1 hvalue).symm
  · rfl

/-- Whether a word comes next, and what follows it. -/
def readSwitch (word : String) : List String → Bool × List String
  | next :: rest => if next = word then (true, rest) else (false, next :: rest)
  | [] => (false, [])

theorem readSwitch_of_present (word : String) (rest : List String) :
    readSwitch word (word :: rest) = (true, rest) := if_pos rfl

theorem readSwitch_of_absent {next : String} (hnext : next ≠ word) (rest : List String) :
    readSwitch word (next :: rest) = (false, next :: rest) := if_neg hnext

theorem append_readSwitch (word : String) (args : List String) :
    (if !(readSwitch word args).1 then [] else [word]) ++ (readSwitch word args).2 = args := by
  cases args with
  | nil => rfl
  | cons next rest =>
    by_cases hnext : next = word
    · rw [hnext, readSwitch_of_present]
      rfl
    · rw [readSwitch_of_absent hnext]
      rfl

end Text

/-! ## Reading a whole list -/

namespace EmulatorCommand

open Text

variable {emulator : String} {args : List String} {c : EmulatorCommand}

/-- The command of an emulator that has these arguments. -/
def ofArgs? (emulator : String) (args : List String) : Option EmulatorCommand := do
  let (machine, args) ← readOption? "-machine" args
  let (harts, args) ← readOption? "-smp" args
  let (dark, args) := readSwitch "-nographic" args
  let (serial, args) ← readOption? "-serial" args
  let (memory, args) := readOptional "-m" args
  let (bios, args) := readOptional "-bios" args
  let (kernel, extraArgs) ← readOption? "-kernel" args
  return ⟨emulator, machine, ⟨harts⟩, !dark, serial, memory, bios, ⟨kernel⟩, extraArgs⟩

theorem args_eq (c : EmulatorCommand) : c.args =
    "-machine" :: c.machine :: "-smp" :: c.harts.text ::
      ((if c.graphics then [] else ["-nographic"]) ++
        ("-serial" :: c.serial ::
          (option "-m" c.memory ++
            (option "-bios" c.bios ++ "-kernel" :: c.kernel.text :: c.extraArgs)))) := by
  unfold args
  simp only [List.append_assoc, List.cons_append, List.nil_append]

/-- What comes after the memory is not one more memory, whether firmware is given or not. -/
theorem readOption?_memory (bios : Option String) (rest : List String) :
    readOption? "-m" (option "-bios" bios ++ "-kernel" :: rest) = none := by
  cases bios with
  | none => exact readOption?_of_ne (by decide) _
  | some value => exact readOption?_of_ne (by decide) _

theorem readSwitch_nographic (graphics : Bool) (rest : List String) :
    readSwitch "-nographic" ((if graphics then [] else ["-nographic"]) ++ "-serial" :: rest) =
      (!graphics, "-serial" :: rest) := by
  cases graphics with
  | true => exact readSwitch_of_absent (by decide) rest
  | false => exact readSwitch_of_present "-nographic" _

theorem ofArgs?_args (emulator : String) (c : EmulatorCommand) :
    ofArgs? emulator c.args = some { c with emulator } := by
  have hbios : readOption? "-bios" ("-kernel" :: c.kernel.text :: c.extraArgs) = none :=
    readOption?_of_ne (by decide) _
  rw [args_eq]
  unfold ofArgs?
  simp only [readOption?_cons, readSwitch_nographic, Option.bind_eq_bind, Option.bind_some,
    readOptional_option _ (readOption?_memory _ _), readOptional_option _ hbios, Option.pure_def,
    Bool.not_not]

theorem args_of_ofArgs? (hread : ofArgs? emulator args = some c) :
    args = c.args ∧ c.emulator = emulator := by
  unfold ofArgs? at hread
  simp only [Option.bind_eq_bind, Option.bind_eq_some_iff, Option.pure_def] at hread
  obtain ⟨⟨machine, afterMachine⟩, hmachine, ⟨harts, afterHarts⟩, hharts, ⟨serial, afterSerial⟩,
    hserial, ⟨kernel, extraArgs⟩, hkernel, hcommand⟩ := hread
  obtain rfl := Option.some.inj hcommand
  refine ⟨?_, rfl⟩
  -- From the end to the start, each reader gives back what it has taken.
  rw [args_eq, ← readOption?_eq_some_iff.1 hkernel, option_readOptional, option_readOptional,
    ← readOption?_eq_some_iff.1 hserial, append_readSwitch, ← readOption?_eq_some_iff.1 hharts]
  exact readOption?_eq_some_iff.1 hmachine

theorem ofArgs?_eq_some_iff :
    ofArgs? emulator args = some c ↔ args = c.args ∧ c.emulator = emulator := by
  constructor
  · exact args_of_ofArgs?
  · rintro ⟨rfl, rfl⟩
    exact ofArgs?_args c.emulator c

/-- The arguments of a command are read back as that command, with any emulator, and nothing else is
read as a command. So two commands have the same arguments iff they agree in all but the
emulator. -/
theorem args_determine :
    (∀ (emulator : String) (c : EmulatorCommand),
      ofArgs? emulator c.args = some { c with emulator }) ∧
    (∀ (emulator : String) (args : List String) (c : EmulatorCommand),
      ofArgs? emulator args = some c ↔ args = c.args ∧ c.emulator = emulator) ∧
    ∀ c₁ c₂ : EmulatorCommand, c₁.args = c₂.args ↔
      c₁.machine = c₂.machine ∧ c₁.harts = c₂.harts ∧ c₁.graphics = c₂.graphics ∧
        c₁.serial = c₂.serial ∧ c₁.memory = c₂.memory ∧ c₁.bios = c₂.bios ∧
        c₁.kernel.text = c₂.kernel.text ∧ c₁.extraArgs = c₂.extraArgs := by
  refine ⟨ofArgs?_args, fun _ _ _ => ofArgs?_eq_some_iff, fun c₁ c₂ => ?_⟩
  constructor
  · intro hargs
    have hread : some { c₁ with emulator := "" } = some { c₂ with emulator := "" } := by
      rw [← ofArgs?_args "" c₁, hargs, ofArgs?_args]
    cases c₁
    cases c₂
    cases hread
    simp
  · intro hfields
    obtain ⟨hmachine, hharts, hgraphics, hserial, hmemory, hbios, hkernel, hextra⟩ := hfields
    rw [args_eq, args_eq, hmachine, hharts, hgraphics, hserial, hmemory, hbios, hkernel, hextra]

/-- A value may be spelled like an option, and the extra arguments like any part before them. -/
example :
    let odd : EmulatorCommand :=
      { emulator := "", machine := "-smp", harts := ⟨""⟩, graphics := true, serial := "-kernel",
        memory := some "-bios", bios := none, kernel := ⟨"-m"⟩, extraArgs := ["-kernel", "-m"] }
    ofArgs? "" odd.args = some odd := by decide

end EmulatorCommand

end RiscvBoot
