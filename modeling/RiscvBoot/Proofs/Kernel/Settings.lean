import Mathlib.Data.List.Induction
import RiscvBoot.Kernel.Build

/-!
# Settings of the build

A setting has one of five kinds, and each kind has a field of its own. So a list of settings comes
to the last one of each kind (`BuildCommand.setAll_eq`), whatever stands before it and however the
kinds are mixed, and the arguments of the build are read off these five.
-/

set_option autoImplicit false

namespace RiscvBoot.BuildCommand

/-! ## Kinds -/

namespace Setting

inductive Kind where
  | program
  | targetDir
  | package
  | binary
  | extraArgs
  deriving DecidableEq, Repr

def kind : Setting → Kind
  | .program _ => .program
  | .targetDir _ => .targetDir
  | .package _ => .package
  | .binary _ => .binary
  | .extraArgs _ => .extraArgs

/-! What a setting gives to the field of its kind. A package or an executable may be unset by it. -/

def program? : Setting → Option String
  | .program name => some name
  | _ => none

def targetDir? : Setting → Option Path
  | .targetDir dir => some dir
  | _ => none

def package? : Setting → Option String
  | .package name => name
  | _ => none

def binary? : Setting → Option String
  | .binary name => name
  | _ => none

def moreArgs : Setting → List String
  | .extraArgs args => args
  | _ => []

end Setting

/-! ## The last setting of a kind -/

def lastOf (k : Setting.Kind) (settings : List Setting) : Option Setting :=
  (settings.filter (·.kind = k)).getLast?

variable {s t : Setting} {xs ys zs : List Setting} {k : Setting.Kind}

theorem lastOf_append (k : Setting.Kind) (xs ys : List Setting) :
    lastOf k (xs ++ ys) = (lastOf k ys).or (lastOf k xs) := by
  unfold lastOf
  rw [List.filter_append, List.getLast?_append]

theorem lastOf_singleton (k : Setting.Kind) (s : Setting) :
    lastOf k [s] = if s.kind = k then some s else none := by
  unfold lastOf
  split
  · rename_i hs
    rw [List.filter_cons_of_pos (by simpa using hs)]
    rfl
  · rename_i hs
    rw [List.filter_cons_of_neg (by simpa using hs)]
    rfl

theorem lastOf_filter_kind_ne {other : Setting.Kind} (h : k ≠ other) (xs : List Setting) :
    lastOf k (xs.filter (·.kind ≠ other)) = lastOf k xs := by
  unfold lastOf
  rw [List.filter_filter]
  congr 1
  apply List.filter_congr
  intro s _
  have hkinds : s.kind = k → s.kind ≠ other := fun hs => hs ▸ h
  simpa using hkinds

/-- A build command has what the last setting of each kind gives, and is as new where there is no
such setting. -/
theorem setAll_eq (dir : Path) (settings : List Setting) : setAll { dir } settings = {
    dir
    program := ((lastOf .program settings).bind Setting.program?).getD "cargo"
    targetDir := (lastOf .targetDir settings).bind Setting.targetDir?
    package := (lastOf .package settings).bind Setting.package?
    binary := (lastOf .binary settings).bind Setting.binary?
    extraArgs := ((lastOf .extraArgs settings).map Setting.moreArgs).getD [] } := by
  induction settings using List.reverseRecOn with
  | nil => rfl
  | append_singleton settings s ih =>
    unfold setAll at ih ⊢
    rw [List.foldl_append, ih]
    simp only [lastOf_append, lastOf_singleton]
    cases s <;> rfl

theorem setAll_congr (dir : Path) (h : ∀ k, lastOf k xs = lastOf k ys) :
    setAll { dir } xs = setAll { dir } ys := by
  rw [setAll_eq, setAll_eq]
  simp only [h]

/-- The last setting of its kind may as well come first, and then those before it go unseen. -/
theorem setAll_move (dir : Path) (s : Setting) (xs zs : List Setting) :
    setAll { dir } (xs ++ [s] ++ zs) =
      setAll { dir } ([s] ++ xs.filter (·.kind ≠ s.kind) ++ zs) := by
  apply setAll_congr
  intro k
  rw [lastOf_append, lastOf_append, lastOf_append k _ zs, lastOf_append k [s], lastOf_singleton]
  by_cases hs : s.kind = k
  · have hnone : lastOf k (xs.filter (·.kind ≠ s.kind)) = none := by
      unfold lastOf
      rw [hs, List.filter_filter]
      simp
    rw [if_pos hs, hnone]
    rfl
  · rw [if_neg hs, lastOf_filter_kind_ne (Ne.symm hs), Option.none_or, Option.or_none]

theorem setAll_swap (dir : Path) (h : s.kind ≠ t.kind) (xs zs : List Setting) :
    setAll { dir } (xs ++ [s, t] ++ zs) = setAll { dir } (xs ++ [t, s] ++ zs) := by
  apply setAll_congr
  intro k
  have hpair : lastOf k [s, t] = lastOf k [t, s] := by
    change lastOf k ([s] ++ [t]) = lastOf k ([t] ++ [s])
    rw [lastOf_append, lastOf_append, lastOf_singleton, lastOf_singleton]
    by_cases hs : s.kind = k
    · rw [if_neg fun ht => h (hs.trans ht.symm), Option.none_or, Option.or_none]
    · rw [if_neg hs, Option.none_or, Option.or_none]
  simp only [lastOf_append, hpair]

theorem setAll_dropEarlier (dir : Path) (h : s.kind = t.kind) (xs ys zs : List Setting) :
    setAll { dir } (xs ++ [s] ++ ys ++ [t] ++ zs) = setAll { dir } (xs ++ ys ++ [t] ++ zs) := by
  apply setAll_congr
  intro k
  simp only [lastOf_append, lastOf_singleton, h]
  by_cases ht : t.kind = k
  · rw [if_pos ht, Option.some_or, Option.some_or]
  · simp only [if_neg ht, Option.none_or]

/-- A setting to what is there at first undoes the settings of its kind before it. -/
theorem setAll_undo (dir : Path) (h : ({ dir } : BuildCommand).set s = { dir })
    (xs zs : List Setting) :
    setAll { dir } (xs ++ [s] ++ zs) = setAll { dir } (xs.filter (·.kind ≠ s.kind) ++ zs) := by
  rw [setAll_move]
  unfold setAll
  rw [List.append_assoc, List.singleton_append, List.foldl_cons, h]

/-- The arguments of the build after any settings, in any order and however often: each option
stands in its place exactly if the last setting of its kind gives a value, and the last list of more
arguments follows. Settings of different kinds may change places, one that another of its kind
follows may be left out, and one that gives no package or executable undoes those before it. -/
theorem last_setting_counts :
    (∀ dir settings, (setAll { dir } settings).dir = dir ∧
      (setAll { dir } settings).program =
        ((lastOf .program settings).bind Setting.program?).getD "cargo" ∧
      ∀ buildTarget, (setAll { dir } settings).args buildTarget =
        ["build", "--target", buildTarget] ++
          Text.option "--target-dir"
            (((lastOf .targetDir settings).bind Setting.targetDir?).map Path.text) ++
          Text.option "--package" ((lastOf .package settings).bind Setting.package?) ++
          Text.option "--bin" ((lastOf .binary settings).bind Setting.binary?) ++
          ((lastOf .extraArgs settings).map Setting.moreArgs).getD []) ∧
    (∀ dir s t xs zs, s.kind ≠ t.kind →
      setAll { dir } (xs ++ [s, t] ++ zs) = setAll { dir } (xs ++ [t, s] ++ zs)) ∧
    (∀ dir xs ys, (∀ k, xs.filter (·.kind = k) = ys.filter (·.kind = k)) →
      setAll { dir } xs = setAll { dir } ys) ∧
    (∀ dir s t xs ys zs, s.kind = t.kind →
      setAll { dir } (xs ++ [s] ++ ys ++ [t] ++ zs) = setAll { dir } (xs ++ ys ++ [t] ++ zs)) ∧
    ∀ dir xs zs,
      setAll { dir } (xs ++ [.package none] ++ zs) =
        setAll { dir } (xs.filter (·.kind ≠ .package) ++ zs) ∧
      setAll { dir } (xs ++ [.binary none] ++ zs) =
        setAll { dir } (xs.filter (·.kind ≠ .binary) ++ zs) := by
  refine ⟨?_, ?_, ?_, ?_, ?_⟩
  · intro dir settings
    rw [setAll_eq]
    exact ⟨rfl, rfl, fun _ => rfl⟩
  · intro dir s t xs zs h
    exact setAll_swap dir h xs zs
  · intro dir xs ys h
    apply setAll_congr
    intro k
    exact congrArg List.getLast? (h k)
  · intro dir s t xs ys zs h
    exact setAll_dropEarlier dir h xs ys zs
  · intro dir xs zs
    exact ⟨setAll_undo dir rfl xs zs, setAll_undo dir rfl xs zs⟩

/-- A package that is set, passed by another setting, and unset again. -/
theorem last_setting_counts_sample :
    let first : List Setting := [.package (some "p"), .binary (some "b"), .package none]
    setAll { dir := ⟨"/w"⟩ } first =
        setAll { dir := ⟨"/w"⟩ } [.binary (some "b"), .package (some "p"), .package none] ∧
      setAll { dir := ⟨"/w"⟩ } first =
        setAll { dir := ⟨"/w"⟩ } [.package (some "p"), .package none, .binary (some "b")] ∧
      setAll { dir := ⟨"/w"⟩ } first =
        setAll { dir := ⟨"/w"⟩ } [.binary (some "b"), .package none] ∧
      (setAll { dir := ⟨"/w"⟩ } first).args "t" = ["build", "--target", "t", "--bin", "b"] := by
  intro first
  obtain ⟨hargs, hswap, hmix, hearlier, -⟩ := last_setting_counts
  refine ⟨?_, ?_, ?_, ?_⟩
  · exact hswap ⟨"/w"⟩ (.package (some "p")) (.binary (some "b")) [] [.package none] (by decide)
  · exact hmix ⟨"/w"⟩ _ _ fun k => by cases k <;> rfl
  · exact hearlier ⟨"/w"⟩ (.package (some "p")) (.package none) [] [.binary (some "b")] [] rfl
  · rw [(hargs ⟨"/w"⟩ first).2.2]
    decide

end RiscvBoot.BuildCommand
