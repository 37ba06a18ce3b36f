import RiscvBoot.Proofs.Boot.Order
import RiscvBoot.Proofs.Project.HartsSetting
import RiscvBoot.Proofs.Toml.Written

/-!
# How far a hart count reaches

A hart count is given by flags, by the environment or by the manifest, and it may be any text. Two
invocations that differ in nothing else come to setups that differ in the hart count only, and of
all that is run it is one argument of the emulator (`Setup.harts_reach_one_argument`). Under the
lenient policy no hart count keeps a setup from being resolved.
-/

set_option autoImplicit false

namespace RiscvBoot

open CommandLine

variable {v v' : FileView} {cwd : Path} {p p' : Project} {s s' : Setup} {r : Request}
  {given : Option String}

/-! ## Setups with another hart count -/

/-- The same request for another hart count. -/
def Request.withHarts (r : Request) (harts : Option String) : Request :=
  { r with choice := { r.choice with harts } }

namespace Setup

def withHarts (s : Setup) (harts : Harts) : Setup :=
  { s with target := { s.target with harts } }

@[simp] theorem emulator_withHarts (s : Setup) (harts : Harts) :
    (s.withHarts harts).target.emulator = s.target.emulator := rfl

@[simp] theorem buildTarget_withHarts (s : Setup) (harts : Harts) :
    (s.withHarts harts).target.buildTarget = s.target.buildTarget := rfl

@[simp] theorem builder_withHarts (s : Setup) (harts : Harts) :
    (s.withHarts harts).builder = s.builder := rfl

/-- The arguments of the emulator after the hart count. -/
def argsAfterHarts (s : Setup) (extraArgs : List String) : List String :=
  (s.emulatorArgs extraArgs).drop 4

theorem args_withHarts (s : Setup) (harts : Harts) (extraArgs : List String) :
    ((s.withHarts harts).plan extraArgs).command.args =
      "-machine" :: "virt" :: "-smp" :: harts.text :: s.argsAfterHarts extraArgs := by
  rw [args_plan]
  simp only [argsAfterHarts, emulatorArgs, List.cons_append, List.append_assoc, List.nil_append,
    List.drop_succ_cons, List.drop_zero]
  rfl

end Setup

/-! ## Trees that are alike but for a hart count -/

/-- Two trees in which a directory has the same project, but for the hart count in its manifest. -/
inductive Project.AlikeButHarts (v : FileView) (cwd : Path) : FileView → Prop where
  | same : AlikeButHarts v cwd v
  | setting {v' : FileView} {p p' : Project} (alike : AlikeButDefaults v v' cwd p p')
      (arch : p'.manifest.defaults.arch = p.manifest.defaults.arch) : AlikeButHarts v cwd v'

theorem Project.AlikeButHarts.cases (h : AlikeButHarts v cwd v') :
    (∃ e, Project.find v cwd = .error e ∧ Project.find v' cwd = .error e) ∨
      ∃ p p', AlikeButDefaults v v' cwd p p' ∧
        p'.manifest.defaults.arch = p.manifest.defaults.arch := by
  cases h with
  | same =>
    cases hfind : Project.find v cwd with
    | error e => exact .inl ⟨e, rfl, rfl⟩
    | ok p =>
      have hdefaults : ∃ arch harts,
          p = { p with manifest := p.manifest.withDefaults arch harts } :=
        ⟨p.manifest.defaults.arch, p.manifest.defaults.harts, rfl⟩
      exact .inr ⟨p, p, ⟨hfind, hfind, hdefaults, rfl⟩, rfl⟩
  | setting alike arch => exact .inr ⟨_, _, alike, arch⟩

namespace Setup

variable {target target' : Target} {binary : String}

theorem arch_choiceFor_withHarts (harch : p'.manifest.defaults.arch = p.manifest.defaults.arch)
    (r : Request) (given : Option String) :
    (p'.manifest.choiceFor (r.withHarts given).choice).arch =
      (p.manifest.choiceFor r.choice).arch := by
  change r.choice.arch.or p'.manifest.defaults.arch = r.choice.arch.or p.manifest.defaults.arch
  rw [harch]

theorem assemble_withHarts (hp : Project.AlikeButDefaults v v' cwd p p')
    (harch : target'.arch = target.arch) :
    assemble cwd p' (r.withHarts given) target' binary =
      (assemble cwd p r target binary).withHarts target'.harts := by
  obtain ⟨-, -, ⟨arch, harts, rfl⟩, -⟩ := hp
  obtain ⟨isa, harts'⟩ := target'
  dsimp only at harch
  subst harch
  rfl

/-- Whatever the policy is, two setups have everything but the hart count in common. -/
theorem eq_withHarts (hp : Project.AlikeButDefaults v v' cwd p p')
    (harch : p'.manifest.defaults.arch = p.manifest.defaults.arch)
    (hs : resolve v cwd r = .ok s) (hs' : resolve v' cwd (r.withHarts given) = .ok s') :
    s' = s.withHarts s'.target.harts := by
  obtain ⟨q, target, binary, hq, htarget, hbinary, rfl⟩ := resolve_eq_ok_iff.1 hs
  obtain ⟨q', target', binary', hq', htarget', hbinary', rfl⟩ := resolve_eq_ok_iff.1 hs'
  obtain rfl := Except.ok.inj (hq.symm.trans hp.left)
  obtain rfl := Except.ok.inj (hq'.symm.trans hp.right)
  rw [hp.binaryName_eq, hbinary] at hbinary'
  obtain rfl := Except.ok.inj hbinary'
  -- The policy decides whether there is a target, but not which one it is.
  obtain rfl := Choice.eq_lenientTarget htarget
  obtain rfl := Choice.eq_lenientTarget htarget'
  exact assemble_withHarts hp (congrArg Isa.lenient (arch_choiceFor_withHarts harch r given))

/-- Under the lenient policy the hart count has no part in whether there is a setup. -/
theorem resolve_withHarts_of_lenient (hp : Project.AlikeButDefaults v v' cwd p p')
    (harch : p'.manifest.defaults.arch = p.manifest.defaults.arch)
    (hlenient : p.manifest.policyFor r.strict = .lenient) :
    resolve v' cwd (r.withHarts given) = (resolve v cwd r).map
      (·.withHarts (p'.manifest.choiceFor (r.withHarts given).choice).hartCount) := by
  have hlenient' : p'.manifest.policyFor (r.withHarts given).strict = .lenient := by
    obtain ⟨-, -, ⟨arch, harts, rfl⟩, -⟩ := hp
    exact hlenient
  have haccepted (c : Choice) : c.resolve .lenient = .ok c.lenientTarget := rfl
  rw [resolve_of_accepted hp.left (hlenient ▸ haccepted _),
    resolve_of_accepted hp.right (hlenient' ▸ haccepted _), hp.binaryName_eq]
  cases p.manifest.binaryName v (p.manifest.kernelDir p.dir) with
  | error e => rfl
  | ok binary =>
    have hisa := congrArg Isa.lenient (arch_choiceFor_withHarts harch r given)
    exact congrArg Except.ok (assemble_withHarts hp hisa)

end Setup

/-! ## Command lines that are alike but for a hart count -/

namespace CommandLine

variable {command : CommandName} {before before' after after' : List Flag}
  {args args' : List String} {env env' : Environment}

namespace Flag

variable {flags : List Flag}

def isHarts : Flag → Bool
  | .value .harts _ => true
  | _ => false

/-- The flags that do not give a hart count. -/
def others (flags : List Flag) : List Flag := flags.filter (!isHarts ·)

theorem strict_mem_others (flags : List Flag) : .strict ∈ others flags ↔ .strict ∈ flags := by
  unfold others
  rw [List.mem_filter]
  exact and_iff_left rfl

theorem text?_others (flags : List Flag) : text? (others flags) .arch = text? flags .arch := by
  induction flags with
  | nil => rfl
  | cons flag flags ih =>
    unfold others text? at ih ⊢
    cases hharts : flag.isHarts with
    | true =>
      have hnone : flag.textFor .arch = none := by
        cases flag with
        | strict => rfl
        | value o text =>
          cases o with
          | harts => rfl
          | arch => cases hharts
          | format => cases hharts
      rw [List.filter_cons_of_neg (by simp [hharts]), List.findSome?_cons, hnone, ih]
    | false =>
      rw [List.filter_cons_of_pos (by simp [hharts]), List.findSome?_cons, List.findSome?_cons, ih]

end Flag

/-- Two invocations that give the same but for the hart count. -/
structure AlikeButHarts (before before' after after' : List Flag) (env env' : Environment) :
    Prop where
  before : Flag.others before' = Flag.others before
  after : Flag.others after' = Flag.others after
  env : env' = { env with harts := env'.harts }

theorem AlikeButHarts.arch_eq (h : AlikeButHarts before before' after after' env env')
    (m : Manifest) : (Choice.firstGiven (layers before' after' env' m)).arch =
      (Choice.firstGiven (layers before after env m)).arch := by
  have hbefore : Flag.text? before' .arch = Flag.text? before .arch := by
    rw [← Flag.text?_others before', h.before, Flag.text?_others]
  have hafter : Flag.text? after' .arch = Flag.text? after .arch := by
    rw [← Flag.text?_others after', h.after, Flag.text?_others]
  have henv : env'.arch = env.arch := by
    rw [h.env]
  unfold layers Choice.firstGiven Flag.choice Environment.choice
  simp only [List.findSome?_cons, hbefore, hafter, henv]

theorem AlikeButHarts.strict_iff (h : AlikeButHarts before before' after after' env env') :
    .strict ∈ before' ∨ .strict ∈ after' ↔ .strict ∈ before ∨ .strict ∈ after := by
  rw [← Flag.strict_mem_others before', h.before, Flag.strict_mem_others,
    ← Flag.strict_mem_others after', h.after, Flag.strict_mem_others]

/-- The two lines are read, and they ask for the same but for the hart count. -/
theorem AlikeButHarts.read (h : AlikeButHarts before before' after after' env env')
    (hspelled : Spelled command before after args)
    (hspelled' : Spelled command before' after' args') :
    ∃ a a', read env args = .ok a ∧ read env' args' = .ok a' ∧
      a'.request env' = (a.request env).withHarts a'.choice.harts ∧
      (∀ m : Manifest, m.choiceFor a.choice = Choice.firstGiven (layers before after env m)) ∧
      ∀ m : Manifest, m.choiceFor a'.choice = Choice.firstGiven (layers before' after' env' m) := by
  obtain ⟨a, hread, -, hchoice, hstrict⟩ := read_of_spelled env hspelled
  obtain ⟨a', hread', -, hchoice', hstrict'⟩ := read_of_spelled env' hspelled'
  refine ⟨a, a', hread, hread', ?_, hchoice, hchoice'⟩
  -- Without a manifest, the family of a choice is the one that was given.
  have hnone (c : Choice) : (({} : Manifest).choiceFor c).arch = c.arch := Option.or_none
  have harch : a'.choice.arch = a.choice.arch := by
    rw [← hnone a'.choice, ← hnone a.choice, hchoice', hchoice]
    exact h.arch_eq {}
  have hsame : a'.strict = a.strict := by
    rw [Bool.eq_iff_iff, hstrict', hstrict]
    exact h.strict_iff
  have hdir : env'.targetDir = env.targetDir := by
    rw [h.env]
  change Request.mk a'.choice a'.strict (env'.targetDir.map Path.mk) =
    ⟨⟨a.choice.arch, a'.choice.harts⟩, a.strict, env.targetDir.map Path.mk⟩
  rw [hsame, hdir, ← harch]

end CommandLine

/-! ## One argument of the emulator -/

namespace Setup

theorem text_of_resolve {layers : Manifest → List Choice} (hp : Project.find v cwd = .ok p)
    (hchoice : ∀ m : Manifest, m.choiceFor r.choice = Choice.firstGiven (layers m))
    (hs : resolve v cwd r = .ok s) :
    s.target.harts.text = ((layers p.manifest).findSome? Choice.harts).getD "4" := by
  obtain ⟨q, target, binary, hq, htarget, -, rfl⟩ := resolve_eq_ok_iff.1 hs
  obtain rfl := Except.ok.inj (hq.symm.trans hp)
  obtain rfl := Choice.eq_lenientTarget htarget
  change (q.manifest.choiceFor r.choice).hartCount.text = _
  rw [hchoice]
  exact Choice.text_hartCount _

/-- Two invocations that differ in nothing but the texts for the hart count, wherever they are
given, come to setups that differ in the hart count only. The processes to be ended and the build
are the same, and the emulator has the text as it was given for its fourth argument and the same
arguments around it. Under the lenient policy the texts have no part in whether there is a
setup. -/
theorem harts_reach_one_argument (hviews : Project.AlikeButHarts v cwd v')
    {command : CommandName} {before before' after after' : List Flag} {args args' : List String}
    {env env' : CommandLine.Environment}
    (hlines : CommandLine.AlikeButHarts before before' after after' env env')
    (hspelled : Spelled command before after args)
    (hspelled' : Spelled command before' after' args') :
    ∃ a a', CommandLine.read env args = .ok a ∧ CommandLine.read env' args' = .ok a' ∧
      (∀ s s', resolve v cwd (a.request env) = .ok s → resolve v' cwd (a'.request env') = .ok s' →
        s' = s.withHarts s'.target.harts ∧
        Sweeper.patternFor s'.target.emulator = Sweeper.patternFor s.target.emulator ∧
        s'.builder.dir = s.builder.dir ∧
        s'.builder.args s'.target.buildTarget = s.builder.args s.target.buildTarget ∧
        (∃ p p', Project.find v cwd = .ok p ∧ Project.find v' cwd = .ok p' ∧
          s.target.harts.text =
            ((layers before after env p.manifest).findSome? Choice.harts).getD "4" ∧
          s'.target.harts.text =
            ((layers before' after' env' p'.manifest).findSome? Choice.harts).getD "4") ∧
        ∀ extraArgs, ∃ rest,
          (s.plan extraArgs).command.args =
            "-machine" :: "virt" :: "-smp" :: s.target.harts.text :: rest ∧
          (s'.plan extraArgs).command.args =
            "-machine" :: "virt" :: "-smp" :: s'.target.harts.text :: rest) ∧
      ((∀ p, Project.find v cwd = .ok p → p.manifest.policyFor a.strict = .lenient) →
        ∃ harts, resolve v' cwd (a'.request env') =
          (resolve v cwd (a.request env)).map (·.withHarts harts)) := by
  obtain ⟨a, a', hread, hread', hrequest, hchoice, hchoice'⟩ := hlines.read hspelled hspelled'
  refine ⟨a, a', hread, hread', ?_, ?_⟩
  · intro s s' hs hs'
    rcases hviews.cases with ⟨e, herror, -⟩ | ⟨p, p', hp, harch⟩
    · rw [resolve_of_find_error herror] at hs
      cases hs
    have htext := text_of_resolve hp.left hchoice hs
    have htext' := text_of_resolve hp.right hchoice' hs'
    rw [hrequest] at hs'
    have heq := eq_withHarts hp harch hs hs'
    refine ⟨heq, ?_, ?_, ?_, ⟨p, p', hp.left, hp.right, htext, htext'⟩, ?_⟩
    · rw [heq, emulator_withHarts]
    · rw [heq, builder_withHarts]
    · rw [heq, builder_withHarts, buildTarget_withHarts]
    · intro extraArgs
      refine ⟨s.argsAfterHarts extraArgs, s.args_withHarts s.target.harts extraArgs, ?_⟩
      have hargs := s.args_withHarts s'.target.harts extraArgs
      rwa [← heq] at hargs
  · intro hlenient
    rw [hrequest]
    rcases hviews.cases with ⟨e, herror, herror'⟩ | ⟨p, p', hp, harch⟩
    · rw [resolve_of_find_error herror, resolve_of_find_error herror']
      exact ⟨.fallback, rfl⟩
    · exact ⟨_, resolve_withHarts_of_lenient hp harch (hlenient p hp.left)⟩

end Setup

/-! ## Any text in a manifest -/

namespace Manifest

variable {m : Manifest} {g : Toml.Gap "defaults"} {dir : Path} {place : Location}

/-- The line that gives a text for the hart count. -/
def hartsLine (text : String) : String := Toml.pairLine "harts" (String.ofList (Toml.quoted text))

/-- A manifest that may say that there is one hart may give any text for the count. -/
theorem ofText?_hartsLine (hm : ofText? (g.text (Toml.pairLine "harts" "1")) = some m)
    (text : String) : ofText? (g.text (hartsLine text)) = some (m.withHarts (.text text)) := by
  have hone : Toml.IsLine (Toml.pairLine "harts" "1") (.pair ⟨⟨[], "harts"⟩, .integer 1⟩) :=
    isLine_number (n := 1) (by decide)
  have hline : Toml.IsLine (hartsLine text) (.pair ⟨⟨[], "harts"⟩, .text text⟩) :=
    Toml.isLine_pair (by cbv) (Toml.spells_styled text)
  have hlength : 1 ≤ (String.ofList (Toml.quoted text)).length := by
    obtain ⟨c, cs, hcs, -⟩ := Toml.exists_quoted_cons text
    rw [← String.length_toList, String.toList_ofList, hcs, List.length_cons]
    omega
  rw [ofText?_of_replaced g hone hline (Toml.length_pairLine_le _ hlength) hm]
  rfl

theorem IsAt.alikeButHarts (h : IsAt v cwd dir place)
    (hm : ofText? (g.text (Toml.pairLine "harts" "1")) = some m) (text text' : String) :
    Project.AlikeButHarts (v.withText place (g.text (hartsLine text))) cwd
      (v.withText place (g.text (hartsLine text'))) :=
  .setting (h.alikeButDefaults (ofText?_hartsLine hm text) (ofText?_hartsLine hm text')) rfl

end Manifest

namespace Setup

/-- No text for the count in the manifest, and one with a blank on the command line. -/
theorem harts_reach_one_argument_sample :
    let left := (manifestView "").withText ["w", "hartctl.toml"]
      (Manifest.sampleGap.text (Manifest.hartsLine ""))
    let right := (manifestView "").withText ["w", "hartctl.toml"]
      (Manifest.sampleGap.text (Manifest.hartsLine "\"\n"))
    let env' : CommandLine.Environment := { harts := some "-1" }
    ∃ a a' s s' rest, CommandLine.read {} ["run"] = .ok a ∧
      CommandLine.read env' ["run", "--harts=-S 4"] = .ok a' ∧
      resolve left ⟨"/w"⟩ (a.request {}) = .ok s ∧
      resolve right ⟨"/w"⟩ (a'.request env') = .ok s' ∧
      (s.plan ["-S"]).command.args = "-machine" :: "virt" :: "-smp" :: "" :: rest ∧
      (s'.plan ["-S"]).command.args = "-machine" :: "virt" :: "-smp" :: "-S 4" :: rest := by
  intro left right env'
  have hplace := Manifest.isAt_manifestView ""
  have hm := Manifest.ofText?_sampleGap
  have hviews : Project.AlikeButHarts left ⟨"/w"⟩ right := hplace.alikeButHarts hm "" "\"\n"
  have hlines : CommandLine.AlikeButHarts [] [] [] [.value .harts "-S 4"] {} env' := ⟨rfl, rfl, rfl⟩
  have hspelled : Spelled .run [] [] ["run"] := .intro .nothing .nothing .nothing
  have hspelled' : Spelled .run [] [.value .harts "-S 4"] ["run", "--harts=-S 4"] :=
    .intro .nothing (.attached "-S 4" .nothing (by decide) rfl) .nothing
  obtain ⟨a, a', hread, hread', hboth, hlenient⟩ :=
    harts_reach_one_argument hviews hlines hspelled hspelled'
  have ha : a = merge {} {} .run {} := by
    have hplain : CommandLine.read {} ["run"] = .ok (merge {} {} .run {}) := by cbv
    exact Except.ok.inj (hread.symm.trans hplain)
  have hproject := hplace.project (Manifest.ofText?_hartsLine hm "")
  obtain ⟨s, hresolve⟩ : ∃ s, resolve left ⟨"/w"⟩ (a.request {}) = .ok s := by
    rw [ha]
    exact ⟨_, (resolve_of_accepted hproject rfl).trans rfl⟩
  obtain ⟨harts, hresolve'⟩ := hlenient fun p hp => by
    obtain rfl := Except.ok.inj (hproject.symm.trans hp)
    rw [ha]
    rfl
  rw [hresolve] at hresolve'
  obtain ⟨-, -, -, -, ⟨p, p', hp, hp', htext, htext'⟩, hargs⟩ := hboth _ _ hresolve hresolve'
  obtain ⟨rest, hleft, hright⟩ := hargs ["-S"]
  obtain rfl := Except.ok.inj (hproject.symm.trans hp)
  rw [htext] at hleft
  rw [htext'] at hright
  exact ⟨a, a', s, s.withHarts harts, rest, hread, hread', hresolve, hresolve', hleft, hright⟩

end Setup

end RiscvBoot
