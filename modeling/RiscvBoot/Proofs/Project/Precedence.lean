import RiscvBoot.CommandLine.Program
import RiscvBoot.Proofs.Choice.Layers
import RiscvBoot.Proofs.Choice.Strictness
import RiscvBoot.Proofs.CommandLine.Flags
import RiscvBoot.Proofs.Project.Nearest

/-!
# What goes before what

A flag after the command goes before one in front of it, flags go before the environment, and the
environment goes before the manifest, for the family and the hart count each by itself. The empty
text is given like any other. What is not the first given text of its field is not looked at, under
either policy (`Setup.first_given_counts`).
-/

set_option autoImplicit false

namespace RiscvBoot

open CommandLine

/-! ## The layers of a command line -/

namespace CommandLine

variable {command : CommandName} {before after : List Flag} {args : List String}

def Environment.choice (env : Environment) : Choice := ⟨env.arch, env.harts⟩

/-- Where a text may be given, with the place that counts most on top. -/
def layers (before after : List Flag) (env : Environment) (m : Manifest) : List Choice :=
  [Flag.choice after, Flag.choice before, env.choice, m.defaultChoice]

theorem choiceFor_merge (m : Manifest) (env : Environment) (command : CommandName)
    {root inner : Given} (hbefore : root.Holds before) (hafter : inner.Holds after) :
    m.choiceFor (merge env root command inner).choice =
      Choice.firstGiven (layers before after env m) := by
  have hlayers : m.choiceFor (merge env root command inner).choice =
      Choice.ofLayers [⟨inner.arch, inner.harts⟩, ⟨root.arch, root.harts⟩, env.choice,
        m.defaultChoice] := rfl
  rw [hlayers, hbefore.choice_eq, hafter.choice_eq, Choice.ofLayers_eq, layers]

theorem read_of_spelled (env : Environment) (h : Spelled command before after args) :
    ∃ a, read env args = .ok a ∧ a.command = command ∧
      (∀ m : Manifest, m.choiceFor a.choice = Choice.firstGiven (layers before after env m)) ∧
      (a.strict = true ↔ .strict ∈ before ∨ .strict ∈ after) := by
  obtain ⟨root, inner, hread, hbefore, hafter⟩ := readRoot_of_spelled h
  refine ⟨merge env root command inner, ?_, rfl, ?_, ?_⟩
  · exact bind_eq_ok_iff.2 ⟨_, hread, rfl⟩
  · intro m
    exact choiceFor_merge m env command hbefore hafter
  · rw [← hbefore.strict, ← hafter.strict, or_comm]
    exact Bool.or_eq_true_iff

theorem spelled_of_read {env : Environment} {a : Arguments} (h : read env args = .ok a) :
    ∃ before after, Spelled a.command before after args := by
  obtain ⟨⟨root, command, inner⟩, hread, h⟩ := bind_eq_ok_iff.1 h
  cases h
  exact spelled_of_readRoot hread

end CommandLine

/-! ## Two sessions -/

variable {v v' : FileView} {cwd : Path} {p p' : Project}

theorem packageName?_congr {dir : Path}
    (h : v'.content? (dir.join packageFile) = v.content? (dir.join packageFile)) :
    packageName? v' dir = packageName? v dir := by
  unfold packageName?
  rw [FileView.isFile_eq_isSome_content?, FileView.isFile_eq_isSome_content?, h]
  cases hcontent : v.content? (dir.join packageFile) with
  | none => rw [if_neg (by decide), if_neg (by decide)]
  | some content =>
    rw [hcontent] at h
    rw [FileView.load_congr openTables hcontent h]

namespace Manifest

variable (m : Manifest) (arch : Option String) (harts : Option HartsSetting)

def withDefaults : Manifest := { m with defaults := { m.defaults with arch, harts } }

@[simp] theorem kernel_withDefaults : (m.withDefaults arch harts).kernel = m.kernel := rfl

@[simp] theorem emulator_withDefaults : (m.withDefaults arch harts).emulator = m.emulator := rfl

@[simp] theorem sweeper_withDefaults : (m.withDefaults arch harts).sweeper = m.sweeper := rfl

@[simp] theorem kernelDir_withDefaults : (m.withDefaults arch harts).kernelDir = m.kernelDir := rfl

@[simp] theorem targetDir_withDefaults : (m.withDefaults arch harts).targetDir = m.targetDir := rfl

@[simp] theorem settleTimeout_withDefaults :
    (m.withDefaults arch harts).settleTimeout = m.settleTimeout := rfl

@[simp] theorem policyFor_withDefaults : (m.withDefaults arch harts).policyFor = m.policyFor := rfl

end Manifest

/-- Two trees in which a directory has the same project, but for the texts in the manifest's
defaults. -/
structure Project.AlikeButDefaults (v v' : FileView) (cwd : Path) (p p' : Project) : Prop where
  left : Project.find v cwd = .ok p
  right : Project.find v' cwd = .ok p'
  manifest : ∃ arch harts, p' = { p with manifest := p.manifest.withDefaults arch harts }
  package : v'.content? ((p.manifest.kernelDir p.dir).join packageFile) =
    v.content? ((p.manifest.kernelDir p.dir).join packageFile)

theorem Project.AlikeButDefaults.binaryName_eq (hp : AlikeButDefaults v v' cwd p p') :
    p'.manifest.binaryName v' (p'.manifest.kernelDir p'.dir) =
      p.manifest.binaryName v (p.manifest.kernelDir p.dir) := by
  obtain ⟨-, -, ⟨arch, harts, rfl⟩, hpackage⟩ := hp
  unfold Manifest.binaryName
  rw [Manifest.kernelDir_withDefaults, Manifest.kernel_withDefaults, packageName?_congr hpackage]

namespace Setup

/-- The defaults have no effect on a setup but through the choice. -/
theorem resolve_congr (hp : Project.AlikeButDefaults v v' cwd p p') {r r' : Request}
    (hchoice : p'.manifest.choiceFor r'.choice = p.manifest.choiceFor r.choice)
    (hstrict : r'.strict = r.strict) (hdir : r'.targetDir = r.targetDir) :
    resolve v' cwd r' = resolve v cwd r ∧ doubts v' cwd r' = doubts v cwd r := by
  have hbinary := hp.binaryName_eq
  obtain ⟨hleft, hright, ⟨arch, harts, rfl⟩, -⟩ := hp
  dsimp only [Manifest.kernelDir_withDefaults] at hchoice hbinary
  constructor
  · unfold resolve
    rw [hleft, hright]
    simp [ofProject, Except.mapError, bind, Except.bind, hchoice, hstrict, hbinary, hdir]
  · unfold doubts
    rw [hleft, hright]
    dsimp only
    rw [hchoice, hstrict, Manifest.policyFor_withDefaults]

theorem policyFor_eq_strict_iff (m : Manifest) (strict : Bool) :
    m.policyFor strict = .strict ↔ strict = true ∨ m.defaults.strict = true := by
  unfold Manifest.policyFor
  cases strict <;> cases m.defaults.strict <;> decide

/-- A setup has the first given text for the hart count, and the family that the first given text
for it selects. -/
theorem target_of_resolve {r : Request} {s : Setup} {layers : Manifest → List Choice}
    (hchoice : ∀ m : Manifest, m.choiceFor r.choice = Choice.firstGiven (layers m))
    (hs : resolve v cwd r = .ok s) :
    ∃ found, Manifest.find v cwd = .ok found ∧
      let m := (found.map Prod.fst).getD {}
      s.target.harts.text = ((layers m).findSome? Choice.harts).getD "4" ∧
      s.target.arch = Isa.lenient (some (((layers m).findSome? Choice.arch).getD "rv64")) ∧
      s.policy = m.policyFor r.strict := by
  obtain ⟨p, target, binary, hp, htarget, hbinary, rfl⟩ := resolve_eq_ok_iff.1 hs
  obtain ⟨found, hfound, rfl⟩ := map_eq_ok_iff.1 hp
  have hmanifest : (Project.ofFound cwd found).manifest = (found.map Prod.fst).getD {} := by
    cases found with
    | none => rfl
    | some entry => rfl
  rw [hmanifest] at htarget
  -- The policy decides whether there is a target, but not which one it is.
  have hfirst := Choice.eq_lenientTarget htarget
  rw [hchoice] at hfirst
  refine ⟨found, hfound, ?_, ?_, ?_⟩
  · change target.harts.text = _
    rw [hfirst]
    exact Choice.text_hartCount _
  · change target.arch = _
    rw [hfirst, Isa.lenient_getD]
    rfl
  · change (Project.ofFound cwd found).manifest.policyFor r.strict = _
    rw [hmanifest]

/-- Every command line that is read spells flags before and after its command, and a setup resolved
from it has what the first layer that gives a field says. Texts in the layers below have no effect,
and stacks of layers may be put together in any way. -/
theorem first_given_counts :
    (∀ env args a, CommandLine.read env args = .ok a →
      ∃ before after, Spelled a.command before after args) ∧
    (∀ env command before after args, Spelled command before after args →
      ∃ a, CommandLine.read env args = .ok a ∧ a.command = command ∧
        ∀ v cwd s, resolve v cwd (a.request env) = .ok s →
          ∃ found, Manifest.find v cwd = .ok found ∧
            let m := (found.map Prod.fst).getD {}
            let layers := CommandLine.layers before after env m
            s.target.harts.text = (layers.findSome? Choice.harts).getD "4" ∧
            s.target.arch = Isa.lenient (some ((layers.findSome? Choice.arch).getD "rv64")) ∧
            (s.policy = .strict ↔
              .strict ∈ before ∨ .strict ∈ after ∨ m.defaults.strict = true)) ∧
    (∀ v v' cwd p p', Project.AlikeButDefaults v v' cwd p p' →
      ∀ env env' command command' before before' after after' args args' a a',
        Spelled command before after args → CommandLine.read env args = .ok a →
        Spelled command' before' after' args' → CommandLine.read env' args' = .ok a' →
        (.strict ∈ before' ∨ .strict ∈ after' ↔ .strict ∈ before ∨ .strict ∈ after) →
        env'.targetDir = env.targetDir →
        let layers := CommandLine.layers before after env p.manifest
        let layers' := CommandLine.layers before' after' env' p'.manifest
        Choice.SeenAlike Choice.arch layers layers' →
        Choice.SeenAlike Choice.harts layers layers' →
        resolve v' cwd (a'.request env') = resolve v cwd (a.request env) ∧
          doubts v' cwd (a'.request env') = doubts v cwd (a.request env)) ∧
    (∀ g : Choice.Grouping,
      g.merged = ⟨g.layers.findSome? Choice.arch, g.layers.findSome? Choice.harts⟩) ∧
    ∀ layers, Choice.ofLayers layers =
      ⟨layers.findSome? Choice.arch, layers.findSome? Choice.harts⟩ := by
  refine ⟨?_, ?_, ?_, ?_, ?_⟩
  · intro env args a hread
    exact spelled_of_read hread
  · intro env command before after args hspelled
    obtain ⟨a, hread, hcommand, hchoice, hstrict⟩ := read_of_spelled env hspelled
    refine ⟨a, hread, hcommand, ?_⟩
    intro v cwd s hs
    obtain ⟨found, hfound, hharts, harch, hpolicy⟩ :=
      target_of_resolve (r := a.request env) hchoice hs
    refine ⟨found, hfound, hharts, harch, ?_⟩
    rw [hpolicy, policyFor_eq_strict_iff, ← or_assoc, ← hstrict]
    rfl
  · intro v v' cwd p p' hp env env' command command' before before' after after' args args' a a'
      hspelled hread hspelled' hread' hflags hdir layers layers' harch hharts
    obtain ⟨b, hb, -, hchoice, hstrict⟩ := read_of_spelled env hspelled
    obtain ⟨b', hb', -, hchoice', hstrict'⟩ := read_of_spelled env' hspelled'
    obtain rfl : b = a := Except.ok.inj (hb.symm.trans hread)
    obtain rfl : b' = a' := Except.ok.inj (hb'.symm.trans hread')
    refine resolve_congr hp ?_ ?_ ?_
    · have hlayers := harch.firstGiven_eq hharts
      exact (hchoice' p'.manifest).trans (hlayers.trans (hchoice p.manifest).symm)
    · change b'.strict = b.strict
      rw [Bool.eq_iff_iff, hstrict', hstrict]
      exact hflags
    · exact congrArg (·.map Path.mk) hdir
  · intro g
    exact g.merged_eq
  · intro layers
    exact Choice.ofLayers_eq layers

/-! A directory whose manifest has two malformed texts under the strict policy, both of them
shadowed by flags. -/

def shadowedText : String :=
  "[kernel]\nbinary = \"k\"\n[defaults]\narch = \"x\"\nharts = 0\nstrict = true\n"

theorem ofText?_shadowedText :
    Manifest.ofText? shadowedText =
      some (strictManifest.withDefaults (some "x") (some (.number 0))) := by
  cbv

theorem content?_packageFile_manifestView (text : String) :
    (manifestView text).content? ⟨"/w/Cargo.toml"⟩ = none := by
  rw [FileView.content?_of_pieces ["", "w", "Cargo.toml"] (by cbv) (by decide) (by cbv) (by cbv)]
  rfl

theorem find_of_manifestView {text : String} {m : Manifest} (hm : Manifest.ofText? text = some m) :
    Project.find (manifestView text) ⟨"/w"⟩ = .ok ⟨m, some ⟨"/w/hartctl.toml"⟩, ⟨"/w"⟩⟩ := by
  unfold Project.find
  rw [Manifest.find_manifestView hm]
  rfl

theorem alike_shadowedText :
    Project.AlikeButDefaults (manifestView strictText) (manifestView shadowedText) ⟨"/w"⟩
      ⟨strictManifest, some ⟨"/w/hartctl.toml"⟩, ⟨"/w"⟩⟩
      ⟨strictManifest.withDefaults (some "x") (some (.number 0)), some ⟨"/w/hartctl.toml"⟩,
        ⟨"/w"⟩⟩ where
  left := find_of_manifestView ofText?_strictText
  right := find_of_manifestView ofText?_shadowedText
  manifest := ⟨some "x", some (.number 0), rfl⟩
  package := by
    have hjoin : (strictManifest.kernelDir ⟨"/w"⟩).join packageFile = ⟨"/w/Cargo.toml"⟩ := rfl
    dsimp only
    rw [hjoin, content?_packageFile_manifestView, content?_packageFile_manifestView]

theorem spelled_sample : Spelled .run [.value .arch "rv32"] [.value .harts "2"]
    ["--arch", "rv32", "run", "--harts=2", "--", "-S"] := by
  have hplain : ¬Hyphened "rv32" := by
    rintro ⟨c, cs, h⟩
    cases h
  have hbefore : Spells none [.value .arch "rv32"] ["--arch", "rv32"] :=
    .apart .nothing (by decide) rfl hplain
  have hafter : Spells (some .run) [.value .harts "2"] ["--harts=2"] :=
    .attached "2" .nothing (by decide) rfl
  exact .intro hbefore hafter (.trailing rfl (by simp))

theorem read_sample (env : CommandLine.Environment) :
    CommandLine.read env ["--arch", "rv32", "run", "--harts=2", "--", "-S"] =
      .ok (merge env { arch := some "rv32" } .run { harts := some "2", trailing := ["-S"] }) := by
  have hroot : readRoot {} ["--arch", "rv32", "run", "--harts=2", "--", "-S"] =
      .ok ({ arch := some "rv32" }, .run, { harts := some "2", trailing := ["-S"] }) := by cbv
  exact bind_eq_ok_iff.2 ⟨_, hroot, rfl⟩

theorem seenAlike_sample (env env' : CommandLine.Environment) (m m' : Manifest) :
    let flags := [Flag.value .arch "rv32"]
    let flags' := [Flag.value .harts "2"]
    Choice.SeenAlike Choice.arch (layers flags flags' env m) (layers flags flags' env' m') ∧
      Choice.SeenAlike Choice.harts (layers flags flags' env m) (layers flags flags' env' m') := by
  intro flags flags'
  constructor
  · have harch : ∃ c ∈ [Flag.choice flags', Flag.choice flags], c.arch.isSome :=
      ⟨Flag.choice flags, by simp, rfl⟩
    exact .of_shadowed harch [env.choice, m.defaultChoice] [env'.choice, m'.defaultChoice]
  · have hharts : ∃ c ∈ [Flag.choice flags', Flag.choice flags], c.harts.isSome :=
      ⟨Flag.choice flags', by simp, rfl⟩
    exact .of_shadowed hharts [env.choice, m.defaultChoice] [env'.choice, m'.defaultChoice]

def sampleRequest : Request := { choice := ⟨some "rv32", some "2"⟩ }

theorem resolve_strictText : resolve (manifestView strictText) ⟨"/w"⟩ sampleRequest =
    .ok (assemble ⟨"/w"⟩ ⟨strictManifest, some ⟨"/w/hartctl.toml"⟩, ⟨"/w"⟩⟩ sampleRequest
      ⟨.rv32, ⟨"2"⟩⟩ "k") := by
  have htarget : (strictManifest.choiceFor sampleRequest.choice).resolve
      (strictManifest.policyFor sampleRequest.strict) = .ok ⟨.rv32, ⟨"2"⟩⟩ := by cbv
  exact resolve_of_manifest (entry_manifestView strictText) ofText?_strictText rfl htarget

theorem doubts_strictText : doubts (manifestView strictText) ⟨"/w"⟩ sampleRequest = [] := by
  unfold doubts
  rw [find_of_manifestView ofText?_strictText]
  rfl

theorem first_given_counts_sample :
    let args := ["--arch", "rv32", "run", "--harts=2", "--", "-S"]
    let env : CommandLine.Environment := { arch := some "", harts := some "-1" }
    ∃ a a' s, CommandLine.read {} args = .ok a ∧ CommandLine.read env args = .ok a' ∧
      resolve (manifestView strictText) ⟨"/w"⟩ (a.request {}) = .ok s ∧
      s.target.harts.text = "2" ∧ s.target.arch = .rv32 ∧ s.policy = .strict ∧
      resolve (manifestView shadowedText) ⟨"/w"⟩ (a'.request env) = .ok s ∧
      doubts (manifestView shadowedText) ⟨"/w"⟩ (a'.request env) = [] := by
  intro args env
  obtain ⟨-, hfirst, hshadowed, -, -⟩ := first_given_counts
  obtain ⟨a, hread, -, htarget⟩ := hfirst {} .run _ _ args spelled_sample
  have ha : a.request {} = sampleRequest := by
    have heq := Except.ok.inj ((read_sample {}).symm.trans hread)
    rw [← heq]
    rfl
  obtain ⟨s, hresolve⟩ : ∃ s, resolve (manifestView strictText) ⟨"/w"⟩ (a.request {}) = .ok s := by
    rw [ha]
    exact ⟨_, resolve_strictText⟩
  obtain ⟨found, hfound, hharts, harch, hpolicy⟩ := htarget _ _ _ hresolve
  have hsome : found = some (strictManifest, ⟨"/w"⟩) :=
    Except.ok.inj (hfound.symm.trans (Manifest.find_manifestView ofText?_strictText))
  subst hsome
  obtain ⟨hsame, hsilent⟩ := hshadowed _ _ _ _ _ alike_shadowedText {} env .run .run _ _ _ _ args
    args a _ spelled_sample hread spelled_sample (read_sample env) Iff.rfl rfl
    (seenAlike_sample {} env _ _).1 (seenAlike_sample {} env _ _).2
  refine ⟨a, _, _, hread, read_sample env, hresolve, hharts, harch, ?_, hsame.trans hresolve, ?_⟩
  · exact hpolicy.2 (.inr (.inr rfl))
  · rw [hsilent, ha]
    exact doubts_strictText

end Setup

end RiscvBoot
