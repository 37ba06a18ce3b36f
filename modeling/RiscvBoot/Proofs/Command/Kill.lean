import RiscvBoot.Proofs.Boot.Ending
import RiscvBoot.Proofs.Choice.Strictness
import RiscvBoot.Proofs.Project.Nearest
import RiscvBoot.Proofs.Project.SweepOrder

/-!
# Stopping emulators, whatever is wrong

The command that stops emulators asks for the same ones under either policy, and a manifest that it
cannot read is as good as none. On every host it succeeds, asks for nothing but the kill program and
the probe program, always about the emulator of its order, and leaves the files alone.
-/

set_option autoImplicit false

namespace RiscvBoot

open Host

/-! ## The order -/

def Manifest.withStrict (m : Manifest) (strict : Bool) : Manifest :=
  { m with defaults := { m.defaults with strict } }

namespace SweepOrder

variable {v : FileView} {cwd dir : Path} {content : ByteArray}

/-- The policy does not show in an order. -/
theorem resolve_eq (v : FileView) (cwd : Path) (given : Choice) (strict : Bool) :
    resolve v cwd given strict =
      ⟨((manifest v cwd).1.choiceFor given).lenientTarget, (manifest v cwd).1.settleTimeout⟩ := by
  unfold resolve
  dsimp only
  split
  · rename_i target htarget
    rw [Choice.eq_lenientTarget htarget]
  · rfl

theorem manifest_of_find {m : Manifest} (h : Manifest.find v cwd = .ok (some (m, dir))) :
    (manifest v cwd).1 = m := by
  unfold manifest
  rw [h]
  rfl

theorem manifest_of_absent (h : Manifest.Absent v cwd) : (manifest v cwd).1 = {} := by
  unfold manifest
  rw [Manifest.find_of_absent h]
  rfl

theorem manifest_of_unreadable (h : Manifest.Nearest v cwd dir content)
    (hbroken : (String.fromUTF8? content).bind Manifest.ofText? = none) :
    (manifest v cwd).1 = {} := by
  have hreads := Manifest.reads_load h.content
  have hfind := Manifest.find_of_nearest h
  cases hload : Manifest.load v (dir.join Manifest.fileName) with
  | error e =>
    rw [hload] at hfind
    unfold manifest
    rw [hfind]
    rfl
  | ok m =>
    obtain ⟨text, htext, hm⟩ := hreads.eq_ok_iff.1 hload
    rw [htext, Option.bind_some, hm] at hbroken
    cases hbroken

end SweepOrder

/-! ## The command -/

namespace Command

/-- Between the two hosts nothing is done but asking for the kill program and the probe program
about an emulator. -/
structure StopsOnly (emulator : String) (h after : Host) : Prop where
  files : after.toFileView = h.toFileView
  attempts : ∃ kill probes, after.attempts = h.attempts ++ kill :: probes ∧
    kill.invocation = ⟨"pkill", ["-f", Sweeper.patternFor emulator], none⟩ ∧
    ∀ a ∈ probes, a.invocation = ⟨"pgrep", ["-f", Sweeper.patternFor emulator], none⟩
  calls : ∃ started, after.calls = h.calls ++ started ∧ ∀ c ∈ started, ∃ program,
    (program = "pkill" ∨ program = "pgrep") ∧
    h.callOf? ⟨program, ["-f", Sweeper.patternFor emulator], none⟩ = some c ∧
    ["-f", Sweeper.patternFor emulator] <:+ c.args

theorem leads_kill_attempts (t : SweepOrder) (h : Host) :
    ∃ kill probes, t.sweeper.Attempts t.target.emulator kill probes ∧
      h.Leads (kill :: probes) ((Command.kill t).run h).2 := by
  obtain ⟨kill, probes, hattempts, hpolicy⟩ := leads_sweepUnder t.sweeper t.target.emulator h
  have hkill := (hpolicy .keepGoing).1.trans (leads_kill t h)
  rw [List.append_nil] at hkill
  exact ⟨kill, probes, hattempts, hkill⟩

theorem StopsOnly.of_leads {t : SweepOrder} {h after : Host} {kill : Attempt}
    {probes : List Attempt} (hattempts : t.sweeper.Attempts t.target.emulator kill probes)
    (hleads : h.Leads (kill :: probes) after) : StopsOnly t.target.emulator h after where
  files := hleads.view
  attempts := ⟨kill, probes, hleads.attempts, hattempts.kill_invocation, hattempts.probe_invocation⟩
  calls := by
    refine ⟨_, hleads.calls, ?_⟩
    intro c hc
    obtain ⟨a, ha, hcall⟩ := List.mem_filterMap.1 hc
    have hspec := (callOf?_spec hcall).1
    unfold callOfAttempt? at hcall
    rcases List.mem_cons.1 ha with rfl | ha
    · rw [hattempts.kill_invocation] at hcall hspec
      exact ⟨"pkill", .inl rfl, hcall, hspec⟩
    · rw [hattempts.probe_invocation a ha] at hcall hspec
      exact ⟨"pgrep", .inr rfl, hcall, hspec⟩

theorem run_openSweepOrder (cwd : Path) (given : Choice) (strict : Bool) (h : Host) :
    ∃ events, (openSweepOrder cwd given strict).run h =
        (SweepOrder.resolve h.toFileView cwd given strict, { h with events }) ∧
      h.Leads [] { h with events } := by
  obtain ⟨events, hrun, hleads⟩ := leads_logAll (fun r : Log.Record => r)
    (SweepOrder.warnings h.toFileView cwd given strict) h
  refine ⟨events, ?_, hleads⟩
  change (_, (((SweepOrder.warnings h.toFileView cwd given strict).forM fun r =>
    record (.logged r)).run h).2) = _
  rw [hrun]

end Command

namespace CommandLine

variable {a : Arguments}

theorem perform_kill (ha : a.command = .kill) (cwd : Path) (env : Environment) (h : Host) :
    let order := SweepOrder.resolve h.toFileView cwd a.choice a.strict
    let r := (perform cwd env a).run h
    r.1 = .ok 0 ∧ Command.StopsOnly order.target.emulator h r.2 := by
  intro order
  obtain ⟨events, hrun, hleads⟩ := Command.run_openSweepOrder cwd a.choice a.strict h
  obtain ⟨kill, probes, hattempts, hkill⟩ :=
    Command.leads_kill_attempts order { h with events }
  have hperform : (perform cwd env a).run h =
      (.ok 0, ((Command.kill order).run { h with events }).2) := by
    unfold perform
    rw [ha]
    simp only [run_bind, hrun]
    rfl
  rw [hperform]
  exact ⟨rfl, .of_leads hattempts (hleads.trans hkill)⟩

end CommandLine

/-- Whom to stop depends neither on the policy nor on what is in a manifest that cannot be read, and
stopping them succeeds and does nothing else. -/
theorem Command.kill_under_any_policy :
    (∀ v cwd given,
      SweepOrder.resolve v cwd given true = SweepOrder.resolve v cwd given false) ∧
    (∀ v v' cwd given strict m dir dir' flipped,
      Manifest.find v cwd = .ok (some (m, dir)) →
      Manifest.find v' cwd = .ok (some (m.withStrict flipped, dir')) →
      SweepOrder.resolve v' cwd given strict = SweepOrder.resolve v cwd given strict) ∧
    (∀ v bare cwd given strict dir content, Manifest.Nearest v cwd dir content →
      (String.fromUTF8? content).bind Manifest.ofText? = none → Manifest.Absent bare cwd →
      SweepOrder.resolve v cwd given strict = SweepOrder.resolve bare cwd given strict) ∧
    (∀ (t : SweepOrder) (h : Host),
      StopsOnly t.target.emulator h ((kill t).run h).2) ∧
    (∀ (h : Host) (cwd : Path) (env : CommandLine.Environment) (a : CommandLine.Arguments),
      a.command = .kill →
      let order := SweepOrder.resolve h.toFileView cwd a.choice a.strict
      let r := (CommandLine.perform cwd env a).run h
      r.1 = .ok 0 ∧ StopsOnly order.target.emulator h r.2) ∧
    ∀ (h : Host) (env : CommandLine.Environment) (args : List String)
      (a : CommandLine.Arguments), CommandLine.read env args = .ok a → a.command = .kill →
      let order := SweepOrder.resolve h.toFileView h.workDir.toPath a.choice a.strict
      let r := (CommandLine.run env args).run h
      StopsOnly order.target.emulator h r.2 ∧ ∃ outcome, r.1 = .ok outcome ∧ outcome.code = 0 := by
  refine ⟨?_, ?_, ?_, ?_, ?_, ?_⟩
  · intro v cwd given
    rw [SweepOrder.resolve_eq, SweepOrder.resolve_eq]
  · intro v v' cwd given strict m dir dir' flipped hfind hfind'
    rw [SweepOrder.resolve_eq, SweepOrder.resolve_eq, SweepOrder.manifest_of_find hfind,
      SweepOrder.manifest_of_find hfind']
    rfl
  · intro v bare cwd given strict dir content hnearest hbroken habsent
    rw [SweepOrder.resolve_eq, SweepOrder.resolve_eq,
      SweepOrder.manifest_of_unreadable hnearest hbroken, SweepOrder.manifest_of_absent habsent]
  · intro t h
    obtain ⟨kill, probes, hattempts, hleads⟩ := leads_kill_attempts t h
    exact .of_leads hattempts hleads
  · intro h cwd env a hkill
    exact CommandLine.perform_kill hkill cwd env h
  · intro h env args a hread hkill order r
    obtain ⟨out, err, hrun⟩ := CommandLine.run_of_read hread h
    obtain ⟨hcode, hstops⟩ := CommandLine.perform_kill hkill h.workDir.toPath env h
    change StopsOnly _ h ((CommandLine.run env args).run h).2 ∧
      ∃ outcome, ((CommandLine.run env args).run h).1 = .ok outcome ∧ outcome.code = 0
    rw [hrun]
    refine ⟨hstops, _, rfl, ?_⟩
    rw [hcode]
    rfl

/-! ## A manifest that cannot be read, and one that asks for the strict policy -/

theorem Manifest.absent_emptyView : Manifest.Absent {} ⟨"/w"⟩ := by
  apply absent_of_none
  · rw [FileView.content?_of_pieces ["", "w", "hartctl.toml"] (by cbv) (by decide) (by cbv)
      (by cbv)]
    rfl
  · rw [FileView.content?_of_pieces ["", "hartctl.toml"] (by cbv) (by decide) (by cbv) (by cbv)]
    rfl

theorem Command.kill_under_any_policy_sample :
    let broken := Setup.manifestView "["
    let strict := Setup.manifestView Setup.strictText
    let given : Choice := ⟨some "foo", none⟩
    let args := ["kill-qemu", "--strict", "--arch", "foo"]
    SweepOrder.resolve broken ⟨"/w"⟩ given true = SweepOrder.resolve {} ⟨"/w"⟩ given true ∧
    SweepOrder.resolve strict ⟨"/w"⟩ given true =
      SweepOrder.resolve Setup.sampleView ⟨"/w"⟩ given true ∧
    CommandLine.read {} args = .ok ⟨.kill, given, true, 0, none, []⟩ ∧
    ∃ outcome, ((CommandLine.run {} args).run { toFileView := broken }).1 = .ok outcome ∧
      outcome.code = 0 := by
  have hbroken : (String.fromUTF8? "[".toUTF8).bind Manifest.ofText? = none := by
    rw [FileView.fromUTF8?_toUTF8]
    cbv
  have hstrict : Manifest.ofText? Setup.strictText = some (Setup.sampleManifest.withStrict true) :=
    Setup.ofText?_strictText
  have hread : CommandLine.read {} ["kill-qemu", "--strict", "--arch", "foo"] =
      .ok ⟨.kill, ⟨some "foo", none⟩, true, 0, none, []⟩ := by cbv
  obtain ⟨-, hflipped, hunreadable, -, -, hcode⟩ := kill_under_any_policy
  refine ⟨?_, ?_, hread, ?_⟩
  · exact hunreadable _ _ _ _ _ _ _ (Manifest.nearest_manifestView "[") hbroken
      Manifest.absent_emptyView
  · exact hflipped _ _ _ _ _ _ _ _ _ (Manifest.find_manifestView Setup.ofText?_sampleManifest)
      (Manifest.find_manifestView hstrict)
  · exact (hcode _ _ _ _ hread rfl).2

end RiscvBoot
