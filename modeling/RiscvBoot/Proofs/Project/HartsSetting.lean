import RiscvBoot.Proofs.Manifest.HartsSetting
import RiscvBoot.Proofs.Project.Obstacles

/-!
# A hart count written in two ways

From zero on it makes no difference to anything that is resolved whether a manifest gives its hart
count as an integer or as the digits of it. Below zero it does: the digits are passed on with a
warning, or are an error of the strict policy, like any malformed count; but with the integer
nothing of the manifest is used (`Setup.spellings_of_harts`).
-/

set_option autoImplicit false

namespace RiscvBoot

open Toml

variable {v : FileView} {cwd dir : Path} {place : Location} {m : Manifest} {text : String}

/-! ## A manifest and its text -/

/-- The tree with another text in the file at a place. -/
def FileView.withText (v : FileView) (place : Location) (text : String) : FileView :=
  { v with tree := v.tree.put place (.file text.toUTF8 false) }

namespace Manifest

/-- The nearest manifest is that of a directory, and its file is at a place. -/
structure IsAt (v : FileView) (cwd dir : Path) (place : Location) : Prop where
  nearest : ∃ content, Nearest v cwd dir content
  locate : v.tree.locate v.workDir (dir.join fileName) = .ok place

theorem IsAt.alikeBut (h : IsAt v cwd dir place) (text : String) :
    FileTree.AlikeBut v.tree (v.withText place text).tree place := by
  obtain ⟨content, hnearest⟩ := h.nearest
  apply FileTree.alikeBut_put
  obtain ⟨executable, hentry⟩ := FileView.content?_eq_some_iff.1 hnearest.content
  obtain ⟨here, hhere, hfile⟩ := FileView.entry_eq_ok_iff.1 hentry
  obtain rfl := Except.ok.inj (hhere.symm.trans h.locate)
  rw [hfile]
  simp

theorem IsAt.nearest_withText (h : IsAt v cwd dir place) (text : String) :
    Nearest (v.withText place text) cwd dir text.toUTF8 := by
  obtain ⟨content, ⟨nearer, farther, hsplit, hnearer⟩, hcontent⟩ := h.nearest
  have halike := h.alikeBut text
  refine ⟨⟨nearer, farther, hsplit, ?_⟩, ?_⟩
  · intro d hd
    have hnone := hnearer d hd
    -- The nearer directories do not lead to the place, since a file is there.
    have hplace : v.tree.locate v.workDir (d.join fileName) ≠ .ok place := by
      intro hd
      have hsame : v.content? (d.join fileName) = v.content? (dir.join fileName) := by
        unfold FileView.content? FileView.entry
        rw [hd, h.locate]
      rw [hsame, hcontent] at hnone
      cases hnone
    exact (FileView.content?_of_alikeBut halike hplace).trans hnone
  · refine FileView.content?_eq_some_iff.2 ⟨false, FileView.entry_eq_ok_iff.2 ⟨place, ?_, ?_⟩⟩
    · exact halike.sameDirectories.locate.2 h.locate
    · exact FileTree.get?_put_self (ne_root_of_locate h.locate) _

theorem IsAt.project (h : IsAt v cwd dir place) (hm : ofText? text = some m) :
    Project.find (v.withText place text) cwd = .ok ⟨m, some (dir.join fileName), dir⟩ := by
  have hnearest := h.nearest_withText text
  have hload : load (v.withText place text) (dir.join fileName) = .ok m :=
    (reads_load hnearest.content).eq_ok_iff.2 ⟨text, FileView.fromUTF8?_toUTF8 text, hm⟩
  unfold Project.find
  rw [find_of_nearest hnearest, hload]
  rfl

theorem IsAt.content?_packageFile (h : IsAt v cwd dir place) (text text' : String) (d : Path) :
    (v.withText place text').content? (d.join packageFile) =
      (v.withText place text).content? (d.join packageFile) := by
  have hname : place.getLast? ≠ some "Cargo.toml" := by
    rw [getLast?_of_locate h.locate]
    decide
  exact (content?_packageFile_of_alikeBut (h.alikeBut text') hname d).trans
    (content?_packageFile_of_alikeBut (h.alikeBut text) hname d).symm

end Manifest

/-! ## A text that is no manifest -/

theorem Manifest.load_of_malformed {p : Path} (hcontent : v.content? p = some text.toUTF8)
    (hm : ofText? text = none) : ∃ report, load v p = .error (.malformed p report) := by
  have hreads := reads_load hcontent
  generalize load v p = result at hreads
  cases hreads with
  | manifest htext hm' =>
    rw [FileView.fromUTF8?_toUTF8] at htext
    cases htext
    rw [hm] at hm'
    cases hm'
  | notText htext =>
    rw [FileView.fromUTF8?_toUTF8] at htext
    cases htext
  | @malformed _ report _ _ => exact ⟨report, rfl⟩

theorem Setup.resolve_of_malformed (h : Manifest.Nearest v cwd dir text.toUTF8)
    (hm : Manifest.ofText? text = none) : ∃ report, ∀ request, resolve v cwd request =
      .error (.load (.malformed (dir.join Manifest.fileName) report)) := by
  obtain ⟨report, hload⟩ := Manifest.load_of_malformed h.content hm
  refine ⟨report, fun request => ?_⟩
  apply resolve_of_find_error
  unfold Project.find
  rw [Manifest.find_of_nearest h, hload]
  rfl

theorem SweepOrder.resolve_of_malformed (h : Manifest.Nearest v cwd dir text.toUTF8)
    (hm : Manifest.ofText? text = none) (given : Choice) (strict : Bool) :
    resolve v cwd given strict =
      ⟨(Manifest.choiceFor {} given).lenientTarget, .usualSettleTime⟩ := by
  have hbroken : (String.fromUTF8? text.toUTF8).bind Manifest.ofText? = none := by
    rw [FileView.fromUTF8?_toUTF8, Option.bind_some, hm]
  rw [resolve_eq, manifest_of_unreadable h hbroken]
  rfl

/-! ## Two settings with one text -/

namespace Manifest

variable {harts harts' : HartsSetting}

theorem choiceFor_withHarts (m : Manifest) (harts : HartsSetting) (given : Choice) :
    (m.withHarts harts).choiceFor given =
      given.or ⟨m.defaults.arch, some harts.toText⟩ := rfl

theorem interchangeable_withHarts (htext : harts'.toText = harts.toText) :
    Interchangeable (m.withHarts harts) (m.withHarts harts') where
  kernelDir := rfl
  targetDir := rfl
  binary := rfl
  package := rfl
  buildArgs := rfl
  emulator := rfl
  onError := rfl
  settleTimeout := rfl
  policy := rfl
  resolve given policy := by rw [choiceFor_withHarts, choiceFor_withHarts, htext]
  doubts given policy := by rw [choiceFor_withHarts, choiceFor_withHarts, htext]

theorem IsAt.alikeButDefaults {text' : String} (h : IsAt v cwd dir place)
    (hm : ofText? text = some (m.withHarts harts))
    (hm' : ofText? text' = some (m.withHarts harts')) :
    Project.AlikeButDefaults (v.withText place text) (v.withText place text') cwd
      ⟨m.withHarts harts, some (dir.join fileName), dir⟩
      ⟨m.withHarts harts', some (dir.join fileName), dir⟩ where
  left := h.project hm
  right := h.project hm'
  manifest := ⟨m.defaults.arch, some harts', rfl⟩
  package := h.content?_packageFile text text' _

end Manifest

/-! ## Counts that are not given elsewhere -/

theorem Manifest.binaryName_ne_choice (m : Manifest) (v : FileView) (kernelDir : Path)
    (e : Rejection) : m.binaryName v kernelDir ≠ .error (.choice e) := by
  intro h
  unfold binaryName at h
  split at h
  · cases h
  · split at h <;> cases h

/-- Under the lenient policy a text of the manifest is passed on as it is. -/
theorem Setup.resolve_of_lenient {project : Project} {request : Request} {text : String}
    (h : Project.find v cwd = .ok project) (hgiven : request.choice.harts = none)
    (hharts : project.manifest.defaultChoice.harts = some text)
    (hlenient : project.manifest.policyFor request.strict = .lenient) :
    (∀ s, resolve v cwd request = .ok s → s.target.harts.text = text) ∧
      (∀ e, resolve v cwd request ≠ .error (.choice e)) ∧
      (.malformedHarts text ∈ doubts v cwd request ↔ ¬Harts.IsCount ⟨text⟩) := by
  have hcount : (project.manifest.choiceFor request.choice).hartCount = ⟨text⟩ := by
    unfold Manifest.choiceFor Choice.or Choice.hartCount
    rw [hgiven, hharts]
    rfl
  have haccepted : (project.manifest.choiceFor request.choice).resolve
      (project.manifest.policyFor request.strict) =
        .ok (project.manifest.choiceFor request.choice).lenientTarget := by
    rw [hlenient]
    rfl
  rw [resolve_of_accepted h haccepted]
  refine ⟨?_, ?_, ?_⟩
  · intro s hs
    obtain ⟨binary, -, rfl⟩ := map_eq_ok_iff.1 hs
    exact congrArg Harts.text hcount
  · intro e he
    cases hbinary : project.manifest.binaryName v (project.manifest.kernelDir project.dir) with
    | error e' =>
      rw [hbinary] at he
      cases he
      exact Manifest.binaryName_ne_choice _ _ _ _ hbinary
    | ok binary =>
      rw [hbinary] at he
      cases he
  · rw [doubts_of_project h, hlenient, Choice.doubts_lenient, hcount]
    by_cases hisCount : Harts.IsCount ⟨text⟩
    · simp [hisCount]
    · simp [hisCount]

/-! ## The two spellings -/

/-- From zero on the integer and its digits come out the same. Below zero the digits do what any
malformed text does, and the integer leaves nothing of the manifest. -/
theorem Setup.spellings_of_harts {g : Gap "defaults"}
    (hvalid : Manifest.ofText? (g.text (pairLine "harts" "1")) = some m) {n : Int}
    (hn : fitsInt64 n = true) :
    let number := g.text (pairLine "harts" (toString n))
    let digits := g.text (pairLine "harts" (inQuotes (toString n)))
    Manifest.ofText? digits = some (m.withHarts (.text (toString n))) ∧
    Manifest.ofText? number = (if 0 ≤ n then some (m.withHarts (.ofInt n)) else none) ∧
    (0 ≤ n → (m.withHarts (.ofInt n)).defaultChoice =
      (m.withHarts (.text (toString n))).defaultChoice) ∧
    ∀ v cwd dir place, Manifest.IsAt v cwd dir place →
      let left := v.withText place number
      let right := v.withText place digits
      (0 ≤ n →
        (∀ request, resolve right cwd request = resolve left cwd request ∧
          doubts right cwd request = doubts left cwd request) ∧
        ∀ given strict,
          SweepOrder.resolve right cwd given strict = SweepOrder.resolve left cwd given strict ∧
          SweepOrder.warnings right cwd given strict =
            SweepOrder.warnings left cwd given strict) ∧
      (n < 0 →
        (∃ report, ∀ request,
          resolve left cwd request =
            .error (.load (.malformed (dir.join Manifest.fileName) report))) ∧
        ∀ given strict, SweepOrder.resolve left cwd given strict =
          ⟨(Manifest.choiceFor {} given).lenientTarget, .usualSettleTime⟩) ∧
      (∀ given strict, SweepOrder.resolve right cwd given strict =
        ⟨(given.or ⟨m.defaults.arch, some (toString n)⟩).lenientTarget, m.settleTimeout⟩) ∧
      ∀ request, request.choice.harts = none → m.policyFor request.strict = .lenient →
        (∀ s, resolve right cwd request = .ok s → s.target.harts.text = toString n) ∧
        (∀ e, resolve right cwd request ≠ .error (.choice e)) ∧
        (.malformedHarts (toString n) ∈ doubts right cwd request ↔ ¬(1 ≤ n ∧ n ≤ 4294967295)) := by
  intro number digits
  obtain ⟨hdigits, hnumber⟩ := Manifest.ofText?_spellings hvalid hn
  refine ⟨hdigits, hnumber, ?_, ?_⟩
  · intro hzero
    unfold Manifest.defaultChoice
    change Choice.mk _ (some (HartsSetting.ofInt n).toText) = _
    rw [HartsSetting.toText_ofInt hn hzero]
    rfl
  · intro v cwd dir place hplace left right
    have hright := hplace.project hdigits
    have horder : SweepOrder.manifest right cwd = (m.withHarts (.text (toString n)), []) :=
      SweepOrder.manifest_of_project hright
    refine ⟨?_, ?_, ?_, ?_⟩
    · intro hzero
      rw [if_pos hzero] at hnumber
      have htext : (HartsSetting.text (toString n)).toText = (HartsSetting.ofInt n).toText :=
        (HartsSetting.toText_ofInt hn hzero).symm
      have hsame := Manifest.interchangeable_withHarts (m := m) htext
      constructor
      · intro request
        refine resolve_congr (hplace.alikeButDefaults hnumber hdigits) ?_ rfl rfl
        rw [Manifest.choiceFor_withHarts, Manifest.choiceFor_withHarts, htext]
      · intro given strict
        exact SweepOrder.resolve_congr hsame
          (SweepOrder.manifest_of_project (hplace.project hnumber)) horder given strict
    · intro hnegative
      rw [if_neg (Int.not_le.2 hnegative)] at hnumber
      have hnearest := hplace.nearest_withText number
      exact ⟨resolve_of_malformed hnearest hnumber,
        SweepOrder.resolve_of_malformed hnearest hnumber⟩
    · intro given strict
      rw [SweepOrder.resolve_eq, horder]
      rfl
    · intro request hgiven hlenient
      have htext : (m.withHarts (.text (toString n))).defaultChoice.harts =
          some (toString n) := rfl
      have h := resolve_of_lenient hright hgiven htext hlenient
      rwa [Harts.isCount_toString_iff] at h

/-- A place for the count between two other sections. -/
def Manifest.sampleGap : Gap "defaults" where
  before := [headerLine "kernel", pairLine "binary" (inQuotes "k"), headerLine "defaults"]
  draft :=
    { root := [("kernel", .table .header [("binary", .value (.text "k"))]),
        ("defaults", .table .header [])]
      here := ["defaults"] }
  drafts := by
    refine .cons (isLine_header (by cbv)) rfl ?_
    refine .cons (isLine_pair (by cbv) (spells_text (by cbv))) rfl ?_
    exact .cons (isLine_header (by cbv)) rfl (.nil _)
  here := rfl
  opened := ⟨.header, [], rfl⟩
  after := "[reaper]\nsettle-timeout-ms = 0\n"

/-- The manifest with a count in its place. -/
def Manifest.sampleCounted (harts : HartsSetting) : Manifest where
  kernel := { binary := some "k" }
  defaults := { harts := some harts }
  sweeper := { settleTimeoutMs := some 0 }

theorem Manifest.ofText?_sampleGap :
    ofText? (sampleGap.text (pairLine "harts" "1")) = some (sampleCounted (.number 1)) := by
  have htext : sampleGap.text (pairLine "harts" "1") =
      "[kernel]\nbinary = \"k\"\n[defaults]\nharts = 1\n[reaper]\nsettle-timeout-ms = 0\n" := rfl
  rw [htext]
  cbv

theorem Manifest.isAt_manifestView (text : String) :
    IsAt (Setup.manifestView text) ⟨"/w"⟩ ⟨"/w"⟩ ["w", "hartctl.toml"] where
  nearest := ⟨_, nearest_manifestView text⟩
  locate := Setup.locate_manifestView text

theorem Setup.spellings_of_harts_sample :
    let number := Manifest.sampleGap.text (pairLine "harts" "8")
    let digits := Manifest.sampleGap.text (pairLine "harts" "\"8\"")
    let left := (manifestView "").withText ["w", "hartctl.toml"] number
    let right := (manifestView "").withText ["w", "hartctl.toml"] digits
    Manifest.ofText? number = some (Manifest.sampleCounted (.number 8)) ∧
      Manifest.ofText? digits = some (Manifest.sampleCounted (.text "8")) ∧
      ∀ request, resolve right ⟨"/w"⟩ request = resolve left ⟨"/w"⟩ request := by
  intro number digits left right
  have height : fitsInt64 8 = true := by decide
  obtain ⟨hdigits, hnumber, -, hviews⟩ := spellings_of_harts Manifest.ofText?_sampleGap height
  obtain ⟨hsame, -⟩ := hviews _ _ _ _ (Manifest.isAt_manifestView "")
  refine ⟨hnumber, hdigits, ?_⟩
  intro request
  exact ((hsame (by decide)).1 request).1

/-! A count of -1 under the lenient policy, beside a settle time that is not the usual one. -/

namespace Setup

def numberText : String :=
  "[kernel]\nbinary = \"k\"\n[defaults]\nharts = -1\n[reaper]\nsettle-timeout-ms = 0\n"

def digitsText : String :=
  "[kernel]\nbinary = \"k\"\n[defaults]\nharts = \"-1\"\n[reaper]\nsettle-timeout-ms = 0\n"

theorem ofText?_numberText : Manifest.ofText? numberText = none := by
  cbv

theorem ofText?_digitsText :
    Manifest.ofText? digitsText = some (Manifest.sampleCounted (.text "-1")) := by
  cbv

/-- The digits are passed on with a warning. With the integer there is neither a setup nor the
settle time of the manifest. -/
theorem minus_one_spelled_twice :
    ((∃ report, ∀ request, resolve (manifestView numberText) ⟨"/w"⟩ request =
        .error (.load (.malformed ⟨"/w/hartctl.toml"⟩ report))) ∧
      SweepOrder.resolve (manifestView numberText) ⟨"/w"⟩ {} false = ⟨{}, .usualSettleTime⟩) ∧
    (∃ s, resolve (manifestView digitsText) ⟨"/w"⟩ {} = .ok s ∧ s.policy = .lenient ∧
        s.target.harts.text = "-1") ∧
      doubts (manifestView digitsText) ⟨"/w"⟩ {} = [.malformedHarts "-1"] ∧
      SweepOrder.resolve (manifestView digitsText) ⟨"/w"⟩ {} false =
        ⟨{ harts := ⟨"-1"⟩ }, .ofMillis 0⟩ := by
  have hproject := find_of_manifestView ofText?_digitsText
  have hnearest := Manifest.nearest_manifestView numberText
  have htarget : ((Manifest.sampleCounted (.text "-1")).choiceFor {}).resolve
      ((Manifest.sampleCounted (.text "-1")).policyFor false) = .ok { harts := ⟨"-1"⟩ } := rfl
  refine ⟨⟨?_, ?_⟩, ?_, ?_, ?_⟩
  · exact resolve_of_malformed hnearest ofText?_numberText
  · exact SweepOrder.resolve_of_malformed hnearest ofText?_numberText {} false
  · exact ⟨_, resolve_of_manifest (entry_manifestView digitsText) ofText?_digitsText rfl htarget,
      rfl, rfl⟩
  · rw [doubts_of_project hproject]
    change Choice.doubts .lenient ⟨none, some "-1"⟩ = _
    rw [Choice.doubts_lenient]
    decide
  · rw [SweepOrder.resolve_eq, SweepOrder.manifest_of_project hproject]
    rfl

end Setup

end RiscvBoot
