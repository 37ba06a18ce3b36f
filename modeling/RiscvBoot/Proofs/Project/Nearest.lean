import RiscvBoot.Proofs.Path.Components
import RiscvBoot.Proofs.Project.Resolve

/-!
# The nearest manifest

Looking for a manifest goes from a directory to its parent until a regular file has the right name.
That file alone decides: it is the manifest, or the search fails with it, and nothing above it is
looked at. What other trees have there, and what this tree has elsewhere, does not matter
(`Manifest.find_congr`).
-/

set_option autoImplicit false

namespace RiscvBoot

variable {v v' : FileView} {p start dir : Path} {content : ByteArray}

/-! ## Regular files -/

namespace FileView

/-- The bytes of the regular file at a path, if there is one. -/
def content? (v : FileView) (p : Path) : Option ByteArray :=
  match v.entry p with
  | .ok (.file content _) => some content
  | _ => none

theorem content?_eq_some_iff :
    v.content? p = some content ↔ ∃ executable, v.entry p = .ok (.file content executable) := by
  unfold content?
  match v.entry p with
  | .ok (.file found executable) => simp [eq_comm]
  | .ok .directory => simp
  | .error e => simp

theorem isFile_eq_isSome_content? (v : FileView) (p : Path) :
    v.isFile p = (v.content? p).isSome := by
  unfold isFile content?
  match v.entry p with
  | .ok (.file found executable) => rfl
  | .ok .directory => rfl
  | .error e => rfl

theorem readText_of_content? (h : v.content? p = some content) :
    v.readText p = match String.fromUTF8? content with
      | some text => .ok text
      | none => .error .notText := by
  obtain ⟨executable, hentry⟩ := content?_eq_some_iff.1 h
  unfold readText
  rw [hentry]
  rfl

/-- What is at an absolute path, with its pieces given. -/
theorem content?_of_pieces (pieces : List String) (hnul : p.chars.contains '\x00' = false)
    (hsize : p.text.utf8ByteSize < FileTree.pathLimit) (habsolute : p.isAbsolute = true)
    (hpieces : (Text.pieces '/' p.chars).map String.ofList = pieces) :
    v.content? p = match (v.tree.walk [] pieces).toOption.bind v.tree.get? with
      | some (.file content _) => some content
      | _ => none := by
  unfold content? entry
  rw [FileTree.locate_of_pieces hnul hsize habsolute hpieces]
  cases v.tree.walk [] pieces with
  | error e => rfl
  | ok here =>
    simp only [bind, Except.bind, Except.toOption, Option.bind_some]
    cases v.tree.get? here with
    | none => rfl
    | some entry =>
      cases entry with
      | directory => rfl
      | file content executable => rfl

theorem load_congr {α : Type} (use : Tree → Except String α) (h : v.content? p = some content)
    (h' : v'.content? p = some content) : v'.load use p = v.load use p := by
  unfold load
  rw [readText_of_content? h, readText_of_content? h']

theorem load_eq_ok_iff {α : Type} {use : Tree → Except String α} {a : α}
    (h : v.content? p = some content) : v.load use p = .ok a ↔
      ∃ text t, String.fromUTF8? content = some text ∧ Toml.read text = .ok t ∧ use t = .ok a := by
  unfold load
  rw [readText_of_content? h]
  cases String.fromUTF8? content with
  | none => simp
  | some text =>
    dsimp only
    cases hread : Toml.read text with
    | error fault => simp [hread]
    | ok t => simp [hread, mapError_eq_ok_iff]

end FileView

namespace Manifest

variable {m : Manifest}

/-- What reading a manifest file with this content comes to. -/
inductive Reads (p : Path) (content : ByteArray) : Except LoadError Manifest → Prop where
  | manifest {text : String} {m : Manifest} (htext : String.fromUTF8? content = some text)
      (hm : ofText? text = some m) : Reads p content (.ok m)
  | notText (htext : String.fromUTF8? content = none) :
      Reads p content (.error (.unreadable p .notText))
  | malformed {text report : String} (htext : String.fromUTF8? content = some text)
      (hm : ofText? text = none) : Reads p content (.error (.malformed p report))

theorem reads_load (h : v.content? p = some content) : Reads p content (load v p) := by
  unfold load FileView.load
  rw [FileView.readText_of_content? h]
  cases htext : String.fromUTF8? content with
  | none => exact .notText htext
  | some text =>
    dsimp only
    have hm : ofText? text = (Toml.read text).toOption.bind (Schema.manifest? .toml) := rfl
    cases hread : Toml.read text with
    | error fault =>
      rw [hread] at hm
      exact .malformed htext hm
    | ok t =>
      rw [hread] at hm
      dsimp only
      unfold ofTree
      cases hschema : Schema.manifest? .toml t with
      | none => exact .malformed htext (hm.trans hschema)
      | some m => exact .manifest htext (hm.trans hschema)

theorem Reads.eq_ok_iff {result : Except LoadError Manifest} (h : Reads p content result) :
    result = .ok m ↔ ∃ text, String.fromUTF8? content = some text ∧ ofText? text = some m := by
  cases h with
  | manifest htext hm => simp [htext, hm]
  | notText htext => simp [htext]
  | malformed htext hm => simp [htext, hm]

/-! ## The search -/

/-- The first directory at or above `start` with a regular file for a manifest, and its content. -/
structure Nearest (v : FileView) (start dir : Path) (content : ByteArray) : Prop where
  first : ∃ nearer farther, start.ancestors = nearer ++ dir :: farther ∧
    ∀ d ∈ nearer, v.content? (d.join fileName) = none
  content : v.content? (dir.join fileName) = some content

/-- No directory at or above `start` has a regular file for a manifest. -/
def Absent (v : FileView) (start : Path) : Prop :=
  ∀ dir ∈ start.ancestors, v.content? (dir.join fileName) = none

theorem nearest_or_absent (v : FileView) (start : Path) :
    (∃ dir content, Nearest v start dir content) ∨ Absent v start := by
  cases hfirst : start.ancestors.findSome? fun dir =>
      (v.content? (dir.join fileName)).map (dir, ·) with
  | none =>
    refine .inr fun dir hdir => ?_
    exact Option.map_eq_none_iff.1 (List.findSome?_eq_none_iff.1 hfirst dir hdir)
  | some found =>
    obtain ⟨nearer, dir, farther, hsplit, hfound, hnearer⟩ := List.findSome?_eq_some_iff.1 hfirst
    obtain ⟨content, hcontent, rfl⟩ := Option.map_eq_some_iff.1 hfound
    refine .inl ⟨dir, content, ⟨nearer, farther, hsplit, ?_⟩, hcontent⟩
    exact fun d hd => Option.map_eq_none_iff.1 (hnearer d hd)

theorem findIn_cons_of_none (h : v.content? (dir.join fileName) = none) (dirs : List Path) :
    findIn v (dir :: dirs) = findIn v dirs := by
  rw [findIn, if_neg]
  rw [FileView.isFile_eq_isSome_content?, h]
  decide

theorem findIn_cons_of_content (h : v.content? (dir.join fileName) = some content)
    (dirs : List Path) :
    findIn v (dir :: dirs) = (load v (dir.join fileName)).map fun m => some (m, dir) := by
  have hfile : v.isFile (dir.join fileName) = true := by
    rw [FileView.isFile_eq_isSome_content?, h]
    rfl
  rw [findIn, if_pos hfile]
  cases load v (dir.join fileName) with
  | error e => rfl
  | ok m => rfl

theorem findIn_append {nearer : List Path} (h : ∀ d ∈ nearer, v.content? (d.join fileName) = none)
    (dirs : List Path) : findIn v (nearer ++ dirs) = findIn v dirs := by
  induction nearer with
  | nil => rfl
  | cons d nearer ih =>
    have hd := h d List.mem_cons_self
    rw [List.cons_append, findIn_cons_of_none hd]
    exact ih fun d' hd' => h d' (List.mem_cons_of_mem d hd')

theorem find_of_nearest (h : Nearest v start dir content) :
    find v start = (load v (dir.join fileName)).map fun m => some (m, dir) := by
  obtain ⟨nearer, farther, hsplit, hnearer⟩ := h.first
  unfold find
  rw [hsplit, findIn_append hnearer, findIn_cons_of_content h.content]

theorem find_of_absent (h : Absent v start) : find v start = .ok none := by
  unfold find
  rw [← List.append_nil start.ancestors, findIn_append h]
  rfl

theorem find_eq_ok_none_iff : find v start = .ok none ↔ Absent v start := by
  constructor
  · intro hfind
    rcases nearest_or_absent v start with ⟨dir, content, hnearest⟩ | habsent
    · rw [find_of_nearest hnearest] at hfind
      obtain ⟨m, -, hm⟩ := map_eq_ok_iff.1 hfind
      cases hm
    · exact habsent
  · exact find_of_absent

theorem find_of_parent {parent : Path} (hparent : start.parent? = some parent)
    (h : v.content? (start.join fileName) = none) : find v start = find v parent := by
  unfold find
  rw [Path.ancestors_of_parent hparent, findIn_cons_of_none h]

/-- Two trees have the same manifest files, or none, in the directories of a list up to the first in
which there is one. -/
def AgreeOn (v v' : FileView) (dirs : List Path) : Prop :=
  ∀ nearer dir farther, dirs = nearer ++ dir :: farther →
    (∀ d ∈ nearer, v.content? (d.join fileName) = none) →
    v'.content? (dir.join fileName) = v.content? (dir.join fileName)

theorem AgreeOn.tail {dirs : List Path} (h : AgreeOn v v' (dir :: dirs))
    (hdir : v.content? (dir.join fileName) = none) : AgreeOn v v' dirs := by
  intro nearer d farther hsplit hnearer
  refine h (dir :: nearer) d farther (congrArg (dir :: ·) hsplit) ?_
  intro d' hd'
  rcases List.mem_cons.1 hd' with rfl | hd'
  · exact hdir
  · exact hnearer d' hd'

theorem findIn_congr {dirs : List Path} (h : AgreeOn v v' dirs) :
    findIn v' dirs = findIn v dirs := by
  induction dirs with
  | nil => rfl
  | cons dir dirs ih =>
    have hdir := h [] dir dirs rfl (by simp)
    cases hcontent : v.content? (dir.join fileName) with
    | none =>
      rw [hcontent] at hdir
      rw [findIn_cons_of_none hcontent, findIn_cons_of_none hdir]
      exact ih (h.tail hcontent)
    | some content =>
      rw [hcontent] at hdir
      rw [findIn_cons_of_content hcontent, findIn_cons_of_content hdir, load, load,
        FileView.load_congr ofTree hcontent hdir]

theorem find_congr (h : AgreeOn v v' start.ancestors) : find v' start = find v start :=
  findIn_congr h

theorem isAbsolute_of_find {dir : Path} (hstart : start.isAbsolute = true)
    (h : find v start = .ok (some (m, dir))) : dir.isAbsolute = true :=
  Path.isAbsolute_of_mem_ancestors hstart (findIn_some h).1

/-- The search visits the path and then each parent, which are as many as the path has beginnings,
and what it finds is decided by the first of them that has a regular file. -/
theorem nearest_file_decides (start : Path) :
    (start.ancestors[0]? = some start ∧
      (∀ k, start.ancestors[k + 1]? = start.ancestors[k]?.bind Path.parent?) ∧
      (∀ k d, start.ancestors[k]? = some d →
        d.components = start.components.take (start.components.length - k)) ∧
      start.ancestors.length = start.components.length + (if start.isAbsolute then 0 else 1) ∧
      (start.ancestors.map Path.components).Nodup) ∧
    ∀ v : FileView,
      ((∃ dir content, Nearest v start dir content) ∨ Absent v start) ∧
      (∀ dir content, Nearest v start dir content → ∃ result,
        Reads (dir.join fileName) content result ∧
          find v start = result.map fun m => some (m, dir)) ∧
      (find v start = .ok none ↔ Absent v start) ∧
      (∀ parent, start.parent? = some parent → v.entry (start.join fileName) = .ok .directory →
        find v start = find v parent) ∧
      (start.isAbsolute = true → ∀ m dir, find v start = .ok (some (m, dir)) →
        dir.isAbsolute = true) ∧
      ∀ v', AgreeOn v v' start.ancestors → find v' start = find v start := by
  constructor
  · exact ⟨start.getElem?_ancestors_zero, start.getElem?_ancestors_succ,
      fun k d hd => Path.components_of_ancestor hd, start.length_ancestors,
      start.nodup_components_ancestors⟩
  · intro v
    refine ⟨nearest_or_absent v start, ?_, find_eq_ok_none_iff, ?_, ?_, ?_⟩
    · intro dir content hnearest
      exact ⟨_, reads_load hnearest.content, find_of_nearest hnearest⟩
    · intro parent hparent hdirectory
      have hnone : v.content? (start.join fileName) = none := by
        unfold FileView.content?
        rw [hdirectory]
      exact find_of_parent hparent hnone
    · intro hstart m dir hfind
      exact isAbsolute_of_find hstart hfind
    · intro v' hagree
      exact find_congr hagree

/-- Above `/w` there is only the root. -/
theorem absent_of_none (hbelow : v.content? ⟨"/w/hartctl.toml"⟩ = none)
    (habove : v.content? ⟨"/hartctl.toml"⟩ = none) : Absent v ⟨"/w"⟩ := by
  have hparent : (Path.mk "/w").parent? = some ⟨"/"⟩ := by cbv
  have hroot : (Path.mk "/").parent? = none := by cbv
  intro dir hdir
  rw [Path.ancestors_of_parent hparent, Path.ancestors_of_no_parent hroot] at hdir
  rcases List.mem_cons.1 hdir with rfl | hdir
  · exact hbelow
  · rw [List.mem_singleton.1 hdir]
    exact habove

theorem nearest_manifestView (text : String) :
    Nearest (Setup.manifestView text) ⟨"/w"⟩ ⟨"/w"⟩ text.toUTF8 where
  first := by
    have hparent : (Path.mk "/w").parent? = some ⟨"/"⟩ := by cbv
    refine ⟨[], (Path.mk "/").ancestors, ?_, by simp⟩
    rw [Path.ancestors_of_parent hparent]
    rfl
  content := FileView.content?_eq_some_iff.2 ⟨false, Setup.entry_manifestView text⟩

theorem find_manifestView {text : String} (hm : ofText? text = some m) :
    find (Setup.manifestView text) ⟨"/w"⟩ = .ok (some (m, ⟨"/w"⟩)) := by
  have hload : load (Setup.manifestView text) ⟨"/w/hartctl.toml"⟩ = .ok m :=
    load_of_entry (Setup.entry_manifestView text) hm
  rw [find_of_nearest (nearest_manifestView text)]
  change (load (Setup.manifestView text) ⟨"/w/hartctl.toml"⟩).map _ = _
  rw [hload]
  rfl

theorem content?_below_sampleView :
    Setup.sampleView.content? ⟨"/w/a//./hartctl.toml"⟩ = none := by
  rw [FileView.content?_of_pieces ["", "w", "a", "", ".", "hartctl.toml"] (by cbv) (by decide)
    (by cbv) (by cbv)]
  rfl

theorem nearest_sampleView :
    Nearest Setup.sampleView ⟨"/w/a//."⟩ ⟨"/w"⟩ "[kernel]\nbinary = \"k\"\n".toUTF8 where
  first := by
    have hstart : (Path.mk "/w/a//.").parent? = some ⟨"/w"⟩ := by cbv
    have hparent : (Path.mk "/w").parent? = some ⟨"/"⟩ := by cbv
    refine ⟨[⟨"/w/a//."⟩], (Path.mk "/").ancestors, ?_, ?_⟩
    · rw [Path.ancestors_of_parent hstart, Path.ancestors_of_parent hparent]
      rfl
    · intro d hd
      rw [List.mem_singleton.1 hd]
      exact content?_below_sampleView
  content := FileView.content?_eq_some_iff.2 ⟨false, Setup.entry_sampleView⟩

/-- A search that begins below a missing directory, with a doubled slash and a point. -/
theorem nearest_file_decides_sample :
    Nearest Setup.sampleView ⟨"/w/a//."⟩ ⟨"/w"⟩ "[kernel]\nbinary = \"k\"\n".toUTF8 ∧
      find Setup.sampleView ⟨"/w/a//."⟩ = .ok (some (Setup.sampleManifest, ⟨"/w"⟩)) ∧
      (Path.mk "/w").isAbsolute = true := by
  obtain ⟨-, hdecides⟩ := nearest_file_decides ⟨"/w/a//."⟩
  obtain ⟨-, hreads, -, -, hdir, -⟩ := hdecides Setup.sampleView
  obtain ⟨result, hresult, hfind⟩ := hreads _ _ nearest_sampleView
  have hok : result = .ok Setup.sampleManifest :=
    hresult.eq_ok_iff.2 ⟨_, FileView.fromUTF8?_toUTF8 _, Setup.ofText?_sampleManifest⟩
  rw [hok] at hfind
  exact ⟨nearest_sampleView, hfind, hdir (by cbv) _ _ hfind⟩

end Manifest

end RiscvBoot
