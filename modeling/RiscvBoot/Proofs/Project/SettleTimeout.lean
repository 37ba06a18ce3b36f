import RiscvBoot.Proofs.Manifest.HartsSetting
import RiscvBoot.Proofs.Toml.Range

/-!
# The range of the settle timeout

A manifest gives the settle timeout as an integer of its text, so what a setup has is a whole number
of milliseconds that fits into 64 bits with a sign (`Setup.fits_settleTimeout`).
-/

set_option autoImplicit false

namespace RiscvBoot

open Toml (InRange fitsInt64)

variable {t x : Tree} {f : Format} {m : Manifest}

namespace Schema

theorem exists_of_mapM {α β : Type} {g : α → Option β} {as : List α} {bs : List β}
    (h : as.mapM g = some bs) {b : β} (hb : b ∈ bs) : ∃ a ∈ as, g a = some b := by
  induction as generalizing bs with
  | nil =>
    cases h
    cases hb
  | cons a as ih =>
    rw [List.mapM_cons] at h
    obtain ⟨first, hfirst, h⟩ := Option.bind_eq_some_iff.1 h
    obtain ⟨rest, hrest, h⟩ := Option.bind_eq_some_iff.1 h
    cases h
    rcases List.mem_cons.1 hb with rfl | hb
    · exact ⟨a, List.mem_cons_self, hfirst⟩
    · obtain ⟨a', ha', hg⟩ := ih hrest hb
      exact ⟨a', List.mem_cons_of_mem a ha', hg⟩

theorem mem_of_field? {es : List (String × Tree)} {name : String}
    (h : field? es name = some (some x)) : (name, x) ∈ es := by
  unfold field? at h
  split at h
  · cases h
  · rename_i key t hfilter
    cases h
    have hmem : (key, x) ∈ es.filter (·.1 = name) := by
      rw [hfilter]
      exact List.mem_singleton_self _
    obtain ⟨hes, hkey⟩ := List.mem_filter.1 hmem
    have hkey : key = name := of_decide_eq_true hkey
    rwa [hkey] at hes
  · cases h

theorem inRange_of_fields? {names : List String} {fields : List (Option Tree)} (ht : InRange t)
    (h : fields? f names t = some fields) (hx : some x ∈ fields) : InRange x := by
  cases t with
  | record es =>
    rw [fields?_record] at h
    obtain ⟨name, -, hname⟩ := exists_of_mapM h hx
    exact ht.entries _ (mem_of_field? hname)
  | list items =>
    unfold fields? at h
    dsimp only at h
    split at h
    · cases h
    · cases h
      obtain ⟨i, -, hi⟩ := List.mem_map.1 hx
      exact ht.items x (List.mem_of_getElem? hi)
  | dateTime literal =>
    cases h
    obtain ⟨name, -, hname⟩ := List.mem_map.1 hx
    cases hname
  | _ => cases h

theorem fits_of_nullable {n : UInt64} (ht : InRange t) (h : nullable word? t = some (some n)) :
    fitsInt64 n.toNat = true := by
  cases t with
  | integer k =>
    obtain ⟨word, hword, h⟩ := Option.map_eq_some_iff.1 h
    cases h
    unfold word? at hword
    dsimp only at hword
    split at hword
    · rename_i hrange
      cases hword
      obtain ⟨k, rfl⟩ := Int.eq_ofNat_of_zero_le hrange.1
      have hsize : k < UInt64.size := by omega
      have hvalue : (UInt64.ofNat (k : Int).toNat).toNat = k := by
        rw [Int.toNat_natCast]
        exact UInt64.toNat_ofNat_of_lt hsize
      rw [hvalue]
      exact ht.fitsInt64
    · cases hword
  | _ => cases h

theorem fits_of_sweepSettings? {r : SweepSettings} (ht : InRange t)
    (h : sweepSettings? f t = some r) {n : UInt64} (hn : r.settleTimeoutMs = some n) :
    fitsInt64 n.toNat = true := by
  obtain ⟨fields, hfields, h⟩ := Option.bind_eq_some_iff.1 h
  have hin := fun x hx => inRange_of_fields? (x := x) ht hfields hx
  split at h
  · rename_i onError timeout
    obtain ⟨_, -, h⟩ := Option.bind_eq_some_iff.1 h
    obtain ⟨ms, hms, h⟩ := Option.bind_eq_some_iff.1 h
    cases h
    cases timeout with
    | none =>
      cases hms
      cases hn
    | some x =>
      obtain rfl : ms = some n := hn
      exact fits_of_nullable (hin x (by simp)) hms
  · cases h

theorem fits_of_manifest? (ht : InRange t) (h : manifest? f t = some m) {n : UInt64}
    (hn : m.sweeper.settleTimeoutMs = some n) : fitsInt64 n.toNat = true := by
  obtain ⟨fields, hfields, h⟩ := Option.bind_eq_some_iff.1 h
  have hin := fun x hx => inRange_of_fields? (x := x) ht hfields hx
  split at h
  · rename_i kernel defaults emulator sweeper
    obtain ⟨_, -, h⟩ := Option.bind_eq_some_iff.1 h
    obtain ⟨_, -, h⟩ := Option.bind_eq_some_iff.1 h
    obtain ⟨_, -, h⟩ := Option.bind_eq_some_iff.1 h
    obtain ⟨r, hr, h⟩ := Option.bind_eq_some_iff.1 h
    cases h
    cases sweeper with
    | none =>
      cases hr
      cases hn
    | some x => exact fits_of_sweepSettings? (hin x (by simp)) hr hn
  · cases h

end Schema

variable {v : FileView} {cwd : Path}

namespace Setup

/-- The settle timeout is the number of milliseconds that the manifest gives, or the usual one. -/
theorem fits_settleTimeout {request : Request} {s : Setup} (h : resolve v cwd request = .ok s) :
    s.settleTimeout = .ofMillis s.settleTimeout.millis ∧
      fitsInt64 s.settleTimeout.millis = true := by
  obtain ⟨p, target, binary, hp, -, -, rfl⟩ := resolve_eq_ok_iff.1 h
  change p.manifest.settleTimeout = .ofMillis p.manifest.settleTimeout.millis ∧
    fitsInt64 p.manifest.settleTimeout.millis = true
  unfold Manifest.settleTimeout
  cases hms : p.manifest.sweeper.settleTimeoutMs with
  | none => exact ⟨rfl, by decide⟩
  | some n =>
    rw [Option.map_some, Option.getD_some, Duration.millis_ofMillis]
    refine ⟨rfl, ?_⟩
    obtain ⟨found, hfound, rfl⟩ := map_eq_ok_iff.1 hp
    match found with
    | none => cases hms
    | some (m, dir) =>
      obtain ⟨-, hfile, hload⟩ := Manifest.findIn_some hfound
      rw [FileView.isFile_eq_isSome_content?] at hfile
      obtain ⟨content, hcontent⟩ := Option.isSome_iff_exists.1 hfile
      obtain ⟨text, -, hm⟩ := (Manifest.reads_load hcontent).eq_ok_iff.1 hload
      obtain ⟨t, hread, hmanifest⟩ := Manifest.ofText?_eq_some_iff.1 hm
      exact Schema.fits_of_manifest? (Toml.inRange_of_read hread) hmanifest hms

end Setup

end RiscvBoot
