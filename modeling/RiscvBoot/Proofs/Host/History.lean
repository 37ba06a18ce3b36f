import RiscvBoot.Host.Basic
import RiscvBoot.Proofs.State

/-!
# What work on a host leaves behind

`h.Leads as g` says that `h` becomes `g` while exactly the attempts `as` are made, in this order.
Nothing else is done to the host on the way but logging, printing and waiting: the files and the
programs that can be found stay the same. Every piece of work is shown to lead somewhere once, and
longer work follows by `Leads.trans`.
-/

set_option autoImplicit false

namespace RiscvBoot

variable {α β : Type}

def Event.attempt? : Event → Option Attempt
  | .tried a => some a
  | _ => none

def Event.call? : Event → Option Call
  | .started c => some c
  | _ => none

namespace Host

/-- The attempts of the past, first things first. -/
def attempts (h : Host) : List Attempt := h.events.filterMap Event.attempt?

/-- The programs that were started in the past, first things first. -/
def calls (h : Host) : List Call := h.events.filterMap Event.call?

def callOf? (h : Host) (i : Invocation) : Option Call := (h.find i).toOption.map Startable.call

def callOfAttempt? (h : Host) (a : Attempt) : Option Call := h.callOf? a.invocation

/-- The attempt came out as this host lets it: it was refused for the reason for which the program
cannot be found, and otherwise the program was run. -/
def Answers (h : Host) (a : Attempt) : Prop :=
  ∀ e, a.result = .error e ↔ h.find a.invocation = .error e

/-- One host becomes the other while these attempts are made. -/
structure Leads (h : Host) (as : List Attempt) (g : Host) : Prop where
  view : g.toFileView = h.toFileView
  find : ∀ i, g.find i = h.find i
  attempts : g.attempts = h.attempts ++ as
  calls : g.calls = h.calls ++ as.filterMap h.callOfAttempt?
  answers : ∀ a ∈ as, h.Answers a

namespace Leads

theorem refl (h : Host) : h.Leads [] h := by
  refine ⟨rfl, fun _ => rfl, ?_, ?_, ?_⟩
  · simp
  · simp
  · simp

theorem trans {h g k : Host} {as bs : List Attempt} (hg : h.Leads as g) (gk : g.Leads bs k) :
    h.Leads (as ++ bs) k := by
  have hcall : g.callOfAttempt? = h.callOfAttempt? := by
    funext a
    simp only [callOfAttempt?, callOf?, hg.find]
  refine ⟨gk.view.trans hg.view, fun i => (gk.find i).trans (hg.find i), ?_, ?_, ?_⟩
  · rw [gk.attempts, hg.attempts, List.append_assoc]
  · rw [gk.calls, hg.calls, hcall, List.filterMap_append, List.append_assoc]
  · intro a ha
    rcases List.mem_append.1 ha with ha | ha
    · exact hg.answers a ha
    · intro e
      rw [← hg.find]
      exact gk.answers a ha e

end Leads

/-- What can be found depends on the files and on which of them are programs. -/
theorem find_congr {g h : Host} (hview : g.toFileView = h.toFileView)
    (hpath : g.searchPath = h.searchPath) (hroom : g.argumentRoom = h.argumentRoom)
    (hscripts : ∀ place, (g.scripts.lookup place).isSome = (h.scripts.lookup place).isSome)
    (i : Invocation) : g.find i = h.find i := by
  have hdir : g.childDir i = h.childDir i := by
    simp only [childDir, hview]
  simp only [find, wordSpace, hview, hpath, hroom, hscripts, hdir]

theorem isSome_lookup_cons_filter {place : Location} {scripts : List (Location × Script)}
    (h : (scripts.lookup place).isSome) (new : Script) (there : Location) :
    (((place, new) :: scripts.filter (·.1 ≠ place)).lookup there).isSome =
      (scripts.lookup there).isSome := by
  by_cases hthere : there = place
  · subst hthere
    simp [h]
  · have hne : (there == place) = false := by simpa using hthere
    rw [List.lookup_cons, hne, FileTree.lookup_filter_ne hthere]

end Host

/-- The file that was asked for is the program, or it names the file that is run instead. -/
theorem FileView.startable_cases {v : FileView} {isProgram : Location → Bool} {space room : Nat}
    {p : Path} {name : String} {args : List String} {s : Startable}
    (h : v.startable isProgram space room p name args = .ok s) :
    wordsFit space (name :: args) = true ∧ ∃ more, room = more + 1 ∧
      ((isProgram s.program ∧ s.dir = v.workDir ∧ s.args = args) ∨
        ∃ i : Interpreter, v.startable isProgram space more i.path i.program
          (i.argument.toList ++ p.text :: args) = .ok s) := by
  unfold FileView.startable at h
  simp only [bind, Except.bind, throw, throwThe, MonadExceptOf.throw] at h
  split at h
  · simp at h
  · split at h
    · simp at h
    · rename_i hfits
      refine ⟨by simpa using hfits, ?_⟩
      split at h
      · simp at h
      · rename_i more
        refine ⟨more, rfl, ?_⟩
        split at h
        · rename_i hprogram
          split at h
          · simp at h
          · obtain rfl := Except.ok.inj h
            exact .inl ⟨hprogram, rfl, rfl⟩
        · split at h
          · simp at h
          · rename_i i _
            split at h
            · simp at h
            · exact .inr ⟨i, h⟩

/-- What is started is a program, in the directory it was asked for in, and the arguments it was
asked for with are its last ones. -/
theorem FileView.startable_spec {v : FileView} {isProgram : Location → Bool} {space room : Nat}
    {p : Path} {name : String} {args : List String} {s : Startable}
    (h : v.startable isProgram space room p name args = .ok s) :
    isProgram s.program ∧ s.dir = v.workDir ∧ args <:+ s.args := by
  induction room generalizing p name args with
  | zero =>
    obtain ⟨-, _, hroom, _⟩ := FileView.startable_cases h
    omega
  | succ room ih =>
    obtain ⟨-, more, hroom, ⟨hprogram, hdir, hargs⟩ | ⟨i, hi⟩⟩ := FileView.startable_cases h
    · exact ⟨hprogram, hdir, hargs ▸ List.suffix_rfl⟩
    · obtain rfl : room = more := by omega
      obtain ⟨hprogram, hdir, hargs⟩ := ih hi
      refine ⟨hprogram, hdir, ?_⟩
      have hsuffix : args <:+ i.argument.toList ++ p.text :: args :=
        ⟨i.argument.toList ++ [p.text], by simp⟩
      exact hsuffix.trans hargs

theorem searchIn_ok {startable : Path → Except SystemError Startable} {name : String}
    {dirs : List Path} {fault : SystemError} {s : Startable}
    (h : searchIn startable name dirs fault = .ok s) :
    ∃ dir ∈ dirs, startable (inSearchDirectory dir name) = .ok s := by
  induction dirs generalizing fault with
  | nil => simp [searchIn, throw, throwThe, MonadExceptOf.throw] at h
  | cons dir dirs ih =>
    unfold searchIn at h
    split at h
    · rename_i found hfound
      obtain rfl := Except.ok.inj h
      exact ⟨dir, List.mem_cons_self, hfound⟩
    · split at h
      · simp [throw, throwThe, MonadExceptOf.throw] at h
      · obtain ⟨d, hd, hs⟩ := ih h
        exact ⟨d, List.mem_cons_of_mem dir hd, hs⟩

namespace Host

theorem find_spec {h : Host} {i : Invocation} {s : Startable} (hs : h.find i = .ok s) :
    (h.scripts.lookup s.program).isSome ∧ h.childDir i = .ok s.dir ∧ i.args <:+ s.args := by
  unfold find at hs
  simp only [bind, Except.bind, throw, throwThe, MonadExceptOf.throw] at hs
  split at hs
  · simp at hs
  · split at hs
    · simp at hs
    · rename_i dir hdir
      have hspec {p : Path} {v : FileView} (hv : v.workDir = dir)
          (hp : v.startable (fun here => (h.scripts.lookup here).isSome) (h.wordSpace p i.args)
            interpreterLimit p i.program i.args = .ok s) :
          (h.scripts.lookup s.program).isSome ∧ h.childDir i = .ok s.dir ∧ i.args <:+ s.args := by
        obtain ⟨hprogram, hplace, hargs⟩ := FileView.startable_spec hp
        refine ⟨hprogram, ?_, hargs⟩
        rw [hdir, hplace, hv]
      split at hs
      · simp at hs
      · split at hs
        · exact hspec rfl hs
        · obtain ⟨_, _, hd⟩ := searchIn_ok hs
          exact hspec rfl hd

/-- The program of an attempt gets the arguments of the attempt, after those that a file on the way
to it puts before them, and runs in the directory of the attempt. -/
theorem callOf?_spec {h : Host} {i : Invocation} {c : Call} (hc : h.callOf? i = some c) :
    i.args <:+ c.args ∧ h.childDir i = .ok c.workDir := by
  unfold callOf? at hc
  cases hs : h.find i with
  | error e => simp [hs, Except.toOption] at hc
  | ok s =>
    obtain rfl : s.call = c := by simpa [hs, Except.toOption] using hc
    obtain ⟨_, hdir, hargs⟩ := find_spec hs
    exact ⟨hargs, hdir⟩

/-- An attempt that came out as the host lets it has started a program unless it was refused. -/
theorem isSome_callOfAttempt? {h : Host} {a : Attempt} (ha : h.Answers a) :
    (h.callOfAttempt? a).isSome ↔ ∃ status, a.result = .ok status := by
  unfold callOfAttempt? callOf?
  cases hresult : a.result with
  | error e => simp [(ha e).1 hresult, Except.toOption]
  | ok status =>
    cases hfind : h.find a.invocation with
    | error e =>
      rw [(ha e).2 hfind] at hresult
      cases hresult
    | ok s => simp [Except.toOption]

theorem run_start_error {h : Host} {i : Invocation} {e : SystemError} (he : h.find i = .error e) :
    (start i).run h = (.error e, { h with events := h.events ++ [.tried ⟨i, .error e⟩] }) := by
  unfold start
  rw [run_bind, run_get]
  dsimp only
  rw [he]
  rfl

theorem run_start_ok {h : Host} {i : Invocation} {s : Startable} (hs : h.find i = .ok s) :
    let script := (h.scripts.lookup s.program).getD {}
    (start i).run h =
      (.ok ⟨script.ending, script.output⟩,
        { h with
          scripts := (s.program, script.advance) :: h.scripts.filter (·.1 ≠ s.program)
          events := h.events ++ [.started s.call] ++ [.tried ⟨i, .ok script.ending⟩] }) := by
  intro script
  unfold start
  rw [run_bind, run_get]
  dsimp only
  rw [hs]
  rfl

theorem leads_start (h : Host) (i : Invocation) :
    h.Leads [⟨i, ((start i).run h).1.map Finished.status⟩] ((start i).run h).2 := by
  cases hfind : h.find i with
  | error e =>
    rw [run_start_error hfind]
    refine ⟨rfl, fun _ => rfl, ?_, ?_, ?_⟩
    · simp [attempts, Event.attempt?, Except.map]
    · simp [calls, Event.call?, callOfAttempt?, callOf?, hfind, Except.toOption]
    · simp [Answers, hfind, Except.map]
  | ok s =>
    rw [run_start_ok hfind]
    refine ⟨rfl, ?_, ?_, ?_, ?_⟩
    · exact find_congr rfl rfl rfl (isSome_lookup_cons_filter (find_spec hfind).1 _)
    · simp only [attempts, List.filterMap_append, List.append_assoc]
      rfl
    · simp [calls, Event.call?, callOfAttempt?, callOf?, hfind, Except.toOption]
    · simp [Answers, hfind, Except.map]

theorem leads_record (h : Host) {e : Event} (hattempt : e.attempt? = none)
    (hcall : e.call? = none) : h.Leads [] ((record e).run h).2 := by
  refine ⟨rfl, fun _ => rfl, ?_, ?_, ?_⟩
  · change ((h.events ++ [e]).filterMap Event.attempt?) = _
    simp [attempts, hattempt]
  · change ((h.events ++ [e]).filterMap Event.call?) = _
    simp [calls, hcall]
  · simp

def log (h : Host) (r : Log.Record) : Host := { h with events := h.events ++ [.logged r] }

theorem run_info (h : Host) (text : String) :
    (Log.info text : HostM Unit).run h = ((), h.log ⟨.info, .boot, text⟩) := rfl

theorem run_debug (h : Host) (text : String) :
    (Log.debug text : HostM Unit).run h = ((), h.log ⟨.debug, .boot, text⟩) := rfl

theorem leads_log (h : Host) (r : Log.Record) : h.Leads [] (h.log r) := leads_record h rfl rfl

theorem Leads.log {h g : Host} {as : List Attempt} (hg : h.Leads as g) (r : Log.Record) :
    h.Leads as (g.log r) := by
  have hboth := hg.trans (leads_log g r)
  rwa [List.append_nil] at hboth

theorem leads_print (h : Host) (text : String) : h.Leads [] ((print text).run h).2 :=
  leads_record h rfl rfl

theorem leads_pause (h : Host) (d : Duration) :
    h.Leads [] ((ProcessControl.pause d : HostM Unit).run h).2 := by
  refine ⟨rfl, fun _ => rfl, ?_, ?_, ?_⟩
  · exact (List.append_nil _).symm
  · exact (List.append_nil _).symm
  · simp

theorem run_runQuietly (h : Host) (program : String) (args : List String) :
    (ProcessControl.runQuietly program args : HostM _).run h =
      (((start { program, args }).run h).1.map Finished.status,
        ((start { program, args }).run h).2) := by
  change ((start { program, args } >>= _ : HostM _)).run h = _
  rw [run_bind]
  cases ((start { program, args }).run h).1 <;> rfl

theorem leads_runQuietly (h : Host) (program : String) (args : List String) :
    let r := (ProcessControl.runQuietly program args : HostM _).run h
    h.Leads [⟨{ program, args }, r.1⟩] r.2 := by
  rw [run_runQuietly]
  exact leads_start h { program, args }

theorem leads_runShown (h : Host) (i : Invocation) :
    h.Leads [⟨i, ((runShown i).run h).1⟩] ((runShown i).run h).2 := by
  have hstart := leads_start h i
  unfold runShown
  rw [run_bind]
  cases hresult : ((start i).run h).1 with
  | error e =>
    rw [hresult] at hstart
    exact hstart
  | ok finished =>
    rw [hresult] at hstart
    exact hstart.trans (leads_print _ finished.output)

/-- Work that comes out the same whatever has happened before. -/
def Blind (x : HostM α) : Prop :=
  ∀ (h : Host) (es : List Event), (x.run { h with events := es }).1 = (x.run h).1 ∧
    ∃ es', (x.run { h with events := es }).2 = { (x.run h).2 with events := es' }

namespace Blind

theorem pure (a : α) : Blind (Pure.pure a : HostM α) := fun _ es => ⟨rfl, es, rfl⟩

theorem bind {x : HostM α} {f : α → HostM β} (hx : Blind x) (hf : ∀ a, Blind (f a)) :
    Blind (x >>= f) := by
  intro h es
  obtain ⟨hvalue, es', hhost⟩ := hx h es
  rw [run_bind, run_bind, hvalue, hhost]
  exact hf _ _ es'

theorem record (e : Event) : Blind (Host.record e) := fun _ es => ⟨rfl, es ++ [e], rfl⟩

theorem now : Blind (ProcessControl.now : HostM Instant) := fun _ es => ⟨rfl, es, rfl⟩

theorem pause (d : Duration) : Blind (ProcessControl.pause d : HostM Unit) :=
  fun _ es => ⟨rfl, es, rfl⟩

theorem start (i : Invocation) : Blind (Host.start i) := by
  intro h es
  have hsame : Host.find { h with events := es } i = h.find i := rfl
  cases hfind : h.find i with
  | error e =>
    rw [run_start_error hfind, run_start_error (hsame.trans hfind)]
    exact ⟨rfl, _, rfl⟩
  | ok s =>
    rw [run_start_ok hfind, run_start_ok (hsame.trans hfind)]
    exact ⟨rfl, _, rfl⟩

theorem runQuietly (program : String) (args : List String) :
    Blind (ProcessControl.runQuietly program args : HostM _) := by
  refine bind (start { program, args }) fun r => ?_
  cases r with
  | error e => exact pure (Except.error e)
  | ok finished => exact pure (Except.ok finished.status)

end Blind
end Host

end RiscvBoot
