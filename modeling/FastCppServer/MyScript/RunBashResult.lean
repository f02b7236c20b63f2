import FastCppServer.MyScript.RunBash

/-!
# What `runBash` gives back

Where it returns, the script has been waited for and no pipe end is open (`Safe`). If only the
script has written, the result is what the script did, unless the parent looked at the clock after
the timeout and before it waited for the script: then a script that ended in time is taken for one
that was killed (`delivered_iff`).
-/

namespace MyScript

open Transition

variable {timeout : Int} {s t : State} {l : Label}

/-! ## The script and the pipes -/

/-- What the script can be, by the next call. -/
def ScriptAt (timedOut : Bool) (script : Script) : Pc → Prop
  | .pipeOut | .pipeErr | .fork => timedOut = false ∧ script = .none
  | .closeWrite | .top | .poll | .readOut _ _ | .readErr _ | .wait =>
    timedOut = false ∧ (script = .running ∨ ∃ status, script = .ended status)
  | .drainOut | .drainErr | .close =>
    if timedOut then ∃ status, script = .ended status else ∃ status, script = .reaped status
  | .waitKilled => timedOut = true ∧ ∃ status, script = .ended status
  | .returned => script = .none ∨ ∃ status, script = .reaped status

/-- The pipe ends that are open at each point of the call. -/
def fdsAt : Pc → List End
  | .pipeOut => []
  | .pipeErr => [.outRead, .outWrite]
  | .fork | .closeWrite => [.outRead, .outWrite, .errRead, .errWrite]
  | .waitKilled | .returned => []
  | _ => [.outRead, .errRead]

/-- The clock has not been read. -/
def unstarted : Pc → Bool
  | .pipeOut | .pipeErr | .fork | .closeWrite => true
  | _ => false

/-- The invariant: the script is as far as the call can know, and exactly the pipe ends of this
point are open. -/
structure Safe (s : State) : Prop where
  script : ScriptAt s.result.timedOut s.script s.pc
  fds : s.fds = fdsAt s.pc
  start : unstarted s.pc = true → s.start = none

/-- It holds at the beginning of the call. -/
theorem init_safe : Safe init := ⟨⟨rfl, rfl⟩, rfl, fun _ => rfl⟩

/-- What one output changes. -/
theorem put_eq {toErr : Bool} {bytes : List UInt8} (h : put s toErr bytes = some t) :
    t = { s with out := t.out, err := t.err, total := s.total + bytes.length } ∧
      t.out.length + t.err.length = s.out.length + s.err.length + bytes.length ∧
      ((toErr = true ∧ .errRead ∈ s.fds ∧ t.out = s.out ∧ t.err = s.err ++ bytes) ∨
        (toErr = false ∧ .outRead ∈ s.fds ∧ t.out = s.out ++ bytes ∧ t.err = s.err)) := by
  rw [put] at h
  cases toErr with
  | true =>
    rw [if_pos rfl] at h
    split at h
    · next hfd =>
      cases h
      refine ⟨rfl, ?_, .inl ⟨rfl, hfd, rfl, rfl⟩⟩
      dsimp only
      rw [List.length_append]
      omega
    · cases h
  | false =>
    rw [if_neg Bool.false_ne_true] at h
    split at h
    · next hfd =>
      cases h
      refine ⟨rfl, ?_, .inr ⟨rfl, hfd, rfl, rfl⟩⟩
      dsimp only
      rw [List.length_append]
      omega
    · cases h

/-- A script that has been started is ended by the kill. -/
theorem kill_cases {script : Script} (h : script = .running ∨ ∃ status, script = .ended status) :
    ∃ status, script.kill = .ended status := by
  rcases h with rfl | ⟨status, rfl⟩
  · exact ⟨_, rfl⟩
  · exact ⟨status, rfl⟩

/-- **The parent's calls.** -/
theorem Safe.call (h : Safe s) (ok : Bool) (n : Nat) : Safe (call timeout s ok n) := by
  obtain ⟨hscript, hfds, hstart⟩ := h
  have hno : ∀ {p : Prop}, false = true → p := fun h => absurd h Bool.false_ne_true
  rw [MyScript.call]
  cases hpc : s.pc <;> rw [hpc] at hscript hfds hstart <;> dsimp only
  case pipeOut =>
    split
    · exact ⟨hscript, rfl, hstart⟩
    · exact ⟨.inl hscript.2, hfds, hno⟩
  case pipeErr =>
    split
    · exact ⟨hscript, by rw [hfds]; rfl, hstart⟩
    · exact ⟨.inl hscript.2, rfl, hno⟩
  case fork =>
    split
    · exact ⟨⟨hscript.1, .inl rfl⟩, hfds, hstart⟩
    · exact ⟨.inl hscript.2, rfl, hno⟩
  case closeWrite => exact ⟨hscript, by rw [hfds]; rfl, hno⟩
  case top =>
    split
    · exact ⟨kill_cases hscript.2, hfds, hno⟩
    · exact ⟨hscript, hfds, hno⟩
  case poll => split <;> exact ⟨hscript, hfds, hno⟩
  case readOut out err => cases out <;> exact ⟨hscript, hfds, hno⟩
  case readErr err => cases err <;> exact ⟨hscript, hfds, hno⟩
  case wait =>
    split
    · next status hended =>
      refine ⟨?_, hfds, hno⟩
      dsimp only [ScriptAt]
      rw [hscript.1]
      exact ⟨status, rfl⟩
    · exact ⟨hscript, hfds, hno⟩
  case drainOut =>
    split
    · exact ⟨hscript, hfds, hno⟩
    · rw [← hpc] at hscript hfds hstart
      exact ⟨hscript, hfds, hstart⟩
  case drainErr =>
    split
    · exact ⟨hscript, hfds, hno⟩
    · rw [← hpc] at hscript hfds hstart
      exact ⟨hscript, hfds, hstart⟩
  case close =>
    cases htimedOut : s.result.timedOut <;> rw [htimedOut] at hscript
    · exact ⟨.inr hscript, by rw [hfds]; rfl, hno⟩
    · exact ⟨⟨htimedOut, hscript⟩, by rw [hfds]; rfl, hno⟩
  case waitKilled =>
    obtain ⟨-, status, hstatus⟩ := hscript
    rw [hstatus]
    exact ⟨.inr ⟨status, rfl⟩, hfds, hno⟩
  case returned =>
    rw [← hpc] at hscript hfds hstart
    exact ⟨hscript, hfds, hstart⟩

/-- A script that runs may end where it may run. -/
theorem ScriptAt.exit {timedOut : Bool} {pc : Pc} {status : Status}
    (h : ScriptAt timedOut .running pc) : ScriptAt timedOut (.ended status) pc := by
  cases pc <;> simp_all [ScriptAt]

/-- **What one step keeps.** -/
theorem Safe.step (h : Safe s) (hstep : step timeout s l = some t) : Safe t := by
  cases l with
  | tick ms => cases hstep; exact ⟨h.script, h.fds, h.start⟩
  | exit status =>
    rw [MyScript.step] at hstep
    split at hstep
    · next hrunning =>
      cases hstep
      have hscript := h.script
      rw [hrunning] at hscript
      exact ⟨hscript.exit, h.fds, h.start⟩
    · cases hstep
  | write toErr bytes =>
    rw [MyScript.step] at hstep
    split at hstep
    · obtain ⟨m, hm, rfl⟩ := Option.map_eq_some_iff.1 hstep
      obtain ⟨heq, -⟩ := put_eq hm
      rw [heq]
      cases toErr <;> exact ⟨h.script, h.fds, h.start⟩
    · cases hstep
  | others toErr bytes =>
    rw [MyScript.step] at hstep
    split at hstep
    · cases hstep
    · obtain ⟨heq, -⟩ := put_eq hstep
      rw [heq]
      exact ⟨h.script, h.fds, h.start⟩
  | call ok n =>
    cases hstep
    exact h.call ok n

/-- The invariant holds in every state of a call. -/
theorem run_safe {ls : List Label} (h : run (step timeout) init ls = some s) : Safe s :=
  run_invariant (fun _ _ _ hs => hs.step) init_safe h

/-! ## The result -/

/-- The result is what the script did. -/
def Delivered (s : State) : Prop :=
  s.result.stdoutStr = s.outWritten ∧ s.result.stderrStr = s.errWritten ∧
    s.result.timedOut = false ∧
      ∃ status, s.script = .reaped status ∧ s.result.exitCode = status.code

/-- The parent looks at the clock when the timeout has passed. -/
def LooksLate (timeout : Int) (s : State) (l : Label) : Prop :=
  (∃ ok n, l = .call ok n) ∧ s.pc = .top ∧ expired timeout s = true

/-- The script does not run, and there is nothing in its output. -/
def quietOut : Pc → Bool
  | .pipeOut | .pipeErr | .fork | .drainErr | .close | .waitKilled | .returned => true
  | _ => false

/-- And not in its errors. -/
def quietErr : Pc → Bool
  | .pipeOut | .pipeErr | .fork | .close | .waitKilled | .returned => true
  | _ => false

/-- What is read, and what is in the pipes, is what the script has written. -/
structure Exact (s : State) : Prop where
  timedOut : s.result.timedOut = false
  out : s.result.stdoutStr ++ s.out = s.outWritten
  err : s.result.stderrStr ++ s.err = s.errWritten
  code : ∀ status, s.script = .reaped status → s.result.exitCode = status.code
  out_nil : quietOut s.pc = true → s.out = []
  err_nil : quietErr s.pc = true → s.err = []

/-- Before anything is read the result is exact. -/
theorem init_exact : Exact init where
  timedOut := rfl
  out := rfl
  err := rfl
  code _ h := by cases h
  out_nil _ := rfl
  err_nil _ := rfl

/-- Where nothing more can come on the error output, nothing can on the standard output. -/
theorem quietOut_of_quietErr {pc : Pc} (h : quietErr pc = true) : quietOut pc = true := by
  cases pc <;> first | rfl | cases h

/-- Where nothing more can come on the standard output, the script is not running. -/
theorem not_running_of_quiet (hs : Safe s) (h : quietOut s.pc = true) : s.script ≠ .running := by
  intro hrunning
  have hscript := hs.script
  rw [hrunning] at hscript
  cases hpc : s.pc <;> rw [hpc] at h hscript <;> simp_all [quietOut, ScriptAt]

/-- Reading the standard output keeps the result exact. -/
theorem readOut_exact {n : Nat} (h : Exact s) : Exact (readOut s n) where
  timedOut := h.timedOut
  out := by
    have hout := h.out
    rw [readOut]
    dsimp only
    rw [List.append_assoc, List.take_append_drop, hout]
  err := h.err
  code := h.code
  out_nil hq := by
    rw [readOut]
    dsimp only
    rw [h.out_nil hq, List.drop_nil]
  err_nil := h.err_nil

/-- So does reading the error output. -/
theorem readErr_exact {n : Nat} (h : Exact s) : Exact (readErr s n) where
  timedOut := h.timedOut
  out := h.out
  err := by
    have herr := h.err
    rw [readErr]
    dsimp only
    rw [List.append_assoc, List.take_append_drop, herr]
  code := h.code
  out_nil := h.out_nil
  err_nil hq := by
    rw [readErr]
    dsimp only
    rw [h.err_nil hq, List.drop_nil]

/-- Another call is next. -/
theorem Exact.at (h : Exact s) {pc : Pc} {fds : List End} {start : Option Nat}
    (hout : quietOut pc = true → s.out = []) (herr : quietErr pc = true → s.err = []) :
    Exact { s with pc, fds, start } :=
  { h with out_nil := hout, err_nil := herr }

/-- And so does each step of the call that does not look late. -/
theorem Exact.call (hs : Safe s) (h : Exact s) {ok : Bool} {n : Nat}
    (hlate : ¬ LooksLate timeout s (.call ok n)) : Exact (MyScript.call timeout s ok n) := by
  have hfalse : ∀ {p : Prop}, false = true → p := fun h => absurd h Bool.false_ne_true
  have hout := h.out_nil
  have herr := h.err_nil
  rw [MyScript.call]
  cases hpc : s.pc <;> rw [hpc] at hout herr <;> dsimp only
  case pipeOut => split <;> exact h.at (fun _ => hout rfl) (fun _ => herr rfl)
  case pipeErr => split <;> exact h.at (fun _ => hout rfl) (fun _ => herr rfl)
  case fork =>
    split
    · refine { h with code := fun status hstatus => ?_, out_nil := hfalse, err_nil := hfalse }
      cases hstatus
    · exact h.at (fun _ => hout rfl) (fun _ => herr rfl)
  case closeWrite => exact h.at hfalse hfalse
  case top =>
    split
    · next hexpired => exact absurd ⟨⟨ok, n, rfl⟩, hpc, hexpired⟩ hlate
    · exact h.at hfalse hfalse
  case poll => split <;> exact h.at hfalse hfalse
  case readOut out err =>
    cases out
    · exact h.at hfalse hfalse
    · exact (readOut_exact h).at hfalse hfalse
  case readErr err =>
    cases err
    · exact h.at hfalse hfalse
    · exact (readErr_exact h).at hfalse hfalse
  case wait =>
    split
    · refine { h with code := fun status hstatus => ?_, out_nil := hfalse, err_nil := hfalse }
      cases hstatus
      rfl
    · exact h.at hfalse hfalse
  case drainOut =>
    split
    · next hnil => exact h.at (fun _ => hnil) hfalse
    · exact readOut_exact h
  case drainErr =>
    split
    · next hnil => exact h.at (fun _ => hout rfl) (fun _ => hnil)
    · exact readErr_exact h
  case close =>
    split <;> exact h.at (fun _ => hout rfl) (fun _ => herr rfl)
  case waitKilled =>
    -- the parent comes here after a timeout only
    have hscript := hs.script
    rw [hpc] at hscript
    rw [h.timedOut] at hscript
    cases hscript.1
  case returned => exact h

/-- A step that none but the script and the parent take. -/
theorem Exact.step (hs : Safe s) (h : Exact s) (hothers : ∀ toErr bytes, l ≠ .others toErr bytes)
    (hlate : ¬ LooksLate timeout s l) (hstep : step timeout s l = some t) : Exact t := by
  cases l with
  | tick ms => cases hstep; exact { h with }
  | exit status =>
    rw [MyScript.step] at hstep
    split at hstep
    · cases hstep
      exact { h with code := fun status hstatus => by cases hstatus }
    · cases hstep
  | write toErr bytes =>
    rw [MyScript.step] at hstep
    split at hstep
    · next hrunning =>
      obtain ⟨m, hm, rfl⟩ := Option.map_eq_some_iff.1 hstep
      have hout : quietOut s.pc = true → m.out = [] := fun hq =>
        absurd hrunning (not_running_of_quiet hs hq)
      have herr : quietErr s.pc = true → m.err = [] := fun hq =>
        absurd hrunning (not_running_of_quiet hs (quietOut_of_quietErr hq))
      obtain ⟨heq, -, ⟨rfl, -, hmout, hmerr⟩ | ⟨rfl, -, hmout, hmerr⟩⟩ := put_eq hm
      · rw [heq]
        refine { h with out := ?_, err := ?_, out_nil := hout, err_nil := herr }
        · exact hmout ▸ h.out
        · have hbytes : s.result.stderrStr ++ m.err = s.errWritten ++ bytes := by
            rw [hmerr, ← List.append_assoc, h.err]
          exact hbytes
      · rw [heq]
        refine { h with out := ?_, err := ?_, out_nil := hout, err_nil := herr }
        · have hbytes : s.result.stdoutStr ++ m.out = s.outWritten ++ bytes := by
            rw [hmout, ← List.append_assoc, h.out]
          exact hbytes
        · exact hmerr ▸ h.err
    · cases hstep
  | others toErr bytes => exact absurd rfl (hothers toErr bytes)
  | call ok n =>
    cases hstep
    exact h.call hs hlate

/-- A timeout is not taken back. -/
theorem timedOut_step (h : s.result.timedOut = true) (hstep : step timeout s l = some t) :
    t.result.timedOut = true := by
  cases l with
  | tick ms => cases hstep; exact h
  | exit status =>
    rw [MyScript.step] at hstep
    split at hstep <;> cases hstep
    exact h
  | write toErr bytes =>
    rw [MyScript.step] at hstep
    split at hstep
    · obtain ⟨m, hm, rfl⟩ := Option.map_eq_some_iff.1 hstep
      rw [(put_eq hm).1]
      cases toErr <;> exact h
    · cases hstep
  | others toErr bytes =>
    rw [MyScript.step] at hstep
    split at hstep
    · cases hstep
    · rw [(put_eq hstep).1]
      exact h
  | call ok n =>
    cases hstep
    rw [MyScript.call]
    cases s.pc <;> dsimp only
    case readOut out err => cases out <;> exact h
    case readErr err => cases err <;> exact h
    all_goals
      first
      | exact h
      | (split <;> first | exact h | rfl)

/-- A step that looks late reports the timeout. -/
theorem timedOut_of_looksLate (hlate : LooksLate timeout s l) (hstep : step timeout s l = some t) :
    t.result.timedOut = true := by
  obtain ⟨⟨ok, n, rfl⟩, hpc, hexpired⟩ := hlate
  cases hstep
  rw [MyScript.call, hpc]
  dsimp only
  rw [if_pos hexpired]

/-- **The result, exactly**: where only the script writes, it is what the script did just if the
parent never looks at the clock too late. -/
theorem delivered_iff {ls : List Label} (hrun : run (step timeout) init ls = some s)
    (hothers : ∀ toErr bytes, .others toErr bytes ∉ ls) (hreturned : s.pc = .returned)
    (hforked : s.script ≠ .none) :
    Delivered s ↔ Along (step timeout) (fun s l => ¬ LooksLate timeout s l) init ls := by
  constructor
  · intro hdelivered
    rw [along_iff]
    intro pre l post hls m hm hlate
    obtain ⟨t, ht, hpost⟩ := step_of_run hrun hls hm
    have htimedOut := run_invariant (P := fun s : State => s.result.timedOut = true)
      (fun _ _ _ => timedOut_step) (timedOut_of_looksLate hlate ht) hpost
    rw [hdelivered.2.2.1] at htimedOut
    cases htimedOut
  · intro hlate
    have hboth : Along (step timeout)
        (fun s l => ¬ LooksLate timeout s l ∧ ∀ toErr bytes, l ≠ .others toErr bytes) init ls := by
      rw [along_iff] at hlate ⊢
      intro pre l post hls m hm
      refine ⟨hlate pre l post hls m hm, fun toErr bytes hl => hothers toErr bytes ?_⟩
      rw [hls, hl]
      exact List.mem_append_right pre List.mem_cons_self
    have hexact : Safe s ∧ Exact s := run_along (P := fun s => Safe s ∧ Exact s)
      (fun _ _ _ hC hP hstep => ⟨hP.1.step hstep, hP.2.step hP.1 hC.2 hC.1 hstep⟩)
      ⟨init_safe, init_exact⟩ hboth hrun
    obtain ⟨hsafe, hexact⟩ := hexact
    have hscript := hsafe.script
    have hout := hexact.out
    have herr := hexact.err
    rw [hexact.out_nil (by rw [hreturned]; rfl), List.append_nil] at hout
    rw [hexact.err_nil (by rw [hreturned]; rfl), List.append_nil] at herr
    rw [hreturned] at hscript
    obtain ⟨status, hstatus⟩ := hscript.resolve_left hforked
    exact ⟨hout, herr, hexact.timedOut, status, hstatus, hexact.code status hstatus⟩

end MyScript
