import FastCppServer.MyScript.RunBashReturns

/-!
# `runBash` against its purpose

A script run is to give back all that the script did, and to return once the script has ended or its
timeout has passed. Both can fail. A script that ends in time between the parent's `waitpid` and its
look at the clock is taken for one that was killed, and its exit status is lost. And the loops after
the main one go on as long as a descendant of the script fills the pipes.
-/

namespace MyScript

open Transition

variable {timeout : Int} {s : State}

/-- **The script runs of `runBash`.** At its return the child is reaped and every pipe end is
closed. The result of a script that ended in time is what it did just if the parent did not look at
the clock too late, and once it is due the parent returns just if the bytes in the pipes come to an
end. -/
theorem runBash_exact_iff {ls : List Label} (hrun : run (step timeout) init ls = some s) :
    (s.pc = .returned →
      s.fds = [] ∧ (s.script = .none ∨ ∃ status, s.script = .reaped status)) ∧
    (s.pc = .returned → s.script ≠ .none → (∀ toErr bytes, .others toErr bytes ∉ ls) →
      s.inTime = true →
      (Delivered s ↔ Along (step timeout) (fun s l => ¬ LooksLate timeout s l) init ls)) ∧
    (Due timeout s → ∀ e : Execution (step timeout), e.state 0 = s →
      e.Fair isCall (fun s => s.pc = .returned) →
      ((∃ i, (e.state i).pc = .returned) ↔ ∃ N, ∀ i, (e.state i).total ≤ N)) := by
  have hsafe := run_safe hrun
  refine ⟨?_, ?_, ?_⟩
  · intro hreturned
    have hfds := hsafe.fds
    have hscript := hsafe.script
    rw [hreturned] at hfds hscript
    exact ⟨hfds, hscript⟩
  · intro hreturned hforked hothers _
    exact delivered_iff hrun hothers hreturned hforked
  · intro hdue e h0 hfair
    exact returns_iff hsafe hdue h0 hfair

/-- The parent up to the top of its loop. -/
def started : List Label := [.call true 0, .call true 0, .call true 0, .call true 0]

/-- The script ends a millisecond before its timeout of a second, and the parent looks a millisecond
later. -/
def lateLook : List Label :=
  started ++ [.call true 0, .call false 0, .call true 0, .tick 999, .exit (.exited 0), .tick 1,
    .call true 0, .call true 0, .call true 0, .call true 0, .call true 0]

/-- The first loop after the main one, when `k` bytes have been read in it. -/
def draining (k : Nat) (filled : Bool) : State where
  script := .reaped (.exited 0)
  out := if filled then [0] else []
  total := if filled then k + 1 else k
  inTime := true
  pc := .drainOut
  fds := [.outRead, .errRead]
  start := some 0
  result := { exitCode := 0, stdoutStr := List.replicate k 0 }

theorem draining_fill (timeout : Int) (k : Nat) :
    step timeout (draining k false) (.others false [0]) = some (draining k true) := rfl

theorem draining_read (timeout : Int) (k : Nat) :
    step timeout (draining k true) (.call true 1) = some (draining (k + 1) false) := by
  have hgrow : List.replicate k (0 : UInt8) ++ [0] = List.replicate (k + 1) 0 :=
    List.replicate_succ'.symm
  rw [draining, draining, ← hgrow]
  rfl

/-- A descendant of the script that writes a byte whenever the parent has read one. -/
def endless (timeout : Int) : Execution (step timeout) where
  state i := draining (i / 2) (i % 2 = 1)
  label i := if i % 2 = 1 then .call true 1 else .others false [0]
  next i := by
    rcases Nat.mod_two_eq_zero_or_one i with h | h
    · have hdiv : (i + 1) / 2 = i / 2 := by omega
      have hmod : (i + 1) % 2 = 1 := by omega
      rw [hdiv, hmod, h]
      exact draining_fill timeout (i / 2)
    · have hdiv : (i + 1) / 2 = i / 2 + 1 := by omega
      have hmod : (i + 1) % 2 = 0 := by omega
      rw [hdiv, hmod, h]
      exact draining_read timeout (i / 2)

theorem endless_fair (timeout : Int) (goal : State → Prop) :
    (endless timeout).Fair isCall goal := by
  intro i
  refine ⟨2 * i + 1, by omega, .inl ⟨true, 1, ?_⟩⟩
  have hmod : (2 * i + 1) % 2 = 1 := by omega
  exact if_pos hmod

/-- The script ends at once, and the parent comes to the first loop after the main one. -/
def endedAtOnce : List Label :=
  started ++ [.call true 0, .exit (.exited 0), .call false 0, .call true 0]

theorem endedAtOnce_run : run (step 0) init endedAtOnce = some (draining 0 false) := rfl

theorem endless_due : Due 0 ((endless 0).state 0) := .inl ⟨.exited 0, .inr rfl⟩

/-- A script that writes to both pipes and exits with 3, read in one go. -/
def plainRun : List Label :=
  started ++ [.call true 0, .write false [104, 105], .write true [33], .call true 0,
    .call true 4096, .call true 4096, .exit (.exited 3), .call true 0, .call true 0,
    .call true 0, .call true 0]

def plainEnd : State where
  script := .reaped (.exited 3)
  outWritten := [104, 105]
  errWritten := [33]
  total := 3
  inTime := true
  pc := .returned
  start := some 0
  result := { exitCode := 3, stdoutStr := [104, 105], stderrStr := [33] }

theorem runBash_exact_plain :
    (Delivered plainEnd ∧
      Along (step 5) (fun s l => ¬ LooksLate 5 s l) init plainRun) ∧
    ((∃ i, ((endless 0).state i).pc = .returned) ↔
      ∃ N, ∀ i, ((endless 0).state i).total ≤ N) := by
  have hrun : run (step 5) init plainRun = some plainEnd := rfl
  have hothers : ∀ toErr bytes, .others toErr bytes ∉ plainRun := by
    intro toErr bytes h
    simp [plainRun, started] at h
  have hdelivered : Delivered plainEnd := ⟨rfl, rfl, rfl, .exited 3, rfl, rfl⟩
  refine ⟨⟨hdelivered, ?_⟩, ?_⟩
  · refine ((runBash_exact_iff hrun).2.1 rfl ?_ hothers rfl).1 hdelivered
    intro hnone
    cases hnone
  · exact (runBash_exact_iff endedAtOnce_run).2.2 endless_due (endless 0) rfl (endless_fair 0 _)

/-- A script that ends in time is said to have timed out, and a `runBash` whose script has ended
does not return. -/
theorem runBash_not_exact :
    (∃ s, run (step 1) init lateLook = some s ∧ s.pc = .returned ∧
      (∀ toErr bytes, .others toErr bytes ∉ lateLook) ∧ s.inTime = true ∧
      s.script = .reaped (.exited 0) ∧ s.result.timedOut = true ∧ s.result.exitCode = -1 ∧
      ¬ Delivered s) ∧
    ∃ e : Execution (step 0), run (step 0) init endedAtOnce = some (e.state 0) ∧
      Due 0 (e.state 0) ∧ e.Fair isCall (fun s => s.pc = .returned) ∧
      ∀ i, (e.state i).pc ≠ .returned := by
  refine ⟨⟨_, rfl, rfl, ?_, rfl, rfl, rfl, rfl, ?_⟩, endless 0, endedAtOnce_run, endless_due,
    endless_fair 0 _, ?_⟩
  · intro toErr bytes h
    simp [lateLook, started] at h
  · intro hdelivered
    cases hdelivered.2.2.1
  · intro i hreturned
    cases hreturned

end MyScript
