import FastCppServer.MyScript.RunBashResult

/-!
# Whether `runBash` returns

Once the script has ended, or its timeout has passed, the loop is left after a few calls. The loops
that drain the pipes go on as long as there is something in them, and each `read` takes a byte at
least: so `runBash` returns just if the bytes that are written to the pipes come to an end, and the
processes that have inherited the pipes need not let them (`returns_iff`).
-/

namespace MyScript

open Transition

variable {timeout : Int} {s t : State} {l : Label}

/-- The script has ended, or its timeout has passed. -/
def Due (timeout : Int) (s : State) : Prop :=
  (∃ status, s.script = .ended status ∨ s.script = .reaped status) ∨ expired timeout s = true

/-- Of the two, the timeout. -/
def DueBy (timeout : Int) (s : State) : Bool → Prop
  | true => expired timeout s = true
  | false => ∃ status, s.script = .ended status ∨ s.script = .reaped status

/-- The calls that are left, at most. A timeout that has passed is seen at the top of the loop, the
end of the script at its bottom. -/
def callsLeft (overdue : Bool) : Pc → Nat
  | .pipeOut => 14
  | .pipeErr => 13
  | .fork => 12
  | .closeWrite => 11
  | .top => if overdue then 5 else 10
  | .poll => 9
  | .readOut _ _ => 8
  | .readErr _ => 7
  | .wait => 6
  | .drainOut => 4
  | .drainErr => 3
  | .close => 2
  | .waitKilled => 1
  | .returned => 0

/-- These calls, and a `read` for each byte. -/
def weight (overdue : Bool) (s : State) : Nat :=
  callsLeft overdue s.pc + (s.out.length + s.err.length)

/-- A `read` takes a byte at least, if there is one. -/
theorem length_drop_taken (n : Nat) (pipe : List UInt8) :
    (pipe.drop (taken n pipe)).length ≤ pipe.length ∧
      (pipe ≠ [] → (pipe.drop (taken n pipe)).length < pipe.length) := by
  have htaken : 1 ≤ taken n pipe := Nat.le_max_left _ _
  rw [List.length_drop]
  refine ⟨Nat.sub_le _ _, fun hne => ?_⟩
  have hpos := List.length_pos_iff.2 hne
  omega

/-- **Each call** of the parent brings it nearer to its end. -/
theorem call_weight {overdue : Bool} (hs : Safe s) (hdue : DueBy timeout s overdue)
    (hne : s.pc ≠ .returned) (ok : Bool) (n : Nat) :
    weight overdue (call timeout s ok n) < weight overdue s := by
  have hscript := hs.script
  have hgo : ∀ {t : State}, t.out.length ≤ s.out.length → t.err.length ≤ s.err.length →
      callsLeft overdue t.pc < callsLeft overdue s.pc → weight overdue t < weight overdue s := by
    intro t hout herr hlt
    rw [weight, weight]
    omega
  rw [call]
  cases hpc : s.pc <;> rw [hpc] at hscript hgo <;> dsimp only
  case pipeOut => split <;> exact hgo (Nat.le_refl _) (Nat.le_refl _) (by simp [callsLeft])
  case pipeErr => split <;> exact hgo (Nat.le_refl _) (Nat.le_refl _) (by simp [callsLeft])
  case fork => split <;> exact hgo (Nat.le_refl _) (Nat.le_refl _) (by simp [callsLeft])
  case closeWrite =>
    exact hgo (Nat.le_refl _) (Nat.le_refl _) (by cases overdue <;> simp [callsLeft])
  case top =>
    split
    · exact hgo (Nat.le_refl _) (Nat.le_refl _) (by cases overdue <;> simp [callsLeft])
    · next hlate =>
      cases overdue with
      | true => exact absurd hdue hlate
      | false => exact hgo (Nat.le_refl _) (Nat.le_refl _) (by simp [callsLeft])
  case poll => split <;> exact hgo (Nat.le_refl _) (Nat.le_refl _) (by simp [callsLeft])
  case readOut out err =>
    cases out
    · exact hgo (Nat.le_refl _) (Nat.le_refl _) (by simp [callsLeft])
    · exact hgo (length_drop_taken n s.out).1 (Nat.le_refl _) (by simp [callsLeft])
  case readErr err =>
    cases err
    · exact hgo (Nat.le_refl _) (Nat.le_refl _) (by simp [callsLeft])
    · exact hgo (Nat.le_refl _) (length_drop_taken n s.err).1 (by simp [callsLeft])
  case wait =>
    split
    · exact hgo (Nat.le_refl _) (Nat.le_refl _) (by simp [callsLeft])
    · next hrunning =>
      cases overdue with
      | true => exact hgo (Nat.le_refl _) (Nat.le_refl _) (by simp [callsLeft])
      | false =>
        obtain ⟨status, hended | hreaped⟩ := hdue
        · exact absurd hended (hrunning status)
        · rw [hreaped] at hscript
          obtain ⟨-, hrun | ⟨status', hended⟩⟩ := hscript
          · cases hrun
          · cases hended
  case drainOut =>
    split
    · exact hgo (Nat.le_refl _) (Nat.le_refl _) (by simp [callsLeft])
    · next hne =>
      have hlt := (length_drop_taken n s.out).2 hne
      rw [weight, weight, readOut]
      dsimp only
      omega
  case drainErr =>
    split
    · exact hgo (Nat.le_refl _) (Nat.le_refl _) (by simp [callsLeft])
    · next hne =>
      have hlt := (length_drop_taken n s.err).2 hne
      rw [weight, weight, readErr]
      dsimp only
      omega
  case close => split <;> exact hgo (Nat.le_refl _) (Nat.le_refl _) (by simp [callsLeft])
  case waitKilled =>
    obtain ⟨-, status, hstatus⟩ := hscript
    rw [hstatus]
    exact hgo (Nat.le_refl _) (Nat.le_refl _) (by simp [callsLeft])
  case returned => exact absurd hpc hne

/-- **The others** bring it farther off by no more than the bytes that they write. -/
theorem step_weight (overdue : Bool) (hl : ∀ ok n, l ≠ .call ok n)
    (h : step timeout s l = some t) :
    weight overdue t + s.total = weight overdue s + t.total ∧ s.total ≤ t.total := by
  cases l with
  | tick ms => cases h; exact ⟨rfl, Nat.le_refl _⟩
  | exit status =>
    rw [step] at h
    split at h <;> cases h
    exact ⟨rfl, Nat.le_refl _⟩
  | write toErr bytes =>
    rw [step] at h
    split at h
    · obtain ⟨m, hm, rfl⟩ := Option.map_eq_some_iff.1 h
      obtain ⟨heq, hlen, -⟩ := put_eq hm
      have htotal : m.total = s.total + bytes.length := by rw [heq]
      have hpc : m.pc = s.pc := by rw [heq]
      have hweight : weight overdue m + s.total = weight overdue s + m.total ∧
          s.total ≤ m.total := by
        rw [weight, weight, hpc]
        omega
      cases toErr <;> exact hweight
    · cases h
  | others toErr bytes =>
    rw [step] at h
    split at h
    · cases h
    · obtain ⟨heq, hlen, -⟩ := put_eq h
      have htotal : t.total = s.total + bytes.length := by rw [heq]
      have hpc : t.pc = s.pc := by rw [heq]
      rw [weight, weight, hpc]
      omega
  | call ok n => exact absurd rfl (hl ok n)

/-- What no call changes, or only the one after the fork. -/
theorem call_frame (timeout : Int) (s : State) (ok : Bool) (n : Nat) :
    (call timeout s ok n).total = s.total ∧ (call timeout s ok n).now = s.now ∧
      (s.pc ≠ .closeWrite → (call timeout s ok n).start = s.start) := by
  rw [call]
  cases s.pc <;> dsimp only
  case readOut out err => cases out <;> exact ⟨rfl, rfl, fun _ => rfl⟩
  case readErr err => cases err <;> exact ⟨rfl, rfl, fun _ => rfl⟩
  case closeWrite => exact ⟨rfl, rfl, fun h => absurd rfl h⟩
  all_goals first | exact ⟨rfl, rfl, fun _ => rfl⟩ | (split <;> exact ⟨rfl, rfl, fun _ => rfl⟩)

theorem step_total (h : step timeout s l = some t) : s.total ≤ t.total := by
  by_cases hcall : ∃ ok n, l = .call ok n
  · obtain ⟨ok, n, rfl⟩ := hcall
    cases h
    exact Nat.le_of_eq (call_frame timeout s ok n).1.symm
  · have hother : ∀ ok n, l ≠ .call ok n := fun ok n hl => hcall ⟨ok, n, hl⟩
    exact (step_weight false hother h).2

/-- Where no pipe is open, no byte is written. -/
theorem put_closed (hfds : s.fds = []) (toErr : Bool) (bytes : List UInt8) :
    put s toErr bytes = none := by
  rw [put, hfds]
  cases toErr <;> rfl

/-- What holds when `runBash` has returned. -/
theorem returned_step (hs : Safe s) (hreturned : s.pc = .returned)
    (h : step timeout s l = some t) : t.pc = .returned ∧ t.total = s.total := by
  have hfds := hs.fds
  rw [hreturned] at hfds
  cases l with
  | tick ms => cases h; exact ⟨hreturned, rfl⟩
  | exit status =>
    rw [step] at h
    split at h <;> cases h
    exact ⟨hreturned, rfl⟩
  | write toErr bytes =>
    rw [step, put_closed hfds] at h
    split at h <;> cases h
  | others toErr bytes =>
    rw [step, put_closed hfds] at h
    split at h <;> cases h
  | call ok n =>
    cases h
    refine ⟨?_, (call_frame timeout s ok n).1⟩
    rw [call, hreturned]
    exact hreturned

/-- An end of the script is for good. -/
theorem ended_call (hs : Safe s) {ok : Bool} {n : Nat}
    (h : ∃ status, s.script = .ended status ∨ s.script = .reaped status) :
    ∃ status, (call timeout s ok n).script = .ended status ∨
      (call timeout s ok n).script = .reaped status := by
  have hscript := hs.script
  obtain ⟨status, h⟩ := h
  rw [call]
  cases hpc : s.pc <;> rw [hpc] at hscript <;> dsimp only
  case fork =>
    -- there is no script yet
    rw [hscript.2] at h
    rcases h with h | h <;> cases h
  case top =>
    split
    · refine ⟨status, ?_⟩
      rcases h with h | h <;> rw [h]
      · exact .inl rfl
      · exact .inr rfl
    · exact ⟨status, h⟩
  case readOut out err => cases out <;> exact ⟨status, h⟩
  case readErr err => cases err <;> exact ⟨status, h⟩
  all_goals
    first
    | exact ⟨status, h⟩
    | (split <;> first | exact ⟨status, h⟩ | exact ⟨_, .inr rfl⟩)

theorem expired_step (hs : Safe s) (h : expired timeout s = true)
    (hstep : step timeout s l = some t) : expired timeout t = true := by
  cases l with
  | tick ms =>
    cases hstep
    rw [expired] at h ⊢
    cases hstart : s.start with
    | none =>
      rw [hstart] at h
      cases h
    | some start =>
      rw [hstart] at h
      rw [Bool.and_eq_true, decide_eq_true_iff, decide_eq_true_iff] at h ⊢
      refine ⟨h.1, ?_⟩
      have hle : (s.now - start) / 1000 ≤ (s.now + ms - start) / 1000 :=
        Nat.div_le_div_right (by omega)
      have h2 := h.2
      dsimp only
      omega
  | exit status =>
    rw [step] at hstep
    split at hstep <;> cases hstep
    exact h
  | write toErr bytes =>
    rw [step] at hstep
    split at hstep
    · obtain ⟨m, hm, rfl⟩ := Option.map_eq_some_iff.1 hstep
      rw [(put_eq hm).1]
      cases toErr <;> exact h
    · cases hstep
  | others toErr bytes =>
    rw [step] at hstep
    split at hstep
    · cases hstep
    · rw [(put_eq hstep).1]
      exact h
  | call ok n =>
    cases hstep
    obtain ⟨-, hnow, hstart⟩ := call_frame timeout s ok n
    rw [expired] at h ⊢
    rw [hnow, hstart ?_]
    · exact h
    · intro hpc
      rw [hs.start (by rw [hpc]; rfl)] at h
      cases h

theorem ended_step (hs : Safe s)
    (h : ∃ status, s.script = .ended status ∨ s.script = .reaped status)
    (hstep : step timeout s l = some t) :
    ∃ status, t.script = .ended status ∨ t.script = .reaped status := by
  cases l with
  | tick ms => cases hstep; exact h
  | exit status =>
    rw [step] at hstep
    split at hstep <;> cases hstep
    exact ⟨status, .inl rfl⟩
  | write toErr bytes =>
    rw [step] at hstep
    split at hstep
    · obtain ⟨m, hm, rfl⟩ := Option.map_eq_some_iff.1 hstep
      rw [(put_eq hm).1]
      cases toErr <;> exact h
    · cases hstep
  | others toErr bytes =>
    rw [step] at hstep
    split at hstep
    · cases hstep
    · rw [(put_eq hstep).1]
      exact h
  | call ok n =>
    cases hstep
    exact ended_call hs h

/-- The script stays ended, and the timeout passed. -/
theorem DueBy.step {overdue : Bool} (hs : Safe s) (h : DueBy timeout s overdue)
    (hstep : step timeout s l = some t) : DueBy timeout t overdue := by
  cases overdue with
  | true => exact expired_step hs h hstep
  | false => exact ended_step hs h hstep

/-- The parent's calls. -/
def isCall (l : Label) : Prop := ∃ ok n, l = .call ok n

/-- **`runBash` returns, exactly**: from where the script has ended or its timeout has passed, the
parent that goes on returns just if the bytes that are written to the pipes come to an end. -/
theorem returns_iff (hs : Safe s) (hdue : Due timeout s) {e : Execution (step timeout)}
    (h0 : e.state 0 = s) (hfair : e.Fair isCall fun s => s.pc = .returned) :
    (∃ i, (e.state i).pc = .returned) ↔ ∃ N, ∀ i, (e.state i).total ≤ N := by
  have hsafe : ∀ i, Safe (e.state i) := 
    e.invariant (fun _ _ _ hP => hP.step) (h0.symm ▸ hs)
  constructor
  · rintro ⟨i, hi⟩
    -- nobody writes after that, and nobody takes back what is written before
    have hlater : ∀ k, (e.state (i + k)).pc = .returned ∧
        (e.state (i + k)).total = (e.state i).total := by
      intro k
      induction k with
      | zero => exact ⟨hi, rfl⟩
      | succ k ih =>
        obtain ⟨hpc, htotal⟩ := returned_step (hsafe _) ih.1 (e.next (i + k))
        exact ⟨hpc, htotal.trans ih.2⟩
    refine ⟨(e.state i).total, fun j => ?_⟩
    rcases Nat.le_total j i with hji | hij
    · exact e.monotone (f := State.total) (fun _ _ _ => step_total) hji
    · obtain ⟨k, rfl⟩ := Nat.exists_eq_add_of_le hij
      exact Nat.le_of_eq (hlater k).2
  · rintro ⟨N, hN⟩
    obtain ⟨overdue, hdue⟩ : ∃ overdue, DueBy timeout s overdue := by
      rcases hdue with hended | hexpired
      · exact ⟨false, hended⟩
      · exact ⟨true, hexpired⟩
    have hdue : ∀ i, DueBy timeout (e.state i) overdue := by
      intro i
      induction i with
      | zero => exact h0.symm ▸ hdue
      | succ i ih => exact ih.step (hsafe i) (e.next i)
    -- the bytes that are still to be written count as if they were in the pipes
    have hmine : ∀ i, (e.state i).pc ≠ .returned → isCall (e.label i) →
        weight overdue (e.state (i + 1)) + (N - (e.state (i + 1)).total) <
          weight overdue (e.state i) + (N - (e.state i).total) := by
      rintro i hne ⟨ok, n, hl⟩
      have hnext := e.next i
      rw [hl] at hnext
      have hcalled := Option.some.inj hnext
      have hlt := call_weight (hsafe i) (hdue i) hne ok n
      rw [← hcalled, (call_frame timeout _ ok n).1]
      omega
    refine Execution.eventually (fun i => weight overdue (e.state i) + (N - (e.state i).total))
      ?_ hmine hfair
    · intro i hne
      by_cases hcall : isCall (e.label i)
      · exact Nat.le_of_lt (hmine i hne hcall)
      · have hother : ∀ ok n, e.label i ≠ .call ok n := fun ok n hl => hcall ⟨ok, n, hl⟩
        obtain ⟨hweight, -⟩ := step_weight overdue hother (e.next i)
        have hle := hN i
        have hle' := hN (i + 1)
        omega

end MyScript
