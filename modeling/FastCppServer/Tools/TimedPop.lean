import FastCppServer.Tools.ThreadSafeQueue

/-!
# The timed `pop`

A `pop` whose time is over returns `false` without another look at the queue, though it has the
mutex again by then, and an item may have come meanwhile; the notification of that item may have
been its own. So `pop` fails on an empty queue only, and leaves nobody else waiting at an item, just
where no `pop` finds an item when its time is over (`timed_pop_iff`).
-/

namespace ThreadSafeQueue

open Condvar Fifo Function Parties Transition

section
variable {ι T : Type} [Fintype ι] [DecidableEq ι] {s s' : System ι T} {i j : ι}

/-! ## What is promised -/

/-- A `pop` that fails in this step finds the queue empty. -/
def FailsEmpty (s : System ι T) (l : Label ι T) : Prop :=
  ∀ s' i, step s l = some s' → s'.client i = .popped none → s.client i ≠ .popped none → s.items = []

/-- A `pop` whose time is over when it gets the mutex finds the queue empty. -/
def InTime (s : System ι T) : Label ι T → Prop
  | .enter i late none =>
    s.client i = .expired ∨ s.client i = .notEmptyWoken true ∧ late = true → s.items = []
  | _ => True

/-- The bound is the one that the queue begins with. -/
def Bounded : Label ι T → Prop
  | .setMaxSize _ => False
  | _ => True

instance decidableInTime [DecidableEq T] (s : System ι T) :
    (l : Label ι T) → Decidable (InTime s l)
  | .enter i late none =>
    inferInstanceAs (Decidable
      (s.client i = .expired ∨ s.client i = .notEmptyWoken true ∧ late = true → s.items = []))
  | .enter _ _ (some _) | .push .. | .pop .. | .wake _ | .expire _ | .setMaxSize _ | .clear
  | .shutdown => isTrue trivial

instance decidableBounded : (l : Label ι T) → Decidable (Bounded l)
  | .setMaxSize _ => isFalse id
  | .push .. | .pop .. | .enter .. | .wake _ | .expire _ | .clear | .shutdown => isTrue trivial

/-- Nobody waits for an item that is there, once the notifications have been dealt with. -/
def NoneWaits (s : System ι T) : Prop :=
  Quiescent s → (∃ i, s.client i = .notEmpty false) → s.items = []

/-! ## Who fails -/

omit [Fintype ι] [DecidableEq ι] in
/-- A producer is never told that it has popped. -/
theorem pushStep_ne_popped (item : T) (block : Bool) (o : Option T) :
    (pushStep s item block).2.1 ≠ .popped o := by
  unfold pushStep
  split
  · rintro ⟨⟩
  split
  · rintro ⟨⟩
  split <;> rintro ⟨⟩

omit [Fintype ι] [DecidableEq ι] in
/-- A `pop` that looks at the queue takes an item that is there. -/
theorem popStep_failed {block timed : Bool} (h : (popStep s block timed).2.1 = .popped none) :
    s.items = [] := by
  unfold popStep at h
  split at h
  next hitems => exact hitems
  next => cases h

omit [Fintype ι] [DecidableEq ι] in
/-- Waking a client does not tell it that it has failed. -/
theorem wake_failed (p : Client T) (h : p.wake = .popped none) : p = .popped none := by
  cases p with
  | notFull | notEmpty => cases h
  | _ => exact h

omit [Fintype ι] [DecidableEq ι] in
/-- Waking all clients tells none of them that it has failed. -/
theorem notifyAll_failed (Waits : Client T → Prop) [DecidablePred Waits] {c : ι → Client T}
    (hj : notifyAll Waits Client.wake c j = .popped none) : c j = .popped none :=
  notifyAll_other (P := fun p => p = .popped none) (fun p _ => wake_failed p) hj

/-- A notification tells nobody that it has failed. -/
theorem notify_failed {c c' : ι → Client T} {o : Option ι} {signal : Signal}
    (hn : notify c o signal = some c') (hj : c' j = .popped none) : c j = .popped none := by
  cases signal with
  | silent =>
    simp only [notify] at hn
    split at hn
    · obtain rfl := Option.some.inj hn
      exact hj
    · cases hn
  | notFull =>
    exact notifyOne_waits (P := fun p => p = .popped none) hn (fun p _ => wake_failed p) hj
  | notEmpty =>
    exact notifyOne_waits (P := fun p => p = .popped none) hn (fun p _ => wake_failed p) hj

omit [Fintype ι] [DecidableEq ι] in
/-- A thread that fails has found the queue empty, or its time is over, and it tells nobody. -/
theorem enter_failed {late : Bool} {r : System ι T × Client T × Signal}
    (hr : enter s late (s.client i) = some r) (hp : r.2.1 = .popped none) :
    s.items = [] ∨ r.2.2 = .silent ∧
      (s.client i = .expired ∨ s.client i = .notEmptyWoken true ∧ late = true) := by
  cases hi : s.client i with
  | pushing item block =>
    rw [hi] at hr
    obtain rfl := Option.some.inj hr
    exact absurd hp (pushStep_ne_popped item block none)
  | notFullWoken item =>
    rw [hi] at hr
    obtain rfl := Option.some.inj hr
    exact absurd hp (pushStep_ne_popped item true none)
  | popping block timed =>
    rw [hi] at hr
    obtain rfl := Option.some.inj hr
    exact .inl (popStep_failed hp)
  | notEmptyWoken timed =>
    rw [hi] at hr
    simp only [enter] at hr
    split at hr
    next hlate =>
      obtain rfl := Option.some.inj hr
      exact .inr ⟨rfl, .inr ⟨by rw [hlate.1], hlate.2⟩⟩
    next =>
      obtain rfl := Option.some.inj hr
      exact .inl (popStep_failed hp)
  | expired =>
    rw [hi] at hr
    obtain rfl := Option.some.inj hr
    exact .inr ⟨rfl, .inl rfl⟩
  | returned | pushed | popped | notFull | notEmpty =>
    rw [hi] at hr
    cases hr

/-- A `pop` whose time is over fails, whatever there is. -/
theorem step_late {late : Bool} (hi : s.client i = .expired ∨
    s.client i = .notEmptyWoken true ∧ late = true) :
    step s (.enter i late none) =
      some { s with client := update s.client i (.popped none) } := by
  rcases hi with hi | ⟨hi, rfl⟩
  · simp only [step, hi]
    rfl
  · simp only [step, hi]
    rfl

/-- **A step.** `pop` fails on an empty queue only, just where no time is over at an item. -/
theorem failsEmpty_iff {l : Label ι T} : FailsEmpty s l ↔ InTime s l := by
  constructor
  · intro h
    cases l with
    | enter i late o =>
      cases o with
      | some j => trivial
      | none =>
        intro hi
        refine h _ i (step_late hi) (update_self ..) fun hpopped => ?_
        rw [hpopped] at hi
        obtain hi | ⟨hi, -⟩ := hi
        · cases hi
        · cases hi
    | _ => trivial
  · intro h s' j hs hj hne
    cases l with
    | push i item block =>
      obtain ⟨rfl, -⟩ := call_cases hs
      rcases eq_of_update hj with hold | ⟨-, ⟨⟩⟩
      exact absurd hold hne
    | pop i block timed =>
      obtain ⟨rfl, -⟩ := call_cases hs
      rcases eq_of_update hj with hold | ⟨-, ⟨⟩⟩
      exact absurd hold hne
    | enter i late o =>
      obtain ⟨r, hr, hs⟩ := Option.bind_eq_some_iff.1 hs
      obtain ⟨client, hn, rfl⟩ := Option.map_eq_some_iff.1 hs
      rcases eq_of_update (notify_failed hn hj) with hold | ⟨-, hnew⟩
      · exact absurd hold hne
      · rcases enter_failed hr hnew with hitems | ⟨hsilent, hi⟩
        · exact hitems
        · cases o with
          | none => exact h hi
          | some j =>
            rw [hsilent] at hn
            cases hn
    | wake i =>
      simp only [step] at hs
      split at hs
      · obtain rfl := Option.some.inj hs
        rcases eq_of_update hj with hold | ⟨rfl, hnew⟩
        · exact absurd hold hne
        · exact absurd (wake_failed _ hnew) hne
      · cases hs
    | expire i =>
      simp only [step] at hs
      split at hs
      · obtain rfl := Option.some.inj hs
        rcases eq_of_update hj with hold | ⟨-, ⟨⟩⟩
        exact absurd hold hne
      · cases hs
    | setMaxSize maxSize =>
      obtain rfl := Option.some.inj hs
      exact absurd hj hne
    | clear =>
      obtain rfl := Option.some.inj hs
      exact absurd (notifyAll_failed WaitsNotFull hj) hne
    | shutdown =>
      obtain rfl := Option.some.inj hs
      exact absurd (notifyAll_failed WaitsNotFull (notifyAll_failed WaitsNotEmpty hj)) hne

/-! ## Who waits -/

/-- A popper that is in time when its time is over leaves no item behind, so it is not missed. -/
theorem inTime_careful {l : Label ι T} (hb : Bounded l) (ht : InTime s l)
    (hs : step s l = some s') : Careful s l := by
  cases l with
  | enter i late o =>
    rintro hi rfl -
    cases o with
    | none =>
      rw [ht (.inr ⟨hi, rfl⟩)]
      have hone := one_le_count (P := WokenNotEmpty) (c := s.client) i
      rwa [one_pos (by rw [hi]; rfl)] at hone
    | some j =>
      -- A thread that gives up notifies nobody.
      simp [step, hi, enter, notify] at hs
  | setMaxSize maxSize => exact absurd hb id
  | _ => trivial

omit [DecidableEq ι] in
/-- Nobody waits at a new queue, whatever its size. -/
theorem kept_of_maxSize (n : Nat) : Kept ({ maxSize := n } : System ι T) where
  down := by rintro ⟨⟩
  popper := by rintro ⟨_, ⟨⟩⟩
  pusher := by rintro ⟨_, ⟨⟩⟩

/-- **The timed `pop`.** Along every schedule, `pop` fails on an empty queue only and nobody waits
at an item once the notifications have been dealt with, just where every `pop` whose time is over
when it gets the mutex finds the queue empty. -/
theorem timed_pop_iff (n : Nat) {ls : List (Label ι T)} (hls : ∀ l ∈ ls, Bounded l) :
    (Along step FailsEmpty { maxSize := n } ls ∧
      ∀ pre s, pre <+: ls → run step { maxSize := n } pre = some s → NoneWaits s) ↔
    Along step InTime { maxSize := n } ls := by
  constructor
  · rintro ⟨h, -⟩
    exact along_imp (P := fun _ => True) (fun _ _ _ _ _ _ => trivial)
      (fun s l hl _ => failsEmpty_iff.1 hl) trivial h
  · intro h
    refine ⟨along_imp (P := fun _ => True) (fun _ _ _ _ _ _ => trivial)
      (fun s l hl _ => failsEmpty_iff.2 hl) trivial h, ?_⟩
    rintro pre s ⟨post, rfl⟩ hrun hq hw
    have hboth : Along step (fun s l => Bounded l ∧ InTime s l)
        ({ maxSize := n } : System ι T) pre := by
      refine along_iff.2 fun before l after hpre m hm => ⟨hls l ?_, ?_⟩
      · rw [hpre]
        simp
      · exact along_iff.1 (along_append_left h) before l after hpre m hm
    have hkept : Kept s := run_along (P := Kept)
      (fun m l t hl hk ht => step_kept (inTime_careful hl.1 hl.2 ht) hk ht) (kept_of_maxSize n)
      hboth hrun
    exact ((hkept.noneStuck hq).2 hw).1

end

/-- An item comes before the time of the first of two poppers is over, and wakes it. -/
theorem timed_pop_woken :
    Along step FailsEmpty ({ maxSize := 5 } : System (Fin 3) Nat)
      [.pop 0 true true, .enter 0 false none, .pop 1 true false, .enter 1 false none,
       .push 2 7 true,
        .enter 2 false (some 0), .enter 0 false none] := by
  refine ((timed_pop_iff 5 ?_).2 ?_).1
  · decide
  · decide

/-- The time of a popper is over when it has been told of an item, and the other popper waits on at
the item. -/
theorem not_timed_pop :
    ¬ ∀ (n : Nat) (ls : List (Label (Fin 3) Nat)), (∀ l ∈ ls, Bounded l) →
      Along step FailsEmpty { maxSize := n } ls ∧
        ∀ pre s, pre <+: ls → run step { maxSize := n } pre = some s → NoneWaits s := by
  intro h
  have hwaits := (h 5 [.pop 0 true true, .enter 0 false none, .pop 1 true false,
    .enter 1 false none,
    .push 2 7 true, .enter 2 false (some 0), .enter 0 true none] (by decide)).2 _ _
      (List.prefix_refl _) rfl
  have hitems := hwaits (by decide) ⟨1, rfl⟩
  revert hitems
  decide

end ThreadSafeQueue
