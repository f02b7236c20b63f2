import FastCppServer.Lib.Parties
import FastCppServer.Lib.Shared
import FastCppServer.Lib.Transition

/-!
# The flight control manager

`MyFlyControlManager` hands its controller out: each call takes a `shared_ptr` to it under `mutex_`
and goes on without the lock, while `Shutdown` puts a new controller in its place. What a call holds
stays alive until it gives it back (`Counts`), and the one that gives it back last runs the
destructor, which stops it.

That `initialized_` speaks of the current controller, and that nothing is left over, holds whatever
the interleaving. `Start` and `Stop` of one controller do not exclude each other, however:
`recv_thread_` is only in order where no two of them overlap (`Careful`), in which case no
`std::thread` is ever destroyed or overwritten while it can be joined (`manager_run`).
-/

namespace FlyControl

namespace Manager

open Function Parties Shared Transition

/-! ## A controller -/

/-- `MyFlyControl`, as far as it is started and stopped. -/
structure Controller where
  running : Bool := false
  recvThread : Thread Unit := .none
  /-- `serial_` is initialised. -/
  serial : Bool := false
  /-- An `Init` of this controller has returned `true`. -/
  inited : Bool := false
  deriving DecidableEq

/-- Where a call stands in a function of the controller. -/
inductive Stage where
  /-- In `Init`. -/
  | initializing
  /-- Back in the manager's `Init`, which has succeeded here. -/
  | marking
  /-- `Start`, at `if (running_.load())`. -/
  | startCheck
  | opening
  | storing
  | spawning
  /-- `Stop`, at `if (!running_.load())`. -/
  | stopCheck
  | clearing
  | joining
  | closing
  /-- In one of the other functions. -/
  | inUse
  /-- The `shared_ptr` goes out of scope. -/
  | returning
  deriving DecidableEq

/-- What a step comes to. -/
inductive Outcome where
  | blocked
  /-- `std::terminate`. -/
  | terminate
  | next (controller : Controller) (stage : Stage)

/-- A step in a function of the controller. `ok` is whether `Init`, or `Open`, succeeds. -/
def stageStep (c : Controller) (ok : Bool) : Stage → Outcome
  | .initializing =>
    .next { c with serial := ok, inited := c.inited || ok } (if ok then .marking else .returning)
  | .startCheck => .next c (if c.running then .returning else .opening)
  | .opening => .next c (if c.serial && ok then .storing else .returning)
  | .storing => .next { c with running := true } .spawning
  | .spawning =>
    -- the assignment to `recv_thread_` destroys the thread that was there
    if c.recvThread = .none then .next { c with recvThread := .running () } .returning
    else .terminate
  | .stopCheck => .next c (if c.running then .clearing else .returning)
  | .clearing => .next { c with running := false } .joining
  | .joining =>
    match c.recvThread with
    | .none => .next c .closing
    | .running _ => .blocked
    | .exited => .next { c with recvThread := .none } .closing
  | .closing | .inUse => .next c .returning
  | .marking | .returning => .blocked

/-! ## The manager -/

/-- A call of a function of the manager. -/
inductive Call where
  | init
  | start
  | stop
  | shutdown
  /-- One of the functions that send. -/
  | send
  /-- One of the functions that read, or set a callback. -/
  | look

/-- Where a client stands. -/
inductive Client where
  | idle
  /-- At `mutex_`. -/
  | entering (call : Call)
  /-- With a `shared_ptr` to the controller. -/
  | holding (a : Nat) (stage : Stage)
  /-- In the destructor of the controller. -/
  | destroying (a : Nat) (stage : Stage)

/-- The manager and its clients. The controllers are on the heap, each with the number of its
owners. -/
structure System (ι : Type) where
  heap : Heap Nat Controller := update (fun _ => none) 0 (some { object := {}, owners := 1 })
  /-- `controller_`. -/
  current : Nat := 0
  initialized : Bool := false
  client : ι → Client := fun _ => .idle
  terminated : Bool := false

/-- A step of a client, or of the thread of a controller. -/
inductive Label (ι : Type) where
  | call (i : ι) (call : Call)
  /-- The call gets `mutex_`. A new controller comes to the address `fresh`. -/
  | enter (i : ι) (fresh : Nat)
  | act (i : ι) (ok : Bool)
  /-- The thread of the controller looks at `running_`. -/
  | receive (a : Nat)

variable {ι : Type}

section
variable [DecidableEq ι]

/-- `GetControllerSnapshot`. -/
def System.snapshot (s : System ι) (i : ι) (stage : Stage) : System ι :=
  { s with
    heap := share s.heap s.current
    client := update s.client i (.holding s.current stage) }

/-- `GetInitializedController`. -/
def System.initializedController (s : System ι) (i : ι) (stage : Stage) : System ι :=
  if s.initialized then s.snapshot i stage else { s with client := update s.client i .idle }

/-- What a call does under the manager's lock: it takes a share of the controller, or replaces
it. -/
def enter (s : System ι) (i : ι) (fresh : Nat) : Call → Option (System ι)
  | .init =>
    (s.heap s.current).map fun cell =>
      if cell.object.running then { s with client := update s.client i .idle }
      else s.snapshot i .initializing
  | .start => some (s.initializedController i .startCheck)
  | .send => some (s.initializedController i .inUse)
  | .stop => some (s.snapshot i .stopCheck)
  | .look => some (s.snapshot i .inUse)
  | .shutdown =>
    -- the call takes over the manager's share of the old controller
    (make s.heap fresh {}).map fun heap =>
      { s with
        heap
        current := fresh
        initialized := false
        client := update s.client i (.holding s.current .stopCheck) }

/-- A step in a function of the controller at `a`, and where the call stands then. -/
def System.run (s : System ι) (i : ι) (a : Nat) (ok : Bool) (stage : Stage)
    (stands : Stage → Client) : Option (System ι) :=
  match s.heap a with
  | none => none
  | some cell =>
    match stageStep cell.object ok stage with
    | .blocked => none
    | .terminate => some { s with terminated := true }
    | .next c stage =>
      some { s with heap := put s.heap a c, client := update s.client i (stands stage) }

/-- The last owner goes on with the destructor. -/
def System.giveBack (s : System ι) (i : ι) (a : Nat) : Option (System ι) :=
  (s.heap a).map fun cell =>
    { s with
      heap := giveUp s.heap a
      client := update s.client i (if cell.owners = 1 then .destroying a .stopCheck else .idle) }

/-- The members of the controller are destroyed. -/
def System.destroy (s : System ι) (i : ι) (a : Nat) : Option (System ι) :=
  (s.heap a).map fun cell =>
    if cell.object.recvThread = .none then
      { s with heap := free s.heap a, client := update s.client i .idle }
    else { s with terminated := true }

/-- A step behind the lock. Marking the manager as initialised takes the lock again, and looks
whether the controller is still the current one. -/
def act (s : System ι) (i : ι) (ok : Bool) : Client → Option (System ι)
  | .holding a .marking =>
    some
      { s with
        initialized := s.initialized || decide (s.current = a)
        client := update s.client i (.holding a .returning) }
  | .holding a .returning => s.giveBack i a
  | .holding a stage => s.run i a ok stage (.holding a)
  | .destroying a .returning => s.destroy i a
  | .destroying a stage => s.run i a ok stage (.destroying a)
  | .idle | .entering _ => none

/-- The thread goes on as long as `running_` is set. -/
def Controller.receive (c : Controller) : Controller :=
  if c.recvThread = .running () ∧ c.running = false then { c with recvThread := .exited } else c

/-- One step. Nothing happens after `std::terminate`. -/
def step (s : System ι) (l : Label ι) : Option (System ι) :=
  if s.terminated then none
  else match l with
    | .call i call =>
      match s.client i with
      | .idle => some { s with client := update s.client i (.entering call) }
      | _ => none
    | .enter i fresh =>
      match s.client i with
      | .entering call => enter s i fresh call
      | _ => none
    | .act i ok => act s i ok (s.client i)
    | .receive a =>
      (s.heap a).map fun cell => { s with heap := put s.heap a cell.object.receive }

/-! ## What a step does -/

/-- The address of the `shared_ptr` that a call has. -/
def Client.held : Client → Option Nat
  | .holding a _ => some a
  | _ => none

/-- The controller that the client is destroying. -/
def Client.dying : Client → Option Nat
  | .destroying a _ => some a
  | _ => none

/-- A call that has no controller yet, or no longer. -/
def Client.Outside : Client → Prop
  | .idle | .entering _ => True
  | _ => False

/-- A client outside a function of a controller has no share of one. -/
theorem Client.Outside.held {p : Client} (h : p.Outside) : p.held = none := by
  cases p with
  | idle | entering => rfl
  | holding | destroying => cases h

/-- Nor is it destroying one. -/
theorem Client.Outside.dying {p : Client} (h : p.Outside) : p.dying = none := by
  cases p with
  | idle | entering => rfl
  | holding | destroying => cases h

/-- Where a call begins in the controller. -/
def Call.stage : Call → Stage
  | .init => .initializing
  | .start => .startCheck
  | .stop | .shutdown => .stopCheck
  | .send | .look => .inUse

/-- The moves of the system. -/
inductive Move (s : System ι) : Label ι → System ι → Prop
  | pass {l : Label ι} (i : ι) (p : Client) (hold : (s.client i).Outside) (hp : p.Outside) :
    Move s l { s with client := update s.client i p }
  | take (i : ι) (fresh : Nat) (call : Call) (hold : (s.client i).Outside) :
    Move s (.enter i fresh) (s.snapshot i call.stage)
  | replace (i : ι) (fresh : Nat) (heap : Heap Nat Controller) (hold : (s.client i).Outside)
    (hmake : make s.heap fresh {} = some heap) :
    Move s (.enter i fresh)
      { s with
        heap
        current := fresh
        initialized := false
        client := update s.client i (.holding s.current .stopCheck) }
  | mark (i : ι) (ok : Bool) (a : Nat) (hi : s.client i = .holding a .marking) :
    Move s (.act i ok)
      { s with
        initialized := s.initialized || decide (s.current = a)
        client := update s.client i (.holding a .returning) }
  | give (i : ι) (ok : Bool) (a : Nat) (cell : Cell Controller)
    (hi : s.client i = .holding a .returning) (ha : s.heap a = some cell)
    (hmore : cell.owners ≠ 1) :
    Move s (.act i ok)
      { s with heap := giveUp s.heap a, client := update s.client i .idle }
  | giveLast (i : ι) (ok : Bool) (a : Nat) (cell : Cell Controller)
    (hi : s.client i = .holding a .returning) (ha : s.heap a = some cell)
    (hone : cell.owners = 1) :
    Move s (.act i ok)
      { s with heap := giveUp s.heap a, client := update s.client i (.destroying a .stopCheck) }
  | go (i : ι) (ok : Bool) (a : Nat) (stage stage' : Stage) (cell : Cell Controller)
    (c : Controller) (hi : s.client i = .holding a stage) (ha : s.heap a = some cell)
    (hstep : stageStep cell.object ok stage = .next c stage') :
    Move s (.act i ok)
      { s with heap := put s.heap a c, client := update s.client i (.holding a stage') }
  | goDestroying (i : ι) (ok : Bool) (a : Nat) (stage stage' : Stage) (cell : Cell Controller)
    (c : Controller) (hi : s.client i = .destroying a stage) (ha : s.heap a = some cell)
    (hstep : stageStep cell.object ok stage = .next c stage') :
    Move s (.act i ok)
      { s with heap := put s.heap a c, client := update s.client i (.destroying a stage') }
  | terminate (i : ι) (ok : Bool) (a : Nat) (stage : Stage) (cell : Cell Controller)
    (hi : s.client i = .holding a stage ∨ s.client i = .destroying a stage)
    (ha : s.heap a = some cell) (hstep : stageStep cell.object ok stage = .terminate) :
    Move s (.act i ok) { s with terminated := true }
  | destroy (i : ι) (ok : Bool) (a : Nat) (cell : Cell Controller)
    (hi : s.client i = .destroying a .returning) (ha : s.heap a = some cell)
    (hthread : cell.object.recvThread = .none) :
    Move s (.act i ok) { s with heap := free s.heap a, client := update s.client i .idle }
  | destroyJoinable (i : ι) (ok : Bool) (a : Nat) (cell : Cell Controller)
    (hi : s.client i = .destroying a .returning) (ha : s.heap a = some cell)
    (hthread : cell.object.recvThread ≠ .none) :
    Move s (.act i ok) { s with terminated := true }
  | receive (a : Nat) (cell : Cell Controller) (ha : s.heap a = some cell) :
    Move s (.receive a) { s with heap := put s.heap a cell.object.receive }

section
variable {s s' : System ι} {i : ι} {a : Nat} {ok : Bool}

end

end

/-! ## Who owns what -/

/-- The `shared_ptr`s to the controller at an address: the manager's, and those of the calls. -/
def owners [Fintype ι] (current : Nat) (client : ι → Client) (a : Nat) : Nat :=
  (if a = current then 1 else 0) + countAt Client.held client a

section
variable [Fintype ι] [DecidableEq ι] {current a : Nat} {client : ι → Client} {i : ι} {p : Client}

/-- A call that goes on with what it holds. -/
theorem owners_stay (h : (client i).held = p.held) :
    owners current (update client i p) = owners current client := by
  unfold owners
  rw [countAt_stay h]

/-- A client that takes a share of the current controller makes one more owner of it. -/
theorem owners_take (h : (client i).held = none) (hp : p.held = some current) :
    owners current (update client i p) =
      update (owners current client) current (owners current client current + 1) := by
  funext b
  rw [owners, countAt_enter h hp]
  rcases eq_or_ne b current with rfl | hne
  · rw [update_self, update_self, owners]
    omega
  · rw [update_of_ne hne, update_of_ne hne, owners]

/-- A call that takes over the manager's share. -/
theorem owners_replace {fresh : Nat} (h : (client i).held = none) (hp : p.held = some current)
    (hfresh : owners current client fresh = 0) :
    owners fresh (update client i p) = update (owners current client) fresh 1 := by
  have hne : fresh ≠ current := by
    intro heq
    rw [owners, if_pos heq] at hfresh
    omega
  rw [owners, if_neg hne] at hfresh
  funext b
  rw [owners, countAt_enter h hp]
  rcases eq_or_ne b fresh with rfl | hb
  · rw [update_self, update_of_ne hne, if_pos rfl]
    omega
  · rw [update_of_ne hb, if_neg hb, owners]
    rcases eq_or_ne b current with rfl | hbc
    · rw [update_self, if_pos rfl]
      omega
    · rw [update_of_ne hbc, if_neg hbc]

/-- A call that gives back what it holds. -/
theorem owners_give (h : (client i).held = some a) (hp : p.held = none) :
    owners current (update client i p) =
      update (owners current client) a (owners current client a - 1) := by
  have hpos := countAt_pos h
  funext b
  rw [owners, countAt_leave h hp]
  rcases eq_or_ne b a with rfl | hne
  · rw [update_self, update_self, owners]
    omega
  · rw [update_of_ne hne, update_of_ne hne, owners]

end

/-- The numbers of owners are right, and one call destroys what has no owner left. -/
def Owned [Fintype ι] (s : System ι) : Prop :=
  Counts s.heap (owners s.current s.client) (countAt Client.dying s.client)

section
variable [Fintype ι] {s s' : System ι} {l : Label ι} {i : ι} {a : Nat} {p : Client}

/-- In the beginning the manager is the only owner of its controller. -/
theorem Owned.init : Owned ({} : System ι) := by
  have hheld : ∀ a, owners 0 (fun _ : ι => Client.idle) a = if a = 0 then 1 else 0 := by
    intro a
    have hzero : countAt Client.held (fun _ : ι => Client.idle) a = 0 :=
      count_eq_zero.2 fun _ => by simp [Client.held]
    rw [owners, hzero]
    rfl
  have hdying : ∀ a, countAt Client.dying (fun _ : ι => Client.idle) a = 0 := fun a =>
    count_eq_zero.2 fun _ => by simp [Client.dying]
  refine ⟨fun a ha => ⟨?_, hdying a⟩, fun a cell ha => ?_⟩
  · rw [hheld]
    refine if_neg fun h₀ => ?_
    subst h₀
    cases ha
  · rw [hheld, hdying]
    rcases eq_or_ne a 0 with rfl | hne
    · cases ha
      exact ⟨rfl, rfl⟩
    · have hnone : ({} : System ι).heap a = none := dif_neg hne
      rw [hnone] at ha
      cases ha

/-- The manager is an owner of the current controller. -/
theorem Owned.current_pos (s : System ι) : 0 < owners s.current s.client s.current := by
  rw [owners, if_pos rfl]
  omega

/-- A client is an owner of the controller that it holds. -/
theorem Owned.held_pos (hi : (s.client i).held = some a) : 0 < owners s.current s.client a := by
  have hpos := countAt_pos hi
  unfold owners
  omega

/-- **What a call holds is there**, and nothing else: an address is in use if and only if the
manager has it, or a call holds the controller there or destroys it. -/
theorem Owned.used_iff (h : Owned s) :
    (∃ cell, s.heap a = some cell) ↔
      a = s.current ∨ ∃ i, (s.client i).held = some a ∨ (s.client i).dying = some a := by
  rw [Counts.used_iff h]
  refine ⟨fun hpos => ?_, fun huse => ?_⟩
  · rcases hpos with hheld | hdying
    · rcases eq_or_ne a s.current with rfl | hne
      · exact .inl rfl
      · rw [owners, if_neg hne, Nat.zero_add] at hheld
        obtain ⟨i, hi⟩ := exists_of_countAt_pos hheld
        exact .inr ⟨i, .inl hi⟩
    · obtain ⟨i, hi⟩ := exists_of_countAt_pos hdying
      exact .inr ⟨i, .inr hi⟩
  · rcases huse with rfl | ⟨i, hi | hi⟩
    · exact .inl (Owned.current_pos s)
    · exact .inl (Owned.held_pos hi)
    · exact .inr (countAt_pos hi)

/-- A new controller comes to an address that no call names. -/
theorem Owned.fresh (h : Owned s) {fresh : Nat} (hfresh : s.heap fresh = none) (j : ι) :
    (s.client j).held ≠ some fresh ∧ (s.client j).dying ≠ some fresh := by
  have hnot : ¬ ∃ cell, s.heap fresh = some cell := by simp [hfresh]
  rw [h.used_iff] at hnot
  exact ⟨fun hj => hnot (.inr ⟨j, .inl hj⟩), fun hj => hnot (.inr ⟨j, .inr hj⟩)⟩

variable [DecidableEq ι]

/-- A step that leaves every `shared_ptr` where it is. -/
theorem Owned.stay (h : Owned s) (hheld : (s.client i).held = p.held)
    (hdying : (s.client i).dying = p.dying) :
    Counts s.heap (owners s.current (update s.client i p))
      (countAt Client.dying (update s.client i p)) := by
  rw [owners_stay hheld, countAt_stay hdying]
  exact h

/-- Taking a snapshot of the current controller keeps the count of the owners. -/
theorem Owned.snapshot (h : Owned s) (hold : (s.client i).Outside) (stage : Stage) :
    Owned (s.snapshot i stage) := by
  have howners := owners_take (p := .holding s.current stage) hold.held rfl
  have hdying : countAt Client.dying (update s.client i (.holding s.current stage)) =
      countAt Client.dying s.client := countAt_stay hold.dying
  rw [Owned, System.snapshot, howners, hdying]
  exact Counts.share h (Owned.current_pos s)

/-- Replacing the controller moves the manager's share to the client that called `Shutdown`. -/
theorem Owned.replace (h : Owned s) (hold : (s.client i).Outside) {fresh : Nat}
    {heap : Heap Nat Controller} (hmake : make s.heap fresh {} = some heap) :
    Counts heap (owners fresh (update s.client i (.holding s.current .stopCheck)))
      (countAt Client.dying (update s.client i (.holding s.current .stopCheck))) := by
  have hfresh := (h.unused fresh (objects_make hmake).1).1
  rw [owners_replace hold.held rfl hfresh, countAt_stay hold.dying]
  exact Counts.make h hmake

/-- Giving back a share that is not the last one keeps the count. -/
theorem Owned.give (h : Owned s) (hi : (s.client i).held = some a) {cell : Cell Controller}
    (ha : s.heap a = some cell) (hdying : (s.client i).dying = none) (hmore : cell.owners ≠ 1) :
    Counts (giveUp s.heap a) (owners s.current (update s.client i .idle))
      (countAt Client.dying (update s.client i .idle)) := by
  have hpos := Owned.held_pos hi
  have howners := (h.used a cell ha).1
  rw [owners_give hi rfl, countAt_stay hdying]
  exact Counts.giveUp h (by omega)

/-- With the last share the client goes on to destroy the controller. -/
theorem Owned.giveLast (h : Owned s) (hi : (s.client i).held = some a) {cell : Cell Controller}
    (ha : s.heap a = some cell) (hdying : (s.client i).dying = none) (hone : cell.owners = 1) :
    Counts (giveUp s.heap a) (owners s.current (update s.client i (.destroying a .stopCheck)))
      (countAt Client.dying (update s.client i (.destroying a .stopCheck))) := by
  obtain ⟨howners, hd⟩ := h.used a cell ha
  rw [if_neg (by omega)] at hd
  rw [owners_give hi rfl, countAt_enter hdying rfl, hd, ← howners, hone]
  exact Counts.giveUpLast h (by omega)

/-- A controller that is destroyed has no owner. -/
theorem Owned.destroy (h : Owned s) (hi : s.client i = .destroying a .returning) :
    Counts (free s.heap a) (owners s.current (update s.client i .idle))
      (countAt Client.dying (update s.client i .idle)) := by
  have hdying : (s.client i).dying = some a := by rw [hi]; rfl
  have hpos := countAt_pos hdying
  obtain ⟨-, -, -, -, hone⟩ := Counts.destroyed h hpos
  rw [owners_stay (by rw [hi]; rfl), countAt_leave hdying rfl, hone]
  exact Counts.free h hpos

/-- Every move keeps the count of the owners. -/
theorem Owned.move (h : Owned s) (hm : Move s l s') : Owned s' := by
  cases hm with
  | pass i p hold hp =>
    exact h.stay (by rw [hold.held, hp.held]) (by rw [hold.dying, hp.dying])
  | take i fresh call hold => exact h.snapshot hold call.stage
  | replace i fresh heap hold hmake => exact h.replace hold hmake
  | mark i ok a hi => exact h.stay (by rw [hi]; rfl) (by rw [hi]; rfl)
  | give i ok a cell hi ha hmore => exact h.give (by rw [hi]; rfl) ha (by rw [hi]; rfl) hmore
  | giveLast i ok a cell hi ha hone =>
    exact h.giveLast (by rw [hi]; rfl) ha (by rw [hi]; rfl) hone
  | go i ok a stage stage' cell c hi ha hstep =>
    exact Counts.put (h.stay (by rw [hi]; rfl) (by rw [hi]; rfl)) c
  | goDestroying i ok a stage stage' cell c hi ha hstep =>
    exact Counts.put (h.stay (by rw [hi]; rfl) (by rw [hi]; rfl)) c
  | destroy i ok a cell hi ha hthread => exact h.destroy hi
  | receive a cell ha => exact Counts.put h cell.object.receive
  | terminate | destroyJoinable => exact h

end

/-! ## What `initialized_` says -/

/-- A thread is only assigned where there is none: with one there the assignment would terminate. -/
theorem stageStep_spawning {c c' : Controller} {ok : Bool} {stage' : Stage}
    (h : stageStep c ok .spawning = .next c' stage') :
    c.recvThread = .none ∧ c' = { c with recvThread := .running () } ∧ stage' = .returning := by
  simp only [stageStep] at h
  split at h
  next hnone =>
    cases h
    exact ⟨hnone, rfl, rfl⟩
  next => cases h

/-- After the join there is no thread. -/
theorem stageStep_joining {c c' : Controller} {ok : Bool} {stage' : Stage}
    (h : stageStep c ok .joining = .next c' stage') :
    c' = { c with recvThread := .none } ∧ stage' = .closing := by
  simp only [stageStep] at h
  split at h
  next hnone =>
    cases h
    rw [← hnone]
    exact ⟨rfl, rfl⟩
  next => cases h
  next =>
    cases h
    exact ⟨rfl, rfl⟩

/-- A controller that has been initialised stays so, and is marked only then. -/
theorem stageStep_inited {c c' : Controller} {ok : Bool} {stage stage' : Stage}
    (h : stageStep c ok stage = .next c' stage') :
    (c.inited = true → c'.inited = true) ∧ (stage' = .marking → c'.inited = true) := by
  cases stage with
  | initializing =>
    cases h
    cases ok with
    | false => exact ⟨fun hc => by simp [hc], fun hmark => by cases hmark⟩
    | true => exact ⟨fun _ => by simp, fun _ => by simp⟩
  | startCheck | opening | stopCheck =>
    cases h
    exact ⟨id, fun hmark => by split at hmark <;> cases hmark⟩
  | storing | clearing | closing | inUse =>
    cases h
    exact ⟨id, fun hmark => by cases hmark⟩
  | spawning =>
    obtain ⟨-, rfl, rfl⟩ := stageStep_spawning h
    exact ⟨id, fun hmark => by cases hmark⟩
  | joining =>
    obtain ⟨rfl, rfl⟩ := stageStep_joining h
    exact ⟨id, fun hmark => by cases hmark⟩
  | marking | returning => cases h

/-- The thread of a controller does not initialise it. -/
theorem receive_inited (c : Controller) : c.receive.inited = c.inited := by
  unfold Controller.receive
  split <;> rfl

/-- `initialized_` speaks of the current controller. -/
structure Marked (s : System ι) : Prop where
  initialized : s.initialized = true → ∀ c, objects s.heap s.current = some c → c.inited = true
  marking : ∀ i a, s.client i = .holding a .marking →
    ∀ c, objects s.heap a = some c → c.inited = true

section
variable {s s' : System ι} {l : Label ι} {i : ι}

/-- In the beginning nothing is marked. -/
theorem Marked.init : Marked ({} : System ι) where
  initialized := fun h => by cases h
  marking := fun i a hi => by cases hi

/-- What was initialised still is. -/
theorem Marked.change (h : Marked s) {heap : Heap Nat Controller}
    (hobjects : ∀ a c, objects heap a = some c →
      ∃ c₀, objects s.heap a = some c₀ ∧ (c₀.inited = true → c.inited = true)) :
    Marked { s with heap } := by
  refine ⟨fun hinit c hc => ?_, fun j a hj c hc => ?_⟩
  · obtain ⟨c₀, hc₀, himp⟩ := hobjects _ c hc
    exact himp (h.initialized hinit c₀ hc₀)
  · obtain ⟨c₀, hc₀, himp⟩ := hobjects a c hc
    exact himp (h.marking j a hj c₀ hc₀)

/-- What is marked is about the controllers, and not about their owners. -/
theorem Marked.same (h : Marked s) {heap : Heap Nat Controller}
    (hobjects : objects heap = objects s.heap) : Marked { s with heap } :=
  h.change fun a c hc => ⟨c, by rw [← hobjects]; exact hc, id⟩

/-- A step in a controller that keeps it initialised keeps what is marked. -/
theorem Marked.put (h : Marked s) {a : Nat} {cell : Cell Controller} {c : Controller}
    (ha : s.heap a = some cell) (hinited : cell.object.inited = true → c.inited = true) :
    Marked { s with heap := put s.heap a c } := by
  refine h.change fun b d hd => ?_
  rw [objects_put ha] at hd
  rcases eq_or_ne b a with rfl | hne
  · rw [update_self] at hd
    cases hd
    exact ⟨cell.object, objects_eq_some.2 ⟨cell, ha, rfl⟩, hinited⟩
  · rw [update_of_ne hne] at hd
    exact ⟨d, hd, id⟩

/-- Destroying a controller keeps what is marked. -/
theorem Marked.free (h : Marked s) (a : Nat) : Marked { s with heap := free s.heap a } := by
  refine h.change fun b c hc => ?_
  rw [objects_free] at hc
  rcases eq_or_ne b a with rfl | hne
  · rw [update_self] at hc
    cases hc
  · rw [update_of_ne hne] at hc
    exact ⟨c, hc, id⟩

variable [DecidableEq ι]

/-- A call that is back from an `Init` is so with an initialised controller. -/
theorem Marked.goto (h : Marked s) {p : Client}
    (hp : ∀ a, p = .holding a .marking → ∀ c, objects s.heap a = some c → c.inited = true) :
    Marked { s with client := update s.client i p } := by
  refine ⟨h.initialized, fun j a hj c hc => ?_⟩
  rcases eq_or_ne j i with rfl | hne
  · exact hp a ((update_self ..).symm.trans hj) c hc
  · have hj' : s.client j = .holding a .marking := (update_of_ne hne ..).symm.trans hj
    exact h.marking j a hj' c hc

/-- The manager's `Init` finds the controller that it has initialised, or another one. -/
theorem Marked.mark (h : Marked s) {a : Nat} (hi : s.client i = .holding a .marking) :
    Marked
      { s with
        initialized := s.initialized || decide (s.current = a)
        client := update s.client i (.holding a .returning) } := by
  have hpass : Marked { s with client := update s.client i (.holding a .returning) } :=
    h.goto fun b hmark => by cases hmark
  refine ⟨fun hinit c hc => ?_, hpass.marking⟩
  rcases Bool.or_eq_true_iff.1 hinit with hold | hsame
  · exact h.initialized hold c hc
  · rw [of_decide_eq_true hsame] at hc
    exact h.marking i a hi c hc

/-- A new controller takes the place of the current one. -/
theorem Marked.replace [Fintype ι] (h : Marked s) (howned : Owned s) {fresh : Nat}
    {heap : Heap Nat Controller} (hmake : make s.heap fresh {} = some heap) :
    Marked
      { s with
        heap
        current := fresh
        initialized := false
        client := update s.client i (.holding s.current .stopCheck) } := by
  refine ⟨fun hinit => (Bool.false_ne_true hinit).elim, fun j a hj c hc => ?_⟩
  obtain ⟨hnone, hobjects⟩ := objects_make hmake
  rcases eq_or_ne j i with rfl | hne
  · cases (update_self ..).symm.trans hj
  · have hj' : s.client j = .holding a .marking := (update_of_ne hne ..).symm.trans hj
    have hfresh : a ≠ fresh := by
      intro heq
      exact (howned.fresh hnone j).1 (by rw [hj', heq]; rfl)
    rw [hobjects, update_of_ne hfresh] at hc
    exact h.marking j a hj' c hc

/-- Every move keeps that a marked manager has an initialised controller. -/
theorem Marked.move [Fintype ι] (h : Marked s) (howned : Owned s) (hm : Move s l s') :
    Marked s' := by
  cases hm with
  | pass i p hold hp => exact h.goto fun a heq => by rw [heq] at hp; exact hp.elim
  | take i fresh call hold =>
    refine (h.same objects_share).goto fun a heq => ?_
    cases call <;> cases heq
  | replace i fresh heap hold hmake => exact h.replace howned hmake
  | mark i ok a hi => exact h.mark hi
  | give => exact (h.same objects_giveUp).goto fun a heq => by cases heq
  | giveLast => exact (h.same objects_giveUp).goto fun a heq => by cases heq
  | go i ok a stage stage' cell c hi ha hstep =>
    obtain ⟨hinited, hmark⟩ := stageStep_inited hstep
    refine (h.put ha hinited).goto fun b heq d hd => ?_
    cases heq
    rw [objects_put ha, update_self] at hd
    cases hd
    exact hmark rfl
  | goDestroying i ok a stage stage' cell c hi ha hstep =>
    exact (h.put ha (stageStep_inited hstep).1).goto fun b heq => by cases heq
  | destroy i ok a cell hi ha hthread => exact (h.free a).goto fun b heq => by cases heq
  | receive a cell ha => exact h.put ha fun hc => by rw [receive_inited, hc]
  | terminate | destroyJoinable => exact ⟨h.initialized, h.marking⟩

end

/-! ## The threads -/

/-- No thread, and none is to come. -/
def Controller.Stopped (c : Controller) : Prop := c.running = false ∧ c.recvThread = .none

/-- A controller in which neither `Start` nor `Stop` is under way. -/
def Controller.Rests (c : Controller) : Prop :=
  (c.running = true ∧ c.recvThread = .running ()) ∨ c.Stopped

/-- Within `Start` or `Stop`, past the look at `running_`. -/
def Stage.busy : Stage → Bool
  | .opening | .storing | .spawning | .clearing | .joining | .closing => true
  | _ => false

/-- What a call at the stage finds, where it is alone in `Start` and `Stop`. -/
def Stage.Fits : Stage → Controller → Prop
  | .opening, c | .storing, c | .closing, c => c.Stopped
  | .spawning, c => c.running = true ∧ c.recvThread = .none
  | .clearing, c => c.running = true ∧ c.recvThread = .running ()
  | .joining, c => c.running = false ∧ c.recvThread ≠ .none
  | _, c => c.Rests

/-- The stages of the destructor. -/
def Stage.InDestructor : Stage → Prop
  | .stopCheck | .clearing | .joining | .closing | .returning => True
  | _ => False

/-- What a client's place in its call says about the controller. -/
def Client.Fits : Client → Controller → Prop
  | .holding _ stage, c => stage.Fits c
  | .destroying _ stage, c => stage.InDestructor ∧ stage.Fits c ∧ (stage = .returning → c.Stopped)
  | _, _ => True

/-- The controller that a call starts, stops or destroys. -/
def Client.works : Client → Option Nat
  | .holding a stage => if stage.busy then some a else none
  | .destroying a _ => some a
  | _ => none

/-- A call that is about to look at `running_` of what another one works on. -/
def Client.Meets : Client → Client → Prop
  | .holding a stage, q => (stage = .startCheck ∨ stage = .stopCheck) ∧ q.works = some a
  | _, _ => False

instance : ∀ p q, Decidable (Client.Meets p q)
  | .holding a stage, q =>
    inferInstanceAs (Decidable ((stage = .startCheck ∨ stage = .stopCheck) ∧ q.works = some a))
  | .idle, _ | .entering _, _ | .destroying .., _ => isFalse id

/-- `Start` and `Stop` of one controller come one after the other. -/
def Careful (s : System ι) : Label ι → Prop
  | .act i _ => ∀ j, j ≠ i → ¬ (s.client i).Meets (s.client j)
  | _ => True

instance [Fintype ι] [DecidableEq ι] (s : System ι) : ∀ l, Decidable (Careful s l)
  | .act i _ => inferInstanceAs (Decidable (∀ j, j ≠ i → ¬ (s.client i).Meets (s.client j)))
  | .call .. | .enter .. | .receive _ => isTrue trivial

section
variable {c c' : Controller} {stage stage' : Stage} {ok : Bool}

/-- `running_` and `recv_thread_` decide. -/
theorem Stage.Fits.congr (h : stage.Fits c) (hrunning : c'.running = c.running)
    (hthread : c'.recvThread = c.recvThread) : stage.Fits c' := by
  cases stage
  all_goals simpa [Stage.Fits, Controller.Rests, Controller.Stopped, hrunning, hthread] using h

/-- Where no step is half done, the thread is there just if the controller runs. -/
theorem Stage.Fits.rests (h : stage.Fits c) (hstage : stage.busy = false) : c.Rests := by
  cases stage with
  | opening | storing | spawning | clearing | joining | closing => cases hstage
  | initializing | marking | startCheck | stopCheck | inUse | returning => exact h

/-- **A step in `Start` or `Stop`**, where the call is alone there. -/
theorem Stage.Fits.step (h : stage.Fits c)
    (hstage : stage.busy = true ∨ stage = .startCheck ∨ stage = .stopCheck)
    (hstep : stageStep c ok stage = .next c' stage') : stage'.Fits c' := by
  cases stage with
  | initializing | inUse => simp [Stage.busy] at hstage
  | startCheck =>
    cases hstep
    split
    next => exact h
    next hrunning =>
      rcases h with ⟨htrue, -⟩ | hstopped
      · exact absurd htrue hrunning
      · exact hstopped
  | stopCheck =>
    cases hstep
    split
    next hrunning =>
      rcases h with hrests | ⟨hfalse, -⟩
      · exact hrests
      · rw [hfalse] at hrunning
        cases hrunning
    next => exact h
  | opening =>
    cases hstep
    split
    · exact h
    · exact .inr h
  | storing =>
    cases hstep
    exact ⟨rfl, h.2⟩
  | spawning =>
    obtain ⟨-, rfl, rfl⟩ := stageStep_spawning hstep
    exact .inl ⟨h.1, rfl⟩
  | clearing =>
    cases hstep
    refine ⟨rfl, fun hnone => ?_⟩
    rw [h.2] at hnone
    cases hnone
  | joining =>
    obtain ⟨rfl, rfl⟩ := stageStep_joining hstep
    exact ⟨h.1, rfl⟩
  | closing =>
    cases hstep
    exact .inr h
  | marking | returning => cases hstep

/-- The threads that are assigned to, or joined, are in order. -/
theorem Stage.Fits.not_terminate (h : stage.Fits c) : stageStep c ok stage ≠ .terminate := by
  intro hstep
  cases stage with
  | spawning =>
    simp only [stageStep] at hstep
    rw [if_pos h.2] at hstep
    cases hstep
  | joining =>
    simp only [stageStep] at hstep
    split at hstep <;> cases hstep
  | _ => cases hstep

/-- The thread ends only in a controller that is being stopped. -/
theorem Stage.Fits.receive (h : stage.Fits c) : stage.Fits c.receive := by
  unfold Controller.receive
  split
  next hexit =>
    cases stage with
    | joining => exact ⟨h.1, by simp⟩
    | _ => simp [Stage.Fits, Controller.Rests, Controller.Stopped, hexit.1, hexit.2] at h
  next => exact h

/-- A stopped controller has no thread that could take a step. -/
theorem Controller.Stopped.receive (h : c.Stopped) : c.receive.Stopped := by
  have hfits : Stage.Fits .closing c := h
  exact hfits.receive

/-- A step of the thread leaves the controller at rest. -/
theorem Controller.Rests.receive (h : c.Rests) : c.receive.Rests := by
  have hfits : Stage.Fits .returning c := h
  exact hfits.receive

/-- A step of the thread does not change what a client relies on. -/
theorem Client.Fits.receive {p : Client} (h : p.Fits c) : p.Fits c.receive := by
  cases p with
  | idle | entering => trivial
  | holding a stage => exact Stage.Fits.receive h
  | destroying a stage =>
    obtain ⟨hstage, hfits, hreturn⟩ := h
    exact ⟨hstage, hfits.receive, fun heq => (hreturn heq).receive⟩

/-- The destructor goes through `Stop`, and ends with no thread. -/
theorem Client.Fits.destroying {a : Nat} (h : Client.Fits (.destroying a stage) c)
    (hstep : stageStep c ok stage = .next c' stage') : Client.Fits (.destroying a stage') c' := by
  obtain ⟨hstage, hfits, -⟩ := h
  have hstep' (hstage : stage.busy = true ∨ stage = .startCheck ∨ stage = .stopCheck) :
      stage'.Fits c' := hfits.step hstage hstep
  cases stage with
  | stopCheck =>
    cases hstep
    refine ⟨?_, hstep' (.inr (.inr rfl)), fun hreturn => ?_⟩
    · split <;> trivial
    · split at hreturn
      next => cases hreturn
      next hrunning =>
        rcases hfits with ⟨htrue, -⟩ | hstopped
        · exact absurd htrue hrunning
        · exact hstopped
  | clearing =>
    cases hstep
    exact ⟨trivial, hstep' (.inl rfl), fun hreturn => by cases hreturn⟩
  | joining =>
    obtain ⟨rfl, rfl⟩ := stageStep_joining hstep
    exact ⟨trivial, hstep' (.inl rfl), fun hreturn => by cases hreturn⟩
  | closing =>
    cases hstep
    exact ⟨trivial, hstep' (.inl rfl), fun _ => hfits⟩
  | returning => cases hstep
  | _ => exact hstage.elim

/-- Only a step in the middle of a start terminates. -/
theorem stageStep_terminate (h : stageStep c ok stage = .terminate) : stage.busy = true := by
  cases stage with
  | spawning => rfl
  | joining => rfl
  | _ => cases h

/-- A step is in a function of the controller that locks nothing, or in the middle of a start or
stop, or at the test with which one begins. -/
theorem stageStep_kind (hstep : stageStep c ok stage = .next c' stage') :
    (stage = .initializing ∨ stage = .inUse) ∨
      stage.busy = true ∨ stage = .startCheck ∨ stage = .stopCheck := by
  cases stage with
  | marking | returning => cases hstep
  | _ => simp [Stage.busy]

/-- A call that does not start or stop the controller leaves `running_` and `recv_thread_` alone. -/
theorem stageStep_quiet (hstage : stage = .initializing ∨ stage = .inUse)
    (hstep : stageStep c ok stage = .next c' stage') :
    c'.running = c.running ∧ c'.recvThread = c.recvThread ∧ stage'.busy = false := by
  rcases hstage with rfl | rfl
  · cases hstep
    refine ⟨rfl, rfl, ?_⟩
    split <;> rfl
  · cases hstep
    exact ⟨rfl, rfl, rfl⟩

/-- To be at rest is about `running_` and the thread. -/
theorem Controller.Rests.congr (h : c.Rests) (hrunning : c'.running = c.running)
    (hthread : c'.recvThread = c.recvThread) : c'.Rests := by
  have hfits : Stage.Fits .returning c := h
  exact hfits.congr hrunning hthread

/-- So is what a client relies on. -/
theorem Client.Fits.congr {p : Client} (h : p.Fits c) (hrunning : c'.running = c.running)
    (hthread : c'.recvThread = c.recvThread) : p.Fits c' := by
  cases p with
  | idle | entering => trivial
  | holding a stage => exact Stage.Fits.congr h hrunning hthread
  | destroying a stage =>
    obtain ⟨hstage, hfits, hreturn⟩ := h
    refine ⟨hstage, hfits.congr hrunning hthread, fun heq => ?_⟩
    rw [Controller.Stopped, hrunning, hthread]
    exact hreturn heq

/-- A client outside a controller does not work on one. -/
theorem Client.Outside.works {p : Client} (h : p.Outside) : p.works = none := by
  cases p with
  | idle | entering => rfl
  | holding | destroying => cases h

/-- A client that works on a controller holds it, and is in the middle of a start or stop. -/
theorem Client.works_holding {a b : Nat} (h : (Client.holding a stage).works = some b) :
    stage.busy = true ∧ b = a := by
  simp only [Client.works] at h
  split at h
  next hbusy => exact ⟨hbusy, (Option.some.inj h).symm⟩
  next => cases h

/-- A client in the middle of a start or stop works on the controller that it holds. -/
theorem Client.works_of_busy {a : Nat} (h : stage.busy = true) :
    (Client.holding a stage).works = some a := if_pos h

/-- A client that works on nothing is not in the middle of a start or stop. -/
theorem Client.not_busy_of_works {a : Nat} (h : (Client.holding a stage).works = none) :
    stage.busy = false := by
  cases hbusy : stage.busy with
  | false => rfl
  | true =>
    rw [Client.works_of_busy hbusy] at h
    cases h

/-- And the other way round. -/
theorem Client.works_of_not_busy {a : Nat} (h : stage.busy = false) :
    (Client.holding a stage).works = none := by simp [Client.works, h]

/-- What a call works on, it holds or destroys. -/
theorem Client.works_cases {p : Client} {a : Nat} (h : p.works = some a) :
    p.held = some a ∨ p.dying = some a := by
  cases p with
  | idle | entering => cases h
  | holding b stage =>
    obtain ⟨-, rfl⟩ := Client.works_holding h
    exact .inl rfl
  | destroying b stage => exact .inr h

end

/-- At most one call at a time starts, stops or destroys a controller, and those nobody does are in
order. -/
def Tidy (s : System ι) : Prop :=
  Attended Client.works Client.Fits Controller.Rests s.client (objects s.heap)

/-- In the beginning nobody works on a controller. -/
theorem Tidy.init : Tidy ({} : System ι) := by
  refine ⟨fun a i j hi => ?_, fun i a c hi => ?_, fun a c ha _ => ?_⟩
  · cases hi
  · cases hi
  · obtain ⟨cell, hcell, rfl⟩ := objects_eq_some.1 ha
    rcases eq_or_ne a 0 with rfl | hne
    · cases hcell
      exact .inr ⟨rfl, rfl⟩
    · have hnone : ({} : System ι).heap a = none := dif_neg hne
      rw [hnone] at hcell
      cases hcell

section
variable {s s' : System ι} {l : Label ι} {i : ι} {a : Nat} {cell : Cell Controller}
  {c : Controller} {stage stage' : Stage} {ok : Bool}

/-- To be tidy is about the controllers, and not about the number of their owners. -/
theorem Tidy.same (h : Tidy s) {heap : Heap Nat Controller}
    (hobjects : objects heap = objects s.heap) : Tidy { s with heap } := by
  unfold Tidy
  rw [hobjects]
  exact h

/-- A new controller is tidy: nobody has it but the manager. -/
theorem Tidy.replace [Fintype ι] (h : Tidy s) (howned : Owned s) {fresh : Nat}
    {heap : Heap Nat Controller} (hmake : make s.heap fresh {} = some heap) :
    Tidy { s with heap } := by
  obtain ⟨hnone, hobjects⟩ := objects_make hmake
  unfold Tidy
  rw [hobjects]
  refine Attended.replace h (fun j hj => ?_) fun c hc => ?_
  · obtain ⟨hheld, hdying⟩ := howned.fresh hnone j
    rcases Client.works_cases hj with hj | hj
    · exact hheld hj
    · exact hdying hj
  · cases hc
    exact .inr ⟨rfl, rfl⟩

/-- The destructor finds no thread that can be joined. -/
theorem Tidy.stopped (h : Tidy s) (hi : s.client i = .destroying a .returning)
    (ha : s.heap a = some cell) : cell.object.Stopped := by
  have hfits := h.fits i a cell.object (by rw [hi]; rfl) (objects_eq_some.2 ⟨cell, ha, rfl⟩)
  rw [hi] at hfits
  exact hfits.2.2 rfl

/-- No call comes to `std::terminate` where it is alone. -/
theorem Tidy.not_terminate (h : Tidy s)
    (hi : s.client i = .holding a stage ∨ s.client i = .destroying a stage)
    (ha : s.heap a = some cell) : stageStep cell.object ok stage ≠ .terminate := by
  intro hstep
  have hobject : objects s.heap a = some cell.object := objects_eq_some.2 ⟨cell, ha, rfl⟩
  have hbusy := stageStep_terminate hstep
  rcases hi with hi | hi
  · have hfits := h.fits i a cell.object (by rw [hi, Client.works_of_busy hbusy]) hobject
    rw [hi] at hfits
    exact Stage.Fits.not_terminate hfits hstep
  · have hfits := h.fits i a cell.object (by rw [hi]; rfl) hobject
    rw [hi] at hfits
    exact hfits.2.1.not_terminate hstep

/-- A step of a thread keeps the manager tidy. -/
theorem Tidy.receive (h : Tidy s) (ha : s.heap a = some cell) :
    Tidy { s with heap := put s.heap a cell.object.receive } := by
  unfold Tidy
  rw [objects_put ha]
  exact Attended.touch h (objects_eq_some.2 ⟨cell, ha, rfl⟩) (fun p hp => hp.receive)
    fun hrests => hrests.receive

/-- Who starts or stops a controller, or is about to, is alone with it, and finds it in order. -/
theorem Tidy.alone (h : Tidy s) (hcareful : Careful s (.act i ok))
    (hi : s.client i = .holding a stage)
    (hstage : stage.busy = true ∨ stage = .startCheck ∨ stage = .stopCheck)
    (ha : s.heap a = some cell) :
    (∀ j, j ≠ i → (s.client j).works ≠ some a) ∧ stage.Fits cell.object := by
  have hobject : objects s.heap a = some cell.object := objects_eq_some.2 ⟨cell, ha, rfl⟩
  rcases hstage with hbusy | hcheck
  · have hiworks : (s.client i).works = some a := by rw [hi, Client.works_of_busy hbusy]
    refine ⟨fun j hj hjworks => hj (h.one a j i hjworks hiworks), ?_⟩
    have hfits := h.fits i a cell.object hiworks hobject
    rw [hi] at hfits
    exact hfits
  · have hothers : ∀ j, j ≠ i → (s.client j).works ≠ some a := by
      intro j hj hjworks
      refine hcareful j hj ?_
      rw [hi]
      exact ⟨hcheck, hjworks⟩
    have hrests : cell.object.Rests := by
      refine h.rests a cell.object hobject fun j hjworks => ?_
      rcases eq_or_ne j i with rfl | hj
      · rw [hi] at hjworks
        rcases hcheck with rfl | rfl <;> cases hjworks
      · exact hothers j hj hjworks
    refine ⟨hothers, ?_⟩
    rcases hcheck with rfl | rfl <;> exact hrests

variable [DecidableEq ι]

/-- A call that neither starts, stops nor destroys a controller. -/
theorem Tidy.pass (h : Tidy s) {p : Client} (hold : (s.client i).works = none)
    (hnew : p.works = none) : Tidy { s with client := update s.client i p } :=
  Attended.pass h hold hnew

/-- Nobody else works on what its last owner destroys. -/
theorem Tidy.giveLast [Fintype ι] (h : Tidy s) (howned : Owned s)
    (hi : s.client i = .holding a .returning) (ha : s.heap a = some cell) (hone : cell.owners = 1) :
    Tidy { s with client := update s.client i (.destroying a .stopCheck) } := by
  obtain ⟨howners, hd⟩ := howned.used a cell ha
  rw [if_neg (by omega)] at hd
  have hheld : countAt Client.held s.client a ≤ 1 := by
    rw [hone, owners] at howners
    omega
  have hiheld : (s.client i).held = some a := by rw [hi]; rfl
  have hothers : ∀ j, j ≠ i → (s.client j).works ≠ some a := by
    intro j hj hworks
    rcases Client.works_cases hworks with hjheld | hjdying
    · have htwo := one_lt_countAt hj hjheld hiheld
      omega
    · have hpos := countAt_pos hjdying
      omega
  have hnone : (s.client i).works = none := by rw [hi]; rfl
  have hobject : objects s.heap a = some cell.object := objects_eq_some.2 ⟨cell, ha, rfl⟩
  have hrests : cell.object.Rests := by
    refine h.rests a cell.object hobject fun j hworks => ?_
    rcases eq_or_ne j i with rfl | hj
    · rw [hnone] at hworks
      cases hworks
    · exact hothers j hj hworks
  have hdestroy : Client.Fits (.destroying a .stopCheck) cell.object :=
    ⟨trivial, hrests, fun heq => by cases heq⟩
  have hwork := Attended.work (p := .destroying a .stopCheck) h
    (fun b hb => by rw [hnone] at hb; cases hb) hothers (fun b hb => by cases hb; rfl)
    (fun _ => hdestroy) (fun hno => by cases hno)
  rw [← hobject, update_eq_self] at hwork
  exact hwork

/-- A step in a function of a controller that somebody holds. -/
theorem Tidy.go (h : Tidy s) (hcareful : Careful s (.act i ok)) (hi : s.client i = .holding a stage)
    (ha : s.heap a = some cell) (hstep : stageStep cell.object ok stage = .next c stage') :
    Tidy { s with heap := put s.heap a c, client := update s.client i (.holding a stage') } := by
  have hobject : objects s.heap a = some cell.object := objects_eq_some.2 ⟨cell, ha, rfl⟩
  unfold Tidy
  rw [objects_put ha]
  rcases stageStep_kind hstep with hquiet | hstage
  · obtain ⟨hrunning, hthread, hbusy⟩ := stageStep_quiet hquiet hstep
    have htouch := Attended.touch h hobject (fun p hp => hp.congr hrunning hthread)
      (fun hrests => hrests.congr hrunning hthread)
    refine Attended.pass htouch ?_ (Client.works_of_not_busy hbusy)
    rw [hi]
    rcases hquiet with rfl | rfl <;> rfl
  · obtain ⟨hothers, hfits⟩ := h.alone hcareful hi hstage ha
    have hfits' : stage'.Fits c := hfits.step hstage hstep
    refine Attended.work h (fun b hb => ?_) hothers (fun b hb => (Client.works_holding hb).2)
      (fun _ => hfits') fun hno => hfits'.rests (Client.not_busy_of_works hno)
    rw [hi] at hb
    exact (Client.works_holding hb).2

/-- A step of a destructor keeps it tidy, since nobody else has the controller any more. -/
theorem Tidy.destroying (h : Tidy s) (hi : s.client i = .destroying a stage)
    (ha : s.heap a = some cell) (hstep : stageStep cell.object ok stage = .next c stage') :
    Tidy { s with heap := put s.heap a c, client := update s.client i (.destroying a stage') } := by
  have hiworks : (s.client i).works = some a := by rw [hi]; rfl
  have hfits := h.fits i a cell.object hiworks (objects_eq_some.2 ⟨cell, ha, rfl⟩)
  rw [hi] at hfits
  unfold Tidy
  rw [objects_put ha]
  refine Attended.work h (fun b hb => ?_) (fun j hj hjworks => hj (h.one a j i hjworks hiworks))
    (fun b hb => by cases hb; rfl) (fun _ => Client.Fits.destroying hfits hstep)
    (fun hno => by cases hno)
  rw [hiworks] at hb
  exact (Option.some.inj hb).symm

/-- A destructor that has stopped the controller finds no thread, and does not terminate. -/
theorem Tidy.destroy (h : Tidy s) (hi : s.client i = .destroying a .returning)
    (ha : s.heap a = some cell) :
    Tidy { s with heap := free s.heap a, client := update s.client i .idle } := by
  have hiworks : (s.client i).works = some a := by rw [hi]; rfl
  have hothers : ∀ j, j ≠ i → (s.client j).works ≠ some a :=
    fun j hj hjworks => hj (h.one a j i hjworks hiworks)
  have hwork := Attended.work (p := .idle) (o := cell.object) h
    (fun b hb => by rw [hiworks] at hb; exact (Option.some.inj hb).symm) hothers
    (fun b hb => by cases hb) (fun hno => by cases hno) (fun _ => .inr (h.stopped hi ha))
  have hnobody : ∀ j, (update s.client i Client.idle j).works ≠ some a := by
    intro j hj
    rcases eq_or_ne j i with rfl | hne
    · rw [update_self] at hj
      cases hj
    · rw [update_of_ne hne] at hj
      exact hothers j hne hj
  have hfree : Attended Client.works Client.Fits Controller.Rests (update s.client i .idle)
      (update (update (objects s.heap) a (some cell.object)) a none) :=
    hwork.replace hnobody fun c hc => by cases hc
  unfold Tidy
  rw [objects_free]
  rw [update_idem] at hfree
  exact hfree

/-- A careful move keeps the manager tidy, and does not terminate. -/
theorem Tidy.move [Fintype ι] (h : Tidy s) (howned : Owned s) (hcareful : Careful s l)
    (halive : s.terminated = false) (hm : Move s l s') : s'.terminated = false ∧ Tidy s' := by
  cases hm with
  | pass i p hold hp => exact ⟨halive, h.pass hold.works hp.works⟩
  | take i fresh call hold =>
    refine ⟨halive, (h.same objects_share).pass hold.works ?_⟩
    cases call <;> rfl
  | replace i fresh heap hold hmake =>
    exact ⟨halive, (h.replace howned hmake).pass hold.works rfl⟩
  | mark i ok a hi => exact ⟨halive, h.pass (by rw [hi]; rfl) rfl⟩
  | give i ok a cell hi ha hmore =>
    exact ⟨halive, (h.same objects_giveUp).pass (by rw [hi]; rfl) rfl⟩
  | giveLast i ok a cell hi ha hone =>
    exact ⟨halive, (h.giveLast howned hi ha hone).same objects_giveUp⟩
  | go i ok a stage stage' cell c hi ha hstep => exact ⟨halive, h.go hcareful hi ha hstep⟩
  | goDestroying i ok a stage stage' cell c hi ha hstep =>
    exact ⟨halive, h.destroying hi ha hstep⟩
  | terminate i ok a stage cell hi ha hstep => exact absurd hstep (h.not_terminate hi ha)
  | destroy i ok a cell hi ha hthread => exact ⟨halive, h.destroy hi ha⟩
  | destroyJoinable i ok a cell hi ha hthread => exact absurd (h.stopped hi ha).2 hthread
  | receive a cell ha => exact ⟨halive, h.receive ha⟩

end

/-! ## Every run -/

section
variable [Fintype ι] [DecidableEq ι] {s : System ι} {ls : List (Label ι)}

/-- Two `Start`s of one controller at once: the second one overwrites a thread that runs. -/
example :
    ((Transition.run step ({} : System (Fin 2))
      [.call 0 .init, .enter 0 0, .act 0 true, .act 0 true, .act 0 true,
        .call 0 .start, .enter 0 0, .act 0 true, .call 1 .start, .enter 1 0, .act 1 true,
        .act 0 true, .act 0 true, .act 0 true, .act 1 true, .act 1 true, .act 1 true]).map
      System.terminated) = some true := rfl

end

end Manager

end FlyControl
