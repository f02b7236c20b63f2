import FastCppServer.Lib.Transition
import Mathlib.Logic.Function.Basic

/-!
# The self tasks of an edge

`BaseEdge` runs its self tasks with two threads and one slot: the monitor pops a task, stores it in
`self_task` and sets `self_task_run_state_` to `Initializing`; the action thread finds this, copies
the slot, passes the task to its handler and sets the state to `RunOver`, which lets the monitor pop
again. The handlers write the state as well, `SayHelloAction` among them. A handler is arbitrary
here: what it does next is a label.

What a popped task needs is that it is in somebody's hands until it is passed on (`pending`). It is
not where the monitor stores it while the action thread has still to finish another one, which it
can do as soon as the handler of this one has set the state to `RunOver` (`Careful`).
-/

namespace MyEdge

open Function Transition

/-- `self_task_run_state_`. -/
inductive RunState where
  | initializing
  | ready
  | running
  | stopping
  | stopped
  | runOver
  deriving DecidableEq

/-- `Initializing` or `Ready`: there is a task to execute. -/
def RunState.waits : RunState → Bool
  | .initializing | .ready => true
  | _ => false

namespace SelfTask

/-- What the two threads read of a task. -/
structure Task where
  taskId : String := ""
  action : String := ""
  deriving DecidableEq

/-- The built-in handler, or one that has been registered. -/
inductive Handler where
  | sayHello
  | registered
  deriving DecidableEq

/-- What a registered handler does next. -/
inductive Op where
  | store (state : RunState)
  | returns
  | throws
  deriving DecidableEq

/-- Where the monitor stands in `SelfTaskMonitorLoop` and `FetchSelfTask`. It holds
`rw_mutex_self_task_` in `marking`. -/
inductive Monitor where
  | checking
  | popping
  | storing (out : Task)
  | marking (out : Task)
  deriving DecidableEq

/-- Where the action thread stands in `SelfActionLoop`, `ExecuteSelfTaskLocked` and the handler. -/
inductive Action where
  | idle
  | checking
  | rechecking
  | taking
  | invoking (task : Task)
  | entering
  | sayingHello (i : Nat)
  | handling
  | finishing
  | exited
  deriving DecidableEq

/-- The slot, the queue, the handlers and the two threads, with what has become of the tasks. -/
structure Edge where
  runState : RunState := .runOver
  selfTask : Task := {}
  queue : List Task := []
  handlers : String → Option Handler := fun action =>
    if action = "say_hello" then some .sayHello else none
  actionStop : Bool := false
  monitor : Monitor := .checking
  action : Action := .idle
  /-- What has been enqueued, what the monitor has popped, and what has been passed to
  `TryInvokeSelfTaskHandler`. -/
  pushed : List Task := []
  popped : List Task := []
  invoked : List Task := []

/-- One step of the monitor. -/
def monitorStep (s : Edge) : Edge :=
  match s.monitor with
  | .checking => if s.runState = .runOver then { s with monitor := .popping } else s
  | .popping =>
    match s.queue with
    -- `PopBlocking` times out
    | [] => { s with monitor := .checking }
    | out :: queue =>
      { s with queue, monitor := .storing out, popped := s.popped ++ [out] }
  | .storing out => { s with selfTask := out, monitor := .marking out }
  | .marking _ => { s with runState := .initializing, monitor := .checking }

/-- The first half of `TryInvokeSelfTaskHandler`: the handler, if there is one. -/
def invoke (s : Edge) (task : Task) : Action :=
  if task.action = "" then .finishing
  else match s.handlers task.action with
  | none => .finishing
  | some .sayHello => .entering
  | some .registered => .handling

/-- `FinishSelfTask`. -/
def finishState : RunState → RunState
  | .stopping => .stopping
  | .stopped => .stopped
  | _ => .runOver

/-- The action thread waits for `rw_mutex_self_task_`. -/
def unlessMarking (s t : Edge) : Option Edge :=
  match s.monitor with
  | .marking _ => none
  | _ => some t

/-- One step of the action thread, but for those of a registered handler. -/
def actionStep (s : Edge) : Option Edge :=
  match s.action with
  | .idle => some { s with action := if s.actionStop then .exited else .checking }
  | .checking => some { s with action := if s.runState.waits then .rechecking else .idle }
  | .rechecking => some { s with action := if s.runState.waits then .taking else .idle }
  | .taking => unlessMarking s { s with action := .invoking s.selfTask }
  | .invoking task => some { s with action := invoke s task, invoked := s.invoked ++ [task] }
  | .entering =>
    if s.runState.waits then some { s with runState := .running, action := .sayingHello 0 }
    else some { s with action := .finishing }
  | .sayingHello i =>
    if i < 5 then
      if s.actionStop then some { s with runState := .stopped, action := .finishing }
      else some { s with action := .sayingHello (i + 1) }
    else some { s with runState := .runOver, action := .finishing }
  | .handling => none
  | .finishing => unlessMarking s { s with runState := finishState s.runState, action := .idle }
  | .exited => none

/-- An exception is caught, and the task is finished like any other. -/
def handlerStep (s : Edge) : Op → Option Edge
  | .store state => if s.action = .handling then some { s with runState := state } else none
  | .returns | .throws =>
    if s.action = .handling then some { s with action := .finishing } else none

/-- A task comes, a handler is registered, a thread takes its next step, or the action thread is
told to stop. -/
inductive Label where
  | push (task : Task)
  | register (action : String) (handler : Option Handler)
  | monitor
  | action
  | handler (op : Op)
  | stop
  deriving DecidableEq

/-- One step. A thread that waits for the mutex has no successor. -/
def step (s : Edge) : Label → Option Edge
  | .push task => some { s with queue := s.queue ++ [task], pushed := s.pushed ++ [task] }
  | .register action handler => some { s with handlers := update s.handlers action handler }
  | .monitor => some (monitorStep s)
  | .action => actionStep s
  | .handler op => handlerStep s op
  | .stop => some { s with actionStop := true }

/-- From the copy of the slot to the end of `FinishSelfTask`. -/
def Action.busy : Action → Bool
  | .invoking _ | .entering | .sayingHello _ | .handling | .finishing => true
  | _ => false

/-- No task is stored while another one has not been finished. -/
def Careful (s : Edge) : Label → Prop
  | .monitor => ∀ out, s.monitor = .storing out → s.action.busy = false
  | _ => True

/-- A popped task that has not been passed on yet is one at most; the monitor has it, or the action
thread comes to pass it on by itself, unless it has been stopped. -/
structure Safe (s : Edge) : Prop where
  order : s.popped ++ s.queue = s.pushed
  passed : ∃ pending, s.popped = s.invoked ++ pending ∧ pending.length ≤ 1 ∧
    ∀ task ∈ pending, (s.monitor = .storing task ∨ s.monitor = .marking task) ∨
      s.actionStop = true ∨
      ∃ n, EndsIn step (fun _ : Unit => .action) (fun t => t.invoked = s.invoked ++ [task]) n s

/-! ## What is kept -/

/-- The task that the monitor has popped and not stored yet. -/
def Monitor.hand : Monitor → List Task
  | .storing out | .marking out => [out]
  | _ => []

/-- The task that the action thread has copied and not passed on yet. -/
def Action.hand : Action → List Task
  | .invoking task => [task]
  | _ => []

/-- The task in the slot, while it is still to be executed. -/
def Edge.slot (s : Edge) : List Task :=
  if s.action.busy = false ∧ s.runState = .initializing then [s.selfTask] else []

/-- **What careful steps keep**: each task that has been popped has been passed on, or it is with
one of the threads or in the slot, and then in that order. -/
structure Kept (s : Edge) : Prop where
  order : s.popped ++ s.queue = s.pushed
  passed : s.popped = s.invoked ++ (s.monitor.hand ++ (s.action.hand ++ s.slot))
  /-- The monitor has nothing to do while a task waits to be passed on. -/
  quiet : s.slot ≠ [] ∨ s.action.hand ≠ [] → s.monitor = .checking ∧ s.runState = .initializing
  free : s.action.busy = false → s.runState ≠ .ready
  going : s.action = .rechecking ∨ s.action = .taking → s.runState = .initializing
  marking : ∀ out, s.monitor = .marking out → s.selfTask = out ∧ s.action.busy = false
  exited : s.action = .exited → s.actionStop = true

section
variable {s s' : Edge}

/-- The slot is empty when nothing waits in it to be executed. -/
theorem slot_eq_nil (h : ¬ (s.action.busy = false ∧ s.runState = .initializing)) : s.slot = [] :=
  if_neg h

/-- Otherwise it holds the one task that waits. -/
theorem slot_eq (hbusy : s.action.busy = false) (hrun : s.runState = .initializing) :
    s.slot = [s.selfTask] :=
  if_pos ⟨hbusy, hrun⟩

/-- While the monitor has something to do there is nothing else on its way. -/
theorem Kept.alone (h : Kept s) (hm : s.monitor ≠ .checking) :
    s.slot = [] ∧ s.action.hand = [] := by
  constructor
  · by_contra hslot
    exact hm (h.quiet (.inl hslot)).1
  · by_contra hhand
    exact hm (h.quiet (.inr hhand)).1

/-! ## The steps of the monitor -/

/-- The monitor takes the next task from the queue. -/
theorem pop_kept (h : Kept s) (hm : s.monitor = .popping) {out : Task} {queue : List Task}
    (hq : s.queue = out :: queue) :
    Kept { s with queue, monitor := .storing out, popped := s.popped ++ [out] } := by
  obtain ⟨hslot, hhand⟩ := h.alone (by rw [hm]; nofun)
  have hpassed := h.passed
  have horder := h.order
  rw [hm, hhand, hslot] at hpassed
  rw [hq] at horder
  refine ⟨?_, ?_, fun hn => absurd hn ?_, h.free, h.going, nofun, h.exited⟩
  · show s.popped ++ [out] ++ queue = s.pushed
    rwa [List.append_assoc]
  · show s.popped ++ [out] = s.invoked ++ ([out] ++ (s.action.hand ++ s.slot))
    rw [hhand, hslot, hpassed]
    simp [Monitor.hand]
  · rintro (hn | hn)
    · exact hn hslot
    · exact hn hhand

/-- The monitor stores the task, while the action thread has none. -/
theorem store_kept (h : Kept s) {out : Task} (hm : s.monitor = .storing out)
    (hbusy : s.action.busy = false) :
    Kept { s with selfTask := out, monitor := .marking out } := by
  obtain ⟨hslot, hhand⟩ := h.alone (by rw [hm]; nofun)
  have hrun : s.runState ≠ .initializing := by
    intro hrun
    rw [slot_eq hbusy hrun] at hslot
    cases hslot
  have hslot' : Edge.slot { s with selfTask := out, monitor := .marking out } = [] :=
    slot_eq_nil fun hn => hrun hn.2
  have hpassed := h.passed
  rw [hm, hhand, hslot] at hpassed
  refine ⟨h.order, ?_, fun hn => absurd hn ?_, h.free, h.going, ?_, h.exited⟩
  · rw [hslot']
    show s.popped = s.invoked ++ ([out] ++ (s.action.hand ++ []))
    rw [hhand]
    exact hpassed
  · rintro (hn | hn)
    · exact hn hslot'
    · exact hn hhand
  · intro out' hout
    cases hout
    exact ⟨rfl, hbusy⟩

/-- The monitor says that there is a task to execute. -/
theorem mark_kept (h : Kept s) {out : Task} (hm : s.monitor = .marking out) :
    Kept { s with runState := .initializing, monitor := .checking } := by
  obtain ⟨hslot, hhand⟩ := h.alone (by rw [hm]; nofun)
  obtain ⟨hself, hbusy⟩ := h.marking out hm
  have hslot' : Edge.slot { s with runState := .initializing, monitor := .checking } = [out] := by
    have hself' : [s.selfTask] = [out] := by rw [hself]
    have hs := slot_eq (s := { s with runState := .initializing, monitor := .checking }) hbusy rfl
    exact hs.trans hself'
  have hpassed := h.passed
  rw [hm, hhand, hslot] at hpassed
  refine ⟨h.order, ?_, fun _ => ⟨rfl, rfl⟩, fun _ => nofun, fun _ => rfl, nofun, h.exited⟩
  rw [hslot']
  show s.popped = s.invoked ++ ([] ++ (s.action.hand ++ [out]))
  rw [hhand]
  exact hpassed

/-- **A careful step of the monitor keeps it.** -/
theorem monitorStep_kept (hc : Careful s .monitor) (h : Kept s) : Kept (monitorStep s) := by
  unfold monitorStep
  split
  next hm =>
    split
    next hrun =>
      refine { h with passed := ?_, quiet := fun hq => absurd (h.quiet hq).2 ?_, marking := nofun }
      · have hpassed := h.passed
        rwa [hm] at hpassed
      · rw [hrun]
        nofun
    next => exact h
  next hm =>
    split
    next =>
      refine { h with passed := ?_, quiet := fun hq => ⟨rfl, (h.quiet hq).2⟩, marking := nofun }
      have hpassed := h.passed
      rwa [hm] at hpassed
    next out queue hq => exact pop_kept h hm hq
  next out hm => exact store_kept h hm (hc out hm)
  next out hm => exact mark_kept h hm

/-! ## The steps of the action thread -/

/-- The action thread goes on, and the task in the slot, if there is one, stays there. -/
theorem Kept.goOn (h : Kept s) {action : Action} (hbusy : action.busy = s.action.busy)
    (hhand : action.hand = s.action.hand)
    (hgoing : action = .rechecking ∨ action = .taking → s.runState = .initializing)
    (hexited : action = .exited → s.actionStop = true) : Kept { s with action } := by
  have hslot : Edge.slot { s with action } = s.slot := by
    unfold Edge.slot
    rw [hbusy]
  refine ⟨h.order, ?_, fun hn => h.quiet ?_, fun hb => h.free ?_, hgoing, fun out hm => ?_,
    hexited⟩
  · rw [hslot]
    show s.popped = s.invoked ++ (s.monitor.hand ++ (action.hand ++ s.slot))
    rw [hhand]
    exact h.passed
  · rw [hslot] at hn
    rwa [← hhand]
  · rwa [← hbusy]
  · obtain ⟨hself, hb⟩ := h.marking out hm
    exact ⟨hself, hbusy.trans hb⟩

/-- The action thread takes its copy of the slot. -/
theorem take_kept (h : Kept s) (ha : s.action = .taking) :
    Kept { s with action := .invoking s.selfTask } := by
  have hrun := h.going (.inr ha)
  have hslot : s.slot = [s.selfTask] := slot_eq (by rw [ha]; rfl) hrun
  have hslot' : Edge.slot { s with action := .invoking s.selfTask } = [] :=
    slot_eq_nil fun hn => nomatch hn.1
  have hm := (h.quiet (.inl (by rw [hslot]; nofun))).1
  have hpassed := h.passed
  rw [hm, ha, hslot] at hpassed
  refine ⟨h.order, ?_, fun _ => ⟨hm, hrun⟩, nofun, nofun, fun out hout => ?_, nofun⟩
  · rw [hslot']
    show s.popped = s.invoked ++ (s.monitor.hand ++ ([s.selfTask] ++ []))
    rw [hm]
    exact hpassed
  · rw [hm] at hout
    cases hout

/-- The action thread is busy with a task, which it passes on now or has passed on. -/
theorem Kept.serve (h : Kept s) {action : Action} (hold : s.action.busy) (hbusy : action.busy)
    (hhand : action.hand = []) (runState : RunState) :
    Kept { s with action, runState, invoked := s.invoked ++ s.action.hand } := by
  have hslot : s.slot = [] := slot_eq_nil fun hn => absurd hn.1 (by simp [hold])
  have hslot' :
      Edge.slot { s with action, runState, invoked := s.invoked ++ s.action.hand } = [] :=
    slot_eq_nil fun hn => absurd hn.1 (by simp [hbusy])
  have hpassed := h.passed
  rw [hslot] at hpassed
  -- the monitor has nothing in hand while the action thread has
  have hcomm : s.monitor.hand ++ s.action.hand = s.action.hand ++ s.monitor.hand := by
    by_cases hn : s.action.hand = []
    · simp [hn]
    · rw [(h.quiet (.inr hn)).1]
      simp [Monitor.hand]
  refine ⟨h.order, ?_, fun hn => ?_, fun hb => ?_, ?_, fun out hm => ?_, ?_⟩
  · rw [hslot']
    show s.popped = s.invoked ++ s.action.hand ++ (s.monitor.hand ++ (action.hand ++ []))
    rw [hhand, hpassed, List.append_nil, hcomm]
    simp
  · rw [hslot'] at hn
    rcases hn with hn | hn
    · exact absurd rfl hn
    · exact absurd hhand hn
  · exact absurd hb (by simp [hbusy])
  · rintro (rfl | rfl) <;> cases hbusy
  · have hb := (h.marking out hm).2
    exact absurd hold (by simp [hb])
  · rintro rfl
    cases hbusy

/-- A step of the handler, or to it. -/
theorem Kept.handle (h : Kept s) {action : Action} (hold : s.action.busy)
    (hnone : s.action.hand = []) (hbusy : action.busy) (hhand : action.hand = [])
    (runState : RunState) : Kept { s with action, runState } := by
  have hkept := h.serve hold hbusy hhand runState
  rwa [hnone, List.append_nil] at hkept

/-- The action thread is done with the task. -/
theorem finish_kept (h : Kept s) (ha : s.action = .finishing)
    (hm : ∀ out, s.monitor ≠ .marking out) :
    Kept { s with runState := finishState s.runState, action := .idle } := by
  have hfinal : finishState s.runState ≠ .initializing ∧ finishState s.runState ≠ .ready := by
    cases s.runState <;> exact ⟨nofun, nofun⟩
  have hslot : s.slot = [] := slot_eq_nil fun hn => by simp [ha, Action.busy] at hn
  have hslot' : Edge.slot { s with runState := finishState s.runState, action := .idle } = [] :=
    slot_eq_nil fun hn => hfinal.1 hn.2
  have hpassed := h.passed
  rw [ha, hslot] at hpassed
  refine ⟨h.order, ?_, fun hn => ?_, fun _ => hfinal.2, nofun, fun out hout => absurd hout (hm out),
    nofun⟩
  · rw [hslot']
    exact hpassed
  · rw [hslot'] at hn
    rcases hn with hn | hn <;> exact absurd rfl hn

/-- Who waits for the mutex goes on when the monitor does not hold it. -/
theorem unlessMarking_eq {t : Edge} (h : unlessMarking s t = some s') :
    s' = t ∧ ∀ out, s.monitor ≠ .marking out := by
  unfold unlessMarking at h
  split at h
  next => cases h
  next hm => exact ⟨(Option.some.inj h).symm, hm⟩

/-- From its look for a handler on the action thread is busy, and it has passed the task on. -/
theorem invoke_busy (s : Edge) (task : Task) :
    (invoke s task).busy ∧ (invoke s task).hand = [] := by
  unfold invoke
  split
  next => exact ⟨rfl, rfl⟩
  split
  next => exact ⟨rfl, rfl⟩
  next => exact ⟨rfl, rfl⟩
  next => exact ⟨rfl, rfl⟩

/-- Outside the handler only a task of the monitor's waits to be executed. -/
theorem Kept.waits (h : Kept s) (hbusy : s.action.busy = false) (hw : s.runState.waits) :
    s.runState = .initializing := by
  cases hrun : s.runState with
  | initializing => rfl
  | ready => exact absurd hrun (h.free hbusy)
  | _ =>
    rw [hrun] at hw
    cases hw

/-- **A step of the action thread keeps it.** -/
theorem actionStep_kept (h : Kept s) (hs : actionStep s = some s') : Kept s' := by
  unfold actionStep at hs
  split at hs
  next ha =>
    obtain rfl := Option.some.inj hs
    refine h.goOn ?_ ?_ ?_ fun hx => ?_
    · rw [ha]
      split <;> rfl
    · rw [ha]
      split <;> rfl
    · split <;> nofun
    · split at hx
      next hstop => exact hstop
      next => cases hx
  next ha =>
    obtain rfl := Option.some.inj hs
    have hb : s.action.busy = false := by rw [ha]; rfl
    refine h.goOn ?_ ?_ (fun hx => ?_) ?_
    · rw [ha]
      split <;> rfl
    · rw [ha]
      split <;> rfl
    · split at hx
      next hw => exact h.waits hb hw
      next => rcases hx with hx | hx <;> cases hx
    · split <;> nofun
  next ha =>
    obtain rfl := Option.some.inj hs
    have hb : s.action.busy = false := by rw [ha]; rfl
    refine h.goOn ?_ ?_ (fun hx => ?_) ?_
    · rw [ha]
      split <;> rfl
    · rw [ha]
      split <;> rfl
    · split at hx
      next hw => exact h.waits hb hw
      next => rcases hx with hx | hx <;> cases hx
    · split <;> nofun
  next ha =>
    obtain ⟨rfl, -⟩ := unlessMarking_eq hs
    exact take_kept h ha
  next task ha =>
    obtain rfl := Option.some.inj hs
    have hkept := h.serve (by rw [ha]; rfl) (invoke_busy s task).1 (invoke_busy s task).2 s.runState
    rwa [ha] at hkept
  next ha =>
    split at hs
    next =>
      obtain rfl := Option.some.inj hs
      exact h.handle (by rw [ha]; rfl) (by rw [ha]; rfl) rfl rfl .running
    next =>
      obtain rfl := Option.some.inj hs
      exact h.handle (by rw [ha]; rfl) (by rw [ha]; rfl) rfl rfl s.runState
  next i ha =>
    split at hs
    next =>
      split at hs
      next =>
        obtain rfl := Option.some.inj hs
        exact h.handle (by rw [ha]; rfl) (by rw [ha]; rfl) rfl rfl .stopped
      next =>
        obtain rfl := Option.some.inj hs
        exact h.handle (by rw [ha]; rfl) (by rw [ha]; rfl) rfl rfl s.runState
    next =>
      obtain rfl := Option.some.inj hs
      exact h.handle (by rw [ha]; rfl) (by rw [ha]; rfl) rfl rfl .runOver
  next => cases hs
  next ha =>
    obtain ⟨rfl, hm⟩ := unlessMarking_eq hs
    exact finish_kept h ha hm
  next => cases hs

/-- **A step of a registered handler keeps it**, also when it throws. -/
theorem handlerStep_kept (h : Kept s) {op : Op} (hs : handlerStep s op = some s') : Kept s' := by
  cases op with
  | store state =>
    simp only [handlerStep] at hs
    split at hs
    next ha =>
      obtain rfl := Option.some.inj hs
      have hbusy : s.action.busy = true := by rw [ha]; rfl
      have hhand : s.action.hand = [] := by rw [ha]; rfl
      exact h.handle hbusy hhand hbusy hhand state
    next => cases hs
  | returns | throws =>
    simp only [handlerStep] at hs
    split at hs
    next ha =>
      obtain rfl := Option.some.inj hs
      exact h.handle (by rw [ha]; rfl) (by rw [ha]; rfl) rfl rfl s.runState
    next => cases hs

/-- **Every careful step keeps it.** -/
theorem step_kept {l : Label} (hc : Careful s l) (h : Kept s) (hs : step s l = some s') :
    Kept s' := by
  cases l with
  | push task =>
    obtain rfl := Option.some.inj hs
    refine { h with order := ?_ }
    show s.popped ++ (s.queue ++ [task]) = s.pushed ++ [task]
    rw [← List.append_assoc, h.order]
  | register action handler =>
    obtain rfl := Option.some.inj hs
    exact { h with }
  | monitor =>
    obtain rfl := Option.some.inj hs
    exact monitorStep_kept hc h
  | action => exact actionStep_kept h hs
  | handler op => exact handlerStep_kept h hs
  | stop =>
    obtain rfl := Option.some.inj hs
    exact { h with exited := fun _ => rfl }

/-- There is no task in a new edge. -/
theorem kept_init : Kept {} :=
  ⟨rfl, rfl, fun hn => by simp [Edge.slot, Action.hand] at hn, fun _ => nofun, nofun, nofun, nofun⟩

/-! ## Runs -/

/-- What the action thread has copied it passes on by itself. -/
theorem invoking_ends {task : Task} (ha : s.action = .invoking task) :
    EndsIn step (fun _ : Unit => .action) (fun t => t.invoked = s.invoked ++ [task]) 1 s := by
  refine .cons (f := fun _ => { s with action := invoke s task, invoked := s.invoked ++ [task] })
    (fun _ => ?_) fun _ => rfl
  simp [step, actionStep, ha]

/-- From the copy of the slot the task is passed on in two steps. -/
theorem taking_ends (ha : s.action = .taking) (hm : s.monitor = .checking) :
    EndsIn step (fun _ : Unit => .action) (fun t => t.invoked = s.invoked ++ [s.selfTask]) 2 s := by
  refine .cons (f := fun _ => { s with action := .invoking s.selfTask }) (fun _ => ?_)
    fun _ => invoking_ends rfl
  simp [step, actionStep, ha, unlessMarking, hm]

/-- From the second look at the state the task is passed on in three steps. -/
theorem rechecking_ends (ha : s.action = .rechecking) (hm : s.monitor = .checking)
    (hrun : s.runState = .initializing) :
    EndsIn step (fun _ : Unit => .action) (fun t => t.invoked = s.invoked ++ [s.selfTask]) 3 s := by
  refine .cons (f := fun _ => { s with action := .taking }) (fun _ => ?_)
    fun _ => taking_ends rfl hm
  simp [step, actionStep, ha, hrun, RunState.waits]

/-- From the first look at the state the task is passed on in four steps. -/
theorem checking_ends (ha : s.action = .checking) (hm : s.monitor = .checking)
    (hrun : s.runState = .initializing) :
    EndsIn step (fun _ : Unit => .action) (fun t => t.invoked = s.invoked ++ [s.selfTask]) 4 s := by
  refine .cons (f := fun _ => { s with action := .rechecking }) (fun _ => ?_)
    fun _ => rechecking_ends rfl hm hrun
  simp [step, actionStep, ha, hrun, RunState.waits]

/-- From the head of its loop the action thread passes the task on in five steps. -/
theorem idle_ends (ha : s.action = .idle) (hm : s.monitor = .checking)
    (hrun : s.runState = .initializing) (hstop : s.actionStop = false) :
    EndsIn step (fun _ : Unit => .action) (fun t => t.invoked = s.invoked ++ [s.selfTask]) 5 s := by
  refine .cons (f := fun _ => { s with action := .checking }) (fun _ => ?_)
    fun _ => checking_ends rfl hm hrun
  simp [step, actionStep, ha, hstop]

/-- What is in the slot the action thread comes to pass on by itself. -/
theorem Kept.slot_ends (h : Kept s) (hslot : s.slot ≠ []) :
    s.slot = [s.selfTask] ∧ (s.actionStop = true ∨ ∃ n,
      EndsIn step (fun _ : Unit => .action) (fun t => t.invoked = s.invoked ++ [s.selfTask]) n
        s) := by
  obtain ⟨hm, hrun⟩ := h.quiet (.inl hslot)
  have hbusy : s.action.busy = false := by
    by_contra hb
    exact hslot (slot_eq_nil fun hn => hb hn.1)
  refine ⟨slot_eq hbusy hrun, ?_⟩
  cases hstop : s.actionStop with
  | true => exact .inl rfl
  | false =>
    refine .inr ?_
    cases ha : s.action with
    | idle => exact ⟨5, idle_ends ha hm hrun hstop⟩
    | checking => exact ⟨4, checking_ends ha hm hrun⟩
    | rechecking => exact ⟨3, rechecking_ends ha hm hrun⟩
    | taking => exact ⟨2, taking_ends ha hm⟩
    | exited => exact absurd (h.exited ha) (by simp [hstop])
    | invoking | entering | sayingHello | handling | finishing =>
      rw [ha] at hbusy
      cases hbusy

/-- **What is kept is safe.** -/
theorem Kept.safe (h : Kept s) : Safe s := by
  refine ⟨h.order, _, h.passed, ?_⟩
  by_cases hm : s.monitor = .checking
  · rw [hm]
    by_cases hslot : s.slot = []
    · rw [hslot]
      cases ha : s.action with
      | invoking task =>
        refine ⟨Nat.le_refl 1, fun t ht => .inr (.inr ⟨1, ?_⟩)⟩
        obtain rfl := List.mem_singleton.1 ht
        exact invoking_ends ha
      | _ => exact ⟨Nat.zero_le _, nofun⟩
    · obtain ⟨heq, hends⟩ := h.slot_ends hslot
      have hhand : s.action.hand = [] := by
        cases ha : s.action with
        | invoking task =>
          exact absurd (slot_eq_nil fun hn => by simp [ha, Action.busy] at hn) hslot
        | _ => rfl
      rw [hhand, heq]
      refine ⟨Nat.le_refl 1, fun t ht => .inr ?_⟩
      obtain rfl := List.mem_singleton.1 ht
      exact hends
  · obtain ⟨hslot, hhand⟩ := h.alone hm
    rw [hslot, hhand]
    cases hmon : s.monitor with
    | checking => exact absurd hmon hm
    | popping => exact ⟨Nat.zero_le _, nofun⟩
    | storing out =>
      refine ⟨Nat.le_refl 1, fun t ht => .inl (.inl ?_)⟩
      obtain rfl := List.mem_singleton.1 ht
      rfl
    | marking out =>
      refine ⟨Nat.le_refl 1, fun t ht => .inl (.inr ?_)⟩
      obtain rfl := List.mem_singleton.1 ht
      rfl

/-- **No self task is lost or run twice** where none is stored before the last one is finished. -/
theorem selfTask_safe {ls : List Label} (hc : Along step Careful {} ls)
    (h : run step {} ls = some s) : Safe s :=
  (run_along (P := Kept) (fun _ _ _ hc hk hl => step_kept hc hk hl) kept_init hc h).safe

end

instance : ∀ (s : Edge) l, Decidable (Careful s l)
  | s, .monitor =>
    match hm : s.monitor with
    | .storing out =>
      decidable_of_iff (s.action.busy = false)
        ⟨fun hb _ _ => hb, fun hc => hc out hm⟩
    | .checking | .popping | .marking _ => isTrue fun _ h => nomatch hm.symm.trans h
  | _, .push _ | _, .register .. | _, .action | _, .handler _ | _, .stop => isTrue trivial

/-- Two tasks one after the other; the handler of the first throws. -/
theorem selfTask_safe_two :
    ∃ (ls : List Label) (s : Edge), run step {} ls = some s ∧ Safe s ∧ s.invoked.length = 2 := by
  have h : run step {}
      [.register "up" (some .registered), .push ⟨"1", "up"⟩, .push ⟨"2", "say_hello"⟩, .monitor,
        .monitor, .monitor, .monitor, .action, .action, .action, .action, .action, .monitor,
        .handler (.store .running), .handler .throws, .action, .monitor, .monitor, .monitor,
        .action, .monitor, .action, .action, .action, .action, .action] = some _ := rfl
  exact ⟨_, _, h, selfTask_safe (by decide) h, rfl⟩

/-- `SayHelloAction` has set the state to `RunOver`; the second task is stored before the first one
is finished, and is never passed on. -/
theorem second_lost :
    ¬ ∀ (ls : List Label) (s : Edge), run step {} ls = some s → Safe s := by
  intro h
  obtain ⟨-, pending, hpassed, hlen, -⟩ := h
    [.push ⟨"1", "say_hello"⟩, .push ⟨"2", "say_hello"⟩, .push ⟨"3", "say_hello"⟩, .monitor,
      .monitor, .monitor, .monitor, .action, .action, .action, .action, .action, .action, .action,
      .action, .action, .action, .action, .action, .monitor, .monitor, .monitor, .monitor, .action,
      .monitor, .monitor] _ rfl
  have hlost : pending = [⟨"2", "say_hello"⟩, ⟨"3", "say_hello"⟩] := (List.cons.inj hpassed).2.symm
  rw [hlost] at hlen
  exact absurd hlen (by decide)

end SelfTask

end MyEdge
