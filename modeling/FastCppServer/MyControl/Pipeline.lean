import FastCppServer.MyControl.Workflow

/-!
# Every task that is taken is executed, and reported

Of all that happens in a workflow few steps matter to a task: it is taken out of the queue, and then
`on_start_`, `DoTask` and `on_finish_` are called for it, in this order and whatever they do
(`Advances`). So a task that has been taken and not passed to `DoTask` is in the hand of the thread
(`hand`), and what has been called is three calls for each task that is done and the first of them
for the one at work (`Executes`). What the queue adds is its history, which is that of a first-in
first-out queue (`TaskQueue.legal`).
-/

namespace MyControl

open Function Transition MyData

universe u v

/-- What is being done about a task. -/
inductive Stage where
  | none
  | taken (task : Task)
  | executing (task : Task)
  | finishing (task : Task) (result : TaskResult)

section
variable {ι : Type u} {σ : Type v}

/-- Where the task in the worker's hands is, if it holds one. -/
def Workflow.stage (s : Workflow ι σ) : Stage :=
  match s.worker with
  | .running (.starting task) => .taken task
  | .running (.executing task) => .executing task
  | .running (.finishing task result) => .finishing task result
  | _ => .none

/-- What a step is to the tasks. -/
inductive Advances (cb : Callbacks σ) (s t : Workflow ι σ) : Prop where
  | stays (stage : t.stage = s.stage)
      (popped : Fifo.popped t.queue.history = Fifo.popped s.queue.history)
      (events : t.events = s.events) (device : t.device = s.device)
  | takes (task : Task) (before : s.stage = .none) (after : t.stage = .taken task)
      (popped : Fifo.popped t.queue.history = Fifo.popped s.queue.history ++ [task])
      (events : t.events = s.events) (device : t.device = s.device)
  | starts (task : Task) (now : Int64) (before : s.stage = .taken task)
      (after : t.stage = .executing task)
      (popped : Fifo.popped t.queue.history = Fifo.popped s.queue.history)
      (events : t.events = s.events ++ [.onStart task])
      (device : t.device = cb.onStart task now s.device)
  | executes (task : Task) (o : Outcome) (before : s.stage = .executing task)
      (after : t.stage = .finishing task o.result)
      (popped : Fifo.popped t.queue.history = Fifo.popped s.queue.history)
      (events : t.events = s.events ++ [.doTask task o]) (device : t.device = s.device)
  | finishes (task : Task) (result : TaskResult) (now : Int64)
      (before : s.stage = .finishing task result) (after : t.stage = .none)
      (popped : Fifo.popped t.queue.history = Fifo.popped s.queue.history)
      (events : t.events = s.events ++ [.onFinish task result])
      (device : t.device = cb.onFinish task result now s.device)

/-! ## The calls -/

/-- The task that has been taken and not been passed to `DoTask`. -/
def Stage.hand : Stage → List Task
  | .taken task | .executing task => [task]
  | _ => []

/-- The calls for one task, with the outcome of `DoTask`. -/
def calls (x : Task × Outcome) : List Event :=
  [.onStart x.1, .doTask x.1 x.2, .onFinish x.1 x.2.result]

/-- The calls so far for the task at work. -/
def Stage.Current : Stage → List Event → Prop
  | .executing task, es => es = [.onStart task]
  | .finishing task result, es => ∃ o, result = o.result ∧ es = [.onStart task, .doTask task o]
  | _, es => es = []

/-- The tasks that have been passed to `DoTask`, and the one in hand, are those that have been
popped; each has its calls. -/
structure Executes (s : Workflow ι σ) (done : List (Task × Outcome)) : Prop where
  popped : executed s.events ++ s.stage.hand = Fifo.popped s.queue.history
  calls : ∃ es, s.events = done.flatMap calls ++ es ∧ s.stage.Current es

/-! ## The steps -/

section
variable {cb : Callbacks σ} {s t : Workflow ι σ}

/-- The thread goes on to a phase without a task from one without a task. -/
theorem Advances.goOn {p : Phase} (hs : s.stage = .none)
    (ht : Workflow.stage { s with worker := .running p } = .none) :
    Advances cb s { s with worker := .running p } :=
  .stays (ht.trans hs.symm) rfl rfl rfl

/-- A step of the worker advances the pipeline by at most one stage. -/
theorem workerStep_advances {p : Phase} (hw : s.worker = .running p) (now : Int64) (o : Outcome) :
    Advances cb s (s.workerStep cb now o p) := by
  cases p with
  | testing =>
    refine .goOn (by rw [Workflow.stage, hw]) ?_
    split <;> rfl
  | checking =>
    refine .goOn (by rw [Workflow.stage, hw]) ?_
    split <;> rfl
  | popping =>
    have hs : s.stage = .none := by rw [Workflow.stage, hw]
    simp only [Workflow.workerStep]
    split
    next => exact .goOn hs rfl
    next task queue hq =>
      obtain ⟨-, hhistory, -⟩ := TaskQueue.popBlocking_some hq
      refine .takes task hs rfl ?_ rfl rfl
      show Fifo.popped queue.history = Fifo.popped s.queue.history ++ [task]
      simp [hhistory]
  | missed =>
    refine .goOn (by rw [Workflow.stage, hw]) ?_
    split <;> rfl
  | starting task => exact .starts task now (by rw [Workflow.stage, hw]) rfl rfl rfl rfl
  | executing task => exact .executes task o (by rw [Workflow.stage, hw]) rfl rfl rfl rfl
  | finishing task result =>
    exact .finishes task result now (by rw [Workflow.stage, hw]) rfl rfl rfl rfl
  | leaving => exact .stays (by rw [Workflow.stage, Workflow.stage, hw]; rfl) rfl rfl rfl

variable [DecidableEq ι]

/-- A call from outside advances no task. -/
theorem callStep_advances (c : ι) (op : Op) : Advances cb s (s.callStep c op) := by
  cases op with
  | start | stop =>
    simp only [Workflow.callStep]
    split <;> exact .stays rfl rfl rfl rfl
  | join => exact .stays rfl rfl rfl rfl

/-- Nor does any other step of a client. -/
theorem clientStep_advances {c : ι} (h : s.clientStep c = some t) : Advances cb s t := by
  unfold Workflow.clientStep at h
  split at h
  next => cases h
  next => cases h; exact .stays rfl rfl rfl rfl
  next =>
    split at h
    next => cases h; exact .stays rfl rfl rfl rfl
    next hno =>
      cases h
      have hs : s.stage = .none := by
        unfold Workflow.joinable at hno
        split at hno
        next hw => rw [Workflow.stage, hw]
        next => exact absurd rfl hno
      exact .stays hs.symm rfl rfl rfl
  next => cases h; exact .stays rfl rfl rfl rfl
  next =>
    split at h
    next => cases h
    next hw =>
      cases h
      exact .stays (by rw [Workflow.stage, Workflow.stage, hw]) rfl rfl rfl
    next => cases h; exact .stays rfl rfl rfl rfl
  next => cases h; exact .stays rfl rfl rfl rfl

/-- **Every step** is one of the three calls for a task, or takes one, or is none of its
business. -/
theorem step_advances {l : Label ι} (h : step cb s l = some t) : Advances cb s t := by
  unfold step at h
  split at h
  next => cases h
  next =>
    cases l with
    | push task => cases h; exact .stays rfl (TaskQueue.popped_push ..) rfl rfl
    | clear => cases h; exact .stays rfl (TaskQueue.popped_clear _) rfl rfl
    | shutdown | setEStop => cases h; exact .stays rfl rfl rfl rfl
    | call c op =>
      simp only at h
      split at h
      next => cases h; exact callStep_advances c op
      next => cases h
    | client c => exact clientStep_advances h
    | worker now o =>
      simp only at h
      split at h
      next p hw => cases h; exact workerStep_advances hw now o
      next => cases h

end

/-! ## What the queue accepts -/

section
variable {cb : Callbacks σ} {s t : Workflow ι σ}

/-- What a step is to the queue, as it is seen from outside: a task that is pushed while the queue
is open is accepted, a `Clear` clears, and `PopBlocking` gives the thread the task that it comes out
with. -/
def told (s : Workflow ι σ) (l : Label ι) (t : Workflow ι σ) : List (Fifo.Event Task) :=
  match l with
  | .push task => if s.queue.shutdown then [] else [.push task]
  | .clear => [.clear]
  | .worker .. =>
    match s.stage, t.stage with
    | .none, .taken task => [.pop task]
    | _, _ => []
  | .shutdown | .setEStop _ | .call .. | .client _ => []

/-- An open queue takes every task. -/
theorem TaskQueue.push_told (tq : TaskQueue) (task : Task) :
    (tq.push task).history = tq.history ++ if tq.shutdown then [] else [.push task] := by
  unfold push
  split
  next => exact (List.append_nil _).symm
  next => rfl

/-- The thread pops the task that it goes on with, and no other step of it pops. -/
theorem workerStep_told {p : Phase} (hw : s.worker = .running p) (now : Int64) (o : Outcome) :
    (s.workerStep cb now o p).queue.history =
      s.queue.history ++ told s (.worker now o) (s.workerStep cb now o p) := by
  rw [told, Workflow.stage, Workflow.stage, hw]
  cases p with
  | popping =>
    simp only [Workflow.workerStep]
    split
    next => exact (List.append_nil _).symm
    next task queue hq => exact (TaskQueue.popBlocking_some hq).2.1
  | testing =>
    simp only [Workflow.workerStep]
    cases s.stop <;> exact (List.append_nil _).symm
  | checking =>
    simp only [Workflow.workerStep]
    cases s.eStop <;> exact (List.append_nil _).symm
  | missed =>
    simp only [Workflow.workerStep]
    cases s.queue.shutdown <;> exact (List.append_nil _).symm
  | starting | executing | finishing | leaving => exact (List.append_nil _).symm

variable [DecidableEq ι]

/-- A call leaves the queue alone. -/
theorem callStep_queue (c : ι) (op : Op) : (s.callStep c op).queue = s.queue := by
  cases op with
  | start | stop =>
    simp only [Workflow.callStep]
    split <;> rfl
  | join => rfl

/-- So does every step of a client. -/
theorem clientStep_queue {c : ι} (h : s.clientStep c = some t) : t.queue = s.queue := by
  unfold Workflow.clientStep at h
  split at h
  next => cases h
  next => cases h; rfl
  next =>
    split at h
    next => cases h; rfl
    next => cases h; rfl
  next => cases h; rfl
  next =>
    split at h
    next => cases h
    next => cases h; rfl
    next => cases h; rfl
  next => cases h; rfl

/-- **The history is what is accepted, cleared and taken**, step by step. -/
theorem step_told (s : Workflow ι σ) (l : Label ι) (t : Workflow ι σ) (h : step cb s l = some t) :
    t.queue.history = s.queue.history ++ told s l t := by
  unfold step at h
  split at h
  next => cases h
  next =>
    cases l with
    | push task =>
      cases h
      exact s.queue.push_told task
    | clear =>
      cases h
      rfl
    | shutdown | setEStop =>
      cases h
      exact (List.append_nil _).symm
    | call c op =>
      simp only at h
      split at h
      next =>
        cases h
        rw [callStep_queue, told, List.append_nil]
      next => cases h
    | client c =>
      rw [clientStep_queue h, told, List.append_nil]
    | worker now o =>
      simp only at h
      split at h
      next p hw =>
        cases h
        exact workerStep_told hw now o
      next => cases h

theorem run_told {d : σ} {ls : List (Label ι)} (h : run (step cb) { device := d } ls = some s) :
    s.queue.history = outputs (step cb) told { device := d } ls :=
  (run_outputs (fun s => s.queue.history) step_told h).trans (List.nil_append _)

end

/-! ## What a step keeps -/

/-- The executions of two histories, one after the other. -/
@[simp] theorem executed_append (es fs : List Event) :
    executed (es ++ fs) = executed es ++ executed fs :=
  List.filterMap_append

variable {s t : Workflow ι σ} {done : List (Task × Outcome)}

/-- Before the first step nothing has been executed. -/
theorem executes_init (d : σ) : Executes ({ device := d } : Workflow ι σ) [] :=
  ⟨rfl, [], rfl, rfl⟩

/-- A step that moves no task keeps the record. -/
theorem Executes.stays (h : Executes s done) (stage : t.stage = s.stage)
    (popped : Fifo.popped t.queue.history = Fifo.popped s.queue.history)
    (events : t.events = s.events) : Executes t done := by
  obtain ⟨es, hes, hcurrent⟩ := h.calls
  refine ⟨?_, es, ?_, ?_⟩
  · rw [stage, popped, events, h.popped]
  · rw [events, hes]
  · rw [stage]
    exact hcurrent

/-- The worker takes a task from the queue. -/
theorem Executes.takes (h : Executes s done) {task : Task} (before : s.stage = .none)
    (after : t.stage = .taken task)
    (popped : Fifo.popped t.queue.history = Fifo.popped s.queue.history ++ [task])
    (events : t.events = s.events) : Executes t done := by
  obtain ⟨es, hes, hcurrent⟩ := h.calls
  have hpopped := h.popped
  rw [before] at hpopped hcurrent
  refine ⟨?_, es, ?_, ?_⟩
  · rw [after, popped, events, ← hpopped]
    simp [Stage.hand]
  · rw [events, hes]
  · rw [after]
    exact hcurrent

/-- The task is reported as started. -/
theorem Executes.starts (h : Executes s done) {task : Task} (before : s.stage = .taken task)
    (after : t.stage = .executing task)
    (popped : Fifo.popped t.queue.history = Fifo.popped s.queue.history)
    (events : t.events = s.events ++ [.onStart task]) : Executes t done := by
  obtain ⟨es, hes, hcurrent⟩ := h.calls
  have hpopped := h.popped
  rw [before] at hpopped hcurrent
  obtain rfl : es = [] := hcurrent
  refine ⟨?_, [.onStart task], ?_, ?_⟩
  · rw [after, popped, events, ← hpopped]
    simp [Stage.hand, executed]
  · rw [events, hes, List.append_nil]
  · rw [after]
    rfl

/-- The task is executed, and the record grows by it. -/
theorem Executes.executes (h : Executes s done) {task : Task} {o : Outcome}
    (before : s.stage = .executing task) (after : t.stage = .finishing task o.result)
    (popped : Fifo.popped t.queue.history = Fifo.popped s.queue.history)
    (events : t.events = s.events ++ [.doTask task o]) : Executes t done := by
  obtain ⟨es, hes, hcurrent⟩ := h.calls
  have hpopped := h.popped
  rw [before] at hpopped hcurrent
  obtain rfl : es = [.onStart task] := hcurrent
  refine ⟨?_, [.onStart task, .doTask task o], ?_, ?_⟩
  · rw [after, popped, events, ← hpopped]
    simp [Stage.hand, executed]
  · rw [events, hes, List.append_assoc]
    rfl
  · rw [after]
    exact ⟨o, rfl, rfl⟩

/-- A task is done when its third call has been made. -/
theorem Executes.finishes (h : Executes s done) {task : Task} {result : TaskResult}
    (before : s.stage = .finishing task result) (after : t.stage = .none)
    (popped : Fifo.popped t.queue.history = Fifo.popped s.queue.history)
    (events : t.events = s.events ++ [.onFinish task result]) :
    ∃ o, result = o.result ∧ Executes t (done ++ [(task, o)]) := by
  obtain ⟨es, hes, hcurrent⟩ := h.calls
  have hpopped := h.popped
  rw [before] at hpopped hcurrent
  obtain ⟨o, rfl, rfl⟩ := hcurrent
  refine ⟨o, rfl, ?_, [], ?_, ?_⟩
  · rw [after, popped, events, ← hpopped]
    simp [Stage.hand, executed]
  · rw [events, hes]
    simp [MyControl.calls]
  · rw [after]
    rfl

/-- So each step that advances the pipeline extends the record. -/
theorem Executes.advances {cb : Callbacks σ} (h : Executes s done) (hs : Advances cb s t) :
    ∃ done', Executes t done' := by
  cases hs with
  | stays stage popped events _ => exact ⟨done, h.stays stage popped events⟩
  | takes _ before after popped events _ => exact ⟨done, h.takes before after popped events⟩
  | starts _ _ before after popped events _ => exact ⟨done, h.starts before after popped events⟩
  | executes _ _ before after popped events _ =>
    exact ⟨done, h.executes before after popped events⟩
  | finishes task _ _ before after popped events _ =>
    obtain ⟨o, -, hdone⟩ := h.finishes before after popped events
    exact ⟨_, hdone⟩

/-- **Whatever the callbacks do**, each task that is taken gets its calls. -/
theorem executes_run [DecidableEq ι] {cb : Callbacks σ} {d : σ} {ls : List (Label ι)}
    (h : run (step cb) { device := d } ls = some s) : ∃ done, Executes s done := by
  refine run_invariant (P := fun s => ∃ done, Executes s done) ?_ ⟨[], executes_init d⟩ h
  rintro s l t ⟨done, hs⟩ hstep
  exact hs.advances (step_advances hstep)

end

end MyControl
