import FastCppServer.Edge.BaseEdge
import FastCppServer.MyControl.Pipeline

/-!
# The emergency stop

`SetEStop` sets a flag that `Submit` and the workflows of the devices look at. `Submit` looks at it
under the lock, so it adds nothing while the stop is active. `AppendTask` and `AppendJsonTask` do
not look at it. And a workflow looks at it before it waits for a task, so it takes a task that comes
while it waits, even if the stop has been set in the meantime.

Neither happens where a task is appended during a stop only to a queue that does not take it
(`Kind.takes`), and the stop is set while no workflow is in `PopBlocking` with a task in its queue
(`Careful`). Then a workflow that is in `PopBlocking` during a stop finds no task there (`Held`).
-/

namespace MyEdge

namespace EStop

open Function Transition MyData MyControl

universe u v

/-- The two edges, each with what normalises the commands. -/
inductive Kind where
  | base (normalize : RawCommand → String → String → Except String Task)
  | uuv (normalizersByType : String → Option UUVEdge.Normalizer)

namespace Kind

/-- `Submit` of either edge. -/
def submit : Kind → Gate → Queues → RawCommand → Option SubmitResult × Change
  | base normalize => BaseEdge.submit normalize
  | uuv normalizersByType => UUVEdge.submit normalizersByType

/-- `AppendTask` of either edge. -/
def appendTask : Kind → Queues → Task → Bool × Change
  | base _ => BaseEdge.appendTask
  | uuv _ => UUVEdge.appendTask

/-- `AppendJsonTask` of either edge. -/
def appendJsonTask : Kind → Queues → Json → Bool × Change
  | base _ => BaseEdge.appendJsonTask
  | uuv _ => UUVEdge.appendJsonTask

/-- There is a queue of that id, and it takes a task that is appended. -/
def takes (k : Kind) (queues : Queues) (deviceId : String) : Bool :=
  match queues deviceId with
  | none => false
  | some q => deviceId ≠ "" && !q.shutdown &&
    match k with
    | base _ => true
    | uuv _ => q.q.length < UUVEdge.maxTaskQueueSize

end Kind

/-- An edge and its workflows; the queue of a device is in its workflow. `added`: the queues that an
entry point has added a task to during a stop. `hot`: the workflow has taken its task during one. -/
structure Edge (ι : Type u) (σ : Type v) where
  gate : Gate
  workflows : String → Option (Workflow ι σ)
  added : List String := []
  hot : String → Bool := fun _ => false

/-- A call of an entry point, the edge that takes a task for itself, or a step of a workflow. -/
inductive Label (ι : Type u) where
  | setEStop (active : Bool) (reason : String)
  | setRunState (state : RunState)
  | submit (cmd : RawCommand)
  | appendTask (task : Task)
  | appendJsonTask (j : Json)
  /-- The edge takes a task out of a queue for itself. -/
  | fetch (deviceId : String)
  | workflow (deviceId : String) (l : MyControl.Label ι)

section
variable {ι : Type u} {σ : Type v}

namespace Edge

/-- The queues are those of the workflows. -/
def queues (s : Edge ι σ) : Queues := fun deviceId => (s.workflows deviceId).map (·.queue)

/-- The queue of a workflow becomes another. -/
def setQueue (s : Edge ι σ) (deviceId : String) (w : Workflow ι σ) (q : TaskQueue) : Edge ι σ :=
  { s with workflows := update s.workflows deviceId (some { w with queue := q }) }

/-- What an entry point does to the edge. -/
def enter (s : Edge ι σ) : Change → Edge ι σ
  | none => s
  | some (deviceId, q) =>
    match s.workflows deviceId with
    | none => s
    | some w => { s.setQueue deviceId w q with
        added :=
          if s.gate.eStop && w.queue.q.length < q.q.length then s.added ++ [deviceId] else s.added }

end Edge

/-- The step takes a task out of the queue. -/
def takesTask (w w' : Workflow ι σ) : Bool :=
  match w.stage, w'.stage with
  | .none, .taken _ => true
  | _, _ => false

variable [DecidableEq ι]

/-- A step of a workflow that is none of a client of its queue. -/
def workflowStep (cb : Callbacks σ) (w : Workflow ι σ) : MyControl.Label ι → Option (Workflow ι σ)
  | .push _ | .setEStop _ => none
  | l => MyControl.step cb w l

/-- One step. A stop is set for the edge and for each of its workflows. -/
def step (k : Kind) (cb : Callbacks σ) (s : Edge ι σ) : Label ι → Option (Edge ι σ)
  | .setEStop active reason =>
    some { s with
      gate := { s.gate with eStop := active, eStopReason := reason }
      workflows := fun deviceId => (s.workflows deviceId).map fun w => { w with eStop := active } }
  | .setRunState state => some { s with gate := { s.gate with runState := state } }
  | .submit cmd => some (s.enter (k.submit s.gate s.queues cmd).2)
  | .appendTask task => some (s.enter (k.appendTask s.queues task).2)
  | .appendJsonTask j => some (s.enter (k.appendJsonTask s.queues j).2)
  | .fetch deviceId =>
    match s.workflows deviceId with
    | none => none
    | some w =>
      match w.queue.popBlocking with
      | none => some s
      | some (_, q) => some (s.setQueue deviceId w q)
  | .workflow deviceId l =>
    match s.workflows deviceId with
    | none => none
    | some w =>
      match workflowStep cb w l with
      | none => none
      | some w' => some { s with
          workflows := update s.workflows deviceId (some w')
          hot := if takesTask w w' then update s.hot deviceId s.gate.eStop else s.hot }

/-- The edge before the first step, with a workflow for each device, which has not been started. -/
def init (g : Gate) (devices : String → Option σ) : Edge ι σ where
  gate := { g with eStop := false, allowQueueWhenEStop := false }
  workflows deviceId := (devices deviceId).map fun device => { device }

/-- A task is appended during a stop only where it is not taken, and the stop is set while no
workflow is in `PopBlocking` with a task in its queue. -/
def Careful (k : Kind) (s : Edge ι σ) : Label ι → Prop
  | .setEStop true _ =>
    ∀ deviceId w, s.workflows deviceId = some w → w.worker = .running .popping → w.queue.q = []
  | .appendTask task => s.gate.eStop = true → k.takes s.queues task.deviceId = false
  | .appendJsonTask j =>
    s.gate.eStop = true → k.takes s.queues (Task.fromJson j).deviceId = false
  | _ => True

/-- Nothing has been added during a stop, and no workflow executes what it has taken during one. -/
structure Safe (s : Edge ι σ) : Prop where
  added : s.added = []
  executes : ∀ deviceId w task, s.workflows deviceId = some w →
    w.worker = .running (.executing task) → s.hot deviceId = false

end

/-! ## The entry points -/

/-- `Submit` adds nothing during a stop. -/
theorem submit_of_eStop (k : Kind) {g : Gate} (hstop : g.eStop = true)
    (hallow : g.allowQueueWhenEStop = false) (queues : Queues) (cmd : RawCommand) :
    (k.submit g queues cmd).2 = none := by
  have hgate : (g.eStop && !g.allowQueueWhenEStop) = true := by rw [hstop, hallow]; rfl
  cases k with
  | base normalize =>
    simp only [Kind.submit, BaseEdge.submit, if_pos hgate]
    split <;> rfl
  | uuv normalizersByType =>
    simp only [Kind.submit, UUVEdge.submit, if_pos hgate]
    split <;> rfl

/-- What is appended to a queue that does not take it does not make it longer. -/
theorem appendTask_of_not_takes (k : Kind) {queues : Queues} {task : Task}
    (h : k.takes queues task.deviceId = false) {deviceId : String} {q : TaskQueue}
    (hchange : (k.appendTask queues task).2 = some (deviceId, q)) :
    queues deviceId = some q := by
  cases k with
  | base normalize =>
    simp only [Kind.appendTask, BaseEdge.appendTask] at hchange
    split at hchange
    next => cases hchange
    next hid =>
      unfold BaseEdge.appendTaskToQueueLocked at hchange
      split at hchange
      next => cases hchange
      next hq =>
        split at hq
        next => cases hq
        next q₀ hq₀ =>
          split at hq
          next => cases hq
          next hopen =>
            simp [Kind.takes, hq₀, hid, hopen] at h
  | uuv normalizersByType =>
    simp only [Kind.appendTask, UUVEdge.appendTask, UUVEdge.appendTaskToTargetTaskQueue] at hchange
    split at hchange
    next => cases hchange
    next hid =>
      split at hchange
      next => cases hchange
      next q₀ hq₀ =>
        split at hchange
        next => cases hchange
        next hroom =>
          cases hchange
          have hshut : q₀.shutdown = true := by
            by_contra hopen
            rw [Bool.not_eq_true] at hopen
            simp [Kind.takes, hq₀, hid] at h
            exact hroom (h hopen)
          rw [TaskQueue.push_of_shutdown hshut, hq₀]

/-- `AppendJsonTask` is `AppendTask` of the task that it reads. -/
theorem appendJsonTask_eq (k : Kind) (queues : Queues) (j : Json) :
    k.appendJsonTask queues j = k.appendTask queues (Task.fromJson j) := by
  cases k <;> rfl

/-! ## What is kept -/

section
variable {ι : Type u} {σ : Type v} {k : Kind} {cb : Callbacks σ}

/-- What a step of a workflow has to do with the stop. -/
structure Obeys (w w' : Workflow ι σ) : Prop where
  flag : w'.eStop = w.eStop
  /-- It comes to `PopBlocking` after it has found the stop not to be active, and while it is there
  it puts nothing into the queue. -/
  waits : w'.worker = .running .popping →
    w.worker = .running .popping ∧ (w.queue.q = [] → w'.queue.q = []) ∨ w.eStop = false
  /-- It takes a task in `PopBlocking`, where there is one. -/
  takes : takesTask w w' = true → w.worker = .running .popping ∧ w.queue.q ≠ []

/-- **What careful steps keep**: the workflows have the flag of the edge, and during a stop no task
is where a workflow would take it. -/
structure Held (s : Edge ι σ) : Prop where
  flag : ∀ deviceId w, s.workflows deviceId = some w → w.eStop = s.gate.eStop
  /-- During a stop there is no task where a workflow waits for one. -/
  waits : s.gate.eStop = true → ∀ deviceId w, s.workflows deviceId = some w →
    w.worker = .running .popping → w.queue.q = []
  rejects : s.gate.allowQueueWhenEStop = false
  added : s.added = []
  cold : ∀ deviceId, s.hot deviceId = false

variable {w w' : Workflow ι σ} {s t : Edge ι σ}

/-- A step after which the thread is where it has been. -/
theorem Obeys.stays (flag : w'.eStop = w.eStop) (worker : w'.worker = w.worker)
    (queue : w.queue.q = [] → w'.queue.q = []) : Obeys w w' := by
  have hstage : w'.stage = w.stage := by rw [Workflow.stage, Workflow.stage, worker]
  refine ⟨flag, fun h => .inl ⟨worker ▸ h, queue⟩, fun h => ?_⟩
  unfold takesTask at h
  rw [hstage] at h
  split at h
  next h₀ h₁ =>
    rw [h₀] at h₁
    cases h₁
  next => cases h

/-- A step after which the thread has no task and is not in `PopBlocking`. -/
theorem Obeys.leaves (flag : w'.eStop = w.eStop) (stage : w'.stage = .none)
    (worker : w'.worker ≠ .running .popping) : Obeys w w' := by
  refine ⟨flag, fun h => absurd h worker, fun h => ?_⟩
  unfold takesTask at h
  rw [stage] at h
  split at h
  next h₁ => cases h₁
  next => cases h

/-- A step on a task that has been taken. -/
theorem Obeys.works (flag : w'.eStop = w.eStop) (stage : w.stage ≠ .none)
    (worker : w'.worker ≠ .running .popping) : Obeys w w' := by
  refine ⟨flag, fun h => absurd h worker, fun h => ?_⟩
  unfold takesTask at h
  split at h
  next h₀ _ => exact absurd h₀ stage
  next => cases h

/-- A step of a workflow obeys the stop: it takes a task in `PopBlocking` only. -/
theorem workerStep_obeys {p : Phase} (hw : w.worker = .running p) (now : Int64) (o : Outcome) :
    Obeys w (w.workerStep cb now o p) := by
  cases p with
  | testing =>
    refine .leaves rfl ?_ ?_
    · simp only [Workflow.workerStep]
      split <;> rfl
    · simp only [Workflow.workerStep]
      split <;> exact fun h => by cases h
  | checking =>
    simp only [Workflow.workerStep]
    split
    next => exact .leaves rfl rfl (fun h => by cases h)
    next hstop =>
      rw [Bool.not_eq_true] at hstop
      refine ⟨rfl, fun _ => .inr hstop, fun h => ?_⟩
      unfold takesTask at h
      split at h
      next h₁ => cases h₁
      next => cases h
  | popping =>
    simp only [Workflow.workerStep]
    split
    next => exact .leaves rfl rfl (fun h => by cases h)
    next hpop =>
      refine ⟨rfl, fun h => (by cases h), fun _ => ⟨hw, fun hnil => ?_⟩⟩
      rw [(TaskQueue.popBlocking_some hpop).1] at hnil
      cases hnil
  | missed =>
    refine .leaves rfl ?_ ?_
    · simp only [Workflow.workerStep]
      split <;> rfl
    · simp only [Workflow.workerStep]
      split <;> exact fun h => by cases h
  | starting | executing | finishing =>
    refine .works rfl ?_ (fun h => by cases h)
    rw [Workflow.stage, hw]
    exact fun h => by cases h
  | leaving => exact .leaves rfl rfl (fun h => by cases h)

/-- One workflow is changed, and it obeys the stop as before. -/
theorem Held.update (h : Held s) {deviceId : String} (w' : Workflow ι σ)
    (hw : s.workflows deviceId = some w) (flag : w'.eStop = w.eStop)
    (waits : w'.worker = .running .popping →
      w.worker = .running .popping ∧ (w.queue.q = [] → w'.queue.q = []) ∨ w.eStop = false) :
    Held { s with workflows := Function.update s.workflows deviceId (some w') } := by
  refine ⟨fun id v (hv : Function.update s.workflows deviceId (some w') id = some v) => ?_,
    fun hstop id v (hv : Function.update s.workflows deviceId (some w') id = some v) => ?_,
    h.rejects, h.added, h.cold⟩
  · rcases eq_or_ne id deviceId with rfl | hne
    · rw [update_self] at hv
      cases hv
      rw [flag, h.flag _ _ hw]
    · rw [update_of_ne hne] at hv
      exact h.flag id v hv
  · rcases eq_or_ne id deviceId with rfl | hne
    · rw [update_self] at hv
      cases hv
      intro hpop
      rcases waits hpop with ⟨hpop, hempty⟩ | hclear
      · exact hempty (h.waits hstop _ _ hw hpop)
      · rw [h.flag _ _ hw] at hclear
        rw [show s.gate.eStop = false from hclear] at hstop
        cases hstop
    · rw [update_of_ne hne] at hv
      exact h.waits hstop id v hv

/-- An entry point that adds nothing during a stop. -/
theorem Held.enter (h : Held s) {c : Change}
    (hc : s.gate.eStop = true → ∀ deviceId q, c = some (deviceId, q) →
      s.queues deviceId = some q) : Held (s.enter c) := by
  unfold Edge.enter
  split
  next => exact h
  next deviceId q =>
    split
    next => exact h
    next w hw =>
      have hsame : s.gate.eStop = true → w.queue = q := by
        intro hstop
        have hq := hc hstop deviceId q rfl
        rw [Edge.queues, hw] at hq
        exact Option.some.inj hq
      have hset := h.update { w with queue := q } hw rfl fun hpop => by
        cases hstop : s.gate.eStop with
        | false => exact .inr (by rw [h.flag _ _ hw, hstop])
        | true => exact .inl ⟨hpop, fun hempty => by rw [← hsame hstop, hempty]⟩
      refine { hset with added := ?_ }
      show (if s.gate.eStop && w.queue.q.length < q.q.length then s.added ++ [deviceId]
        else s.added) = []
      rw [if_neg, h.added]
      intro hadds
      rw [Bool.and_eq_true, decide_eq_true_eq] at hadds
      obtain ⟨hstop, hlt⟩ := hadds
      rw [hsame hstop] at hlt
      exact Nat.lt_irrefl _ hlt

/-- There is neither a stop nor a task in a new edge. -/
theorem held_init (g : Gate) (devices : String → Option σ) :
    Held (init g devices : Edge ι σ) := by
  refine ⟨fun id w hw => ?_, fun hstop => (by cases hstop), rfl, rfl, fun _ => rfl⟩
  obtain ⟨d, -, rfl⟩ := Option.map_eq_some_iff.1 hw
  rfl

/-! ## The steps -/

variable [DecidableEq ι]

/-- A client of the queue obeys the stop. -/
theorem clientStep_obeys {c : ι} (h : w.clientStep c = some w') : Obeys w w' := by
  unfold Workflow.clientStep at h
  split at h
  next => cases h
  next => cases h; exact .stays rfl rfl id
  next =>
    split at h
    next => cases h; exact .stays rfl rfl id
    next => cases h; exact .leaves rfl rfl (fun h => by cases h)
  next => cases h; exact .stays rfl rfl id
  next =>
    split at h
    next => cases h
    next => cases h; exact .leaves rfl rfl (fun h => by cases h)
    next => cases h; exact .stays rfl rfl id
  next => cases h; exact .stays rfl rfl id

/-- A call of a client obeys the stop. -/
theorem callStep_obeys (c : ι) (op : Op) : Obeys w (w.callStep c op) := by
  cases op with
  | start | stop =>
    simp only [Workflow.callStep]
    split <;> exact .stays rfl rfl id
  | join => exact .stays rfl rfl id

/-- **Every step of a workflow obeys the stop.** -/
theorem workflowStep_obeys {l : MyControl.Label ι} (h : workflowStep cb w l = some w') :
    Obeys w w' := by
  cases l with
  | push | setEStop => cases h
  | _ =>
    simp only [workflowStep, MyControl.step] at h
    split at h
    next => cases h
    next =>
      first
      | (cases h; exact .stays rfl rfl id)
      | (cases h; exact .stays rfl rfl fun _ => rfl)
      | exact clientStep_obeys h
      | (split at h
         next => cases h; exact callStep_obeys _ _
         next => cases h)
      | (split at h
         next hw => cases h; exact workerStep_obeys hw _ _
         next => cases h)

/-- No step adds or removes a workflow. -/
theorem step_workflows {l : Label ι} (hs : step k cb s l = some t) (id : String) :
    (t.workflows id).isSome = (s.workflows id).isSome := by
  have hupdate : ∀ {deviceId w} (w' : Workflow ι σ), s.workflows deviceId = some w →
      (update s.workflows deviceId (some w') id).isSome = (s.workflows id).isSome := by
    intro deviceId w w' hw
    rcases eq_or_ne id deviceId with rfl | hne
    · rw [update_self, hw]
      rfl
    · rw [update_of_ne hne]
  have henter : ∀ c, ((s.enter c).workflows id).isSome = (s.workflows id).isSome := by
    intro c
    unfold Edge.enter
    split
    next => rfl
    next =>
      split
      next => rfl
      next hw => exact hupdate _ hw
  cases l with
  | setEStop =>
    cases hs
    exact Option.isSome_map
  | setRunState => cases hs; rfl
  | submit | appendTask | appendJsonTask =>
    cases hs
    exact henter _
  | fetch deviceId =>
    simp only [step] at hs
    split at hs
    next => cases hs
    next hw =>
      split at hs
      next => cases hs; rfl
      next => cases hs; exact hupdate _ hw
  | workflow deviceId l =>
    simp only [step] at hs
    split at hs
    next => cases hs
    next hw =>
      split at hs
      next => cases hs
      next => cases hs; exact hupdate _ hw

/-- **One step.** -/
theorem step_held {l : Label ι} (hc : Careful k s l) (h : Held s) (hs : step k cb s l = some t) :
    Held t := by
  cases l with
  | setEStop active reason =>
    cases hs
    refine ⟨fun id w hw => ?_, fun hstop id w hw => ?_, h.rejects, h.added, h.cold⟩
    · obtain ⟨v, -, rfl⟩ := Option.map_eq_some_iff.1 hw
      rfl
    · obtain ⟨v, hv, rfl⟩ := Option.map_eq_some_iff.1 hw
      obtain rfl : active = true := hstop
      exact hc id v hv
  | setRunState state =>
    cases hs
    exact ⟨h.flag, h.waits, h.rejects, h.added, h.cold⟩
  | submit cmd =>
    cases hs
    refine h.enter fun hstop id q hq => ?_
    rw [submit_of_eStop k hstop h.rejects] at hq
    cases hq
  | appendTask task =>
    cases hs
    exact h.enter fun hstop id q hq => appendTask_of_not_takes k (hc hstop) hq
  | appendJsonTask j =>
    cases hs
    rw [appendJsonTask_eq]
    exact h.enter fun hstop id q hq => appendTask_of_not_takes k (hc hstop) hq
  | fetch deviceId =>
    simp only [step] at hs
    split at hs
    next => cases hs
    next w hw =>
      split at hs
      next => cases hs; exact h
      next hpop =>
        cases hs
        refine h.update _ hw rfl fun hphase => .inl ⟨hphase, fun hempty => ?_⟩
        rw [(TaskQueue.popBlocking_some hpop).1] at hempty
        cases hempty
  | workflow deviceId l =>
    simp only [step] at hs
    split at hs
    next => cases hs
    next w hw =>
      split at hs
      next => cases hs
      next w' hw' =>
        cases hs
        have hobeys := workflowStep_obeys hw'
        have hset := h.update w' hw hobeys.flag hobeys.waits
        refine { hset with cold := fun id => ?_ }
        show (if takesTask w w' then Function.update s.hot deviceId s.gate.eStop else s.hot) id = _
        split
        next htakes =>
          obtain ⟨hpop, htask⟩ := hobeys.takes htakes
          have hclear : s.gate.eStop = false := by
            by_contra hstop
            rw [Bool.not_eq_false] at hstop
            exact htask (h.waits hstop _ _ hw hpop)
          rcases eq_or_ne id deviceId with rfl | hne
          · rw [update_self, hclear]
          · rw [update_of_ne hne, h.cold]
        next => exact h.cold id

/-- **The emergency stop stops a careful edge**, in every state of a run. -/
theorem estop_safe {g : Gate} {devices : String → Option σ} {ls : List (Label ι)}
    (hc : Along (step k cb) (Careful k) (init g devices) ls)
    (h : run (step k cb) (init g devices) ls = some s) : Safe s := by
  have hheld := run_along (P := Held) (fun _ _ _ hc hs hstep => step_held hc hs hstep)
    (held_init g devices) hc h
  exact ⟨hheld.added, fun id _ _ _ _ => hheld.cold id⟩

end

/-! ## Schedules -/

/-- A device without a state. -/
def noCallbacks : Callbacks Unit := ⟨fun _ _ _ => (), fun _ _ _ _ => ()⟩

/-- An edge with one device that is running, and the workflow of the device has been started. -/
def started : List (Label Unit) :=
  [.setRunState .running, .workflow "uuv-1" (.call () .start), .workflow "uuv-1" (.client ()),
    .workflow "uuv-1" (.client ())]

/-- An edge with one device, before it is started. -/
def oneDevice : Edge Unit Unit :=
  init {} fun deviceId => if deviceId = "uuv-1" then some () else none

/-- Nothing is normalised. -/
def noNormalizer : Kind := .uuv fun _ => none

/-- The workflow goes on with whatever it does next. -/
def work : Label Unit := .workflow "uuv-1" (.worker 0 .throwsUnknown)

/-- The stop is set while the workflow waits for a task and there is none: it goes back to its test.
The stop is lifted, a task is appended, and the stop is set again before the workflow has come to
it: it stays there. -/
def stopInTime : List (Label Unit) :=
  started ++ [work, work, .setEStop true "leak", work, work, .setEStop false "",
    .appendTask { taskId := "a", deviceId := "uuv-1" }, .setEStop true "leak", work, work]

/-- The edge has no workflow but that of its device. -/
theorem oneDevice_workflows {ls : List (Label Unit)} {s : Edge Unit Unit}
    (h : run (step noNormalizer noCallbacks) oneDevice ls = some s) {deviceId : String}
    {w : Workflow Unit Unit} (hw : s.workflows deviceId = some w) : deviceId = "uuv-1" := by
  have hids := run_invariant (P := fun s => (s.workflows deviceId).isSome =
    (oneDevice.workflows deviceId).isSome) (fun _ _ _ hs hstep =>
      (step_workflows hstep deviceId).trans hs) rfl h
  by_contra hid
  simp [oneDevice, init, hid, hw] at hids

/-- There is one workflow to look at. -/
theorem careful_setEStop {ls : List (Label Unit)} {s : Edge Unit Unit}
    (h : run (step noNormalizer noCallbacks) oneDevice ls = some s) (reason : String)
    (hw : ∀ w, s.workflows "uuv-1" = some w → w.worker = .running .popping → w.queue.q = []) :
    Careful noNormalizer s (.setEStop true reason) := by
  intro deviceId w hid
  obtain rfl := oneDevice_workflows h hid
  exact hw w hid

/-- The stop is set carefully. -/
theorem careful_stopInTime :
    Along (step noNormalizer noCallbacks) (Careful noNormalizer) oneDevice stopInTime := by
  have hwait : run (step noNormalizer noCallbacks) oneDevice (started ++ [work, work]) =
      some _ := rfl
  have hagain : run (step noNormalizer noCallbacks) oneDevice
      (started ++ [work, work, .setEStop true "leak", work, work, .setEStop false "",
        .appendTask { taskId := "a", deviceId := "uuv-1" }]) = some _ := rfl
  refine (along_cons rfl).2 ⟨trivial, (along_cons rfl).2 ⟨trivial, (along_cons rfl).2 ⟨trivial,
    (along_cons rfl).2 ⟨trivial, (along_cons rfl).2 ⟨trivial, (along_cons rfl).2 ⟨trivial,
    (along_cons rfl).2 ⟨careful_setEStop hwait "leak" ?_, (along_cons rfl).2 ⟨trivial,
    (along_cons rfl).2 ⟨trivial, (along_cons rfl).2 ⟨trivial, (along_cons rfl).2 ⟨?_,
    (along_cons rfl).2 ⟨careful_setEStop hagain "leak" ?_, (along_cons rfl).2 ⟨trivial,
    (along_cons rfl).2 ⟨trivial, trivial⟩⟩⟩⟩⟩⟩⟩⟩⟩⟩⟩⟩⟩⟩
  · intro w hw _
    cases hw
    rfl
  · intro hstop
    cases hstop
  · intro w hw hpop
    cases hw
    cases hpop

/-- A stop that is set in time holds the task of the device back. -/
theorem estop_safe_inTime :
    ∃ s, run (step noNormalizer noCallbacks) oneDevice stopInTime = some s ∧
      s.gate.eStop = true ∧ Safe s := by
  have hrun : run (step noNormalizer noCallbacks) oneDevice stopInTime = some _ := rfl
  exact ⟨_, hrun, rfl, estop_safe careful_stopInTime hrun⟩

/-- The workflow waits for a task when the stop is set, and then one is appended: it is taken and
executed. -/
theorem not_estop_safe :
    ¬ ∀ (k : Kind) (ls : List (Label Unit)) (s : Edge Unit Unit),
      run (step k noCallbacks) oneDevice ls = some s → Safe s := by
  intro h
  have hsafe := h noNormalizer (started ++ [work, work, .setEStop true "leak",
    .appendTask { taskId := "a", deviceId := "uuv-1" }, work, work]) _ rfl
  have hadded := hsafe.added
  cases hadded

end EStop

end MyEdge
