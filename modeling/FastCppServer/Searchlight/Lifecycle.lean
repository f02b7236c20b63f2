import FastCppServer.Lib.Parties
import FastCppServer.Lib.Transition
import FastCppServer.Searchlight.Protocol

/-!
# Starting and stopping the searchlight

`initialize`, `start`, `shutdown` and the commands, called from any number of threads, against the
worker and the reader. Nothing guards the lifecycle: `shutdown` clears `running_` and notifies
without `queue_mutex_`, and the thread members are assigned and joined as they are found.

What keeps a shutdown safe is a phase of somebody else: that the worker is not between its look at
the queue and its wait when the only notification is sent, that nobody starts or joins the same
threads, that no command comes to the queue once it has been cleared (`Careful`). Each caller relies
on what it has seen on its way (`Phase.Ok`).
-/

namespace SearchlightControl

namespace Lifecycle

open Function Parties Transition

/-- A task for the worker: a command, and the parameters that its frame carries. -/
structure LightTask where
  command : String
  parameters : List Byte
  deriving DecidableEq

/-- Where the worker stands in `workerLoop`. It holds `queue_mutex_` in `blocking`, where it has
found nothing to do and is about to wait, and in `ready`. -/
inductive Worker where
  | loop
  | locking
  | blocking
  | waiting
  | ready
  | writing (task : LightTask)
  deriving DecidableEq

/-- Where the reader stands in `readSerialLoop`. -/
inductive Reader where
  | loop
  | checking
  | opening
  | reading
  deriving DecidableEq

/-- The searchlight: `running_`, the port, the queue of the worker, and the two threads. -/
structure Searchlight where
  running : Bool := false
  isOpen : Bool := false
  taskQueue : List LightTask := []
  readSerial : Thread Reader := .none
  workerThread : Thread Worker := .none
  /-- The frames that have been written to the port. -/
  written : List LightTask := []
  /-- How many there were when a shutdown returned, until the port is opened or the threads are
  started again. -/
  stopped : Option Nat := none

/-- The steps of `shutdown`. -/
inductive Stage where
  | exchange
  | port
  | notify
  | checkReader
  | joinReader
  | checkWorker
  | joinWorker
  | clear
  | close
  deriving DecidableEq

/-- Where a caller stands. A shutdown may be the one in `initialize`, which goes on to open the port
if the baud rate is the one of the protocol. -/
inductive Phase where
  | returned
  | stopping (stage : Stage) (init : Option Bool)
  | opening (baudOk : Bool)
  | starting
  | assigningReader
  | assigningWorker
  | waitingFrame
  | commanding (task : LightTask)
  | pushing (task : LightTask)
  | notifying
  deriving DecidableEq

namespace Searchlight

/-- The worker holds `queue_mutex_`; nobody else does from one step to the next. -/
def locked (m : Searchlight) : Bool :=
  m.workerThread = .running .blocking ∨ m.workerThread = .running .ready

/-- A notification wakes the worker if it waits. -/
def notify (m : Searchlight) : Searchlight :=
  if m.workerThread = .running .waiting then { m with workerThread := .running .locking } else m

/-- A shutdown returns. -/
def stop (m : Searchlight) : Searchlight := { m with stopped := some m.written.length }

end Searchlight

/-- Where a call goes on behind its shutdown: `initialize` opens the port, and `shutdown` itself
returns. -/
def afterShutdown : Option Bool → Phase
  | none => .returned
  | some baudOk => .opening baudOk

/-- One step of `shutdown`. -/
def stopStep (m : Searchlight) (init : Option Bool) : Stage → Option (Searchlight × Phase)
  | .exchange =>
    some ({ m with running := false }, .stopping (if m.running then .notify else .port) init)
  | .port =>
    if m.isOpen then some (m, .stopping .notify init) else some (m.stop, afterShutdown init)
  | .notify => some (m.notify, .stopping .checkReader init)
  | .checkReader =>
    some (m, .stopping (if m.readSerial = .none then .checkWorker else .joinReader) init)
  | .joinReader =>
    if m.readSerial = .exited then
      some ({ m with readSerial := .none }, .stopping .checkWorker init)
    else none
  | .checkWorker =>
    some (m, .stopping (if m.workerThread = .none then .clear else .joinWorker) init)
  | .joinWorker =>
    if m.workerThread = .exited then
      some ({ m with workerThread := .none }, .stopping .clear init)
    else none
  | .clear =>
    if m.locked then none else some ({ m with taskQueue := [] }, .stopping .close init)
  | .close => some ({ m with isOpen := false }.stop, afterShutdown init)

/-- One step of a caller. `ok` is whether the port opens, a thread can be created, the device is
online. -/
def act (m : Searchlight) (ok : Bool) : Phase → Option (Searchlight × Phase)
  | .returned => none
  | .stopping stage init => stopStep m init stage
  | .opening baudOk =>
    if ¬ baudOk then some (m, .returned)
    else if ok then some ({ m with isOpen := true, stopped := none }, .returned)
    -- `openPort` has closed the port before it opens the device
    else some ({ m with isOpen := false }, .returned)
  | .starting => some ({ m with running := true, stopped := none }, .assigningReader)
  | .assigningReader =>
    if ¬ ok then some (m, .returned)
    -- `std::terminate`: the program has no next state
    else if m.readSerial ≠ .none then none
    else some ({ m with readSerial := .running .loop }, .assigningWorker)
  | .assigningWorker =>
    if ¬ ok then some (m, .returned)
    else if m.workerThread ≠ .none then none
    else some ({ m with workerThread := .running .loop }, .waitingFrame)
  | .waitingFrame => some (m, .returned)
  | .commanding task =>
    -- `ensureControlReady`, and a frame that cannot be built is empty
    if m.isOpen ∧ ok ∧ task.parameters ≠ [] then some (m, .pushing task) else some (m, .returned)
  | .pushing task =>
    if m.locked then none else some ({ m with taskQueue := m.taskQueue ++ [task] }, .notifying)
  | .notifying => some (m.notify, .returned)

/-- One step of the worker. `ok` is whether a frame can be written to an open port. -/
def workerStep (m : Searchlight) (ok : Bool) : Worker → Option Searchlight
  | .loop =>
    some { m with workerThread := if m.running then .running .locking else .exited }
  | .locking =>
    some
      { m with
        workerThread := .running (if m.running ∧ m.taskQueue = [] then .blocking else .ready) }
  | .blocking => some { m with workerThread := .running .waiting }
  | .waiting => none
  | .ready =>
    match m.taskQueue with
    -- the `front()` of an empty queue is undefined
    | [] => if m.running then none else some { m with workerThread := .exited }
    | task :: taskQueue => some { m with taskQueue, workerThread := .running (.writing task) }
  | .writing task =>
    some
      { m with
        written := if m.isOpen ∧ ok then m.written ++ [task] else m.written
        workerThread := .running .loop }

/-- One step of the reader. `ok` is whether the port opens, or can be read. -/
def readerStep (m : Searchlight) (ok : Bool) : Reader → Searchlight
  | .loop => { m with readSerial := if m.running then .running .checking else .exited }
  | .checking => { m with readSerial := .running (if m.isOpen then .reading else .opening) }
  | .opening => { m with isOpen := ok, readSerial := .running .loop }
  | .reading => { m with isOpen := m.isOpen && ok, readSerial := .running .loop }

/-- The searchlight and the calls of its clients. -/
structure System (ι : Type) where
  light : Searchlight := {}
  phase : ι → Phase := fun _ => .returned

/-- `wake` is the end of the worker's wait without a notification. -/
inductive Label (ι : Type) where
  | callInitialize (i : ι) (baudOk : Bool)
  | callStart (i : ι)
  | callShutdown (i : ι)
  | callCommand (i : ι) (task : LightTask)
  | act (i : ι) (ok : Bool)
  | worker (ok : Bool)
  | reader (ok : Bool)
  | wake

variable {ι : Type} [DecidableEq ι]

/-- A client begins a call. It has none before. -/
def call (s : System ι) (i : ι) (p : Phase) : Option (System ι) :=
  if s.phase i = .returned then some { s with phase := update s.phase i p } else none

/-- One step. -/
def step (s : System ι) : Label ι → Option (System ι)
  | .callInitialize i baudOk => call s i (.stopping .exchange (some baudOk))
  | .callStart i => call s i .starting
  | .callShutdown i => call s i (.stopping .exchange none)
  | .callCommand i task => call s i (.commanding task)
  | .act i ok =>
    (act s.light ok (s.phase i)).map fun (light, p) => { light, phase := update s.phase i p }
  | .worker ok =>
    match s.light.workerThread with
    | .running w => (workerStep s.light ok w).map fun light => { s with light }
    | _ => none
  | .reader ok =>
    match s.light.readSerial with
    | .running r => some { s with light := readerStep s.light ok r }
    | _ => none
  | .wake =>
    if s.light.workerThread = .running .waiting then some { s with light := s.light.notify }
    else none

/-! ## What a shutdown relies on -/

namespace Phase

/-- In a shutdown that has cleared `running_`. -/
def stops : Phase → Bool
  | .stopping .exchange _ => false
  | .stopping _ _ => true
  | _ => false

/-- In a shutdown that has notified the worker. -/
def notified : Phase → Bool
  | .stopping .exchange _ | .stopping .port _ | .stopping .notify _ => false
  | .stopping _ _ => true
  | _ => false

/-- In a shutdown that has still to join the threads. -/
def joins : Phase → Bool
  | .stopping .notify _ | .stopping .checkReader _ | .stopping .joinReader _
  | .stopping .checkWorker _ | .stopping .joinWorker _ => true
  | _ => false

/-- In a shutdown that has still to clear the queue. -/
def clears : Phase → Bool
  | .stopping .clear _ => true
  | p => p.joins

/-- In a shutdown that has cleared the queue, and not returned yet. -/
def closes : Phase → Bool
  | .stopping .close _ => true
  | _ => false

/-- The call has joined the reader, or found it joined. -/
def readerJoined : Phase → Bool
  | .stopping .checkWorker _ | .stopping .joinWorker _ | .stopping .clear _
  | .stopping .close _ => true
  | _ => false

/-- The call has joined the worker, or found it joined. -/
def workerJoined : Phase → Bool
  | .stopping .clear _ | .stopping .close _ => true
  | _ => false

/-- The call waits for the reader to end. -/
def joinsReader : Phase → Bool
  | .stopping .joinReader _ => true
  | _ => false

/-- The call waits for the worker to end. -/
def joinsWorker : Phase → Bool
  | .stopping .joinWorker _ => true
  | _ => false

/-- The call is about to start a thread. -/
def assigns : Phase → Bool
  | .assigningReader | .assigningWorker => true
  | _ => false

/-- The call has found the port open, and is about to push its task. -/
def pushes : Phase → Bool
  | .pushing _ => true
  | _ => false

/-- It relies on nothing. -/
def idle : Phase → Bool
  | .stopping .exchange _ => true
  | .stopping .. | .assigningReader | .assigningWorker => false
  | _ => true

end Phase

/-- The worker does not wait, and is not about to. -/
def Searchlight.Settled (m : Searchlight) : Prop :=
  m.workerThread ≠ .running .blocking ∧ m.workerThread ≠ .running .waiting

/-- What a step of a caller must find. -/
def Allowed (m : Searchlight) (c : ι → Phase) : Phase → Prop
  | .starting =>
    m.readSerial = .none ∧ m.workerThread = .none ∧
      ∀ j, (c j).assigns = false ∧ (c j).stops = false
  | .stopping .exchange _ => ∀ j, (c j).assigns = false
  | .stopping .port _ => m.isOpen = false → ∀ j, (c j).clears = false
  | .stopping .notify _ => m.workerThread ≠ .running .blocking
  | .stopping .checkReader _ => m.readSerial ≠ .none → ∀ j, (c j).joinsReader = false
  | .stopping .checkWorker _ => m.workerThread ≠ .none → ∀ j, (c j).joinsWorker = false
  | .opening baudOk => baudOk = true → m.isOpen = false
  | .pushing _ => m.stopped = none ∧ ∀ j, (c j).closes = false
  | _ => True

instance [Fintype ι] (m : Searchlight) (c : ι → Phase) : ∀ p, Decidable (Allowed m c p)
  | .starting =>
    inferInstanceAs (Decidable (m.readSerial = .none ∧ m.workerThread = .none ∧
      ∀ j, (c j).assigns = false ∧ (c j).stops = false))
  | .stopping .exchange _ => inferInstanceAs (Decidable (∀ j, (c j).assigns = false))
  | .stopping .port _ =>
    inferInstanceAs (Decidable (m.isOpen = false → ∀ j, (c j).clears = false))
  | .stopping .notify _ => inferInstanceAs (Decidable (m.workerThread ≠ .running .blocking))
  | .stopping .checkReader _ =>
    inferInstanceAs (Decidable (m.readSerial ≠ .none → ∀ j, (c j).joinsReader = false))
  | .stopping .checkWorker _ =>
    inferInstanceAs (Decidable (m.workerThread ≠ .none → ∀ j, (c j).joinsWorker = false))
  | .opening baudOk => inferInstanceAs (Decidable (baudOk = true → m.isOpen = false))
  | .pushing _ =>
    inferInstanceAs (Decidable (m.stopped = none ∧ ∀ j, (c j).closes = false))
  | .stopping .joinReader _ | .stopping .joinWorker _ | .stopping .clear _ | .stopping .close _
  | .returned | .assigningReader | .assigningWorker | .waitingFrame | .commanding _
  | .notifying => isTrue trivial

/-- A step of a client that is allowed where the searchlight and the other clients are. -/
def Careful (s : System ι) : Label ι → Prop
  | .act i _ => Allowed s.light s.phase (s.phase i)
  | _ => True

instance [Fintype ι] (s : System ι) : ∀ l, Decidable (Careful s l)
  | .act i _ => inferInstanceAs (Decidable (Allowed s.light s.phase (s.phase i)))
  | .callInitialize .. | .callStart _ | .callShutdown _ | .callCommand .. | .worker _ | .reader _
  | .wake => isTrue trivial

/-! ## What is promised -/

/-- What a caller may rely on: both joins come to an end, no thread is assigned over another one,
and nothing goes on behind a shutdown that has returned. -/
structure Safe (s : System ι) : Prop where
  /-- Once the notification has been sent, the worker neither waits nor is about to. -/
  awake : ∀ i, (s.phase i).notified → s.light.Settled
  /-- A thread that is being joined needs nobody to come to its end. -/
  readerEnds : ∀ i, (s.phase i).joinsReader →
    ∃ n, EndsIn step .reader (fun t => t.light.readSerial = .exited) n s
  workerEnds : ∀ i, (s.phase i).joinsWorker →
    ∃ n, EndsIn step .worker (fun t => t.light.workerThread = .exited) n s
  unassigned : ∀ i, (s.phase i = .assigningReader → s.light.readSerial = .none) ∧
    (s.phase i = .assigningWorker → s.light.workerThread = .none)
  /-- When a shutdown has returned, no more frames are written, and the queue is empty. -/
  stopped : ∀ n, s.light.stopped = some n → s.light.written.length = n ∧ s.light.taskQueue = []

/-! ## What is kept -/

/-- What a caller relies on. -/
structure Phase.Ok (m : Searchlight) (p : Phase) : Prop where
  down : p.stops → m.running = false
  settled : p.notified → m.Settled
  readerJoined : p.readerJoined → m.readSerial = .none
  workerJoined : p.workerJoined → m.workerThread = .none
  cleared : p.closes → m.taskQueue = []
  joinsReader : p.joinsReader → m.readSerial ≠ .none
  joinsWorker : p.joinsWorker → m.workerThread ≠ .none
  assigns : p.assigns → m.running = true ∧ m.workerThread = .none ∧ m.stopped = none
  unread : p = .assigningReader → m.readSerial = .none

/-- The invariant of a careful run: what each caller relies on, and what each of the threads, the
queue and the port still has coming. -/
structure Kept (m : Searchlight) (c : ι → Phase) : Prop where
  phase : ∀ i, (c i).Ok m
  starter : AtMostOne (fun p : Phase => p.assigns) c
  readerJoiner : AtMostOne (fun p : Phase => p.joinsReader) c
  workerJoiner : AtMostOne (fun p : Phase => p.joinsWorker) c
  /-- Threads that are to end are joined. -/
  alive : m.running = false → m.readSerial ≠ .none ∨ m.workerThread ≠ .none → ∃ i, (c i).joins
  /-- What is left in the queue of a closed port is cleared. -/
  emptied : m.running = false → m.isOpen = false → m.taskQueue ≠ [] → ∃ i, (c i).clears
  pushing : m.running = false → m.isOpen = false → m.stopped = none → (∃ i, (c i).pushes) →
    ∃ i, (c i).clears ∨ (c i).closes
  stopped : ∀ n, m.stopped = some n →
    m.running = false ∧ m.isOpen = false ∧ m.readSerial = .none ∧ m.workerThread = .none ∧
      m.taskQueue = [] ∧ m.written.length = n
  ready : m.workerThread = .running .ready → m.taskQueue ≠ [] ∨ m.running = false

section
variable {m m' : Searchlight} {c : ι → Phase} {i : ι} {p : Phase}

/-- A step that changes nothing but where the caller stands. -/
theorem Kept.stay (h : Kept m c) (hp : p.Ok m) (hs : p.assigns → (c i).assigns)
    (hr : p.joinsReader → ∀ j, j ≠ i → ¬ (c j).joinsReader)
    (hw : p.joinsWorker → ∀ j, j ≠ i → ¬ (c j).joinsWorker)
    (hjoins : (c i).joins → p.joins ∨ m.readSerial = .none ∧ m.workerThread = .none)
    (hclears : (c i).clears → p.clears) (hcloses : ¬ (c i).closes)
    (hpushes : p.pushes → m.isOpen = true ∨ (c i).pushes) : Kept m (update c i p) where
  phase := (forall_update_iff c fun _ q => q.Ok m).2 ⟨hp, fun j _ => h.phase j⟩
  starter := h.starter.stay hs
  readerJoiner := h.readerJoiner.enter hr
  workerJoiner := h.workerJoiner.enter hw
  alive hrun ht := by
    refine exists_update (P := fun q : Phase => q.joins) (h.alive hrun ht) fun hi => ?_
    rcases hjoins hi with hp | ⟨hread, hwork⟩
    · exact hp
    · exact absurd ht (by simp [hread, hwork])
  emptied hrun hopen hq :=
    exists_update (P := fun q : Phase => q.clears) (h.emptied hrun hopen hq) hclears
  pushing hrun hopen hstop hpush := by
    have hold : ∃ j, (c j).pushes := by
      rcases exists_of_update (P := fun q : Phase => q.pushes) hpush with hp | hold
      · rcases hpushes hp with ho | ho
        · exact absurd hopen (by simp [ho])
        · exact ⟨i, ho⟩
      · exact hold
    refine exists_update (P := fun q : Phase => q.clears ∨ q.closes)
      (h.pushing hrun hopen hstop hold) ?_
    rintro (hi | hi)
    · exact .inl (hclears hi)
    · exact absurd hi hcloses
  stopped := h.stopped
  ready := h.ready

omit [DecidableEq ι] in
/-- An idle call relies on nothing. -/
theorem Phase.idle_ok (h : p.idle) : p.Ok m := by
  cases p with
  | stopping stage init =>
    cases stage with
    | exchange => exact ⟨nofun, nofun, nofun, nofun, nofun, nofun, nofun, nofun, nofun⟩
    | _ => cases h
  | assigningReader | assigningWorker => cases h
  | _ => exact ⟨nofun, nofun, nofun, nofun, nofun, nofun, nofun, nofun, nofun⟩

omit [DecidableEq ι] in
/-- An idle call starts no thread. -/
theorem Phase.assigns_of_idle (h : p.idle) : p.assigns = false := by
  cases p with
  | assigningReader | assigningWorker => cases h
  | _ => rfl

omit [DecidableEq ι] in
/-- Nor does it join the reader. -/
theorem Phase.joinsReader_of_idle (h : p.idle) : p.joinsReader = false := by
  cases p with
  | stopping stage init => cases stage <;> first | rfl | cases h
  | _ => rfl

omit [DecidableEq ι] in
/-- Nor the worker. -/
theorem Phase.joinsWorker_of_idle (h : p.idle) : p.joinsWorker = false := by
  cases p with
  | stopping stage init => cases stage <;> first | rfl | cases h
  | _ => rfl

omit [DecidableEq ι] in
/-- After the notification the worker does not wait, unless it was about to. -/
theorem notify_settled (h : m.workerThread ≠ .running .blocking) : m.notify.Settled := by
  unfold Searchlight.notify
  split
  next => exact ⟨by nofun, by nofun⟩
  next hw => exact ⟨h, hw⟩

omit [DecidableEq ι] in
/-- Behind its shutdown a call is idle. -/
theorem afterShutdown_idle (init : Option Bool) : (afterShutdown init).idle := by
  cases init <;> rfl

omit [DecidableEq ι] in
/-- How the parts of a shutdown lie to each other. -/
theorem Phase.order (p : Phase) :
    ((p.joins → p.clears) ∧ (p.clears → p.stops)) ∧
      ((p.closes → p.workerJoined) ∧ (p.workerJoined → p.readerJoined)) ∧
      ((p.joinsWorker → p.readerJoined) ∧ (p.readerJoined → p.notified)) ∧
      (p.joinsReader → p.notified) ∧ (p.notified → p.stops) := by
  cases p with
  | stopping stage init =>
    cases stage <;> simp [stops, notified, joins, clears, closes, readerJoined, workerJoined,
      joinsReader, joinsWorker]
  | _ => exact ⟨⟨nofun, nofun⟩, ⟨nofun, nofun⟩, ⟨nofun, nofun⟩, nofun, nofun⟩

omit [DecidableEq ι] in
/-- A call that waits for a thread is going to clear the queue. -/
theorem Phase.clears_of_joins (h : p.joins) : p.clears := p.order.1.1 h

omit [DecidableEq ι] in
/-- A call that is going to clear the queue is in a shutdown. -/
theorem Phase.stops_of_clears (h : p.clears) : p.stops := p.order.1.2 h

omit [DecidableEq ι] in
/-- A call that is going to close the port has joined the worker. -/
theorem Phase.workerJoined_of_closes (h : p.closes) : p.workerJoined := p.order.2.1.1 h

omit [DecidableEq ι] in
/-- A call that has joined the reader has notified the worker before. -/
theorem Phase.notified_of_readerJoined (h : p.readerJoined) : p.notified := p.order.2.2.1.2 h

omit [DecidableEq ι] in
/-- So has one that has joined the worker. -/
theorem Phase.notified_of_workerJoined (h : p.workerJoined) : p.notified :=
  notified_of_readerJoined (p.order.2.1.2 h)

omit [DecidableEq ι] in
/-- And one that waits for the worker. -/
theorem Phase.notified_of_joinsWorker (h : p.joinsWorker) : p.notified :=
  notified_of_readerJoined (p.order.2.2.1.1 h)

omit [DecidableEq ι] in
/-- And one that waits for the reader. -/
theorem Phase.notified_of_joinsReader (h : p.joinsReader) : p.notified := p.order.2.2.2.1 h

omit [DecidableEq ι] in
/-- A call that has notified the worker is in a shutdown. -/
theorem Phase.stops_of_notified (h : p.notified) : p.stops := p.order.2.2.2.2 h

omit [DecidableEq ι] in
/-- So is one that has joined the reader. -/
theorem Phase.stops_of_readerJoined (h : p.readerJoined) : p.stops :=
  stops_of_notified (notified_of_readerJoined h)

omit [DecidableEq ι] in
/-- So is one that has joined the worker. -/
theorem Phase.stops_of_workerJoined (h : p.workerJoined) : p.stops :=
  stops_of_notified (notified_of_workerJoined h)

/-! ## The threads -/

omit [DecidableEq ι] in
/-- What a caller relies on, when the worker takes a step, or is woken. -/
theorem Phase.Ok.worker (h : p.Ok m) (hw : m.workerThread ≠ .none) {t : Thread Worker}
    (ht : t ≠ .none)
    (hsettled : m.running = false → m.Settled → t ≠ .running .blocking ∧ t ≠ .running .waiting)
    (taskQueue written : List LightTask) :
    p.Ok { m with workerThread := t, taskQueue, written } where
  down := h.down
  settled hp := hsettled (h.down (stops_of_notified hp)) (h.settled hp)
  readerJoined := h.readerJoined
  workerJoined hp := absurd (h.workerJoined hp) hw
  cleared hp := absurd (h.workerJoined (workerJoined_of_closes hp)) hw
  joinsReader := h.joinsReader
  joinsWorker _ := ht
  assigns hp := absurd (h.assigns hp).2.1 hw
  unread := h.unread

omit [DecidableEq ι] in
/-- The worker may change as long as it does not end up waiting for a notification that will not
come. -/
theorem Kept.worker (h : Kept m c) (hw : m.workerThread ≠ .none) {t : Thread Worker}
    (ht : t ≠ .none)
    (hsettled : m.running = false → m.Settled → t ≠ .running .blocking ∧ t ≠ .running .waiting)
    {taskQueue : List LightTask} (hq : taskQueue ≠ [] → m.taskQueue ≠ [])
    (hready : t = .running .ready → taskQueue ≠ [] ∨ m.running = false)
    (written : List LightTask) :
    Kept { m with workerThread := t, taskQueue, written } c where
  phase j := (h.phase j).worker hw ht hsettled taskQueue written
  starter := h.starter
  readerJoiner := h.readerJoiner
  workerJoiner := h.workerJoiner
  alive hrun _ := h.alive hrun (.inr hw)
  emptied hrun hopen hne := h.emptied hrun hopen (hq hne)
  pushing := h.pushing
  stopped n hn := absurd (h.stopped n hn).2.2.2.1 hw
  ready := hready

omit [DecidableEq ι] in
/-- A step of the worker keeps the invariant. -/
theorem workerStep_kept (h : Kept m c) {w : Worker} (hw : m.workerThread = .running w) {ok : Bool}
    (hs : workerStep m ok w = some m') : Kept m' c := by
  have hne : m.workerThread ≠ .none := by rw [hw]; nofun
  cases w with
  | loop =>
    obtain rfl := Option.some.inj hs
    refine h.worker hne ?_ (fun hrun _ => ?_) (fun hq => hq) ?_ m.written
    · split <;> nofun
    · rw [hrun]
      exact ⟨by nofun, by nofun⟩
    · split <;> nofun
  | locking =>
    obtain rfl := Option.some.inj hs
    refine h.worker hne (by nofun) (fun hrun _ => ?_) (fun hq => hq) (fun hr => ?_) m.written
    · rw [hrun]
      exact ⟨by nofun, by nofun⟩
    · split at hr
      next => cases hr
      next hn =>
        rw [Classical.not_and_iff_not_or_not, Bool.not_eq_true] at hn
        exact hn.symm
  | blocking =>
    obtain rfl := Option.some.inj hs
    exact h.worker hne (by nofun) (fun _ hset => absurd hw hset.1) (fun hq => hq) (by nofun)
      m.written
  | waiting => cases hs
  | ready =>
    simp only [workerStep] at hs
    split at hs
    next hq =>
      split at hs
      next => cases hs
      next =>
        obtain rfl := Option.some.inj hs
        exact h.worker hne (by nofun) (fun _ _ => ⟨by nofun, by nofun⟩) (fun hq => hq) (by nofun)
          m.written
    next task taskQueue hq =>
      obtain rfl := Option.some.inj hs
      refine h.worker hne (by nofun) (fun _ _ => ⟨by nofun, by nofun⟩) (fun _ => ?_) (by nofun)
        m.written
      rw [hq]
      nofun
  | writing task =>
    obtain rfl := Option.some.inj hs
    exact h.worker hne (by nofun) (fun _ _ => ⟨by nofun, by nofun⟩) (fun hq => hq) (by nofun) _

omit [DecidableEq ι] in
/-- So does a notification. -/
theorem notify_kept (h : Kept m c) : Kept m.notify c := by
  unfold Searchlight.notify
  split
  next hw =>
    exact h.worker (by rw [hw]; nofun) (by nofun) (fun _ _ => ⟨by nofun, by nofun⟩) (fun hq => hq)
      (by nofun) m.written
  next => exact h

omit [DecidableEq ι] in
/-- The reader may change. -/
theorem Kept.reader (h : Kept m c) (hr : m.readSerial ≠ .none) {t : Thread Reader}
    (ht : t ≠ .none) (isOpen : Bool) : Kept { m with readSerial := t, isOpen } c where
  phase j :=
    { h.phase j with
      readerJoined := fun hp => absurd ((h.phase j).readerJoined hp) hr
      joinsReader := fun _ => ht
      unread := fun hp => absurd ((h.phase j).unread hp) hr }
  starter := h.starter
  readerJoiner := h.readerJoiner
  workerJoiner := h.workerJoiner
  alive hrun _ := h.alive hrun (.inl hr)
  emptied hrun _ _ := by
    obtain ⟨j, hj⟩ := h.alive hrun (.inl hr)
    exact ⟨j, Phase.clears_of_joins hj⟩
  pushing hrun _ _ _ := by
    obtain ⟨j, hj⟩ := h.alive hrun (.inl hr)
    exact ⟨j, .inl (Phase.clears_of_joins hj)⟩
  stopped n hn := absurd (h.stopped n hn).2.2.1 hr
  ready := h.ready

omit [DecidableEq ι] in
/-- A step of the reader keeps the invariant. -/
theorem readerStep_kept (h : Kept m c) {r : Reader} (hr : m.readSerial = .running r) (ok : Bool) :
    Kept (readerStep m ok r) c := by
  have hne : m.readSerial ≠ .none := by rw [hr]; nofun
  cases r with
  | loop => exact h.reader hne (by split <;> nofun) m.isOpen
  | checking => exact h.reader hne (by nofun) m.isOpen
  | opening => exact h.reader hne (by nofun) ok
  | reading => exact h.reader hne (by nofun) (m.isOpen && ok)

/-! ## The steps of a shutdown -/

/-- A shutdown goes on to where it has still to clear the queue. -/
theorem Kept.goOn (h : Kept m c) (hp : p.clears)
    (halone : ¬ p.assigns ∧ ¬ p.joinsReader ∧ ¬ p.joinsWorker) (hok : p.Ok m')
    (hothers : ∀ j, j ≠ i → (c j).Ok m')
    (halive : p.joins ∨ m'.readSerial = .none ∧ m'.workerThread = .none)
    (hstopped : ∀ n, m'.stopped = some n →
      m'.running = false ∧ m'.isOpen = false ∧ m'.readSerial = .none ∧ m'.workerThread = .none ∧
        m'.taskQueue = [] ∧ m'.written.length = n)
    (hready : m'.workerThread = .running .ready → m'.taskQueue ≠ [] ∨ m'.running = false) :
    Kept m' (update c i p) where
  phase := (forall_update_iff c fun _ q => q.Ok m').2 ⟨hok, hothers⟩
  starter := h.starter.enter fun hp => absurd hp halone.1
  readerJoiner := h.readerJoiner.enter fun hp => absurd hp halone.2.1
  workerJoiner := h.workerJoiner.enter fun hp => absurd hp halone.2.2
  alive _ ht := by
    rcases halive with hp | ⟨hread, hwork⟩
    · exact exists_update_self (P := fun q : Phase => q.joins) hp
    · exact absurd ht (by simp [hread, hwork])
  emptied _ _ _ := exists_update_self (P := fun q : Phase => q.clears) hp
  pushing _ _ _ _ := exists_update_self (P := fun q : Phase => q.clears ∨ q.closes) (.inl hp)
  stopped := hstopped
  ready := hready

variable {init : Option Bool}

/-- A shutdown begins, and clears `running_`. -/
theorem exchange_kept (h : Kept m c) (ha : Allowed m c (.stopping .exchange init))
    (hi : c i = .stopping .exchange init) :
    Kept { m with running := false }
      (update c i (.stopping (if m.running then .notify else .port) init)) := by
  cases hrun : m.running with
  | true =>
    refine h.goOn rfl ⟨nofun, nofun, nofun⟩ ?_ (fun j _ => ?_) (.inl rfl) ?_ fun _ => .inr rfl
    · exact ⟨fun _ => rfl, nofun, nofun, nofun, nofun, nofun, nofun, nofun, nofun⟩
    · exact { h.phase j with down := fun _ => rfl, assigns := fun hj => absurd hj (by simp [ha j]) }
    · intro n hn
      exact absurd (h.stopped n hn).1 (by simp [hrun])
  | false =>
    have hm : { m with running := false } = m := by rw [← hrun]
    rw [hm]
    refine h.stay ?_ nofun nofun nofun ?_ ?_ ?_ nofun
    · exact ⟨fun _ => hrun, nofun, nofun, nofun, nofun, nofun, nofun, nofun, nofun⟩
    all_goals
      rw [hi]
      nofun

/-- A shutdown returns: the threads have ended, and nothing is left in the queue. -/
theorem Kept.stop (h : Kept m c) (hi : (c i).stops) (hp : p.idle)
    (hread : m.readSerial = .none) (hwork : m.workerThread = .none) (hq : m.taskQueue = []) :
    Kept { m with isOpen := false }.stop (update c i p) where
  phase := by
    refine (forall_update_iff c fun _ q => q.Ok _).2 ⟨Phase.idle_ok hp, fun j _ => ?_⟩
    exact
      { h.phase j with
        assigns := fun hj => absurd ((h.phase j).assigns hj).1 (by simp [(h.phase i).down hi]) }
  starter := h.starter.stay fun hs => absurd hs (by simp [Phase.assigns_of_idle hp])
  readerJoiner := h.readerJoiner.stay fun hs => absurd hs (by simp [Phase.joinsReader_of_idle hp])
  workerJoiner := h.workerJoiner.stay fun hs => absurd hs (by simp [Phase.joinsWorker_of_idle hp])
  alive _ ht := absurd ht (by simp [Searchlight.stop, hread, hwork])
  emptied _ _ hne := absurd hq hne
  pushing _ _ hn := by cases hn
  stopped n hn := ⟨(h.phase i).down hi, rfl, hread, hwork, hq, Option.some.inj hn⟩
  ready hw := by
    rw [show m.workerThread = .none from hwork] at hw
    cases hw

/-- A shutdown that has found `running_` clear goes on only where the port is open, and returns
otherwise. -/
theorem port_kept (h : Kept m c) (ha : Allowed m c (.stopping .port init))
    (hi : c i = .stopping .port init) {r : Searchlight × Phase}
    (hs : stopStep m init .port = some r) : Kept r.1 (update c i r.2) := by
  have hok := h.phase i
  rw [hi] at hok
  simp only [stopStep] at hs
  split at hs
  next =>
    obtain rfl := Option.some.inj hs
    refine h.stay ?_ nofun nofun nofun ?_ ?_ ?_ nofun
    · exact ⟨fun _ => hok.down rfl, nofun, nofun, nofun, nofun, nofun, nofun, nofun, nofun⟩
    all_goals
      rw [hi]
      nofun
  next hopen =>
    obtain rfl := Option.some.inj hs
    have hopen : m.isOpen = false := by simpa using hopen
    have hm : { m with isOpen := false } = m := by rw [← hopen]
    have hnone : m.readSerial = .none ∧ m.workerThread = .none := by
      by_contra hn
      obtain ⟨j, hj⟩ := h.alive (hok.down rfl) (Classical.not_and_iff_not_or_not.1 hn)
      exact absurd (Phase.clears_of_joins hj) (by simp [ha hopen j])
    have hempty : m.taskQueue = [] := by
      by_contra hq
      obtain ⟨j, hj⟩ := h.emptied (hok.down rfl) hopen hq
      exact absurd hj (by simp [ha hopen j])
    have hkept := h.stop (i := i) (p := afterShutdown init) (by rw [hi]; rfl)
      (afterShutdown_idle init) hnone.1 hnone.2 hempty
    rwa [hm] at hkept

/-- It notifies the worker. Its own condition is that the worker is not between its test and its
wait. -/
theorem stopNotify_kept (h : Kept m c) (ha : Allowed m c (.stopping .notify init))
    (hi : c i = .stopping .notify init) :
    Kept m.notify (update c i (.stopping .checkReader init)) := by
  have hkept := notify_kept h
  have hok := hkept.phase i
  rw [hi] at hok
  refine hkept.stay ?_ nofun nofun nofun (fun _ => .inl rfl) (fun _ => rfl) ?_ nofun
  · exact ⟨fun _ => hok.down rfl, fun _ => notify_settled ha, nofun, nofun, nofun, nofun, nofun,
      nofun, nofun⟩
  · rw [hi]
    nofun

/-- It looks whether there is a reader to join. -/
theorem checkReader_kept (h : Kept m c) (ha : Allowed m c (.stopping .checkReader init))
    (hi : c i = .stopping .checkReader init) :
    Kept m (update c i
      (.stopping (if m.readSerial = .none then .checkWorker else .joinReader) init)) := by
  have hok := h.phase i
  rw [hi] at hok
  split
  next hread =>
    refine h.stay ?_ nofun nofun nofun (fun _ => .inl rfl) (fun _ => rfl) ?_ nofun
    · exact ⟨fun _ => hok.down rfl, fun _ => hok.settled rfl, fun _ => hread, nofun, nofun, nofun,
        nofun, nofun, nofun⟩
    · rw [hi]
      nofun
  next hread =>
    refine h.stay ?_ nofun (fun _ j _ => by simp [ha hread j]) nofun (fun _ => .inl rfl)
      (fun _ => rfl) ?_ nofun
    · exact ⟨fun _ => hok.down rfl, fun _ => hok.settled rfl, nofun, nofun, nofun, fun _ => hread,
        nofun, nofun, nofun⟩
    · rw [hi]
      nofun

/-- The reader has ended and is joined. -/
theorem joinReader_kept (h : Kept m c) (hi : c i = .stopping .joinReader init) :
    Kept { m with readSerial := .none } (update c i (.stopping .checkWorker init)) := by
  have hok := h.phase i
  rw [hi] at hok
  refine h.goOn rfl ⟨nofun, nofun, nofun⟩ ?_ (fun j hj => ?_) (.inl rfl) (fun n hn => ?_) h.ready
  · exact ⟨fun _ => hok.down rfl, fun _ => hok.settled rfl, fun _ => rfl, nofun, nofun, nofun,
      nofun, nofun, nofun⟩
  · exact
      { h.phase j with
        readerJoined := fun _ => rfl
        joinsReader := fun hp => absurd (h.readerJoiner j i hp (by rw [hi]; rfl)) hj
        unread := fun _ => rfl }
  · obtain ⟨hrun, hopen, -, hrest⟩ := h.stopped n hn
    exact ⟨hrun, hopen, rfl, hrest⟩

/-- It looks whether there is a worker to join. -/
theorem checkWorker_kept (h : Kept m c) (ha : Allowed m c (.stopping .checkWorker init))
    (hi : c i = .stopping .checkWorker init) :
    Kept m (update c i
      (.stopping (if m.workerThread = .none then .clear else .joinWorker) init)) := by
  have hok := h.phase i
  rw [hi] at hok
  have hread := hok.readerJoined rfl
  split
  next hwork =>
    refine h.stay ?_ nofun nofun nofun (fun _ => .inr ⟨hread, hwork⟩) (fun _ => rfl) ?_ nofun
    · exact ⟨fun _ => hok.down rfl, fun _ => hok.settled rfl, fun _ => hread, fun _ => hwork, nofun,
        nofun, nofun, nofun, nofun⟩
    · rw [hi]
      nofun
  next hwork =>
    refine h.stay ?_ nofun nofun (fun _ j _ => by simp [ha hwork j]) (fun _ => .inl rfl)
      (fun _ => rfl) ?_ nofun
    · exact ⟨fun _ => hok.down rfl, fun _ => hok.settled rfl, fun _ => hread, nofun, nofun, nofun,
        fun _ => hwork, nofun, nofun⟩
    · rw [hi]
      nofun

/-- The worker has ended and is joined. -/
theorem joinWorker_kept (h : Kept m c) (hi : c i = .stopping .joinWorker init) :
    Kept { m with workerThread := .none } (update c i (.stopping .clear init)) := by
  have hok := h.phase i
  rw [hi] at hok
  have hread := hok.readerJoined rfl
  refine h.goOn rfl ⟨nofun, nofun, nofun⟩ ?_ (fun j hj => ?_) (.inr ⟨hread, rfl⟩) (fun n hn => ?_)
    nofun
  · exact ⟨fun _ => hok.down rfl, fun _ => ⟨by nofun, by nofun⟩, fun _ => hread, fun _ => rfl,
      nofun, nofun, nofun, nofun, nofun⟩
  · exact
      { h.phase j with
        settled := fun _ => ⟨by nofun, by nofun⟩
        workerJoined := fun _ => rfl
        joinsWorker := fun hp => absurd (h.workerJoiner j i hp (by rw [hi]; rfl)) hj
        assigns := fun hp => absurd ((h.phase j).assigns hp).1 (by simp [hok.down rfl]) }
  · exact absurd (h.stopped n hn).2.2.2.1 (hok.joinsWorker rfl)

/-- It clears the queue, which nobody works on any more. -/
theorem clear_kept (h : Kept m c) (hlocked : m.locked = false)
    (hi : c i = .stopping .clear init) :
    Kept { m with taskQueue := [] } (update c i (.stopping .close init)) where
  phase := by
    have hok := h.phase i
    rw [hi] at hok
    refine (forall_update_iff c fun _ q => q.Ok _).2 ⟨?_, fun j _ => ?_⟩
    · exact ⟨fun _ => hok.down rfl, fun _ => hok.settled rfl, fun _ => hok.readerJoined rfl,
        fun _ => hok.workerJoined rfl, fun _ => rfl, nofun, nofun, nofun, nofun⟩
    · exact { h.phase j with cleared := fun _ => rfl }
  starter := h.starter.stay nofun
  readerJoiner := h.readerJoiner.stay nofun
  workerJoiner := h.workerJoiner.stay nofun
  alive _ ht := by
    have hok := h.phase i
    rw [hi] at hok
    exact absurd ht (by simp [hok.readerJoined rfl, hok.workerJoined rfl])
  emptied _ _ hne := absurd rfl hne
  pushing _ _ _ _ := exists_update_self (P := fun q : Phase => q.clears ∨ q.closes) (.inr rfl)
  stopped n hn := by
    obtain ⟨hrun, hopen, hread, hwork, -, hlen⟩ := h.stopped n hn
    exact ⟨hrun, hopen, hread, hwork, rfl, hlen⟩
  ready hw := by
    simp only at hw
    simp [Searchlight.locked, hw] at hlocked

/-- Every step of a shutdown keeps the invariant. -/
theorem stopStep_kept (h : Kept m c) {stage : Stage} (hi : c i = .stopping stage init)
    (ha : Allowed m c (.stopping stage init)) {r : Searchlight × Phase}
    (hs : stopStep m init stage = some r) : Kept r.1 (update c i r.2) := by
  cases stage with
  | exchange =>
    obtain rfl := Option.some.inj hs
    exact exchange_kept h ha hi
  | port => exact port_kept h ha hi hs
  | notify =>
    obtain rfl := Option.some.inj hs
    exact stopNotify_kept h ha hi
  | checkReader =>
    obtain rfl := Option.some.inj hs
    exact checkReader_kept h ha hi
  | joinReader =>
    simp only [stopStep] at hs
    split at hs
    next =>
      obtain rfl := Option.some.inj hs
      exact joinReader_kept h hi
    next => cases hs
  | checkWorker =>
    obtain rfl := Option.some.inj hs
    exact checkWorker_kept h ha hi
  | joinWorker =>
    simp only [stopStep] at hs
    split at hs
    next =>
      obtain rfl := Option.some.inj hs
      exact joinWorker_kept h hi
    next => cases hs
  | clear =>
    simp only [stopStep] at hs
    split at hs
    next => cases hs
    next hlocked =>
      obtain rfl := Option.some.inj hs
      exact clear_kept h (by simpa using hlocked) hi
  | close =>
    obtain rfl := Option.some.inj hs
    have hok := h.phase i
    rw [hi] at hok
    exact h.stop (by rw [hi]; rfl) (afterShutdown_idle init) (hok.readerJoined rfl)
      (hok.workerJoined rfl) (hok.cleared rfl)

/-! ## The other calls -/

/-- A caller goes on, and has neither the threads nor a shutdown on its hands. -/
theorem Kept.move (h : Kept m c) (hi : ¬ (c i).stops) (hp : p.idle)
    (hpushes : p.pushes → m.isOpen = true) : Kept m (update c i p) := by
  refine h.stay (Phase.idle_ok hp) ?_ ?_ ?_ (fun hj => absurd ?_ hi) (fun hj => absurd ?_ hi)
    (fun hj => hi ?_) fun hpush => .inl (hpushes hpush)
  · intro hs
    exact absurd hs (by simp [Phase.assigns_of_idle hp])
  · intro hs
    exact absurd hs (by simp [Phase.joinsReader_of_idle hp])
  · intro hs
    exact absurd hs (by simp [Phase.joinsWorker_of_idle hp])
  · exact Phase.stops_of_clears (Phase.clears_of_joins hj)
  · exact Phase.stops_of_clears hj
  · exact Phase.stops_of_workerJoined (Phase.workerJoined_of_closes hj)

/-- `initialize` opens the port, or fails to. -/
theorem opening_kept (h : Kept m c) {baudOk ok : Bool} (ha : Allowed m c (.opening baudOk))
    (hi : c i = .opening baudOk) {r : Searchlight × Phase}
    (hs : act m ok (.opening baudOk) = some r) : Kept r.1 (update c i r.2) := by
  have hreturn : Kept m (update c i .returned) := h.move (by rw [hi]; nofun) rfl nofun
  simp only [act] at hs
  split at hs
  next =>
    obtain rfl := Option.some.inj hs
    exact hreturn
  next hbaud =>
    split at hs
    next =>
      obtain rfl := Option.some.inj hs
      exact
        { hreturn with
          phase := fun j => { hreturn.phase j with
            assigns := fun hj =>
              have hup := (hreturn.phase j).assigns hj
              ⟨hup.1, hup.2.1, rfl⟩ }
          emptied := fun _ ho => by cases ho
          pushing := fun _ ho => by cases ho
          stopped := nofun }
    next =>
      obtain rfl := Option.some.inj hs
      have hopen : m.isOpen = false := ha (by simpa using hbaud)
      have hm : { m with isOpen := false } = m := by rw [← hopen]
      rw [hm]
      exact hreturn

/-- A start sets `running_`. -/
theorem starting_kept (h : Kept m c) (ha : Allowed m c .starting) :
    Kept { m with running := true, stopped := none } (update c i .assigningReader) where
  phase := by
    refine (forall_update_iff c fun _ q => q.Ok _).2 ⟨?_, fun j _ => ?_⟩
    · exact ⟨nofun, nofun, nofun, nofun, nofun, nofun, nofun, fun _ => ⟨rfl, ha.2.1, rfl⟩,
        fun _ => ha.1⟩
    · exact
        { h.phase j with
          down := fun hj => absurd hj (by simp [(ha.2.2 j).2])
          assigns := fun hj => absurd hj (by simp [(ha.2.2 j).1]) }
  starter := h.starter.enter fun _ j _ => by simp [(ha.2.2 j).1]
  readerJoiner := h.readerJoiner.stay nofun
  workerJoiner := h.workerJoiner.stay nofun
  alive := nofun
  emptied := nofun
  pushing := nofun
  stopped := nofun
  ready hw := by
    rw [show m.workerThread = .none from ha.2.1] at hw
    cases hw

/-- It starts the reader. -/
theorem assigningReader_kept (h : Kept m c) (hi : c i = .assigningReader) :
    Kept { m with readSerial := .running .loop } (update c i .assigningWorker) := by
  have hok := h.phase i
  rw [hi] at hok
  have hup := hok.assigns rfl
  have hrun : m.running ≠ false := by simp [hup.1]
  refine ⟨?_, h.starter.stay fun _ => by rw [hi]; rfl, h.readerJoiner.stay nofun,
    h.workerJoiner.stay nofun, ?_, ?_, ?_, ?_, h.ready⟩
  · refine (forall_update_iff c fun _ q => q.Ok _).2 ⟨?_, fun j hj => ?_⟩
    · exact ⟨nofun, nofun, nofun, nofun, nofun, nofun, nofun, fun _ => hup, nofun⟩
    · exact
        { h.phase j with
          readerJoined := fun hp => absurd ((h.phase j).down (Phase.stops_of_readerJoined hp)) hrun
          joinsReader := nofun
          unread := fun hp => absurd (h.starter j i (by rw [hp]; rfl) (by rw [hi]; rfl)) hj }
  · intro hdown
    exact absurd hdown hrun
  · intro hdown
    exact absurd hdown hrun
  · intro hdown
    exact absurd hdown hrun
  · intro n hn
    exact absurd hn (by simp [hup.2.2])

/-- And then the worker. -/
theorem assigningWorker_kept (h : Kept m c) (hi : c i = .assigningWorker) :
    Kept { m with workerThread := .running .loop } (update c i .waitingFrame) := by
  have hok := h.phase i
  rw [hi] at hok
  have hup := hok.assigns rfl
  have hrun : m.running ≠ false := by simp [hup.1]
  refine ⟨?_, h.starter.stay nofun, h.readerJoiner.stay nofun, h.workerJoiner.stay nofun, ?_, ?_,
    ?_, ?_, nofun⟩
  · refine (forall_update_iff c fun _ q => q.Ok _).2 ⟨Phase.idle_ok rfl, fun j hj => ?_⟩
    exact
      { h.phase j with
        settled := fun _ => ⟨by nofun, by nofun⟩
        workerJoined := fun hp => absurd ((h.phase j).down (Phase.stops_of_workerJoined hp)) hrun
        joinsWorker := nofun
        assigns := fun hp => absurd (h.starter j i hp (by rw [hi]; rfl)) hj }
  · intro hdown
    exact absurd hdown hrun
  · intro hdown
    exact absurd hdown hrun
  · intro hdown
    exact absurd hdown hrun
  · intro n hn
    exact absurd hn (by simp [hup.2.2])

/-- A command comes to the queue while this is not cleared for good. -/
theorem pushing_kept (h : Kept m c) {task : LightTask} (ha : Allowed m c (.pushing task))
    (hi : c i = .pushing task) :
    Kept { m with taskQueue := m.taskQueue ++ [task] } (update c i .notifying) := by
  have hmove : Kept m (update c i .notifying) := h.move (by rw [hi]; nofun) rfl nofun
  refine
    { hmove with
      phase := fun j => { hmove.phase j with cleared := fun hj => ?_ }
      emptied := fun hrun hopen _ => ?_
      stopped := fun n hn => absurd hn (by simp [ha.1])
      ready := fun _ => .inl (by simp) }
  · rcases eq_or_ne j i with rfl | hne
    · rw [update_self] at hj
      cases hj
    · rw [update_of_ne hne] at hj
      exact absurd hj (by simp [ha.2 j])
  · obtain ⟨j, hj | hj⟩ := h.pushing hrun hopen ha.1 ⟨i, by rw [hi]; rfl⟩
    · refine exists_update (P := fun q : Phase => q.clears) ⟨j, hj⟩ ?_
      rw [hi]
      nofun
    · exact absurd hj (by simp [ha.2 j])

/-- Every step of an allowed call keeps the invariant. -/
theorem act_kept (h : Kept m c) (ha : Allowed m c (c i)) {ok : Bool} {r : Searchlight × Phase}
    (hs : act m ok (c i) = some r) : Kept r.1 (update c i r.2) := by
  cases hi : c i with
  | returned =>
    rw [hi] at hs
    cases hs
  | stopping stage init =>
    rw [hi] at hs ha
    exact stopStep_kept h hi ha hs
  | opening baudOk =>
    rw [hi] at hs ha
    exact opening_kept h ha hi hs
  | starting =>
    rw [hi] at hs ha
    obtain rfl := Option.some.inj hs
    exact starting_kept h ha
  | assigningReader =>
    rw [hi] at hs
    simp only [act] at hs
    split at hs
    next =>
      obtain rfl := Option.some.inj hs
      exact h.move (by rw [hi]; nofun) rfl nofun
    split at hs
    next => cases hs
    next =>
      obtain rfl := Option.some.inj hs
      exact assigningReader_kept h hi
  | assigningWorker =>
    rw [hi] at hs
    simp only [act] at hs
    split at hs
    next =>
      obtain rfl := Option.some.inj hs
      exact h.move (by rw [hi]; nofun) rfl nofun
    split at hs
    next => cases hs
    next =>
      obtain rfl := Option.some.inj hs
      exact assigningWorker_kept h hi
  | waitingFrame =>
    rw [hi] at hs
    obtain rfl := Option.some.inj hs
    exact h.move (by rw [hi]; nofun) rfl nofun
  | commanding task =>
    rw [hi] at hs
    simp only [act] at hs
    split at hs
    next hready =>
      obtain rfl := Option.some.inj hs
      exact h.move (by rw [hi]; nofun) rfl fun _ => hready.1
    next =>
      obtain rfl := Option.some.inj hs
      exact h.move (by rw [hi]; nofun) rfl nofun
  | pushing task =>
    rw [hi] at hs ha
    simp only [act] at hs
    split at hs
    next => cases hs
    next =>
      obtain rfl := Option.some.inj hs
      exact pushing_kept h ha hi
  | notifying =>
    rw [hi] at hs
    obtain rfl := Option.some.inj hs
    exact (notify_kept h).move (by rw [hi]; nofun) rfl nofun

/-! ## Runs -/

/-- A call that begins relies on nothing yet. -/
theorem call_kept {s s' : System ι} (h : Kept s.light s.phase) (hs : call s i p = some s')
    (hp : p.idle) (hpushes : p.pushes = false) : Kept s'.light s'.phase := by
  unfold call at hs
  split at hs
  next hi =>
    obtain rfl := Option.some.inj hs
    exact h.move (by rw [hi]; nofun) hp fun hpush => absurd hpush (by simp [hpushes])
  next => cases hs

/-- **Every careful step** keeps the invariant. -/
theorem step_kept {s s' : System ι} {l : Label ι} (hc : Careful s l) (h : Kept s.light s.phase)
    (hs : step s l = some s') : Kept s'.light s'.phase := by
  cases l with
  | callInitialize i baudOk => exact call_kept h hs rfl rfl
  | callStart i => exact call_kept h hs rfl rfl
  | callShutdown i => exact call_kept h hs rfl rfl
  | callCommand i task => exact call_kept h hs rfl rfl
  | act i ok =>
    obtain ⟨r, hr, rfl⟩ := Option.map_eq_some_iff.1 hs
    exact act_kept h hc hr
  | worker ok =>
    simp only [step] at hs
    split at hs
    next w hw =>
      obtain ⟨light, hl, rfl⟩ := Option.map_eq_some_iff.1 hs
      exact workerStep_kept h hw hl
    next => cases hs
  | reader ok =>
    simp only [step] at hs
    split at hs
    next r hr =>
      obtain rfl := Option.some.inj hs
      exact readerStep_kept h hr ok
    next => cases hs
  | wake =>
    simp only [step] at hs
    split at hs
    next =>
      obtain rfl := Option.some.inj hs
      exact notify_kept h
    next => cases hs

omit [DecidableEq ι] in
/-- It holds before the first call. -/
theorem kept_init : Kept {} (fun _ : ι => .returned) where
  phase _ := Phase.idle_ok rfl
  starter _ _ := nofun
  readerJoiner _ _ := nofun
  workerJoiner _ _ := nofun
  alive _ ht := by simp at ht
  emptied _ _ hq := absurd rfl hq
  pushing _ _ _ := fun ⟨_, hj⟩ => nomatch hj
  stopped := nofun
  ready := nofun

end

/-! ## The end of a thread -/

section
variable {s : System ι}

/-- The reader takes its step whenever it runs. -/
theorem reader_step {r : Reader} (hr : s.light.readSerial = .running r) (ok : Bool) :
    step s (.reader ok) = some { s with light := readerStep s.light ok r } := by
  simp [step, hr]

/-- The worker takes its step unless it waits. -/
theorem worker_step {w : Worker} (hw : s.light.workerThread = .running w) {ok : Bool}
    {m : Searchlight} (hm : workerStep s.light ok w = some m) :
    step s (.worker ok) = some { s with light := m } := by
  simp [step, hw, hm]

/-- When `running_` has been cleared the reader ends, wherever it stands. -/
theorem reader_ends (hrun : s.light.running = false) (hr : s.light.readSerial ≠ .none) :
    ∃ n, EndsIn step .reader (fun t => t.light.readSerial = .exited) n s := by
  have hloop : ∀ t : System ι, t.light.running = false → t.light.readSerial = .running .loop →
      EndsIn step .reader (fun t => t.light.readSerial = .exited) 1 t := by
    intro t ht hl
    refine .cons (reader_step hl) fun ok => ?_
    simp [EndsIn, readerStep, ht]
  cases hread : s.light.readSerial with
  | none => exact absurd hread hr
  | exited => exact ⟨0, hread⟩
  | running r =>
    cases r with
    | loop => exact ⟨1, hloop s hrun hread⟩
    | opening | reading =>
      exact ⟨2, .cons (reader_step hread) fun ok => hloop _ hrun rfl⟩
    | checking =>
      refine ⟨3, .cons (reader_step hread) fun ok => ?_⟩
      cases hopen : s.light.isOpen with
      | true =>
        refine .cons (reader_step (r := .reading) ?_) fun ok => hloop _ hrun rfl
        simp [readerStep, hopen]
      | false =>
        refine .cons (reader_step (r := .opening) ?_) fun ok => hloop _ hrun rfl
        simp [readerStep, hopen]

/-- So does the worker, unless it waits, or is about to. -/
theorem worker_ends (hrun : s.light.running = false) (hset : s.light.Settled)
    (hw : s.light.workerThread ≠ .none) :
    ∃ n, EndsIn step .worker (fun t => t.light.workerThread = .exited) n s := by
  have hloop : ∀ t : System ι, t.light.running = false → t.light.workerThread = .running .loop →
      EndsIn step .worker (fun t => t.light.workerThread = .exited) 1 t := by
    intro t ht hl
    refine .cons (fun ok => worker_step hl rfl) fun ok => ?_
    simp [EndsIn, ht]
  have hwriting : ∀ (t : System ι) task, t.light.running = false →
      t.light.workerThread = .running (.writing task) →
      EndsIn step .worker (fun t => t.light.workerThread = .exited) 2 t := by
    intro t task ht hr
    exact .cons (fun ok => worker_step hr rfl) fun ok => hloop _ ht rfl
  have hready : ∀ t : System ι, t.light.running = false →
      t.light.workerThread = .running .ready →
      ∃ n, EndsIn step .worker (fun t => t.light.workerThread = .exited) n t := by
    intro t ht hr
    cases hq : t.light.taskQueue with
    | nil =>
      refine ⟨1, .cons (f := fun _ => { t with light := { t.light with workerThread := .exited } })
        (fun ok => worker_step hr ?_) fun ok => rfl⟩
      simp [workerStep, hq, ht]
    | cons task taskQueue =>
      refine ⟨3, .cons (f := fun _ =>
        { t with light := { t.light with taskQueue, workerThread := .running (.writing task) } })
        (fun ok => worker_step hr ?_) fun ok => ?_⟩
      · simp [workerStep, hq]
      · exact hwriting _ task ht rfl
  cases hwork : s.light.workerThread with
  | none => exact absurd hwork hw
  | exited => exact ⟨0, hwork⟩
  | running w =>
    cases w with
    | loop => exact ⟨1, hloop s hrun hwork⟩
    | blocking => exact absurd hwork hset.1
    | waiting => exact absurd hwork hset.2
    | ready => exact hready s hrun hwork
    | writing task => exact ⟨2, hwriting s task hrun hwork⟩
    | locking =>
      obtain ⟨n, hn⟩ := hready { s with light := { s.light with workerThread := .running .ready } }
        hrun rfl
      refine ⟨n + 1, .cons
        (f := fun _ => { s with light := { s.light with workerThread := .running .ready } })
        (fun ok => worker_step hwork ?_) fun ok => hn⟩
      simp [workerStep, hrun]

/-- What a caller may rely on follows from the invariant. -/
theorem Kept.safe (h : Kept s.light s.phase) : Safe s where
  awake i := (h.phase i).settled
  readerEnds i hi :=
    reader_ends ((h.phase i).down (Phase.stops_of_notified (Phase.notified_of_joinsReader hi)))
      ((h.phase i).joinsReader hi)
  workerEnds i hi :=
    worker_ends ((h.phase i).down (Phase.stops_of_notified (Phase.notified_of_joinsWorker hi)))
      ((h.phase i).settled (Phase.notified_of_joinsWorker hi)) ((h.phase i).joinsWorker hi)
  unassigned i :=
    ⟨(h.phase i).unread, fun hi => ((h.phase i).assigns (by rw [hi]; rfl)).2.1⟩
  stopped n hn := by
    obtain ⟨-, -, -, -, hq, hlen⟩ := h.stopped n hn
    exact ⟨hlen, hq⟩

/-- **Starting and stopping is safe where the calls keep out of each other's way.** -/
theorem shutdown_safe {ls : List (Label ι)} (hc : Along step Careful {} ls)
    (h : run step {} ls = some s) : Safe s := by
  have hkept : Kept s.light s.phase :=
    run_along (P := fun s : System ι => Kept s.light s.phase)
      (fun _ _ _ hc hk hl => step_kept hc hk hl) kept_init hc h
  exact hkept.safe

end

/-- A session: the port is opened, the threads are started, a command is written while another one
waits for the worker, and a shutdown ends it all. -/
theorem shutdown_safe_session :
    ∃ (ls : List (Label (Fin 2))) (s : System (Fin 2)),
      run step {} ls = some s ∧ s.light.written.length = 1 ∧ s.light.taskQueue = [] := by
  have h : run step ({} : System (Fin 2))
      [.callInitialize 0 true, .act 0 true, .act 0 true, .act 0 true, .callStart 0, .act 0 true,
        .act 0 true, .act 0 true, .worker true, .worker true, .worker true, .reader true,
        .callCommand 1 ⟨"home", [0x55]⟩, .act 1 true, .act 1 true, .act 1 true, .act 0 true,
        .callCommand 1 ⟨"open_led", [0x55]⟩, .act 1 true, .act 1 true, .worker true, .worker true,
        .callShutdown 0, .act 0 true, .act 0 true, .worker true, .worker true, .act 0 true,
        .reader true, .reader true, .reader true, .act 0 true, .act 1 true, .act 0 true,
        .act 0 true, .act 0 true, .act 0 true] = some _ := rfl
  have hstopped := (shutdown_safe (by decide) h).stopped 1 rfl
  exact ⟨_, _, h, hstopped⟩

/-- The worker has looked at the queue and is about to wait when the only notification is sent. -/
theorem notification_lost :
    ¬ ∀ (ls : List (Label (Fin 1))) (s : System (Fin 1)), run step {} ls = some s → Safe s := by
  intro h
  have hsafe := h [.callInitialize 0 true, .act 0 true, .act 0 true, .act 0 true, .callStart 0,
    .act 0 true, .act 0 true, .act 0 true, .act 0 true, .worker true, .worker true,
    .callShutdown 0, .act 0 true, .act 0 true, .worker true] _ rfl
  exact (hsafe.awake 0 rfl).2 rfl

end Lifecycle

end SearchlightControl
