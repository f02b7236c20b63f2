import FastCppServer.MyPod.Pod

/-!
# The monitor of a pod

`PodMonitor` step by step: the thread of the monitor, whose status poll takes the lock of the
configuration once and the lock of the status twice, and the threads that start and stop it and
change its configuration. A reader of the status takes the lock of the status, so that it can come
between any two steps. What is due for a poll is left open; so is where a poll throws.

Kept besides is a record of the results that went into the online window since the start, each with
the time that was stored for it, if one was.
-/

namespace PodModule

/-- `PodStatus`. A `double` is given by its bits. -/
structure PodStatus where
  state : PodState := .disconnected
  temperature : UInt64 := 0
  voltage : UInt64 := 0
  uptimeMs : UInt64 := 0
  errorMsg : String := ""
  deriving DecidableEq

/-- `PodRuntimeStatus`, without what the other polls measure. -/
structure PodRuntimeStatus where
  isOnline : Bool := false
  podStatus : PodStatus := {}
  lastUpdateMs : UInt64 := 0
  onlineUpdateMs : UInt64 := 0
  ptzUpdateMs : UInt64 := 0
  laserUpdateMs : UInt64 := 0
  streamUpdateMs : UInt64 := 0
  deriving DecidableEq

/-- Where `updateOnlineWindow` returns to: the second section of `pollStatus`, with what the pod has
told of itself, or its handler. -/
inductive Return where
  | write (status : Option PodStatus)
  | handled
  deriving DecidableEq

/-- Where the thread of the monitor is. -/
inductive Location where
  | idle
  | refreshing
  | asking
  /-- In `updateOnlineWindow`, before the configuration is read. -/
  | reading (pingResult : Bool) (ret : Return)
  /-- And before the window is changed. -/
  | updating (pingResult : Bool) (windowSize threshold : UInt32) (ret : Return)
  | writing (status : Option PodStatus)
  deriving DecidableEq

def Return.location : Return → Location
  | .write status => .writing status
  | .handled => .idle

/-- The handler of `pollStatus`. -/
def handler : Location := .reading false .handled

/-- What throws inside `pollStatus` is caught, but for what its handler throws. -/
def Location.guarded : Location → Bool
  | .refreshing | .asking | .writing _ => true
  | .reading _ (.write _) | .updating _ _ _ (.write _) => true
  | .idle | .reading _ .handled | .updating _ _ _ .handled => false

/-- A result in the record, and the time that was stored for it. -/
structure Result where
  ok : Bool
  stamp : Option UInt64 := none
  deriving DecidableEq

structure PodMonitor where
  running : Bool := false
  config : PodMonitorConfig := {}
  runtimeStatus : PodRuntimeStatus := {}
  onlineHistory : List Bool := []
  loc : Location := .idle
  record : List Result := []

namespace PodMonitor

/-- All results since the start. -/
def results (m : PodMonitor) : List Bool := m.record.map Result.ok

/-! ## `updateOnlineWindow` -/

/-- The loop that drops the oldest results. -/
def trimHistory (windowSize : UInt32) : List Bool → List Bool
  | [] => []
  | ok :: rest =>
    if windowSize.toNat < rest.length + 1 then trimHistory windowSize rest else ok :: rest

/-- The loop that counts the successes. -/
def successCount (history : List Bool) : UInt32 :=
  history.foldl (fun count ok => if ok then count + 1 else count) 0

/-- What is done under the lock of the status. -/
def updateOnlineWindow (m : PodMonitor) (pingResult : Bool) (windowSize threshold : UInt32) :
    PodMonitor :=
  let onlineHistory := trimHistory windowSize (m.onlineHistory ++ [pingResult])
  { m with
    onlineHistory
    runtimeStatus :=
      { m.runtimeStatus with isOnline := threshold ≤ successCount onlineHistory }
    record := m.record ++ [{ ok := pingResult }] }

/-! ## `pollStatus` -/

/-- Whether the pod has told that it is connected. -/
def pingOk : Option PodStatus → Bool
  | some status => status.state = .connected
  | none => false

/-- The time is stored for the last result. -/
def stampLast (now : UInt64) : List Result → List Result
  | [] => []
  | [r] => [{ r with stamp := some now }]
  | r :: r' :: rest => r :: stampLast now (r' :: rest)

/-- The second section. -/
def writeStatus (m : PodMonitor) (status : Option PodStatus) (now : UInt64) : PodMonitor :=
  { m with
    runtimeStatus :=
      { m.runtimeStatus with
        podStatus :=
          { status.getD m.runtimeStatus.podStatus with
            state := if m.runtimeStatus.isOnline then .connected else .disconnected }
        onlineUpdateMs := now
        lastUpdateMs := now }
    record := stampLast now m.record }

/-- The polls of what a pod measures. -/
inductive Measurement where
  | ptz
  | laser
  | stream
  deriving DecidableEq

/-- The section of a successful `pollPtz`, `pollLaser` or `pollStream`. -/
def measured (m : PodMonitor) (what : Measurement) (now : UInt64) : PodMonitor :=
  { m with
    runtimeStatus :=
      match what with
      | .ptz => { m.runtimeStatus with ptzUpdateMs := now, lastUpdateMs := now }
      | .laser => { m.runtimeStatus with laserUpdateMs := now, lastUpdateMs := now }
      | .stream => { m.runtimeStatus with streamUpdateMs := now, lastUpdateMs := now } }

/-- `getRuntimeStatus`. -/
def getRuntimeStatus (m : PodMonitor) : PodRuntimeStatus := m.runtimeStatus

/-! ## The steps -/

inductive Label where
  | start (config : PodMonitorConfig)
  | stop
  | updateConfig (config : PodMonitorConfig)
  /-- `pollStatus` begins. -/
  | poll
  | refreshed
  | told (status : Option PodStatus)
  | readConfig
  | update
  /-- The second section; what comes behind it may throw. -/
  | write (now : UInt64) (threw : Bool)
  | throws
  | measured (what : Measurement) (now : UInt64)

/-- One step. A `start` of a monitor that runs, and a `stop` of one that does not, do nothing and
are left out; a `stop` ends when the thread is through with its polls. -/
def step (m : PodMonitor) : Label → Option PodMonitor
  | .start config => if m.running then none else some { running := true, config }
  | .stop => if m.running ∧ m.loc = .idle then some { m with running := false } else none
  | .updateConfig config => some { m with config }
  | .poll => if m.running ∧ m.loc = .idle then some { m with loc := .refreshing } else none
  | .refreshed => if m.loc = .refreshing then some { m with loc := .asking } else none
  | .told status =>
    if m.loc = .asking then some { m with loc := .reading (pingOk status) (.write status) }
    else none
  | .readConfig =>
    match m.loc with
    | .reading pingResult ret =>
      some { m with
        loc := .updating pingResult m.config.onlineWindowSize m.config.onlineThreshold ret }
    | _ => none
  | .update =>
    match m.loc with
    | .updating pingResult windowSize threshold ret =>
      some { m.updateOnlineWindow pingResult windowSize threshold with loc := ret.location }
    | _ => none
  | .write now threw =>
    match m.loc with
    | .writing status =>
      some { m.writeStatus status now with loc := if threw then handler else .idle }
    | _ => none
  | .throws => if m.loc.guarded then some { m with loc := handler } else none
  | .measured what now =>
    if m.running ∧ m.loc = .idle ∧ (what = .stream ∨ m.runtimeStatus.isOnline) then
      some (m.measured what now)
    else none

/-! ## What a step does -/

section
variable {m m' : PodMonitor}

/-- The steps that leave the online status alone. -/
def Label.quiet : Label → Bool
  | .start _ | .update | .write _ _ => false
  | _ => true

/-- What they leave as it is. -/
structure Quiet (m m' : PodMonitor) : Prop where
  record : m'.record = m.record
  onlineHistory : m'.onlineHistory = m.onlineHistory
  isOnline : m'.runtimeStatus.isOnline = m.runtimeStatus.isOnline
  podStatus : m'.runtimeStatus.podStatus = m.runtimeStatus.podStatus
  onlineUpdateMs : m'.runtimeStatus.onlineUpdateMs = m.runtimeStatus.onlineUpdateMs
  writing : ∀ status, m'.loc = .writing status → m.loc = .writing status

theorem step_quiet {l : Label} (h : step m l = some m') (hl : l.quiet = true) : Quiet m m' := by
  cases l with
  | start config | update | write now threw => cases hl
  | updateConfig config =>
    cases h
    exact ⟨rfl, rfl, rfl, rfl, rfl, fun _ => id⟩
  | stop =>
    obtain ⟨-, heq⟩ := Option.ite_none_right_eq_some.1 h
    cases heq
    exact ⟨rfl, rfl, rfl, rfl, rfl, fun _ => id⟩
  | poll | refreshed | told status | throws =>
    obtain ⟨-, heq⟩ := Option.ite_none_right_eq_some.1 h
    cases heq
    exact ⟨rfl, rfl, rfl, rfl, rfl, fun _ hw => by cases hw⟩
  | measured what now =>
    obtain ⟨-, heq⟩ := Option.ite_none_right_eq_some.1 h
    cases heq
    cases what <;> exact ⟨rfl, rfl, rfl, rfl, rfl, fun _ => id⟩
  | readConfig =>
    rw [step] at h
    split at h
    · cases h
      exact ⟨rfl, rfl, rfl, rfl, rfl, fun _ hw => by cases hw⟩
    · cases h

theorem step_start {config : PodMonitorConfig} (h : step m (.start config) = some m') :
    m' = { running := true, config } := by
  rw [step] at h
  split at h
  · cases h
  · exact (Option.some.inj h).symm

theorem step_update (h : step m .update = some m') : ∃ pingResult windowSize threshold ret,
    m.loc = .updating pingResult windowSize threshold ret ∧
      m' = { m.updateOnlineWindow pingResult windowSize threshold with loc := ret.location } := by
  rw [step] at h
  split at h
  · next pingResult windowSize threshold ret hloc =>
    exact ⟨pingResult, windowSize, threshold, ret, hloc, (Option.some.inj h).symm⟩
  · cases h

theorem step_write {now : UInt64} {threw : Bool} (h : step m (.write now threw) = some m') :
    ∃ status, m.loc = .writing status ∧
      m' = { m.writeStatus status now with loc := if threw then handler else .idle } := by
  rw [step] at h
  split at h
  · next status hloc => exact ⟨status, hloc, (Option.some.inj h).symm⟩
  · cases h

end

end PodMonitor

end PodModule
