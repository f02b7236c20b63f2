import FastCppServer.Lib.Process
import FastCppServer.Lib.Transition

/-!
# The pod stream manager

`PodStreamManager`: a monitor thread that pings the pod and keeps `is_connected_`, a worker thread
that starts and stops the MediaMTX child by it, and one controlling thread that calls `Init`,
`Start` and `Stop`. The threads are interleaved at the accesses to what they share and at the system
calls; the child exits when it likes, and the clock goes on between any two steps.

Beside the fields of the class the state has the process table, the clock, and three histories that
no step reads: what the monitor has observed in the session, which crashes have been recorded, and
how many children have exited unasked.
-/

namespace PodStream

open Function Process Transition

/-- The fields of the configuration that the manager reads. -/
structure PodConfig where
  isOpen : Bool := false
  podIp : String := ""
  rtspPort : String := "8555"
  absMediamtxPath : String := ""
  streamMapping : List (String × String) := []
  connectDebounceCount : Int := 3
  disconnectDebounceCount : Int := 3
  gracefulStopTimeoutMs : Int := 3000
  /-- No limit where it is negative. -/
  maxCrashCount : Int := -1
  crashWindowSeconds : Int := 60
  deriving DecidableEq

/-- `executable` is what `access` says of the binary. -/
def PodConfig.isValid (config : PodConfig) (executable : Bool) : Bool :=
  !config.isOpen ||
    (config.podIp ≠ "" && config.absMediamtxPath ≠ "" && executable &&
      config.streamMapping ≠ [] && config.rtspPort ≠ "")

/-- `createDefaultConfig`, with the values of the header. -/
def createDefaultConfig : PodConfig where
  isOpen := true
  podIp := "192.168.10.251"
  rtspPort := "8555"
  absMediamtxPath := "/root/test_rtsp/mediamtx"
  streamMapping :=
    [("video_l", "rtsp://192.168.10.251:8554/video_l"),
      ("video_m", "rtsp://192.168.10.251:8554/video_m"),
      ("video_r", "rtsp://192.168.10.251:8554/video_r")]
  connectDebounceCount := 3
  disconnectDebounceCount := 3
  gracefulStopTimeoutMs := 3000
  maxCrashCount := -1
  crashWindowSeconds := 60

/-- The default, with thresholds of one. -/
def quickConfig : PodConfig :=
  { createDefaultConfig with connectDebounceCount := 1, disconnectDebounceCount := 1 }

/-- The state that the worker stores, `StreamState`. -/
inductive State where
  | idle
  | ready
  | running
  | stopping
  | error
  deriving DecidableEq

/-! ## Where the threads stand -/

/-- `ReapChildIfNeeded`: before `waitpid`, and before `mediamtx_pid_` is cleared. -/
inductive Reap where
  | wait
  | clear
  deriving DecidableEq

/-- `StartMediaMtx`: at its start, with a child that has not been stored yet, in the short wait, or
in `ReapChildIfNeeded`. -/
inductive Launch where
  | enter
  | forked (pid : Nat)
  | settling
  | reap (r : Reap)
  deriving DecidableEq

/-- `StopMediaMtx`: at its start, before the first signal, in the wait for the child to disappear,
in the polling, before `mediamtx_pid_` is cleared, or in `ReapChildIfNeeded`. -/
inductive Halt where
  | enter (forceKill : Bool)
  | signal (forceKill : Bool)
  | grace (startTime : Nat)
  | poll (attempts : Nat)
  | clear
  | reap (r : Reap)
  deriving DecidableEq

/-- `MonitorLoop`, with its counters. -/
inductive Monitor where
  | loop (successes failures : Nat)
  | probing (successes failures : Nat)
  deriving DecidableEq

/-- `WorkerLoop`: the head of the loop, `ReapChildIfNeeded`, the switch, and what its branches
call. -/
inductive Worker where
  | loop
  | reaping (r : Reap)
  | switch (childExited : Bool)
  | backingOff (until_ : Nat)
  | preparing
  | starting (l : Launch)
  | disconnecting (h : Halt)
  | finishing (r : Reap)
  | sleeping
  deriving DecidableEq

/-- The controlling thread: out of the calls (`stopped` if the last one was a `Stop`), or in a
`Stop`. -/
inductive Client where
  | returned (stopped : Bool)
  | joiningMonitor
  | joiningWorker
  | checking
  | halting (h : Halt)
  | checkingAgain
  | killing (h : Halt)
  | reaping (r : Reap)
  | finishing
  deriving DecidableEq

/-- Why a crash is recorded: by which branch, and `launch` where `StartMediaMtx` has had a child. -/
inductive Cause where
  | config
  | fork
  | launch
  | exit
  | vanished
  deriving DecidableEq

/-- An entry of `crashRecords_`: when the crash was recorded, and what it was put down to. -/
structure Crash where
  time : Nat
  cause : Cause
  deriving DecidableEq

/-- The manager with its threads, the child processes of its streams, and the clock. -/
structure Manager where
  config : PodConfig := {}
  inited : Bool := false
  quit : Bool := false
  isConnected : Bool := false
  /-- `none` is `-1`. -/
  mediamtxPid : Option Nat := none
  state : State := .idle
  monitorTh : Thread Monitor := .none
  workerTh : Thread Worker := .none
  crashTimestamps : List Nat := []
  backoffLevel : Nat := 0
  lastStopTime : Nat := 0
  client : Client := .returned false
  children : Table := fun _ => none
  /-- `steady_clock`, in nanoseconds. -/
  now : Nat := 0
  /-- What the monitor has observed since `Start`. -/
  probes : List Bool := []
  /-- The crashes recorded so far. -/
  crashes : List Crash := []
  /-- How many children have exited that had not been asked to. -/
  exits : Nat := 0

namespace Manager

/-! ## Crashes and backoff -/

/-- The highest step of the back-off. -/
def kMaxBackoffLevel : Nat := 5

/-- The least time between the last stop and the next launch, in milliseconds. -/
def kCooldownMs : Int := 2000

/-- A time in nanoseconds, in whole milliseconds. -/
def milliseconds (ns : Nat) : Int := (ns / 1000000 : Nat)

/-- Where the crash window begins. -/
def windowStart (s : Manager) : Int := s.now - s.config.crashWindowSeconds * 1000000000

/-- `RecordCrash`: the crash is counted, those before the window are forgotten, and the back-off
goes one step up. -/
def recordCrash (s : Manager) (cause : Cause) : Manager :=
  { s with
    crashTimestamps := (s.crashTimestamps ++ [s.now]).filter fun t => ¬ (t : Int) < s.windowStart
    backoffLevel :=
      if s.backoffLevel < kMaxBackoffLevel then s.backoffLevel + 1 else s.backoffLevel
    crashes := s.crashes ++ [{ time := s.now, cause }] }

/-- As many crashes in the window as the configuration has for its limit. A negative limit is
none. -/
def isCrashingTooOften (s : Manager) : Bool :=
  if s.config.maxCrashCount < 0 then false
  else s.config.maxCrashCount ≤ s.crashTimestamps.length

/-- The wait that goes with a step of the back-off. -/
def getBackoffDelayMs (s : Manager) : Nat :=
  if s.backoffLevel = 0 then 0
  else if s.backoffLevel ≤ 1 then 1000
  else if s.backoffLevel ≤ 2 then 2000
  else if s.backoffLevel ≤ 3 then 4000
  else if s.backoffLevel ≤ 4 then 8000
  else 10000

/-! ## The child -/

/-- What a step of a routine leads to: another place in it, or its return. -/
inductive Flow (α β : Type) where
  | goto (a : α)
  | ret (b : β)

/-- `IsMediaMtxAlive`: the process of the stored pid is there. -/
def isMediaMtxAlive (s : Manager) : Bool := s.mediamtxPid.any s.children.exists?

/-- `ReapChildIfNeeded`. -/
def reapStep (s : Manager) : Reap → Manager × Flow Reap Bool
  | .wait =>
    match s.mediamtxPid with
    | none => (s, .ret false)
    | some pid =>
      if s.children.waitpid pid = .exited then
        ({ s with children := s.children.free pid }, .goto .clear)
      else (s, .ret false)
  | .clear => ({ s with mediamtxPid := none }, .ret true)

/-- `StartMediaMtx`. `pid` is the answer of `fork`. -/
def launchStep (s : Manager) (pid : Option Nat) : Launch → Option (Manager × Flow Launch Bool)
  | .enter =>
    if s.isMediaMtxAlive then some (s, .ret true)
    else match pid with
    | none => some (s, .ret false)
    | some pid =>
      -- the system gives a pid that is in use to nobody else
      if s.children.exists? pid then none
      else some ({ s with children := s.children.fork pid }, .goto (.forked pid))
  | .forked pid => some ({ s with mediamtxPid := some pid }, .goto .settling)
  | .settling => some (s, if s.isMediaMtxAlive then .ret true else .goto (.reap .wait))
  | .reap r =>
    match s.reapStep r with
    | (s, .goto r) => some (s, .goto (.reap r))
    | (s, .ret _) => some (s, .ret false)

/-- A signal to the process of the stored pid, where one is stored. -/
def kill (s : Manager) (sig : Signal) : Manager :=
  { s with children := s.mediamtxPid.elim s.children fun pid => s.children.signal pid sig }

/-- `StopMediaMtx`. The local `pid` is what `mediamtx_pid_` holds: nobody else stores to it. -/
def haltStep (s : Manager) : Halt → Manager × Flow Halt Unit
  | .enter forceKill =>
    if s.mediamtxPid = none then (s, .ret ())
    else (s, .goto (if s.isMediaMtxAlive then .signal forceKill else .reap .wait))
  | .signal forceKill =>
    if forceKill then (s.kill .kill, .goto (.poll 0)) else (s.kill .term, .goto (.grace s.now))
  | .grace startTime =>
    if s.isMediaMtxAlive then
      if s.config.gracefulStopTimeoutMs ≤ milliseconds (s.now - startTime) then
        (s.kill .kill, .goto (.poll 0))
      else (s, .goto (.grace startTime))
    else (s, .goto (.poll 0))
  | .poll attempts =>
    match s.mediamtxPid with
    | none => (s, .goto .clear)
    | some pid =>
      if 30 ≤ attempts then (s, .goto .clear)
      else match s.children.waitpid pid with
      | .exited => ({ s with children := s.children.free pid }, .goto .clear)
      | .error => (s, .goto .clear)
      | .running => (s, .goto (.poll (attempts + 1)))
  | .clear => ({ s with mediamtxPid := none }, .ret ())
  | .reap r =>
    match s.reapStep r with
    | (s, .goto r) => (s, .goto (.reap r))
    | (s, .ret _) => (s, .ret ())

/-! ## The threads -/

/-- `MonitorLoop`. `ok` is the answer of the ping. -/
def monitorStep (s : Manager) (ok : Bool) : Monitor → Manager
  | .loop successes failures =>
    { s with monitorTh := if s.quit then .exited else .running (.probing successes failures) }
  | .probing successes failures =>
    let s := { s with probes := s.probes ++ [ok] }
    if ok then
      let successes := successes + 1
      { s with
        isConnected :=
          if ¬ s.isConnected ∧ s.config.connectDebounceCount ≤ successes then true
          else s.isConnected
        monitorTh := .running (.loop successes 0) }
    else
      let failures := failures + 1
      { s with
        isConnected :=
          if s.isConnected ∧ s.config.disconnectDebounceCount ≤ failures then false
          else s.isConnected
        monitorTh := .running (.loop 0 failures) }

/-- The switch of `WorkerLoop`, up to the first call that can be interrupted. -/
def switchStep (s : Manager) (childExited : Bool) : Manager :=
  let sleep (s : Manager) : Manager := { s with workerTh := .running .sleeping }
  match s.state with
  | .idle => sleep s
  | .ready =>
    if ¬ s.isConnected then sleep s
    else if milliseconds (s.now - s.lastStopTime) < kCooldownMs then sleep s
    else if 0 < s.getBackoffDelayMs then
      { s with workerTh := .running (.backingOff (s.now + s.getBackoffDelayMs * 1000000)) }
    else { s with workerTh := .running .preparing }
  | .running =>
    if ¬ s.isConnected then
      { s with state := .stopping, workerTh := .running (.disconnecting (.enter false)) }
    else if childExited then
      let s := s.recordCrash .exit
      sleep { s with state := if s.isCrashingTooOften then .error else .ready }
    else if ¬ s.isMediaMtxAlive then
      sleep { s.recordCrash .vanished with state := .ready }
    else sleep s
  | .stopping =>
    if ¬ s.isMediaMtxAlive then { s with workerTh := .running (.finishing .wait) } else sleep s
  | .error => sleep (if ¬ s.isCrashingTooOften then { s with state := .ready } else s)

/-- `WorkerLoop`. `r` is the answer of the system: the new pid of `fork`, or whether the
configuration has been written. -/
def workerStep (s : Manager) (r : Option Nat) : Worker → Option Manager
  | .loop => some { s with workerTh := if s.quit then .exited else .running (.reaping .wait) }
  | .reaping p =>
    match s.reapStep p with
    | (s, .goto p) => some { s with workerTh := .running (.reaping p) }
    | (s, .ret childExited) => some { s with workerTh := .running (.switch childExited) }
  | .switch childExited => some (s.switchStep childExited)
  | .backingOff until_ =>
    if s.now < until_ then none
    else
      some
        { s with
          workerTh := .running (if s.quit ∨ ¬ s.isConnected then .sleeping else .preparing) }
  | .preparing =>
    if r.isSome then some { s with workerTh := .running (.starting .enter) }
    else some { s.recordCrash .config with workerTh := .running .sleeping }
  | .starting l =>
    match s.launchStep r l with
    | none => none
    | some (s, .goto l) => some { s with workerTh := .running (.starting l) }
    | some (s, .ret true) => some { s with state := .running, workerTh := .running .sleeping }
    | some (s, .ret false) =>
      some
        { s.recordCrash (if l = .enter then .fork else .launch) with
          workerTh := .running .sleeping }
  | .disconnecting h =>
    match s.haltStep h with
    | (s, .goto h) => some { s with workerTh := .running (.disconnecting h) }
    | (s, .ret _) =>
      some { s with lastStopTime := s.now, state := .ready, workerTh := .running .sleeping }
  | .finishing p =>
    match s.reapStep p with
    | (s, .goto p) => some { s with workerTh := .running (.finishing p) }
    | (s, .ret _) => some { s with state := .ready, workerTh := .running .sleeping }
  | .sleeping => some { s with workerTh := .running .loop }

/-- `Init`. `executable` and `writable` are what `access` says of the binary and of its
directory. -/
def init (s : Manager) (config : PodConfig) (executable writable : Bool) : Manager :=
  if s.inited then s
  else
    let s := { s with inited := true, config }
    if ¬ config.isOpen then { s with quit := true, state := .idle }
    else if ¬ config.isValid executable then { s with inited := false }
    else if ¬ writable then { s with inited := false }
    else { s with state := .ready, quit := true }

/-- `Start`. A thread object that has not been joined is joinable. -/
def start (s : Manager) : Manager :=
  if ¬ s.inited then s
  else if ¬ s.config.isOpen then s
  else if s.monitorTh ≠ .none ∨ s.workerTh ≠ .none then s
  else
    { s with
      quit := false
      monitorTh := .running (.loop 0 0)
      workerTh := .running .loop
      probes := [] }

/-- The first part of `Stop`, up to where it waits for the threads. -/
def stop (s : Manager) : Manager :=
  if ¬ s.inited then { s with client := .returned true }
  else { s with quit := true, client := .joiningMonitor }

/-- The rest of `Stop`. -/
def clientStep (s : Manager) : Client → Option Manager
  | .returned _ => none
  | .joiningMonitor =>
    match s.monitorTh with
    | .running _ => none
    | _ => some { s with monitorTh := .none, client := .joiningWorker }
  | .joiningWorker =>
    match s.workerTh with
    | .running _ => none
    | _ => some { s with workerTh := .none, client := .checking }
  | .checking =>
    some { s with client := if s.isMediaMtxAlive then .halting (.enter false) else .reaping .wait }
  | .halting h =>
    match s.haltStep h with
    | (s, .goto h) => some { s with client := .halting h }
    | (s, .ret _) => some { s with client := .checkingAgain }
  | .checkingAgain =>
    some { s with client := if s.isMediaMtxAlive then .killing (.enter true) else .reaping .wait }
  | .killing h =>
    match s.haltStep h with
    | (s, .goto h) => some { s with client := .killing h }
    | (s, .ret _) => some { s with client := .reaping .wait }
  | .reaping r =>
    match s.reapStep r with
    | (s, .goto r) => some { s with client := .reaping r }
    | (s, .ret _) => some { s with client := .finishing }
  | .finishing => some { s with state := .idle, inited := false, client := .returned true }

/-- A child exits by itself or by a signal. -/
def childExit (s : Manager) (pid : Nat) : Manager :=
  { s with
    children := s.children.exit pid
    exits := s.exits + ((s.children pid).elim 0 fun c => if c.exited ∨ c.asked then 0 else 1) }

/-- The system forgets an exited child at once, as where `SIGCHLD` is ignored. -/
def childVanish (s : Manager) (pid : Nat) : Manager :=
  { s.childExit pid with children := s.children.free pid }

end Manager

/-- A call of the owner, a step of a thread, or what happens outside. -/
inductive Label where
  | init (config : PodConfig) (executable writable : Bool)
  | start
  | stop
  | client
  | monitor (ok : Bool)
  | worker (r : Option Nat)
  | childExit (pid : Nat)
  | childVanish (pid : Nat)
  | tick (ns : Nat)
  deriving DecidableEq

open Manager in
/-- One step. A label that cannot come in this state has no successor. -/
def step (s : Manager) : Label → Option Manager
  | .init config executable writable =>
    match s.client with
    | .returned _ => some { s.init config executable writable with client := .returned false }
    | _ => none
  | .start =>
    match s.client with
    | .returned _ => some { s.start with client := .returned false }
    | _ => none
  | .stop =>
    match s.client with
    | .returned _ => some s.stop
    | _ => none
  | .client => s.clientStep s.client
  | .monitor ok =>
    match s.monitorTh with
    | .running p => some (s.monitorStep ok p)
    | _ => none
  | .worker r =>
    match s.workerTh with
    | .running p => s.workerStep r p
    | _ => none
  | .childExit pid => some (s.childExit pid)
  | .childVanish pid => some (s.childVanish pid)
  | .tick ns => some { s with now := s.now + ns }

/-! ## What a step leaves alone -/

namespace Manager

variable {s t : Manager}

/-- The functions that manage the child touch the process table and `mediamtx_pid_`. -/
def Manages (s t : Manager) : Prop :=
  ∃ children mediamtxPid, t = { s with children, mediamtxPid }

/-- Doing nothing is within it. -/
theorem Manages.refl (s : Manager) : Manages s s := ⟨s.children, s.mediamtxPid, rfl⟩

/-- Reaping touches the table and the stored pid. -/
theorem reapStep_manages (r : Reap) : Manages s (s.reapStep r).1 := by
  cases r with
  | wait =>
    simp only [reapStep]
    split
    · exact .refl s
    · split
      · exact ⟨_, _, rfl⟩
      · exact .refl s
  | clear => exact ⟨_, _, rfl⟩

/-- Launching touches the table and the stored pid. -/
theorem launchStep_manages {pid : Option Nat} {l : Launch} {f : Flow Launch Bool}
    (h : s.launchStep pid l = some (t, f)) : Manages s t := by
  cases l with
  | enter =>
    simp only [launchStep] at h
    split at h
    · cases h
      exact .refl s
    · split at h
      · cases h
        exact .refl s
      · split at h
        · cases h
        · cases h
          exact ⟨_, _, rfl⟩
  | forked pid =>
    cases h
    exact ⟨_, _, rfl⟩
  | settling =>
    cases h
    exact .refl s
  | reap r =>
    have hr := reapStep_manages (s := s) r
    simp only [launchStep] at h
    split at h
    all_goals
      next heq =>
        cases h
        simpa [heq] using hr

/-- A signal touches the table. -/
theorem kill_manages (sig : Signal) : Manages s (s.kill sig) := ⟨_, _, rfl⟩

/-- `StopMediaMtx` touches the table and the stored pid. -/
theorem haltStep_manages (h : Halt) : Manages s (s.haltStep h).1 := by
  cases h with
  | enter forceKill =>
    simp only [haltStep]
    split <;> exact .refl s
  | signal forceKill =>
    simp only [haltStep]
    split <;> exact kill_manages _
  | grace startTime =>
    simp only [haltStep]
    split
    · split
      · exact kill_manages _
      · exact .refl s
    · exact .refl s
  | poll attempts =>
    simp only [haltStep]
    split
    · exact .refl s
    · split
      · exact .refl s
      · split
        · exact ⟨_, _, rfl⟩
        · exact .refl s
        · exact .refl s
  | clear => exact ⟨_, _, rfl⟩
  | reap r =>
    have hr := reapStep_manages (s := s) r
    simp only [haltStep]
    split <;> next heq => simpa [heq] using hr

/-- What the worker leaves alone. -/
structure Works (s t : Manager) : Prop where
  config : t.config = s.config
  inited : t.inited = s.inited
  quit : t.quit = s.quit
  isConnected : t.isConnected = s.isConnected
  monitorTh : t.monitorTh = s.monitorTh
  client : t.client = s.client
  now : t.now = s.now
  probes : t.probes = s.probes
  exits : t.exits = s.exits

/-- What touches the table and the stored pid is within what the worker may do. -/
theorem Manages.works (h : Manages s t) : Works s t := by
  obtain ⟨_, _, rfl⟩ := h
  exact ⟨rfl, rfl, rfl, rfl, rfl, rfl, rfl, rfl, rfl⟩

/-- The choice of the next state is within what the worker may do. -/
theorem switchStep_works (childExited : Bool) : Works s (s.switchStep childExited) := by
  unfold switchStep
  split
  · exact ⟨rfl, rfl, rfl, rfl, rfl, rfl, rfl, rfl, rfl⟩
  · repeat' split
    all_goals exact ⟨rfl, rfl, rfl, rfl, rfl, rfl, rfl, rfl, rfl⟩
  · repeat' split
    all_goals exact ⟨rfl, rfl, rfl, rfl, rfl, rfl, rfl, rfl, rfl⟩
  · split <;> exact ⟨rfl, rfl, rfl, rfl, rfl, rfl, rfl, rfl, rfl⟩
  · dsimp only
    split <;> exact ⟨rfl, rfl, rfl, rfl, rfl, rfl, rfl, rfl, rfl⟩

/-- **A step of the worker** leaves the flag, the clock, the monitor and the caller alone. -/
theorem workerStep_works {r : Option Nat} {p : Worker} (h : s.workerStep r p = some t) :
    Works s t := by
  cases p with
  | loop | sleeping =>
    cases h
    exact ⟨rfl, rfl, rfl, rfl, rfl, rfl, rfl, rfl, rfl⟩
  | reaping p | finishing p =>
    have hr := (reapStep_manages (s := s) p).works
    simp only [workerStep] at h
    split at h <;> next heq =>
      cases h
      rw [heq] at hr
      exact { hr with }
  | switch childExited =>
    cases h
    exact switchStep_works childExited
  | backingOff until_ =>
    simp only [workerStep] at h
    split at h <;> cases h
    exact ⟨rfl, rfl, rfl, rfl, rfl, rfl, rfl, rfl, rfl⟩
  | preparing =>
    simp only [workerStep] at h
    split at h <;> cases h <;> exact ⟨rfl, rfl, rfl, rfl, rfl, rfl, rfl, rfl, rfl⟩
  | starting l =>
    simp only [workerStep] at h
    split at h
    · cases h
    all_goals
      next heq =>
        cases h
        have hl := (launchStep_manages heq).works
        exact { hl with }
  | disconnecting c =>
    have hc := (haltStep_manages (s := s) c).works
    simp only [workerStep] at h
    split at h <;> next heq =>
      cases h
      rw [heq] at hc
      exact { hc with }

/-- The rest of `Stop` joins the threads and manages the child. -/
structure Stops (s t : Manager) : Prop where
  config : t.config = s.config
  isConnected : t.isConnected = s.isConnected
  now : t.now = s.now
  probes : t.probes = s.probes
  exits : t.exits = s.exits
  crashes : t.crashes = s.crashes
  crashTimestamps : t.crashTimestamps = s.crashTimestamps

/-- What touches the table and the stored pid is within what `Stop` may do. -/
theorem Manages.stops (h : Manages s t) : Stops s t := by
  obtain ⟨_, _, rfl⟩ := h
  exact ⟨rfl, rfl, rfl, rfl, rfl, rfl, rfl⟩

/-- **The rest of `Stop`** leaves the flag, the clock and the counts of crashes alone. -/
theorem clientStep_stops {c : Client} (h : s.clientStep c = some t) : Stops s t := by
  cases c with
  | returned stopped => cases h
  | joiningMonitor | joiningWorker =>
    simp only [clientStep] at h
    split at h <;> cases h
    exact ⟨rfl, rfl, rfl, rfl, rfl, rfl, rfl⟩
  | checking | checkingAgain | finishing =>
    cases h
    exact ⟨rfl, rfl, rfl, rfl, rfl, rfl, rfl⟩
  | halting c | killing c =>
    have hc := (haltStep_manages (s := s) c).stops
    simp only [clientStep] at h
    split at h <;> next heq =>
      cases h
      rw [heq] at hc
      exact { hc with }
  | reaping r =>
    have hr := (reapStep_manages (s := s) r).stops
    simp only [clientStep] at h
    split at h <;> next heq =>
      cases h
      rw [heq] at hr
      exact { hr with }

/-- It starts none. -/
theorem clientStep_threads {c : Client} (h : s.clientStep c = some t) :
    (∀ p, t.monitorTh = .running p → s.monitorTh = .running p) ∧
      (t.workerTh = s.workerTh ∨ t.workerTh = .none) := by
  cases c with
  | returned stopped => cases h
  | joiningMonitor =>
    simp only [clientStep] at h
    split at h <;> cases h
    exact ⟨nofun, .inl rfl⟩
  | joiningWorker =>
    simp only [clientStep] at h
    split at h <;> cases h
    exact ⟨fun _ hp => hp, .inr rfl⟩
  | checking | checkingAgain | finishing =>
    cases h
    exact ⟨fun _ hp => hp, .inl rfl⟩
  | halting c | killing c =>
    simp only [clientStep] at h
    split at h <;> next heq =>
      cases h
      obtain ⟨_, _, hs⟩ := haltStep_manages (s := s) c
      rw [heq] at hs
      cases hs
      exact ⟨fun _ hp => hp, .inl rfl⟩
  | reaping r =>
    simp only [clientStep] at h
    split at h <;> next heq =>
      cases h
      obtain ⟨_, _, hs⟩ := reapStep_manages (s := s) r
      rw [heq] at hs
      cases hs
      exact ⟨fun _ hp => hp, .inl rfl⟩

/-- `Init` does nothing in an initialised manager. -/
theorem init_of_inited {s : Manager} (h : s.inited = true) (config : PodConfig)
    (executable writable : Bool) : s.init config executable writable = s := by
  simp [Manager.init, h]

/-- **`Init`** keeps the configuration, whether it takes it or not. -/
theorem init_eq {s : Manager} (h : s.inited = false) (config : PodConfig)
    (executable writable : Bool) :
    ∃ inited quit state,
      s.init config executable writable = { s with config, inited, quit, state } ∧
        (inited = false ∧ state = s.state ∨ inited = true ∧ state = .idle ∨
          (config.isOpen && config.isValid executable && writable) = true ∧ inited = true ∧
            state = .ready) := by
  rw [Manager.init, h, if_neg Bool.false_ne_true]
  dsimp only
  split
  · exact ⟨_, _, _, rfl, .inr (.inl ⟨rfl, rfl⟩)⟩
  · next hopen =>
    split
    · exact ⟨_, _, _, rfl, .inl ⟨rfl, rfl⟩⟩
    · next hvalid =>
      split
      · exact ⟨_, _, _, rfl, .inl ⟨rfl, rfl⟩⟩
      · next hwritable =>
        simp only [not_not] at hopen hvalid hwritable
        exact ⟨_, _, _, rfl, .inr (.inr ⟨by simp [hopen, hvalid, hwritable], rfl, rfl⟩)⟩

/-- **`Start`** does nothing, or there is no thread and it starts both. -/
theorem start_eq (s : Manager) :
    s.start = s ∨
      (s.inited = true ∧ s.config.isOpen = true ∧ s.monitorTh = .none ∧ s.workerTh = .none) ∧
        s.start =
          { s with
            quit := false, monitorTh := .running (.loop 0 0), workerTh := .running .loop
            probes := [] } := by
  unfold Manager.start
  split
  · exact .inl rfl
  · next hinited =>
    split
    · exact .inl rfl
    · next hopen =>
      split
      · exact .inl rfl
      · next hthreads =>
        rw [not_or, not_not, not_not] at hthreads
        exact .inr ⟨⟨not_not.1 hinited, not_not.1 hopen, hthreads⟩, rfl⟩

end Manager

open Manager in
/-- Only `Init` changes the configuration. -/
theorem step_config {s t : Manager} {l : Label} (h : step s l = some t) :
    t.config = s.config ∨
      ∃ config executable writable, l = .init config executable writable ∧ t.config = config := by
  cases l with
  | init config executable writable =>
    simp only [step] at h
    split at h <;> cases h
    cases hi : s.inited with
    | true => exact .inl (by rw [init_of_inited hi])
    | false =>
      obtain ⟨_, _, _, heq, -⟩ := init_eq hi config executable writable
      exact .inr ⟨config, executable, writable, rfl, by rw [heq]⟩
  | start =>
    simp only [step] at h
    split at h <;> cases h
    rcases start_eq s with heq | ⟨-, heq⟩ <;> rw [heq] <;> exact .inl rfl
  | stop =>
    simp only [step] at h
    split at h <;> cases h
    left
    simp only [Manager.stop]
    split <;> rfl
  | client => exact .inl (clientStep_stops h).config
  | monitor ok =>
    simp only [step] at h
    split at h <;> cases h
    next p hp => cases p <;> cases ok <;> exact .inl rfl
  | worker r =>
    simp only [step] at h
    split at h
    · exact .inl (workerStep_works h).config
    · cases h
  | childExit pid | childVanish pid | tick ns =>
    cases h
    exact .inl rfl

/-! ## Sessions -/

/-- `Stop` has joined the monitor thread. -/
def Client.monitorJoined : Client → Bool
  | .returned _ | .joiningMonitor => false
  | _ => true

/-- It has joined both. -/
def Client.joined : Client → Bool
  | .returned _ | .joiningMonitor | .joiningWorker => false
  | _ => true

/-- No `Stop` is going on. -/
def Client.isReturned : Client → Bool
  | .returned _ => true
  | _ => false

/-- There are threads in an initialised manager only, and none that `Stop` has joined. -/
structure Ordered (s : Manager) : Prop where
  monitor : s.inited = false → s.monitorTh = .none
  worker : s.inited = false → s.workerTh = .none
  returned : s.inited = false → s.client.isReturned = true
  monitorJoined : s.client.monitorJoined = true → s.monitorTh = .none
  joined : s.client.joined = true → s.workerTh = .none

open Manager

/-- `Init` keeps the order of the calls. -/
theorem Ordered.init {s : Manager} (h : Ordered s) (config : PodConfig)
    (executable writable : Bool) :
    Ordered { s.init config executable writable with client := .returned false } := by
  cases hi : s.inited with
  | true =>
    rw [init_of_inited hi]
    exact { h with returned := fun _ => rfl, monitorJoined := nofun, joined := nofun }
  | false =>
    obtain ⟨_, _, _, heq, -⟩ := init_eq hi config executable writable
    rw [heq]
    exact ⟨fun _ => h.monitor hi, fun _ => h.worker hi, fun _ => rfl, nofun, nofun⟩

/-- `Start` keeps the order of the calls. -/
theorem Ordered.start {s : Manager} (h : Ordered s) :
    Ordered { s.start with client := .returned false } := by
  rcases start_eq s with heq | ⟨⟨hi, -⟩, heq⟩
  · rw [heq]
    exact { h with returned := fun _ => rfl, monitorJoined := nofun, joined := nofun }
  · have hno : s.inited ≠ false := by
      rw [hi]
      rintro ⟨⟩
    rw [heq]
    exact ⟨fun h => absurd h hno, fun h => absurd h hno, fun _ => rfl, nofun, nofun⟩

/-- `Stop` keeps the order of the calls. -/
theorem Ordered.stop {s : Manager} (h : Ordered s) : Ordered s.stop := by
  unfold Manager.stop
  split
  · exact { h with returned := fun _ => rfl, monitorJoined := nofun, joined := nofun }
  · next hi =>
    exact
      { h with
        returned := fun h => absurd (fun ht => by cases h.symm.trans ht) hi
        monitorJoined := nofun
        joined := nofun }

/-- A step within `Stop` keeps the order of the calls. -/
theorem Ordered.client {s t : Manager} (h : Ordered s) (ht : s.clientStep s.client = some t) :
    Ordered t := by
  have hi : s.client.isReturned = false → s.inited ≠ false := fun hc hs => by
    cases hc.symm.trans (h.returned hs)
  have hj := h.joined
  have hm := h.monitorJoined
  revert hi hj hm ht
  cases s.client with
  | returned stopped => nofun
  | joiningMonitor =>
    intro ht hi _ _
    simp only [clientStep] at ht
    split at ht <;> cases ht
    exact
      ⟨fun _ => rfl, h.worker, fun h => absurd h (hi rfl), fun _ => rfl, nofun⟩
  | joiningWorker =>
    intro ht hi _ hm
    simp only [clientStep] at ht
    split at ht <;> cases ht
    exact
      ⟨h.monitor, fun _ => rfl, fun h => absurd h (hi rfl), fun _ => hm rfl,
        fun _ => rfl⟩
  | checking | checkingAgain =>
    intro ht hi hj hm
    cases ht
    exact
      ⟨h.monitor, h.worker, fun h => absurd h (hi rfl), fun _ => hm rfl,
        fun _ => hj rfl⟩
  | halting c | killing c =>
    intro ht hi hj hm
    simp only [clientStep] at ht
    split at ht <;> next heq =>
      cases ht
      obtain ⟨_, _, hs⟩ := haltStep_manages (s := s) c
      rw [heq] at hs
      cases hs
      exact
        ⟨h.monitor, h.worker, fun h => absurd h (hi rfl), fun _ => hm rfl,
          fun _ => hj rfl⟩
  | reaping r =>
    intro ht hi hj hm
    simp only [clientStep] at ht
    split at ht <;> next heq =>
      cases ht
      obtain ⟨_, _, hs⟩ := reapStep_manages (s := s) r
      rw [heq] at hs
      cases hs
      exact
        ⟨h.monitor, h.worker, fun h => absurd h (hi rfl), fun _ => hm rfl,
          fun _ => hj rfl⟩
  | finishing =>
    intro ht hi hj hm
    cases ht
    exact ⟨fun _ => hm rfl, fun _ => hj rfl, fun _ => rfl, nofun, nofun⟩

/-- **Every step keeps the order of the calls.** -/
theorem Ordered.step {s t : Manager} (h : Ordered s) {l : Label} (ht : step s l = some t) :
    Ordered t := by
  cases l with
  | init config executable writable =>
    simp only [PodStream.step] at ht
    split at ht <;> cases ht
    exact h.init config executable writable
  | start =>
    simp only [PodStream.step] at ht
    split at ht <;> cases ht
    exact h.start
  | stop =>
    simp only [PodStream.step] at ht
    split at ht <;> cases ht
    exact h.stop
  | client => exact h.client ht
  | monitor ok =>
    simp only [PodStream.step] at ht
    split at ht <;> cases ht
    next p hp =>
    have hno : s.monitorTh ≠ .none := by
      rw [hp]
      nofun
    cases p with
    | loop successes failures =>
      exact
        { h with
          monitor := fun hi => absurd (h.monitor hi) hno
          monitorJoined := fun hc => absurd (h.monitorJoined hc) hno }
    | probing successes failures =>
      cases ok <;> exact
        { h with
          monitor := fun hi => absurd (h.monitor hi) hno
          monitorJoined := fun hc => absurd (h.monitorJoined hc) hno }
  | worker r =>
    simp only [PodStream.step] at ht
    split at ht
    · next p hp =>
      have hno : s.workerTh ≠ .none := by
        rw [hp]
        nofun
      have hw := workerStep_works ht
      refine ⟨?_, ?_, ?_, ?_, ?_⟩
      · rw [hw.inited, hw.monitorTh]
        exact h.monitor
      · rw [hw.inited]
        exact fun hi => absurd (h.worker hi) hno
      · rw [hw.inited, hw.client]
        exact h.returned
      · rw [hw.client, hw.monitorTh]
        exact h.monitorJoined
      · rw [hw.client]
        exact fun hc => absurd (h.joined hc) hno
    · cases ht
  | childExit pid | childVanish pid | tick ns =>
    cases ht
    exact { h with }

/-- A new manager has no call in progress. -/
theorem Ordered.initial : Ordered {} := ⟨fun _ => rfl, fun _ => rfl, fun _ => rfl, nofun, nofun⟩

/-- The order of the calls holds along every run from a new manager. -/
theorem ordered_of_run {ls : List Label} {s : Manager} (h : run step {} ls = some s) :
    Ordered s :=
  run_invariant (fun _ _ _ hs ht => hs.step ht) .initial h

end PodStream
