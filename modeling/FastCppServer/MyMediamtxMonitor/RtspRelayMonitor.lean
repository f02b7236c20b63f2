import FastCppServer.Lib.Process
import FastCppServer.Lib.Transition

/-!
# The RTSP relay monitor, version 1

`RtspRelayMonitor` step by step: the monitor thread, any number of threads that call `Start` and
`Stop`, and the children. Each step makes one access to what the threads share, or one system call;
two reads of `relay_pid_` with no call between them are one. Time is left out: a sleep is a step,
and everything that can happen during it can happen.

`join` throws if the thread has been joined, and an assignment to `monitor_thread_` while it has not
been joined ends the process.
-/

namespace MyMediamtxMonitor

open Function Process Transition

inductive RtspRelayState where
  | stopped
  | starting
  | running
  | sourceLost
  | error
  deriving DecidableEq

/-- `StopRelayProcess`. -/
inductive Halt where
  | enter
  | term (pid : Nat)
  /-- `i` seconds have been waited. -/
  | poll (pid i : Nat)
  | check (pid : Nat)
  | kill (pid : Nat)
  | wait (pid : Nat)
  | clear
  deriving DecidableEq

/-- `MonitorLoop`, with `CheckProcessAlive` (from `alive` to `clearing`) and `StartRelayProcess`
(from `port` to `forked`). -/
inductive Loop where
  | head
  | sleeping (i : Nat)
  | awake
  | enabled
  | source
  | halting (after : RtspRelayState) (h : Halt)
  | setting (state : RtspRelayState)
  | alive
  | probing (pid : Nat)
  | rereading
  | reaping (pid : Option Nat)
  | clearing
  | port
  | yaml
  | fork
  | forked (pid : Nat)
  deriving DecidableEq

/-- A thread outside the calls, in `Start` (from `configured` to `spawning`) or in `Stop`. -/
inductive Caller where
  | out
  | configured
  | checking
  | raising
  | spawning
  | lowering
  | halting (h : Halt)
  | joinable
  | joining
  | finishing
  deriving DecidableEq

structure RtspRelayMonitor where
  configInitialized : Bool := false
  enable : Bool := false
  running : Bool := false
  monitorIntervalSec : Int := 5
  /-- `none` is `-1`. -/
  relayPid : Option Nat := none
  state : RtspRelayState := .stopped
  monitorThread : Thread Loop := .none
  callers : Nat → Caller := fun _ => .out
  children : Table := fun _ => none
  aborted : Bool := false

namespace RtspRelayMonitor

def kTimeoutSec : Nat := 5

inductive Flow where
  | goto (h : Halt)
  | ret

/-- `StopRelayProcess`. It waits for a child that runs. -/
def haltStep (s : RtspRelayMonitor) : Halt → Option (RtspRelayMonitor × Flow)
  | .enter =>
    match s.relayPid with
    | none => some (s, .ret)
    | some pid => some (s, .goto (.term pid))
  | .term pid => some ({ s with children := s.children.signal pid .term }, .goto (.poll pid 0))
  | .poll pid i =>
    if i < kTimeoutSec ∧ s.children.exists? pid then some (s, .goto (.poll pid (i + 1)))
    else some (s, .goto (.check pid))
  | .check pid => some (s, .goto (if s.children.exists? pid then .kill pid else .wait pid))
  | .kill pid => some ({ s with children := s.children.signal pid .kill }, .goto (.wait pid))
  | .wait pid =>
    match s.children.waitpid pid with
    | .running => none
    | .exited => some ({ s with children := s.children.free pid }, .goto .clear)
    | .error => some (s, .goto .clear)
  | .clear => some ({ s with relayPid := none }, .ret)

def loopAt (s : RtspRelayMonitor) (p : Loop) : RtspRelayMonitor :=
  { s with monitorThread := .running p }

/-- `MonitorLoop`. `r` is the answer of the system, where it gives one: whether the ping, the port
or the file is there, the new pid of `fork`, and the child that is reaped by a `waitpid` for any. -/
def loopStep (s : RtspRelayMonitor) (r : Option Nat) : Loop → Option RtspRelayMonitor
  | .head =>
    some (if s.running then s.loopAt (.sleeping 0) else { s with monitorThread := .exited })
  | .sleeping i =>
    some (s.loopAt
      (if (i : Int) < s.monitorIntervalSec ∧ s.running then .sleeping (i + 1) else .awake))
  | .awake => some (if s.running then s.loopAt .enabled else { s with monitorThread := .exited })
  | .enabled => some (s.loopAt (if s.enable then .source else .halting .stopped .enter))
  | .source => some (s.loopAt (if r.isSome then .alive else .halting .sourceLost .enter))
  | .halting after h =>
    match s.haltStep h with
    | none => none
    | some (s, .goto h) => some (s.loopAt (.halting after h))
    | some (s, .ret) => some (s.loopAt (.setting after))
  | .setting state => some { s with state, monitorThread := .running .head }
  | .alive =>
    match s.relayPid with
    | none => some (s.loopAt .port)
    | some pid => some (s.loopAt (.probing pid))
  | .probing pid =>
    some (s.loopAt (if s.children.exists? pid then .setting .running else .rereading))
  | .rereading => some (s.loopAt (.reaping s.relayPid))
  | .reaping pid =>
    match pid.or r with
    | none => some (s.loopAt .clearing)
    | some pid =>
      if s.children.waitpid pid = .exited then
        some { s.loopAt .clearing with children := s.children.free pid }
      else some (s.loopAt .clearing)
  | .clearing => some { s.loopAt .port with relayPid := none }
  | .port => some (s.loopAt (if r.isSome then .yaml else .setting .error))
  | .yaml => some (s.loopAt (if r.isSome then .fork else .setting .error))
  | .fork =>
    match r with
    | none => some (s.loopAt (.setting .error))
    | some pid =>
      -- the system gives a pid that is in use to nobody else
      if s.children.exists? pid then none
      else some { s.loopAt (.forked pid) with children := s.children.fork pid }
  | .forked pid => some { s.loopAt (.setting .starting) with relayPid := some pid }

def put (s : RtspRelayMonitor) (i : Nat) (c : Caller) : RtspRelayMonitor :=
  { s with callers := update s.callers i c }

/-- `Start` and `Stop`. -/
def callerStep (s : RtspRelayMonitor) (i : Nat) : Caller → Option RtspRelayMonitor
  | .out => none
  | .configured => some (s.put i (if s.configInitialized then .checking else .out))
  | .checking => some (s.put i (if s.running then .out else .raising))
  | .raising => some { s.put i .spawning with running := true }
  | .spawning =>
    match s.monitorThread with
    | .none => some ((s.put i .out).loopAt .head)
    | _ => some { s with aborted := true }
  | .lowering => some { s.put i (.halting .enter) with running := false }
  | .halting h =>
    match s.haltStep h with
    | none => none
    | some (s, .goto h) => some (s.put i (.halting h))
    | some (s, .ret) => some (s.put i .joinable)
  | .joinable =>
    match s.monitorThread with
    | .none => some (s.put i .finishing)
    | _ => some (s.put i .joining)
  | .joining =>
    match s.monitorThread with
    | .none => some (s.put i .out)
    | .running _ => none
    | .exited => some { s.put i .finishing with monitorThread := .none }
  | .finishing => some { s.put i .out with state := .stopped }

end RtspRelayMonitor

inductive Label where
  /-- `Init`, with what it has read of the configuration when it ends. -/
  | init (enable : Option Bool) (interval : Option Int) (ok : Bool)
  | start (i : Nat)
  | stop (i : Nat)
  | caller (i : Nat)
  | monitor (r : Option Nat)
  /-- A child exits, by itself or by a signal. -/
  | childExit (pid : Nat)

def step (s : RtspRelayMonitor) (l : Label) : Option RtspRelayMonitor :=
  if s.aborted then none
  else match l with
  | .init enable interval ok =>
    some
      { s with
        enable := enable.getD s.enable
        monitorIntervalSec := interval.elim s.monitorIntervalSec (max 1)
        configInitialized := s.configInitialized || ok }
  | .start i => if s.callers i = .out then some (s.put i .configured) else none
  | .stop i => if s.callers i = .out then some (s.put i .lowering) else none
  | .caller i => s.callerStep i (s.callers i)
  | .monitor r =>
    match s.monitorThread with
    | .running p => s.loopStep r p
    | _ => none
  | .childExit pid => some { s with children := s.children.exit pid }

end MyMediamtxMonitor
