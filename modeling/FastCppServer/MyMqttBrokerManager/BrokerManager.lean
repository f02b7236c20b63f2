import FastCppServer.Lib.Process
import FastCppServer.Lib.Transition

/-!
# The MQTT broker manager

`MyMqttBrokerManager` step by step: the controlling thread, which calls `Init`, `Start` and `Stop`,
the manager thread, and the broker. Each step makes one access to what the two threads share, or one
system call. What only the controlling thread uses, the thread object among it, is not interleaved.
Time is left out: a sleep is a step.

The `pid < 0` of the source stands where only the child comes: a `fork` that fails gives `-1`, which
is stored like a pid.
-/

namespace MyMqttBrokerManager

open Process Transition

/-- `BrokerProcessManager`, and `HealthCheck` (from `head`) with `IsRunning` (`loading` and
`probing`). -/
inductive Phase where
  | fork
  | forked (pid : Option Nat)
  | stored
  | head
  | loading
  | probing (pid : Option Nat)
  | sleeping
  | lowering
  | clearing
  deriving DecidableEq

/-- The controlling thread: out of the calls, with what it has called last, or in a `Stop`. -/
inductive Client where
  | idle
  | started (ok : Bool)
  | stopped
  | lowering
  | reading
  | term (pid : Nat)
  | poll (pid waited : Nat)
  | check (pid : Nat)
  | kill (pid : Nat)
  | wait (pid : Nat)
  | clear
  | joining
  deriving DecidableEq

def Client.out : Client → Bool
  | .idle | .started _ | .stopped => true
  | _ => false

structure BrokerManager where
  configInitialized : Bool := false
  /-- `none` is `-1`. -/
  brokerPid : Option Nat := none
  brokerRunning : Bool := false
  brokerManagerThread : Thread Phase := .none
  client : Client := .idle
  children : Table := fun _ => none

namespace BrokerManager

def goto (s : BrokerManager) (p : Phase) : BrokerManager :=
  { s with brokerManagerThread := .running p }

/-- `BrokerProcessManager`. `r` is the answer of `fork`. -/
def managerStep (s : BrokerManager) (r : Option Nat) : Phase → Option BrokerManager
  | .fork =>
    match r with
    | none => some (s.goto (.forked none))
    | some pid =>
      -- the system gives a pid that is in use to nobody else
      if s.children.exists? pid then none
      else some { s.goto (.forked (some pid)) with children := s.children.fork pid }
  | .forked pid => some { s.goto .stored with brokerPid := pid }
  | .stored => some { s.goto .head with brokerRunning := true }
  | .head =>
    some (if s.brokerRunning then s.goto .loading else { s with brokerManagerThread := .exited })
  | .loading => some (s.goto (.probing s.brokerPid))
  | .probing pid => some (s.goto (if pid.any s.children.exists? then .sleeping else .lowering))
  | .sleeping => some (s.goto .head)
  | .lowering => some { s.goto .clearing with brokerRunning := false }
  | .clearing => some { s with brokerPid := none, brokerManagerThread := .exited }

/-- `Start`. A thread object that has not been joined is joinable. -/
def start (s : BrokerManager) : BrokerManager :=
  if ¬ s.configInitialized then { s with client := .started false }
  else match s.brokerManagerThread with
  | .none => { s.goto .fork with client := .started true }
  | _ => { s with client := .started false }

def timeoutSeconds : Nat := 5

/-- `Stop`. It waits for a broker that runs, and for the manager thread. -/
def clientStep (s : BrokerManager) : Client → Option BrokerManager
  | .lowering => some { s with brokerRunning := false, client := .reading }
  | .reading => some { s with client := s.brokerPid.elim .joining .term }
  | .term pid =>
    some { s with children := s.children.signal pid .term, client := .poll pid 0 }
  | .poll pid waited =>
    if waited < timeoutSeconds ∧ s.children.exists? pid then
      some { s with client := .poll pid (waited + 1) }
    else some { s with client := .check pid }
  | .check pid => some { s with client := if s.children.exists? pid then .kill pid else .wait pid }
  | .kill pid => some { s with children := s.children.signal pid .kill, client := .wait pid }
  | .wait pid =>
    match s.children.waitpid pid with
    | .running => none
    | .exited => some { s with children := s.children.free pid, client := .clear }
    | .error => some { s with client := .clear }
  | .clear => some { s with brokerPid := none, client := .joining }
  | .joining =>
    match s.brokerManagerThread with
    | .running _ => none
    | _ => some { s with brokerManagerThread := .none, client := .stopped }
  | .idle | .started _ | .stopped => none

end BrokerManager

inductive Label where
  /-- `Init`, and whether it has found its configuration. -/
  | init (ok : Bool)
  | start
  | stop
  | client
  | manager (r : Option Nat)
  /-- A broker exits, by itself or by a signal. -/
  | childExit (pid : Nat)

def step (s : BrokerManager) : Label → Option BrokerManager
  | .init ok =>
    if s.client.out then some { s with configInitialized := s.configInitialized || ok } else none
  | .start => if s.client.out then some s.start else none
  | .stop => if s.client.out then some { s with client := .lowering } else none
  | .client => s.clientStep s.client
  | .manager r =>
    match s.brokerManagerThread with
    | .running p => s.managerStep r p
    | _ => none
  | .childExit pid => some { s with children := s.children.exit pid }

end MyMqttBrokerManager
