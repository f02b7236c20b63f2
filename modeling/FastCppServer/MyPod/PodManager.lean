import Mathlib.Algebra.GroupWithZero.Nat
import Mathlib.Data.List.AList
import FastCppServer.MyPod.Connection

/-!
# The manager of the pods

`PodManager` with its registry. Its operations are atomic: they hold the mutex, and a pod whose
monitor is stopped is polled no more. A poll between two steps of an operation changes no session
and no monitor, and is one before the operation where the pod is yet to be looked at. `init_config_`
and the messages are left out.
-/

namespace PodModule

open MyData Pod

/-- The pods to set up, none where the configuration has no `pod_args`. -/
def podArgs (config : Json) : List (String × Json) :=
  match config.find "pod_args" with
  | some (.object fields) => fields
  | _ => []

/-- A configuration. An object of JSON has a key once. -/
structure Config where
  json : Json
  nodup : ((podArgs json).map Prod.fst).Nodup

def readVendor (type : String) : Option PodVendor :=
  if type = "dji" then some .dji else if type = "pinling" then some .pinling else none

/-- `createPod`: an exception, or no pod where the type is not known. -/
def createPod (podId : String) (cfg : Json) : Option (Option Pod) :=
  (readPodInfo podId cfg).map fun (type, info) => (readVendor type).map fun vendor =>
    make vendor info

/-- What `Init` does with an entry, until the pod is registered: an exception, or no pod where the
entry is passed over. -/
def setUpPod (podId : String) (cfg : Json) (attempt : Nat → Attempt) : Option (Option Pod) :=
  match createPod podId cfg with
  | none => none
  | some none => some none
  | some (some pod) =>
    match pod.init cfg with
    | (_, .threw) => none
    | (_, .fail _) => some none
    | (pod, .success) =>
      match pod.connect attempt with
      | (_, .threw) => none
      | (pod, _) => (parseMonitorConfig cfg).map fun monitorCfg =>
        some (if monitorCfg.autoStart then pod.startMonitor monitorCfg else pod)

/-- What `removePod` and `Shutdown` do with a pod. -/
def Pod.release (p : Pod) : Pod :=
  let p := if p.monitor.isSome then p.stopMonitor else p
  if p.isConnected then p.disconnect.1 else p

structure PodManager where
  registry : AList fun _ : String => Pod := ∅
  initialized : Bool := false
  /-- The pods that left the registry, as they left it. -/
  left : List Pod := []

namespace PodManager

/-- `PodRegistry::registerPod`. It replaces what is there. -/
def registerPod (m : PodManager) (podId : String) (pod : Pod) : PodManager :=
  { m with
    registry := m.registry.insert podId pod
    left := m.left ++ (m.registry.lookup podId).toList }

def addPod (m : PodManager) : Option Pod → PodManager
  | none => m
  | some pod => if pod.info.podId ∈ m.registry then m else m.registerPod pod.info.podId pod

/-- The loop of `Init`, and whether it comes to its end. -/
def initPods (attempts : String → Nat → Attempt) :
    List (String × Json) → PodManager → PodManager × Bool
  | [], m => ({ m with initialized := true }, true)
  | (podId, cfg) :: rest, m =>
    match setUpPod podId cfg (attempts podId) with
    | none => (m, false)
    | some none => initPods attempts rest m
    | some (some pod) => initPods attempts rest (m.registerPod podId pod)

/-- `Init`, and whether it returns. -/
def init (m : PodManager) (config : Config) (attempts : String → Nat → Attempt) :
    PodManager × Bool :=
  if m.initialized then (m, true) else initPods attempts (podArgs config.json) m

def removePod (m : PodManager) (podId : String) : PodManager :=
  match m.registry.lookup podId with
  | none => m
  | some pod =>
    { m with
      registry := m.registry.erase podId
      left := m.left ++ [pod.release] }

/-- `Shutdown`, and `ResetForTest`. -/
def shutdown (m : PodManager) : PodManager :=
  { registry := ∅
    initialized := false
    left := m.left ++ m.registry.entries.map fun entry => entry.2.release }

inductive Label where
  | addPod (pod : Option Pod)
  | init (config : Config) (attempts : String → Nat → Attempt)
  | removePod (podId : String)
  | shutdown
  /-- A call of a pod in the registry: by its monitor, or by another thread. -/
  | pod (podId : String) (label : PodModule.Label)

def apply (m : PodManager) : Label → PodManager
  | .addPod pod => m.addPod pod
  | .init config attempts => (m.init config attempts).1
  | .removePod podId => m.removePod podId
  | .shutdown => m.shutdown
  | .pod podId label =>
    match m.registry.lookup podId with
    | none => m
    | some pod => { m with registry := m.registry.insert podId (pod.apply label) }

def step (m : PodManager) (l : Label) : Option PodManager := some (m.apply l)

end PodManager

end PodModule
