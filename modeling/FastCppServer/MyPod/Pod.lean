import FastCppServer.Lib.Transition
import FastCppServer.MyPod.PodConfig

/-!
# A pod

`BasePod` with its session, and `PinlingPod` over it with the client of the ViewLink SDK. There are
three notions of being connected: the state of the pod, the flag of the session, and the link of the
SDK. The link is the device's: its changes come by `OnConnectionStatus`, while the SDK is
initialized.

The sessions are placeholders, whose `doConnect` and `doDisconnect` succeed. The messages of the
results are left out.
-/

namespace PodModule

open MyData

/-- The vendors. -/
inductive PodVendor where
  | dji
  | pinling
  deriving DecidableEq

/-- `PodState`. -/
inductive PodState where
  | disconnected
  | connecting
  | connected
  | error
  deriving DecidableEq

/-- `PodErrorCode`. -/
inductive PodErrorCode where
  | unknownError
  | connectionFailed
  | connectionTimeout
  | alreadyConnected
  | notConnected
  | sessionNotInitialized
  | capabilityNotSupported
  | podNotFound
  | podAlreadyExists
  deriving DecidableEq

/-- How a call ends. -/
inductive PodResult where
  | success
  | fail (code : PodErrorCode)
  | threw
  deriving DecidableEq

/-- `ViewLinkClient`. -/
structure ViewLinkClient where
  initialized : Bool := false
  connected : Bool := false
  tcpConnected : Bool := false
  serialConnected : Bool := false
  deriving DecidableEq

/-- The states of a connection that the SDK reports. -/
inductive ConnStatus where
  | tcpConnected
  | tcpDisconnected
  | serialPortConnected
  | serialPortDisconnected
  | other
  deriving DecidableEq

namespace ViewLinkClient

/-- `onConnectionStatus`: the link is up while either connection is. -/
def onConnectionStatus (c : ViewLinkClient) : ConnStatus → ViewLinkClient
  | .tcpConnected => { c with tcpConnected := true, connected := true }
  | .tcpDisconnected => { c with tcpConnected := false, connected := c.serialConnected }
  | .serialPortConnected => { c with serialConnected := true, connected := true }
  | .serialPortDisconnected => { c with serialConnected := false, connected := c.tcpConnected }
  | .other => { c with connected := false, tcpConnected := false, serialConnected := false }

/-- The SDK calls back from its initialization on. -/
def callback (c : ViewLinkClient) (status : ConnStatus) : ViewLinkClient :=
  if c.initialized then c.onConnectionStatus status else c

/-- Callbacks one after the other. -/
def callbacks (c : ViewLinkClient) (statuses : List ConnStatus) : ViewLinkClient :=
  statuses.foldl callback c

/-- `shutdown` of the SDK's client. -/
def shutdown (c : ViewLinkClient) : ViewLinkClient := if c.initialized then {} else c

end ViewLinkClient

/-- What the SDK and the device do during a `connectSDK`. -/
structure Attempt where
  before : List ConnStatus := []
  initOk : Bool := true
  connectOk : Bool := true
  /-- The connection comes before the wait for it ends. -/
  linked : Bool := true
  after : List ConnStatus := []

/-- A pod with its session, its monitor and the client of the SDK. -/
structure Pod where
  info : PodInfo := {}
  vendor : PodVendor := .pinling
  state : PodState := .disconnected
  cachedState : PodState := .disconnected
  capabilityConfigs : Json := .null
  /-- Whether the session is connected, if there is one. -/
  session : Option Bool := none
  monitor : Option PodMonitorConfig := none
  vlkClient : ViewLinkClient := {}
  sdkConnected : Bool := false
  sdkReconnectEnabled : Bool := false
  reconnecting : Bool := false
  lastReconnectAttemptMs : Nat := 0

namespace Pod

/-- The constructors of `DjiPod` and `PinlingPod`. -/
def make (vendor : PodVendor) (info : PodInfo) : Pod := { info, vendor, session := some false }

/-- `isConnected`. -/
def isConnected (p : Pod) : Bool := p.state = .connected

/-- The section of the PTZ. -/
def ptzConfig (p : Pod) : Json := getCapabilityConfig p.capabilityConfigs p.info.rawConfig

/-! ## `BasePod` -/

/-- `BaseSession::connect`. -/
def sessionConnect (connected : Bool) : PodResult × Bool :=
  if connected then (.fail .alreadyConnected, true) else (.success, true)

/-- `BaseSession::disconnect`. -/
def sessionDisconnect (connected : Bool) : PodResult × Bool :=
  if connected then (.success, false) else (.fail .notConnected, false)

/-- `BasePod::connect`. -/
def baseConnect (p : Pod) : Pod × PodResult :=
  if p.state = .connected then (p, .fail .alreadyConnected)
  else match p.session with
  | none => (p, .fail .sessionNotInitialized)
  | some connected =>
    let (result, connected) := sessionConnect connected
    ({ p with
        session := some connected
        state := if result = .success then .connected else .error }, result)

/-- `BasePod::disconnect`. -/
def baseDisconnect (p : Pod) : Pod × PodResult :=
  if p.state = .disconnected then (p, .fail .notConnected)
  else if p.session = some true then
    let (result, connected) := sessionDisconnect true
    ({ p with session := some connected, state := .disconnected }, result)
  else ({ p with state := .disconnected }, .success)

/-- `stopMonitor`. -/
def stopMonitor (p : Pod) : Pod := { p with monitor := none }

/-- `startMonitor`, which does nothing while there is one. -/
def startMonitor (p : Pod) (config : PodMonitorConfig) : Pod :=
  if p.monitor.isSome then p else { p with monitor := some config }

/-! ## `PinlingPod` -/

/-- `disconnectSDK`. -/
def disconnectSDK (p : Pod) : Pod :=
  if !p.sdkConnected && !p.vlkClient.connected then { p with sdkConnected := false }
  else { p with vlkClient := p.vlkClient.shutdown, sdkConnected := false }

/-- `connectSDK`, with what the SDK and the device do meanwhile. -/
def connectSDK (p : Pod) (a : Attempt) : Pod × PodResult :=
  let p := { p with vlkClient := p.vlkClient.callbacks a.before }
  if p.vlkClient.connected then ({ p with sdkConnected := true }, .success)
  else
    let p := { p with sdkConnected := false }
    if !p.vlkClient.initialized && !a.initOk then (p, .fail .connectionFailed)
    else
      let p := { p with vlkClient := { p.vlkClient with initialized := true } }
      if !a.connectOk then ({ p with vlkClient := p.vlkClient.shutdown }, .fail .connectionFailed)
      else if !a.linked then
        ({ p with vlkClient := p.vlkClient.shutdown }, .fail .connectionTimeout)
      else
        let c := p.vlkClient.callbacks (.tcpConnected :: a.after)
        ({ p with vlkClient := c, sdkConnected := c.connected }, .success)

/-- Up to so many attempts, as long as they fail. -/
def connectRetry (attempt : Nat → Attempt) : Nat → Nat → Pod → Pod × PodResult
  | 0, _, p => (p, .success)
  | tries + 1, i, p =>
    match p.connectSDK (attempt i) with
    | (p, .success) => (p, .success)
    | (p, result) => if tries = 0 then (p, result) else connectRetry attempt tries (i + 1) p

/-- The most attempts of a `connect`. -/
def kMaxRetryCount : Nat := 3

/-- The cool-down between two reconnections, in milliseconds. -/
def kReconnectCooldownMs : Nat := 5000

/-- `connectFromConfig`. -/
def connectFromConfig (p : Pod) (attempt : Nat → Attempt) : Pod × PodResult :=
  if !isEnabled p.ptzConfig then (p, .fail .capabilityNotSupported)
  else match resolvePinlingSdkConfig p.info (initArgs p.ptzConfig) with
  | none => (p, .fail .unknownError)
  | some _ =>
    if !loggable p.ptzConfig then (p, .threw)
    else connectRetry attempt kMaxRetryCount 0 p

/-- `ensureSdkConnection`, at a time of the clock. -/
def ensureSdkConnection (p : Pod) (nowMs : Nat) (attempt : Nat → Attempt) : Pod × PodResult :=
  if !isEnabled p.ptzConfig then (p, .fail .capabilityNotSupported)
  else
    let p := { p with sdkConnected := p.vlkClient.connected }
    if p.sdkConnected then (p, .success)
    else if p.cachedState ≠ .connected then (p, .fail .notConnected)
    else if !p.sdkReconnectEnabled then (p, .fail .notConnected)
    else if p.lastReconnectAttemptMs ≠ 0 ∧
        nowMs - p.lastReconnectAttemptMs < kReconnectCooldownMs then (p, .fail .notConnected)
    else if p.reconnecting then (p, .fail .notConnected)
    else
      match connectFromConfig { p with reconnecting := true, lastReconnectAttemptMs := nowMs }
        attempt with
      -- the exception passes by the store that ends the reconnection
      | (p, .threw) => (p, .threw)
      | (p, result) =>
        ({ p with sdkConnected := p.vlkClient.connected, reconnecting := false }, result)

/-- What the world answers to a `refreshDeviceStatus`. -/
structure Poll where
  online : Bool
  before : List ConnStatus := []
  nowMs : Nat := 0
  attempt : Nat → Attempt := fun _ => {}

/-- `PinlingPod::refreshDeviceStatus`. -/
def refreshPinling (p : Pod) (poll : Poll) : Pod × PodResult :=
  if p.info.ipAddress = "" then
    ({ p with cachedState := .error, state := .error }, .fail .unknownError)
  else
    let p :=
      { p with
        cachedState := if poll.online then .connected else .disconnected
        sdkConnected := p.vlkClient.connected }
    if !poll.online then ({ p.disconnectSDK with state := .disconnected }, .success)
    else
      let p := { p with vlkClient := p.vlkClient.callbacks poll.before }
      if p.sdkReconnectEnabled && !p.sdkConnected then
        match p.ensureSdkConnection poll.nowMs poll.attempt with
        | (p, .threw) => (p, .threw)
        | (p, .success) => ({ p with state := .connected }, .success)
        | (p, .fail _) =>
          ({ p with state := if p.reconnecting then .connecting else .error }, .success)
      else ({ p with state := if p.sdkConnected then .connected else .disconnected }, .success)

/-- `PinlingPod::onInit`. -/
def onInitPinling (p : Pod) : Pod × PodResult :=
  let p := { p with session := some (p.session.getD false) }
  let p := if p.vlkClient.connected then p.disconnectSDK else p
  let p :=
    { p with
      sdkConnected := false
      sdkReconnectEnabled := false
      reconnecting := false
      lastReconnectAttemptMs := 0 }
  if !isEnabled p.ptzConfig then (p, .success)
  else match resolvePinlingSdkConfig p.info (initArgs p.ptzConfig) with
  | none => (p, .fail .unknownError)
  | some _ => (p, .success)

/-! ## What a pod does -/

/-- `init`. -/
def init (p : Pod) (config : Json) : Pod × PodResult :=
  if !config.isObject then (p, .fail .unknownError)
  else if p.isConnected then (p, .fail .alreadyConnected)
  else
    let p := if p.monitor.isSome then p.stopMonitor else p
    let p :=
      { p with
        info := p.info.update config
        capabilityConfigs := config.getObjectOr "capability" (.object [])
        state := .disconnected
        cachedState := .disconnected }
    match p.vendor with
    | .dji => (p, .success)
    | .pinling =>
      match p.onInitPinling with
      | (p, .success) => (p, .success)
      | (p, result) => ({ p with state := .error }, result)

/-- `connect`. What becomes of the link of the SDK is not in the result. -/
def connect (p : Pod) (attempt : Nat → Attempt) : Pod × PodResult :=
  match p.vendor with
  | .dji => p.baseConnect
  | .pinling =>
    match p.baseConnect with
    | (p, .success) =>
      if !isEnabled p.ptzConfig then ({ p with sdkReconnectEnabled := false }, .success)
      else
        match connectFromConfig { p with sdkReconnectEnabled := true } attempt with
        | (p, .threw) => (p, .threw)
        | (p, _) => (p, .success)
    | (p, result) => (p, result)

/-- `disconnect`. -/
def disconnect (p : Pod) : Pod × PodResult :=
  match p.vendor with
  | .dji => p.baseDisconnect
  | .pinling => (disconnectSDK { p with sdkReconnectEnabled := false }).baseDisconnect

/-- `refreshDeviceStatus`. -/
def refreshDeviceStatus (p : Pod) (poll : Poll) : Pod × PodResult :=
  match p.vendor with
  | .dji => (p, .success)
  | .pinling => p.refreshPinling poll

end Pod

end PodModule
