import FastCppServer.MyPod.Pod

/-!
# The state of a pod and its session

The session is connected by `connect` and disconnected by `disconnect`, and by nothing else; the
state of the pod is also rewritten by `Init` and by every poll. `disconnect` does nothing for the
session of a pod whose state is `DISCONNECTED`, and `connect` fails on a session that is connected.
So both do what they should just where the two have not drifted apart, and they only drift apart
when a poll takes a pod out of `CONNECTED` (`keeps_iff`).
-/

namespace PodModule

open MyData Pod Transition

variable {p q : Pod} {r : PodResult}

/-! ## A pod in use -/

/-- A call of the pod, or a callback of the SDK. -/
inductive Label where
  | connect (attempt : Nat → Attempt)
  | disconnect
  | init (config : Json)
  | refreshDeviceStatus (poll : Poll)
  /-- A call of the PTZ, as far as it concerns the link. -/
  | ensureSdkConnection (nowMs : Nat) (attempt : Nat → Attempt)
  /-- The device changes the link. -/
  | callback (status : ConnStatus)

/-- One call, whatever it returns, or a callback of the SDK. -/
def Pod.apply (p : Pod) : Label → Pod
  | .connect attempt => (p.connect attempt).1
  | .disconnect => p.disconnect.1
  | .init config => (p.init config).1
  | .refreshDeviceStatus poll => (p.refreshDeviceStatus poll).1
  | .ensureSdkConnection nowMs attempt =>
    match p.vendor with
    | .dji => p
    | .pinling => (p.ensureSdkConnection nowMs attempt).1
  | .callback status => { p with vlkClient := p.vlkClient.callback status }

/-- One call. Every call is possible at any time. -/
def step (p : Pod) (l : Label) : Option Pod := some (p.apply l)

/-- A new `PinlingPod`. -/
def pinling (info : PodInfo) : Pod := make .pinling info

/-! ## What is promised -/

/-- The device lets a connection come up. -/
def Accepts (a : Attempt) : Prop := a.initOk = true ∧ a.connectOk = true ∧ a.linked = true

/-- A step after which the session and the state go together. -/
structure Keeps (p : Pod) (l : Label) (q : Pod) : Prop where
  disconnected : l = .disconnect → q.session ≠ some true ∧ q.vlkClient.connected = false
  connected : ∀ attempt, l = .connect attempt → (∀ i, Accepts (attempt i)) →
    p.state ≠ .connected → q.state = .connected

/-- A call that finds the session as the state of the pod says. -/
structure InStep (p : Pod) (l : Label) : Prop where
  disconnect : l = .disconnect → p.state = .disconnected → p.session ≠ some true
  connect : ∀ attempt, l = .connect attempt → (∀ i, Accepts (attempt i)) →
    p.state ≠ .connected → p.session ≠ some true

/-- No poll takes a pod out of `CONNECTED` whose session is connected. -/
def Steady (p : Pod) (l : Label) : Prop :=
  ∀ poll, l = .refreshDeviceStatus poll → p.session = some true → p.state = .connected →
    (p.refreshDeviceStatus poll).1.state = .connected

/-! ## The link of the SDK -/

/-- The link is up in an initialized SDK only. -/
def Linked (c : ViewLinkClient) : Prop := c.connected = true → c.initialized = true

/-- A callback leaves the link to an SDK that is initialized. -/
theorem linked_callback {c : ViewLinkClient} (h : Linked c) (status : ConnStatus) :
    Linked (c.callback status) := by
  rw [ViewLinkClient.callback]
  split
  · next hinit =>
    intro _
    cases status <;> exact hinit
  · exact h

/-- And so do callbacks one after the other. -/
theorem linked_callbacks {c : ViewLinkClient} (h : Linked c) (statuses : List ConnStatus) :
    Linked (c.callbacks statuses) := by
  induction statuses generalizing c with
  | nil => exact h
  | cons status statuses ih => exact ih (linked_callback h status)

/-- After a shutdown the link is down. -/
theorem linked_shutdown {c : ViewLinkClient} (h : Linked c) :
    Linked c.shutdown ∧ c.shutdown.connected = false := by
  rw [ViewLinkClient.shutdown]
  split
  · exact ⟨by rintro ⟨⟩, rfl⟩
  · next hinit =>
    refine ⟨h, ?_⟩
    cases hconnected : c.connected with
    | false => rfl
    | true => exact absurd (h hconnected) hinit

/-- What the functions about the SDK leave alone. -/
structure Frame (p q : Pod) : Prop where
  vendor : q.vendor = p.vendor
  session : q.session = p.session
  state : q.state = p.state
  linked : Linked p.vlkClient → Linked q.vlkClient

/-- Where nothing happens nothing is touched. -/
theorem Frame.refl (p : Pod) : Frame p p := ⟨rfl, rfl, rfl, id⟩

/-- What two functions leave alone both leave alone. -/
theorem Frame.trans {p q r : Pod} (h : Frame p q) (h' : Frame q r) : Frame p r where
  vendor := h'.vendor.trans h.vendor
  session := h'.session.trans h.session
  state := h'.state.trans h.state
  linked := h'.linked ∘ h.linked

/-- `disconnectSDK` touches the SDK only. -/
theorem disconnectSDK_frame (p : Pod) : Frame p p.disconnectSDK := by
  rw [disconnectSDK]
  split
  · exact ⟨rfl, rfl, rfl, id⟩
  · exact ⟨rfl, rfl, rfl, fun h => (linked_shutdown h).1⟩

/-- After `disconnectSDK` the link is down. -/
theorem disconnectSDK_connected (h : Linked p.vlkClient) :
    p.disconnectSDK.vlkClient.connected = false := by
  rw [disconnectSDK]
  split
  · next hno =>
    rw [Bool.and_eq_true, Bool.not_eq_true', Bool.not_eq_true'] at hno
    exact hno.2
  · exact (linked_shutdown h).2

/-- `connectSDK` touches the SDK only. -/
theorem connectSDK_frame (p : Pod) (a : Attempt) : Frame p (p.connectSDK a).1 := by
  have hlinked : Linked { p.vlkClient.callbacks a.before with initialized := true } := fun _ => rfl
  rw [connectSDK]
  dsimp only
  split
  · exact ⟨rfl, rfl, rfl, fun h => linked_callbacks h a.before⟩
  · split
    · exact ⟨rfl, rfl, rfl, fun h => linked_callbacks h a.before⟩
    · split
      · exact ⟨rfl, rfl, rfl, fun _ => (linked_shutdown hlinked).1⟩
      · split
        · exact ⟨rfl, rfl, rfl, fun _ => (linked_shutdown hlinked).1⟩
        · exact ⟨rfl, rfl, rfl, fun _ => linked_callbacks hlinked _⟩

/-- The attempts touch the SDK only. -/
theorem connectRetry_frame (attempt : Nat → Attempt) (tries i : Nat) (p : Pod) :
    Frame p (connectRetry attempt tries i p).1 := by
  induction tries generalizing i p with
  | zero => exact .refl p
  | succ tries ih =>
    have hone := connectSDK_frame p (attempt i)
    rw [connectRetry]
    split
    · next q heq =>
      rw [heq] at hone
      exact hone
    · next q result _ heq =>
      rw [heq] at hone
      split
      · exact hone
      · exact hone.trans (ih (i + 1) q)

/-- `connectFromConfig` touches the SDK only. -/
theorem connectFromConfig_frame (p : Pod) (attempt : Nat → Attempt) :
    Frame p (p.connectFromConfig attempt).1 := by
  rw [connectFromConfig]
  split
  · exact .refl p
  · split
    · exact .refl p
    · split
      · exact .refl p
      · exact connectRetry_frame attempt _ _ p

/-- `ensureSdkConnection` touches the SDK only. -/
theorem ensureSdkConnection_frame (p : Pod) (nowMs : Nat) (attempt : Nat → Attempt) :
    Frame p (p.ensureSdkConnection nowMs attempt).1 := by
  have hsame : Frame p { p with sdkConnected := p.vlkClient.connected } := ⟨rfl, rfl, rfl, id⟩
  rw [ensureSdkConnection]
  split
  · exact .refl p
  · dsimp only
    split
    · exact hsame
    · split
      · exact hsame
      · split
        · exact hsame
        · split
          · exact hsame
          · split
            · exact hsame
            · have hbegin : Frame p
                  { p with
                    sdkConnected := p.vlkClient.connected
                    reconnecting := true
                    lastReconnectAttemptMs := nowMs } := ⟨rfl, rfl, rfl, id⟩
              have htry := connectFromConfig_frame
                { p with
                  sdkConnected := p.vlkClient.connected
                  reconnecting := true
                  lastReconnectAttemptMs := nowMs } attempt
              split
              · next q heq =>
                rw [heq] at htry
                exact hbegin.trans htry
              · next q result _ heq =>
                rw [heq] at htry
                exact (hbegin.trans htry).trans ⟨rfl, rfl, rfl, id⟩

/-! ## What a call leaves of the session and of the state -/

/-- What every call keeps. -/
structure Sound (p : Pod) : Prop where
  vendor : p.vendor = .pinling
  session : p.session.isSome = true
  linked : Linked p.vlkClient

/-- A new pod is sound. -/
theorem sound_pinling (info : PodInfo) : Sound (pinling info) := ⟨rfl, rfl, id⟩

/-- What touches the SDK only leaves a pod sound. -/
theorem Sound.of_frame (hf : Frame p q) (h : Sound p) : Sound q where
  vendor := hf.vendor.trans h.vendor
  session := hf.session ▸ h.session
  linked := hf.linked h.linked

/-- A session that is not connected is there all the same. -/
theorem Sound.session_eq_false (h : Sound p) (hno : p.session ≠ some true) :
    p.session = some false := by
  obtain ⟨connected, hsession⟩ := Option.isSome_iff_exists.1 h.session
  cases connected with
  | true => exact absurd hsession hno
  | false => exact hsession

/-- A failure of `BasePod::connect` is one of `connect`. -/
theorem connect_of_baseConnect_fail (h : Sound p) {code : PodErrorCode}
    (hbase : p.baseConnect = (q, .fail code)) (attempt : Nat → Attempt) :
    (p.connect attempt).1 = q := by
  rw [connect, h.vendor]
  dsimp only
  rw [hbase]

/-- What comes after it changes neither the session nor the state. -/
theorem connect_of_baseConnect_success (h : Sound p) (hbase : p.baseConnect = (q, .success))
    (attempt : Nat → Attempt) : Frame q (p.connect attempt).1 := by
  rw [connect, h.vendor]
  dsimp only
  rw [hbase]
  dsimp only
  split
  · exact ⟨rfl, rfl, rfl, id⟩
  · have htry := connectFromConfig_frame { q with sdkReconnectEnabled := true } attempt
    split
    · next t heq =>
      rw [heq] at htry
      exact ⟨htry.vendor, htry.session, htry.state, htry.linked⟩
    · next t result _ heq =>
      rw [heq] at htry
      exact ⟨htry.vendor, htry.session, htry.state, htry.linked⟩

/-- `connect` does nothing to a pod in `CONNECTED`. -/
theorem connect_of_connected (h : Sound p) (hstate : p.state = .connected)
    (attempt : Nat → Attempt) : (p.connect attempt).1 = p :=
  connect_of_baseConnect_fail h (by rw [baseConnect, if_pos hstate]) attempt

/-- A session that is connected refuses, and the pod is in `ERROR`. -/
theorem connect_of_session (h : Sound p) (hstate : p.state ≠ .connected)
    (hsession : p.session = some true) (attempt : Nat → Attempt) :
    (p.connect attempt).1 = { p with session := some true, state := .error } := by
  have hbase : p.baseConnect =
      ({ p with session := some true, state := .error }, .fail .alreadyConnected) := by
    rw [baseConnect, if_neg hstate, hsession]
    rfl
  exact connect_of_baseConnect_fail h hbase attempt

/-- Any other pod is connected, whatever becomes of the SDK. -/
theorem connect_frame (h : Sound p) (hstate : p.state ≠ .connected)
    (hsession : p.session = some false) (attempt : Nat → Attempt) :
    Frame { p with session := some true, state := .connected } (p.connect attempt).1 := by
  have hbase : p.baseConnect =
      ({ p with session := some true, state := .connected }, .success) := by
    rw [baseConnect, if_neg hstate, hsession]
    rfl
  exact connect_of_baseConnect_success h hbase attempt

/-- The base's `disconnect` does nothing in `DISCONNECTED`. -/
theorem baseDisconnect_of_disconnected (hstate : p.state = .disconnected) :
    p.baseDisconnect.1 = p := by
  rw [baseDisconnect, if_pos hstate]

/-- Elsewhere it disconnects the session, and the state with it. -/
theorem baseDisconnect_of_session (hstate : p.state ≠ .disconnected) (h : p.session.isSome = true) :
    p.baseDisconnect.1 = { p with session := some false, state := .disconnected } := by
  obtain ⟨connected, hsession⟩ := Option.isSome_iff_exists.1 h
  rw [baseDisconnect, if_neg hstate, hsession]
  cases connected with
  | true => rfl
  | false => rw [if_neg (by simp), ← hsession]

/-- `disconnect` takes the SDK down first. -/
theorem disconnect_eq (h : Sound p) :
    p.disconnect = (disconnectSDK { p with sdkReconnectEnabled := false }).baseDisconnect := by
  rw [disconnect, h.vendor]

/-- A `disconnect` in `DISCONNECTED` takes the link down, and nothing else. -/
theorem disconnect_frame (h : Sound p) (hstate : p.state = .disconnected) :
    Frame p p.disconnect.1 ∧ p.disconnect.1.vlkClient.connected = false := by
  have hsdk := disconnectSDK_frame { p with sdkReconnectEnabled := false }
  rw [disconnect_eq h, baseDisconnect_of_disconnected (hsdk.state.trans hstate)]
  exact ⟨⟨hsdk.vendor, hsdk.session, hsdk.state, hsdk.linked⟩, disconnectSDK_connected h.linked⟩

/-- A pod in another state is `DISCONNECTED` with its session. -/
theorem disconnect_frame_session (h : Sound p) (hstate : p.state ≠ .disconnected) :
    Frame { p with session := some false, state := .disconnected } p.disconnect.1 ∧
      p.disconnect.1.vlkClient.connected = false := by
  have hsdk := disconnectSDK_frame { p with sdkReconnectEnabled := false }
  have hleft : (disconnectSDK { p with sdkReconnectEnabled := false }).state ≠ .disconnected :=
    fun heq => hstate (hsdk.state.symm.trans heq)
  have hsome : (disconnectSDK { p with sdkReconnectEnabled := false }).session.isSome = true :=
    (congrArg Option.isSome hsdk.session).trans h.session
  rw [disconnect_eq h, baseDisconnect_of_session hleft hsome]
  exact ⟨⟨hsdk.vendor, rfl, rfl, hsdk.linked⟩, disconnectSDK_connected h.linked⟩

/-- `onInit` touches the SDK only. -/
theorem onInitPinling_frame (h : p.session.isSome = true) : Frame p p.onInitPinling.1 := by
  obtain ⟨connected, hsession⟩ := Option.isSome_iff_exists.1 h
  have hsame : { p with session := some (p.session.getD false) } = p := by
    cases p
    simp_all
  have hsdk : Frame p (if p.vlkClient.connected then p.disconnectSDK else p) := by
    split
    · exact disconnectSDK_frame p
    · exact .refl p
  rw [onInitPinling]
  simp only [hsame]
  generalize (if p.vlkClient.connected then p.disconnectSDK else p) = m at hsdk
  split
  · exact ⟨hsdk.vendor, hsdk.session, hsdk.state, hsdk.linked⟩
  · split
    · exact ⟨hsdk.vendor, hsdk.session, hsdk.state, hsdk.linked⟩
    · exact ⟨hsdk.vendor, hsdk.session, hsdk.state, hsdk.linked⟩

/-- `Init` changes the state at most, and refuses in `CONNECTED`. -/
theorem init_frame (h : Sound p) (config : Json) :
    ∃ state, Frame { p with state } (p.init config).1 ∧
      (p.state = .connected → state = .connected) := by
  rw [init]
  split
  · exact ⟨p.state, .refl p, id⟩
  · split
    · exact ⟨p.state, .refl p, id⟩
    · next hno =>
      have hstate : p.state ≠ .connected := fun heq => hno (decide_eq_true heq)
      have hstop : Frame p (if p.monitor.isSome then p.stopMonitor else p) := by
        split
        · exact ⟨rfl, rfl, rfl, id⟩
        · exact .refl p
      generalize (if p.monitor.isSome then p.stopMonitor else p) = m at hstop
      dsimp only
      split
      · exact ⟨.disconnected, ⟨hstop.vendor, hstop.session, rfl, hstop.linked⟩,
          fun heq => absurd heq hstate⟩
      · have hinit := onInitPinling_frame (p :=
          { m with
            info := m.info.update config
            capabilityConfigs := config.getObjectOr "capability" (.object [])
            state := .disconnected
            cachedState := .disconnected }) (hstop.session ▸ h.session)
        split
        · next q heq =>
          rw [heq] at hinit
          exact ⟨.disconnected, ⟨hinit.vendor.trans hstop.vendor,
            hinit.session.trans hstop.session, hinit.state, hinit.linked ∘ hstop.linked⟩,
            fun heq => absurd heq hstate⟩
        · next q result _ heq =>
          rw [heq] at hinit
          exact ⟨.error, ⟨hinit.vendor.trans hstop.vendor,
            hinit.session.trans hstop.session, rfl, hinit.linked ∘ hstop.linked⟩,
            fun heq => absurd heq hstate⟩

/-- A poll changes the state, besides the SDK. -/
theorem refreshPinling_frame (p : Pod) (poll : Poll) :
    ∃ state, Frame { p with state } (p.refreshPinling poll).1 := by
  rw [refreshPinling]
  split
  · exact ⟨.error, rfl, rfl, rfl, id⟩
  · dsimp only
    split
    · have hsdk := disconnectSDK_frame
        { p with
          cachedState := if poll.online then .connected else .disconnected
          sdkConnected := p.vlkClient.connected }
      exact ⟨.disconnected, hsdk.vendor, hsdk.session, rfl, hsdk.linked⟩
    · split
      · have htry := ensureSdkConnection_frame
          { p with
            cachedState := if poll.online then .connected else .disconnected
            sdkConnected := p.vlkClient.connected
            vlkClient := p.vlkClient.callbacks poll.before } poll.nowMs poll.attempt
        have hlinked : Linked p.vlkClient → Linked (p.vlkClient.callbacks poll.before) :=
          fun h => linked_callbacks h poll.before
        split
        · next q heq =>
          rw [heq] at htry
          exact ⟨p.state, htry.vendor, htry.session, htry.state, htry.linked ∘ hlinked⟩
        · next q heq =>
          rw [heq] at htry
          exact ⟨.connected, htry.vendor, htry.session, rfl, htry.linked ∘ hlinked⟩
        · next q code heq =>
          rw [heq] at htry
          exact ⟨_, htry.vendor, htry.session, rfl, htry.linked ∘ hlinked⟩
      · exact ⟨_, rfl, rfl, rfl, fun h => linked_callbacks h poll.before⟩

/-- `refreshDeviceStatus` changes the state, besides the SDK. -/
theorem refreshDeviceStatus_frame (h : Sound p) (poll : Poll) :
    ∃ state, Frame { p with state } (p.refreshDeviceStatus poll).1 := by
  have hpinling : p.refreshDeviceStatus poll = p.refreshPinling poll := by
    rw [refreshDeviceStatus, h.vendor]
  rw [hpinling]
  exact refreshPinling_frame p poll

/-- An operation of the PTZ touches the SDK only. -/
theorem ptz_frame (h : Sound p) (nowMs : Nat) (attempt : Nat → Attempt) :
    Frame p (p.apply (.ensureSdkConnection nowMs attempt)) := by
  have hpinling : p.apply (.ensureSdkConnection nowMs attempt) =
      (p.ensureSdkConnection nowMs attempt).1 := by
    rw [Pod.apply, h.vendor]
  rw [hpinling]
  exact ensureSdkConnection_frame p nowMs attempt

/-! ## Runs -/

/-- **Every call keeps a pod sound.** -/
theorem sound_apply (h : Sound p) (l : Label) : Sound (p.apply l) := by
  cases l with
  | connect attempt =>
    rw [Pod.apply]
    by_cases hstate : p.state = .connected
    · rw [connect_of_connected h hstate]
      exact h
    · by_cases hsession : p.session = some true
      · rw [connect_of_session h hstate hsession]
        exact ⟨h.vendor, rfl, h.linked⟩
      · have hframe := connect_frame h hstate (h.session_eq_false hsession) attempt
        exact Sound.of_frame hframe ⟨h.vendor, rfl, h.linked⟩
  | disconnect =>
    by_cases hstate : p.state = .disconnected
    · exact Sound.of_frame (disconnect_frame h hstate).1 h
    · exact Sound.of_frame (disconnect_frame_session h hstate).1 ⟨h.vendor, rfl, h.linked⟩
  | init config =>
    obtain ⟨state, hframe, -⟩ := init_frame h config
    exact Sound.of_frame hframe ⟨h.vendor, h.session, h.linked⟩
  | refreshDeviceStatus poll =>
    obtain ⟨state, hframe⟩ := refreshDeviceStatus_frame h poll
    exact Sound.of_frame hframe ⟨h.vendor, h.session, h.linked⟩
  | ensureSdkConnection nowMs attempt => exact Sound.of_frame (ptz_frame h nowMs attempt) h
  | callback status => exact ⟨h.vendor, h.session, linked_callback h.linked status⟩

/-- **Every step keeps a pod sound.** -/
theorem sound_step {l : Label} (h : Sound p) (hstep : step p l = some q) : Sound q := by
  cases hstep
  exact sound_apply h l

/-- **A step.** The session goes with the state just where the call found it so. -/
theorem keeps_iff_inStep {l : Label} (h : Sound p) : Keeps p l (p.apply l) ↔ InStep p l := by
  constructor
  · intro hkeeps
    refine ⟨?_, ?_⟩
    · rintro rfl hstate
      have hframe := (disconnect_frame h hstate).1
      rw [← hframe.session]
      exact (hkeeps.disconnected rfl).1
    · rintro attempt rfl haccepts hstate hsession
      have hconnected := hkeeps.connected attempt rfl haccepts hstate
      rw [Pod.apply, connect_of_session h hstate hsession] at hconnected
      exact PodState.noConfusion hconnected
  · intro hin
    refine ⟨?_, ?_⟩
    · rintro rfl
      by_cases hstate : p.state = .disconnected
      · obtain ⟨hframe, hsdk⟩ := disconnect_frame h hstate
        exact ⟨fun heq => hin.disconnect rfl hstate (hframe.session ▸ heq), hsdk⟩
      · obtain ⟨hframe, hsdk⟩ := disconnect_frame_session h hstate
        refine ⟨fun heq => ?_, hsdk⟩
        rw [Pod.apply, hframe.session] at heq
        simp at heq
    · rintro attempt rfl haccepts hstate
      have hfalse := h.session_eq_false (hin.connect attempt rfl haccepts hstate)
      exact (connect_frame h hstate hfalse attempt).state

/-- The session is connected in `CONNECTED` only. -/
def Together (p : Pod) : Prop := p.session = some true → p.state = .connected

/-- Where session and state go together a call finds the one as the other says. -/
theorem Together.inStep (h : Together p) (l : Label) : InStep p l where
  disconnect _ hstate hsession := by
    rw [h hsession] at hstate
    exact PodState.noConfusion hstate
  connect _ _ _ hstate hsession := hstate (h hsession)

/-- **A call keeps them together**, if no poll takes a connected pod out of `CONNECTED`. -/
theorem together_apply {l : Label} (hs : Sound p) (h : Together p) (hsteady : Steady p l) :
    Together (p.apply l) := by
  intro hsession
  cases l with
  | connect attempt =>
    by_cases hstate : p.state = .connected
    · rw [Pod.apply, connect_of_connected hs hstate]
      exact hstate
    · have hfalse := hs.session_eq_false fun heq => hstate (h heq)
      exact (connect_frame hs hstate hfalse attempt).state
  | disconnect =>
    by_cases hstate : p.state = .disconnected
    · obtain ⟨hframe, -⟩ := disconnect_frame hs hstate
      exact hframe.state.trans (h (hframe.session.symm.trans hsession))
    · obtain ⟨hframe, -⟩ := disconnect_frame_session hs hstate
      have habsurd := hframe.session.symm.trans hsession
      simp at habsurd
  | init config =>
    obtain ⟨state, hframe, hconnected⟩ := init_frame hs config
    exact hframe.state.trans (hconnected (h (hframe.session.symm.trans hsession)))
  | refreshDeviceStatus poll =>
    obtain ⟨state, hframe⟩ := refreshDeviceStatus_frame hs poll
    have hbefore := hframe.session.symm.trans hsession
    exact hsteady poll rfl hbefore (h hbefore)
  | ensureSdkConnection nowMs attempt =>
    have hframe := ptz_frame hs nowMs attempt
    exact hframe.state.trans (h (hframe.session.symm.trans hsession))
  | callback status => exact h hsession

/-- **Connection state and session.** Along any run the session goes with the state just where every
call finds it so, and it does where no poll takes a pod with a connected session out of
`CONNECTED`. -/
theorem keeps_iff (info : PodInfo) (ls : List Label) :
    (Along step (fun p l => ∀ q, step p l = some q → Keeps p l q) (pinling info) ls ↔
        Along step InStep (pinling info) ls) ∧
      (Along step Steady (pinling info) ls → Along step InStep (pinling info) ls) := by
  refine ⟨⟨fun h => ?_, fun h => ?_⟩, fun h => ?_⟩
  · refine along_imp (fun _ _ _ _ hs hstep => sound_step hs hstep) ?_ (sound_pinling info) h
    intro p l hkeeps hs
    exact (keeps_iff_inStep hs).1 (hkeeps _ rfl)
  · refine along_imp (fun _ _ _ _ hs hstep => sound_step hs hstep) ?_ (sound_pinling info) h
    intro p l hin hs q hstep
    cases hstep
    exact (keeps_iff_inStep hs).2 hin
  · refine along_imp (P := fun p => Sound p ∧ Together p) ?_ ?_ ⟨sound_pinling info, ?_⟩ h
    · rintro p l q hsteady ⟨hs, htogether⟩ hstep
      cases hstep
      exact ⟨sound_apply hs l, together_apply hs htogether hsteady⟩
    · rintro p l - ⟨-, htogether⟩
      exact htogether.inStep l
    · rintro ⟨⟩

/-! ## Where they drift apart -/

/-- A pod with an address and a port. -/
def camera : PodInfo := { podId := "p1", ipAddress := "10.0.0.8", port := 2000 }

/-- It is connected, the device is seen offline, and the pod is disconnected. -/
def offlineThenDisconnect : List Label :=
  [.connect fun _ => {}, .refreshDeviceStatus { online := false }, .disconnect]

/-- It is connected, the device is seen offline, and the pod is connected again. -/
def offlineThenConnect : List Label :=
  [.connect fun _ => {}, .refreshDeviceStatus { online := false }, .connect fun _ => {}]

/-- The session stays connected after the one, and the other leaves the pod in `ERROR`. -/
theorem not_keeps :
    ¬Along step (fun p l => ∀ q, step p l = some q → Keeps p l q) (pinling camera)
        offlineThenDisconnect ∧
      ¬Along step (fun p l => ∀ q, step p l = some q → Keeps p l q) (pinling camera)
        offlineThenConnect := by
  constructor
  · intro h
    obtain ⟨-, h⟩ := h
    obtain ⟨-, h⟩ := h _ rfl
    obtain ⟨hkeeps, -⟩ := h _ rfl
    exact ((hkeeps _ rfl).disconnected rfl).1 (by decide)
  · intro h
    obtain ⟨-, h⟩ := h
    obtain ⟨-, h⟩ := h _ rfl
    obtain ⟨hkeeps, -⟩ := h _ rfl
    have hconnected := (hkeeps _ rfl).connected _ rfl (fun _ => ⟨rfl, rfl, rfl⟩) (by decide)
    exact absurd hconnected (by decide)

end PodModule
