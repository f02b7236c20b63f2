import FastCppServer.MyPod.Pod

/-!
# Two readers of the capabilities

The capability node of a pod is read twice: by the pod, for whether a capability is enabled
(`isCapabilityEnabled`), and by the manager, for what its monitor polls (`parseMonitorConfig`). The
pod takes a capability for enabled unless its section says otherwise, and looks for the section
under an older key as well; the manager polls a capability only if the section under the newer key
says that it is open, and throws where it says so in anything but a string. So the polls never go
beyond the pod's own view (`enabled_of_polls`), and they come up to it exactly where each section
says in a string whether its capability is open (`follows_iff`).
-/

namespace PodModule

open MyData

/-! ## The pod's view -/

/-- `CapabilityType`. -/
inductive CapabilityType where
  | status
  | heartbeat
  | ptz
  | laser
  | stream
  | image
  | centerMeasure
  deriving DecidableEq

/-- `CapabilityTypeToString`. -/
def capabilityTypeToString : CapabilityType → String
  | .status => "状态查询"
  | .heartbeat => "心跳检测"
  | .ptz => "云台控制"
  | .laser => "激光测距"
  | .stream => "流媒体"
  | .image => "图像抓拍"
  | .centerMeasure => "中心点测量"

/-- `CapabilityTypeToKey`. -/
def capabilityTypeToKey : CapabilityType → String
  | .status => "STATUS"
  | .heartbeat => "HEARTBEAT"
  | .ptz => "PTZ"
  | .laser => "LASER"
  | .stream => "STREAM"
  | .image => "IMAGE"
  | .centerMeasure => "CENTER_MEASURE"

/-- The section of a capability, empty where there is none. -/
def readConfigOf (type : CapabilityType) (source : Json) : Json :=
  match source.find (capabilityTypeToKey type) with
  | some (.object fields) => .object fields
  | _ =>
    match source.find (capabilityTypeToString type) with
    | some (.object fields) => .object fields
    | _ => .object []

/-- `getCapabilityConfig`, for any capability. -/
def getCapabilityConfigOf (type : CapabilityType) (capabilityConfigs rawConfig : Json) : Json :=
  let config := readConfigOf type capabilityConfigs
  if isEmpty config then
    match rawConfig.find "capability" with
    | some (.object fields) => readConfigOf type (.object fields)
    | _ => .object []
  else config

namespace Pod

/-- `isCapabilityEnabled`. -/
def isCapabilityEnabled (p : Pod) (type : CapabilityType) : Bool :=
  isEnabled (getCapabilityConfigOf type p.capabilityConfigs p.info.rawConfig)

/-- `onInit` leaves the configuration alone, where the link is down. -/
theorem onInitPinling_configs {p : Pod} (h : p.vlkClient.connected = false) :
    p.onInitPinling.1.capabilityConfigs = p.capabilityConfigs ∧
      p.onInitPinling.1.info = p.info := by
  unfold onInitPinling
  simp only [h, Bool.false_eq_true, if_false]
  split
  · exact ⟨rfl, rfl⟩
  · split <;> exact ⟨rfl, rfl⟩

/-- The configuration that a new pod keeps of its `Init`, whatever else comes of it. -/
theorem init_configs (vendor : PodVendor) (info : PodInfo) (fields : List (String × Json)) :
    ((make vendor info).init (.object fields)).1.capabilityConfigs =
        (Json.object fields).getObjectOr "capability" (.object []) ∧
      ((make vendor info).init (.object fields)).1.info.rawConfig = .object fields := by
  cases vendor with
  | dji => exact ⟨rfl, rfl⟩
  | pinling =>
    have hinit := onInitPinling_configs (p :=
      { make .pinling info with
        info := info.update (.object fields)
        capabilityConfigs := (Json.object fields).getObjectOr "capability" (.object [])
        state := .disconnected
        cachedState := .disconnected }) rfl
    rw [init, if_neg (by simp [Json.isObject]), if_neg (by simp [isConnected, make])]
    simp only [make, Option.isSome_none, Bool.false_eq_true, if_false] at hinit ⊢
    generalize onInitPinling _ = r at hinit ⊢
    obtain ⟨q, result⟩ := r
    cases result with
    | success | threw | fail code => exact ⟨hinit.1, congrArg PodInfo.rawConfig hinit.2⟩

end Pod

/-- The node of the capabilities, empty where there is none. -/
def capabilityNode (podCfg : Json) : Json := podCfg.getObjectOr "capability" (.object [])

/-- The configuration that is read in the second place has the same node. -/
theorem getCapabilityConfigOf_self (type : CapabilityType) (podCfg : Json) :
    getCapabilityConfigOf type (capabilityNode podCfg) podCfg =
      readConfigOf type (capabilityNode podCfg) := by
  have hempty : ∀ source, isEmpty (readConfigOf type source) = true →
      readConfigOf type source = .object [] := by
    intro source h
    rw [readConfigOf] at h ⊢
    split at h
    · rw [List.isEmpty_iff.1 h]
    · split at h
      · rw [List.isEmpty_iff.1 h]
      · rfl
  rw [getCapabilityConfigOf]
  split
  · next h =>
    have hnode := hempty _ h
    rw [capabilityNode, Json.getObjectOr] at hnode ⊢
    cases hc : podCfg.find "capability" with
    | none => rfl
    | some value =>
      cases value with
      | object fields => rfl
      | _ => rfl
  · rfl

/-- **The pod's own view of a capability**, after an `init`. -/
theorem isCapabilityEnabled_init (vendor : PodVendor) (info : PodInfo)
    (fields : List (String × Json)) (type : CapabilityType) :
    ((Pod.make vendor info).init (.object fields)).1.isCapabilityEnabled type =
      isEnabled (readConfigOf type (capabilityNode (.object fields))) := by
  obtain ⟨hconfigs, hraw⟩ := Pod.init_configs vendor info fields
  rw [Pod.isCapabilityEnabled, hconfigs, hraw]
  exact congrArg isEnabled (getCapabilityConfigOf_self type (.object fields))

/-- A section closes its capability with a string that is not `enable`. -/
theorem isEnabled_eq_false_iff {fields : List (String × Json)} :
    isEnabled (.object fields) = false ↔
      ∃ text, fields.lookup "open" = some (.string text) ∧ text ≠ "enable" := by
  cases fields with
  | nil => simp [isEnabled, isEmpty]
  | cons field fields =>
    rw [isEnabled, if_neg (by simp [isEmpty]), Json.find]
    split
    · next value h =>
      rw [h]
      simp
    · next hno =>
      refine ⟨(fun h => by cases h), ?_⟩
      intro ⟨text, h, _⟩
      exact absurd h (hno text)

/-! ## The manager's view -/

section
variable {capability : Json} {type : CapabilityType}

/-- The monitor takes a capability for open when its section says `enable`. -/
theorem isOpen_eq_true_iff {key : String} : isOpen capability key = some true ↔
    ∃ fields, capability.find key = some (.object fields) ∧
      fields.lookup "open" = some (.string "enable") := by
  rw [isOpen]
  cases hcap : capability.find key with
  | none => simp
  | some cap =>
    cases cap with
    | object fields =>
      simp only [Json.isObject, if_true, Json.value, Json.find, Option.some.injEq,
        Json.object.injEq, exists_eq_left']
      cases hopen : fields.lookup "open" with
      | none => simp
      | some value => cases value <;> simp [Json.asString]
    | _ => simp [Json.isObject]

/-- And it throws where the section says so in anything but a string. -/
theorem isOpen_eq_none_iff {key : String} : isOpen capability key = none ↔
    ∃ fields value, capability.find key = some (.object fields) ∧
      fields.lookup "open" = some value ∧ ∀ text, value ≠ .string text := by
  rw [isOpen]
  cases hcap : capability.find key with
  | none => simp
  | some cap =>
    cases cap with
    | object fields =>
      simp only [Json.isObject, if_true, Json.value, Json.find]
      cases hopen : fields.lookup "open" with
      | none => simp [hopen]
      | some value => cases value <;> simp [Json.asString, hopen]
    | _ => simp [Json.isObject]

/-- The section says in a string whether the capability is open: under its key, or under the older
key that it is not. -/
def Explicit (capability : Json) (type : CapabilityType) : Prop :=
  (∃ fields text, capability.find (capabilityTypeToKey type) = some (.object fields) ∧
      fields.lookup "open" = some (.string text)) ∨
    (∀ fields, capability.find (capabilityTypeToKey type) ≠ some (.object fields)) ∧
      ∃ fields text, capability.find (capabilityTypeToString type) = some (.object fields) ∧
        fields.lookup "open" = some (.string text) ∧ text ≠ "enable"

/-- Whether it says so under its key, it does not say it in anything but a string. -/
def Readable (capability : Json) (type : CapabilityType) : Prop :=
  ∀ fields value, capability.find (capabilityTypeToKey type) = some (.object fields) →
    fields.lookup "open" = some value → ∃ text, value = .string text

/-- A section can be read where the monitor does not throw. -/
theorem readable_iff :
    Readable capability type ↔ isOpen capability (capabilityTypeToKey type) ≠ none := by
  rw [ne_eq, isOpen_eq_none_iff, Readable]
  constructor
  · intro h ⟨fields, value, hcap, hopen, hno⟩
    obtain ⟨text, htext⟩ := h fields value hcap hopen
    exact hno text htext
  · intro h fields value hcap hopen
    by_contra hno
    exact h ⟨fields, value, hcap, hopen, fun text htext => hno ⟨text, htext⟩⟩

/-- What the manager takes for open, the pod takes for enabled. -/
theorem isEnabled_of_isOpen (h : isOpen capability (capabilityTypeToKey type) = some true) :
    isEnabled (readConfigOf type capability) = true := by
  obtain ⟨fields, hcap, hopen⟩ := isOpen_eq_true_iff.1 h
  rw [readConfigOf, hcap]
  by_contra hno
  obtain ⟨text, htext, hne⟩ := isEnabled_eq_false_iff.1 (Bool.eq_false_iff.2 hno)
  rw [hopen] at htext
  cases htext
  exact hne rfl

/-- Without a section under its key, the one under the older key is read. -/
theorem readConfigOf_legacy
    (h : ∀ fields, capability.find (capabilityTypeToKey type) ≠ some (.object fields)) :
    readConfigOf type capability =
      match capability.find (capabilityTypeToString type) with
      | some (.object fields) => .object fields
      | _ => .object [] := by
  rw [readConfigOf]
  split
  · next fields hcap => exact absurd hcap (h fields)
  · rfl

/-- **The other way round**, where the section is explicit. -/
theorem explicit_iff : Explicit capability type ↔
    (isEnabled (readConfigOf type capability) = true →
      isOpen capability (capabilityTypeToKey type) = some true) := by
  by_cases hkey : ∃ fields, capability.find (capabilityTypeToKey type) = some (.object fields)
  · obtain ⟨fields, hcap⟩ := hkey
    have hread : readConfigOf type capability = .object fields := by rw [readConfigOf, hcap]
    rw [hread, isOpen_eq_true_iff]
    constructor
    · rintro (⟨fields', text, hcap', hopen⟩ | ⟨hno, -⟩) henabled
      · rw [hcap] at hcap'
        cases hcap'
        refine ⟨fields, hcap, ?_⟩
        by_contra hne
        have hclosed := isEnabled_eq_false_iff.2 ⟨text, hopen, fun h => hne (h ▸ hopen)⟩
        rw [hclosed] at henabled
        cases henabled
      · exact absurd hcap (hno fields)
    · intro h
      refine .inl ?_
      cases henabled : isEnabled (.object fields) with
      | true =>
        obtain ⟨fields', hcap', hopen⟩ := h henabled
        exact ⟨fields', "enable", hcap', hopen⟩
      | false =>
        obtain ⟨text, hopen, -⟩ := isEnabled_eq_false_iff.1 henabled
        exact ⟨fields, text, hcap, hopen⟩
  · have hno : ∀ fields, capability.find (capabilityTypeToKey type) ≠ some (.object fields) :=
      fun fields h => hkey ⟨fields, h⟩
    have hopen : isOpen capability (capabilityTypeToKey type) ≠ some true := by
      intro h
      obtain ⟨fields, hcap, -⟩ := isOpen_eq_true_iff.1 h
      exact hno fields hcap
    have hread := readConfigOf_legacy hno
    constructor
    · rintro (⟨fields, text, hcap, -⟩ | ⟨-, fields, text, hcap, htext⟩) henabled
      · exact absurd hcap (hno fields)
      · have hclosed := isEnabled_eq_false_iff.2 ⟨text, htext⟩
        rw [hread, hcap, hclosed] at henabled
        cases henabled
    · intro h
      have hclosed := Bool.eq_false_iff.2 fun henabled => hopen (h henabled)
      rw [hread] at hclosed
      split at hclosed
      · next fields hcap =>
        obtain ⟨text, htext⟩ := isEnabled_eq_false_iff.1 hclosed
        exact .inr ⟨hno, fields, text, hcap, htext⟩
      · cases hclosed

end

/-! ## The monitor section -/

/-- The capabilities that a monitor polls. -/
def polled : List CapabilityType := [.status, .ptz, .laser, .stream]

/-- Whether a capability is polled. -/
def PodMonitorConfig.polls (cfg : PodMonitorConfig) : CapabilityType → Bool
  | .status => cfg.enableStatusPoll
  | .ptz => cfg.enablePtzPoll
  | .laser => cfg.enableLaserPoll
  | .stream => cfg.enableStreamPoll
  | _ => false

/-- The switch of a poll in the monitor section. The one of the laser is ignored. -/
def switchKey : CapabilityType → String
  | .status => "enable_status_poll"
  | .ptz => "enable_ptz_poll"
  | .laser => "enable_laser_poll"
  | _ => "enable_stream_poll"

/-- The monitor section, empty where there is none. -/
def monitorNode (podCfg : Json) : Json := podCfg.getObjectOr "monitor" (.object [])

/-- A field that is read has the type it is read as. -/
structure MonitorReadable (m : Json) : Prop where
  number : ∀ key ∈ ["poll_interval_ms", "status_interval_ms", "ptz_interval_ms",
      "laser_interval_ms", "stream_interval_ms", "online_window_size", "online_threshold"],
    ∀ field, m.find key = some field → (getNumber field).isSome = true
  switch : ∀ key ∈ ["enable_status_poll", "enable_ptz_poll", "enable_stream_poll", "auto_start"],
    ∀ field, m.find key = some field → field.asBool.isSome = true

/-- A switch is set to `false`. -/
def SwitchedOff (m : Json) : Prop :=
  ∃ type ∈ polled, m.find (switchKey type) = some (.boolean false)

section
variable {m : Json}

/-- A number is read where there is none, or where it is one. -/
theorem readUInt32_isSome {key : String} {dflt : UInt32} : (readUInt32 m key dflt).isSome = true ↔
    ∀ field, m.find key = some field → (getNumber field).isSome = true := by
  rw [readUInt32]
  cases m.find key <;> simp

/-- A switch is read where there is none, or where it is one. -/
theorem readBool_isSome {key : String} {dflt : Bool} : (readBool m key dflt).isSome = true ↔
    ∀ field, m.find key = some field → field.asBool.isSome = true := by
  rw [readBool]
  cases m.find key <;> simp

/-- A switch is applied where there is none, or where it is one. -/
theorem applyMonitorSwitch_isSome {key : String} {has enabled target : Bool} :
    (applyMonitorSwitch m key has enabled target).isSome = true ↔
      ∀ field, m.find key = some field → field.asBool.isSome = true := by
  rw [applyMonitorSwitch]
  cases m.find key <;> simp

/-- What the section does, if it can be read. -/
theorem overrideMonitorConfig_cases {has : Bool} {cfg cfg' : PodMonitorConfig}
    (h : overrideMonitorConfig has cfg m = some cfg') :
    MonitorReadable m ∧
      applyMonitorSwitch m "enable_status_poll" has cfg.enableStatusPoll cfg.enableStatusPoll =
        some cfg'.enableStatusPoll ∧
      applyMonitorSwitch m "enable_ptz_poll" has cfg.enablePtzPoll cfg.enablePtzPoll =
        some cfg'.enablePtzPoll ∧
      applyMonitorSwitch m "enable_stream_poll" has cfg.enableStreamPoll cfg.enableStreamPoll =
        some cfg'.enableStreamPoll ∧
      cfg'.enableLaserPoll = cfg.enableLaserPoll := by
  rw [overrideMonitorConfig] at h
  obtain ⟨poll, hpoll, h⟩ := Option.bind_eq_some_iff.1 h
  obtain ⟨status, hstatus, h⟩ := Option.bind_eq_some_iff.1 h
  obtain ⟨ptz, hptz, h⟩ := Option.bind_eq_some_iff.1 h
  obtain ⟨laser, hlaser, h⟩ := Option.bind_eq_some_iff.1 h
  obtain ⟨stream, hstream, h⟩ := Option.bind_eq_some_iff.1 h
  obtain ⟨window, hwindow, h⟩ := Option.bind_eq_some_iff.1 h
  obtain ⟨threshold, hthreshold, h⟩ := Option.bind_eq_some_iff.1 h
  obtain ⟨on₁, h₁, h⟩ := Option.bind_eq_some_iff.1 h
  obtain ⟨on₂, h₂, h⟩ := Option.bind_eq_some_iff.1 h
  obtain ⟨on₃, h₃, h⟩ := Option.bind_eq_some_iff.1 h
  obtain ⟨start, hstart, h⟩ := Option.bind_eq_some_iff.1 h
  cases h
  refine ⟨⟨?_, ?_⟩, h₁, h₂, h₃, rfl⟩
  · intro key hkey
    simp only [List.mem_cons, List.not_mem_nil, or_false] at hkey
    obtain rfl | rfl | rfl | rfl | rfl | rfl | rfl := hkey
    · exact readUInt32_isSome.1 (Option.isSome_of_eq_some hpoll)
    · exact readUInt32_isSome.1 (Option.isSome_of_eq_some hstatus)
    · exact readUInt32_isSome.1 (Option.isSome_of_eq_some hptz)
    · exact readUInt32_isSome.1 (Option.isSome_of_eq_some hlaser)
    · exact readUInt32_isSome.1 (Option.isSome_of_eq_some hstream)
    · exact readUInt32_isSome.1 (Option.isSome_of_eq_some hwindow)
    · exact readUInt32_isSome.1 (Option.isSome_of_eq_some hthreshold)
  · intro key hkey
    simp only [List.mem_cons, List.not_mem_nil, or_false] at hkey
    obtain rfl | rfl | rfl | rfl := hkey
    · exact applyMonitorSwitch_isSome.1 (Option.isSome_of_eq_some h₁)
    · exact applyMonitorSwitch_isSome.1 (Option.isSome_of_eq_some h₂)
    · exact applyMonitorSwitch_isSome.1 (Option.isSome_of_eq_some h₃)
    · exact readBool_isSome.1 (Option.isSome_of_eq_some hstart)

/-- A section that can be read is. -/
theorem MonitorReadable.exists_override (h : MonitorReadable m) (has : Bool)
    (cfg : PodMonitorConfig) : ∃ cfg', overrideMonitorConfig has cfg m = some cfg' := by
  have hnumber : ∀ key (dflt : UInt32), key ∈ ["poll_interval_ms", "status_interval_ms",
      "ptz_interval_ms", "laser_interval_ms", "stream_interval_ms", "online_window_size",
      "online_threshold"] → ∃ value, readUInt32 m key dflt = some value := fun key dflt hkey =>
    Option.isSome_iff_exists.1 (readUInt32_isSome.2 (h.number key hkey))
  have hswitch : ∀ key (enabled : Bool), key ∈ ["enable_status_poll", "enable_ptz_poll",
      "enable_stream_poll", "auto_start"] →
      ∃ value, applyMonitorSwitch m key has enabled enabled = some value := fun key enabled hkey =>
    Option.isSome_iff_exists.1 (applyMonitorSwitch_isSome.2 (h.switch key hkey))
  obtain ⟨poll, hpoll⟩ := hnumber "poll_interval_ms" cfg.pollIntervalMs (by simp)
  obtain ⟨status, hstatus⟩ := hnumber "status_interval_ms" cfg.statusIntervalMs (by simp)
  obtain ⟨ptz, hptz⟩ := hnumber "ptz_interval_ms" cfg.ptzIntervalMs (by simp)
  obtain ⟨laser, hlaser⟩ := hnumber "laser_interval_ms" cfg.laserIntervalMs (by simp)
  obtain ⟨stream, hstream⟩ := hnumber "stream_interval_ms" cfg.streamIntervalMs (by simp)
  obtain ⟨window, hwindow⟩ := hnumber "online_window_size" cfg.onlineWindowSize (by simp)
  obtain ⟨threshold, hthreshold⟩ := hnumber "online_threshold" cfg.onlineThreshold (by simp)
  obtain ⟨on₁, h₁⟩ := hswitch "enable_status_poll" cfg.enableStatusPoll (by simp)
  obtain ⟨on₂, h₂⟩ := hswitch "enable_ptz_poll" cfg.enablePtzPoll (by simp)
  obtain ⟨on₃, h₃⟩ := hswitch "enable_stream_poll" cfg.enableStreamPoll (by simp)
  obtain ⟨start, hstart⟩ : ∃ value, readBool m "auto_start" cfg.autoStart = some value :=
    Option.isSome_iff_exists.1 (readBool_isSome.2 (h.switch _ (by simp)))
  rw [← Option.isSome_iff_exists, overrideMonitorConfig]
  simp only [hpoll, hstatus, hptz, hlaser, hstream, hwindow, hthreshold, h₁, h₂, h₃, hstart,
    Option.bind_eq_bind, Option.bind_some, Option.pure_def, Option.isSome_some]

/-- A switch that can be read, where there are capabilities. -/
theorem applyMonitorSwitch_true {key : String} {enabled on : Bool}
    (h : applyMonitorSwitch m key true enabled enabled = some on) :
    (on = true → enabled = true) ∧
      (m.find key ≠ some (.boolean false) → enabled = true → on = true) := by
  rw [applyMonitorSwitch] at h
  cases hfield : m.find key with
  | none => simp_all
  | some field =>
    cases field with
    | boolean requested => cases requested <;> simp_all [Json.asBool]
    | _ => simp_all [Json.asBool]

end

/-! ## The configuration of the monitor -/

section
variable {capability podCfg : Json} {cfg : PodMonitorConfig}

/-- What is polled is what the monitor takes for open. -/
theorem capabilityMonitorConfig_cases (h : capabilityMonitorConfig capability = some cfg) :
    ∀ type ∈ polled, isOpen capability (capabilityTypeToKey type) = some (cfg.polls type) := by
  simp only [capabilityMonitorConfig, Option.bind_eq_bind, Option.bind_eq_some_iff,
    Option.pure_def, Option.some.injEq] at h
  obtain ⟨status, hstatus, ptz, hptz, laser, hlaser, stream, hstream, rfl⟩ := h
  intro type htype
  simp only [polled, List.mem_cons, List.not_mem_nil, or_false] at htype
  obtain rfl | rfl | rfl | rfl := htype
  · exact hstatus
  · exact hptz
  · exact hlaser
  · exact hstream

/-- The capabilities can be read where each section can. -/
theorem capabilityMonitorConfig_ne_none :
    capabilityMonitorConfig capability ≠ none ↔ ∀ type ∈ polled, Readable capability type := by
  constructor
  · intro h type htype
    obtain ⟨cfg, hcfg⟩ := Option.ne_none_iff_exists'.1 h
    rw [readable_iff, capabilityMonitorConfig_cases hcfg type htype]
    exact Option.some_ne_none _
  · intro h
    have hopen : ∀ type ∈ polled, ∃ b, isOpen capability (capabilityTypeToKey type) = some b :=
      fun type htype => Option.ne_none_iff_exists'.1 (readable_iff.1 (h type htype))
    obtain ⟨status, hstatus⟩ := hopen .status (by simp [polled])
    obtain ⟨ptz, hptz⟩ := hopen .ptz (by simp [polled])
    obtain ⟨laser, hlaser⟩ := hopen .laser (by simp [polled])
    obtain ⟨stream, hstream⟩ := hopen .stream (by simp [polled])
    simp only [capabilityTypeToKey] at hstatus hptz hlaser hstream
    simp only [capabilityMonitorConfig, hstatus, hptz, hlaser, hstream, Option.bind_eq_bind,
      Option.bind_some, Option.pure_def, ne_eq, reduceCtorEq, not_false_eq_true]

/-- Only the four polls are set. -/
theorem mem_polled_of_polls {type : CapabilityType} (h : cfg.polls type = true) :
    type ∈ polled := by
  cases type with
  | status | ptz | laser | stream => simp [polled]
  | heartbeat | image | centerMeasure => cases h

/-- What is read of the capabilities, and whether there are any. -/
def baseConfig (podCfg : Json) : Option (Bool × PodMonitorConfig) :=
  match podCfg.find "capability" with
  | some (.object fields) => (capabilityMonitorConfig (.object fields)).map fun cfg => (true, cfg)
  | _ => some (false, {})

/-- The configuration of a monitor is that of the capabilities, which its own section overrides. -/
theorem parseMonitorConfig_eq (podCfg : Json) : parseMonitorConfig podCfg =
    (baseConfig podCfg).bind fun base =>
      overrideMonitorConfig base.1 base.2 (monitorNode podCfg) := by
  unfold parseMonitorConfig baseConfig monitorNode Json.getObjectOr
  cases podCfg.find "capability" with
  | none =>
    cases podCfg.find "monitor" with
    | none => rfl
    | some m => cases m <;> rfl
  | some capability =>
    cases podCfg.find "monitor" with
    | none => cases capability <;> rfl
    | some m => cases m <;> cases capability <;> rfl

/-- The configuration without its monitor section. -/
def withoutMonitor : Json → Json
  | .object fields => .object (fields.filter fun field => field.1 ≠ "monitor")
  | j => j

/-- Without its monitor section a configuration is the same under all other keys. -/
theorem find_withoutMonitor {key : String} (h : key ≠ "monitor") :
    (withoutMonitor podCfg).find key = podCfg.find key := by
  cases podCfg with
  | object fields =>
    show (fields.filter _).lookup key = fields.lookup key
    induction fields with
    | nil => rfl
    | cons field fields ih =>
      obtain ⟨k, v⟩ := field
      by_cases hk : k = "monitor"
      · rw [List.filter_cons_of_neg (by simp [hk]), ih, List.lookup_cons, hk,
          beq_eq_false_iff_ne.2 h]
      · rw [List.filter_cons_of_pos (by simp [hk]), List.lookup_cons, List.lookup_cons, ih]
  | _ => rfl

/-- Without its monitor section it has none. -/
theorem monitorNode_withoutMonitor : monitorNode (withoutMonitor podCfg) = .object [] := by
  have hnone : (withoutMonitor podCfg).find "monitor" = none := by
    cases podCfg with
    | object fields =>
      show (fields.filter _).lookup "monitor" = none
      rw [List.lookup_eq_none_iff]
      intro field hfield
      have hne := of_decide_eq_true (List.mem_filter.1 hfield).2
      exact bne_iff_ne.2 fun h => hne h.symm
    | _ => rfl
  rw [monitorNode, Json.getObjectOr, hnone]

/-- Without the monitor section the capabilities alone decide. -/
theorem parseMonitorConfig_withoutMonitor :
    parseMonitorConfig (withoutMonitor podCfg) = (baseConfig podCfg).map Prod.snd := by
  have hbase : baseConfig (withoutMonitor podCfg) = baseConfig podCfg := by
    rw [baseConfig, find_withoutMonitor (by decide), baseConfig]
  rw [parseMonitorConfig_eq, hbase, monitorNode_withoutMonitor]
  cases baseConfig podCfg <;> rfl

end

/-! ## The polls and the pod's view -/

/-- The polls follow the pod's own view of its capabilities. -/
structure Follows (pod : Pod) (podCfg : Json) : Prop where
  /-- The capabilities are read without an exception. -/
  noThrow : parseMonitorConfig (withoutMonitor podCfg) ≠ none
  sound : ∀ cfg, parseMonitorConfig podCfg = some cfg →
    ∀ type, cfg.polls type = true → pod.isCapabilityEnabled type = true
  complete : ∀ cfg, parseMonitorConfig podCfg = some cfg → ¬ SwitchedOff (monitorNode podCfg) →
    podCfg.find "capability" ≠ none →
      ∀ type ∈ polled, pod.isCapabilityEnabled type = true → cfg.polls type = true
  onlyOff : ∀ cfg, parseMonitorConfig podCfg = some cfg → podCfg.find "capability" ≠ none →
    ∃ base, parseMonitorConfig (withoutMonitor podCfg) = some base ∧
      ∀ type, cfg.polls type = true → base.polls type = true

/-- Where there are capabilities, they are an object, none of the four says whether it is open in
anything but a string, and unless a switch is off each of them says it. -/
def Spelled (podCfg : Json) : Prop :=
  match podCfg.find "capability" with
  | none => True
  | some (.object fields) =>
    (∀ type ∈ polled, Readable (.object fields) type) ∧
      (MonitorReadable (monitorNode podCfg) → ¬ SwitchedOff (monitorNode podCfg) →
        ∀ type ∈ polled, Explicit (.object fields) type)
  | some _ => MonitorReadable (monitorNode podCfg) → SwitchedOff (monitorNode podCfg)

section
variable {m : Json} {base cfg : PodMonitorConfig}

/-- A switch turns a poll off, never on. -/
theorem polls_override (h : overrideMonitorConfig true base m = some cfg) (type : CapabilityType) :
    (cfg.polls type = true → base.polls type = true) ∧
      (¬ SwitchedOff m → base.polls type = true → cfg.polls type = true) := by
  obtain ⟨-, hstatus, hptz, hstream, hlaser⟩ := overrideMonitorConfig_cases h
  have hswitch : ∀ type ∈ polled, ¬ SwitchedOff m →
      m.find (switchKey type) ≠ some (.boolean false) := fun type htype hoff hfind =>
    hoff ⟨type, htype, hfind⟩
  cases type with
  | status =>
    obtain ⟨hdown, hup⟩ := applyMonitorSwitch_true hstatus
    exact ⟨hdown, fun hoff => hup (hswitch .status (by simp [polled]) hoff)⟩
  | ptz =>
    obtain ⟨hdown, hup⟩ := applyMonitorSwitch_true hptz
    exact ⟨hdown, fun hoff => hup (hswitch .ptz (by simp [polled]) hoff)⟩
  | stream =>
    obtain ⟨hdown, hup⟩ := applyMonitorSwitch_true hstream
    exact ⟨hdown, fun hoff => hup (hswitch .stream (by simp [polled]) hoff)⟩
  | laser => exact ⟨hlaser.symm.trans, fun _ => hlaser.trans⟩
  | heartbeat | image | centerMeasure => exact ⟨id, fun _ => id⟩

/-- Without capabilities the laser is not polled, whatever the section says. -/
theorem polls_override_default (h : overrideMonitorConfig false {} m = some cfg) :
    cfg.polls .laser = false ∧
      ∀ type, cfg.polls type = true → PodMonitorConfig.polls {} type = true := by
  obtain ⟨-, -, -, -, hlaser⟩ := overrideMonitorConfig_cases h
  refine ⟨hlaser, fun type htype => ?_⟩
  cases type with
  | status | ptz | stream => rfl
  | laser => exact absurd htype (by rw [PodMonitorConfig.polls, hlaser]; simp)
  | heartbeat | image | centerMeasure => cases htype

end

section
variable (vendor : PodVendor) (info : PodInfo) {fields : List (String × Json)}

/-- Without capabilities the pod takes every one for enabled. -/
theorem isCapabilityEnabled_default
    (h : ∀ node, (Json.object fields).find "capability" ≠ some (.object node))
    (type : CapabilityType) :
    ((Pod.make vendor info).init (.object fields)).1.isCapabilityEnabled type = true := by
  have hnode : capabilityNode (.object fields) = .object [] := by
    rw [capabilityNode, Json.getObjectOr]
    cases hcap : (Json.object fields).find "capability" with
    | none => rfl
    | some value =>
      cases value with
      | object node => exact absurd hcap (h node)
      | _ => rfl
  rw [isCapabilityEnabled_init, hnode]
  rfl

/-- Without capabilities there are the defaults. -/
theorem baseConfig_default
    (h : ∀ node, (Json.object fields).find "capability" ≠ some (.object node)) :
    baseConfig (.object fields) = some (false, {}) := by
  rw [baseConfig]
  split
  · next node hcap => exact absurd hcap (h node)
  · rfl

/-- Where the node is no object, the laser is the one that is enabled and not polled. -/
theorem follows_default_iff
    (h : ∀ node, (Json.object fields).find "capability" ≠ some (.object node)) :
    Follows ((Pod.make vendor info).init (.object fields)).1 (.object fields) ↔
      ((Json.object fields).find "capability" ≠ none →
        MonitorReadable (monitorNode (.object fields)) →
          SwitchedOff (monitorNode (.object fields))) := by
  have hbase := baseConfig_default h
  have henabled := isCapabilityEnabled_default vendor info h
  have hparse : parseMonitorConfig (.object fields) =
      overrideMonitorConfig false {} (monitorNode (.object fields)) := by
    rw [parseMonitorConfig_eq, hbase]
    rfl
  have hwithout : parseMonitorConfig (withoutMonitor (.object fields)) = some {} := by
    rw [parseMonitorConfig_withoutMonitor, hbase]
    rfl
  constructor
  · intro hf hsome hreadable
    by_contra hoff
    obtain ⟨cfg, hcfg⟩ := hreadable.exists_override false {}
    have hlaser := hf.complete cfg (hparse.trans hcfg) hoff hsome .laser (by simp [polled])
      (henabled .laser)
    rw [(polls_override_default hcfg).1] at hlaser
    cases hlaser
  · intro hoff
    refine ⟨by simp [hwithout], fun cfg _ type _ => henabled type, ?_, ?_⟩
    · intro cfg hcfg hno hsome
      exact absurd (hoff hsome (overrideMonitorConfig_cases (hparse.symm.trans hcfg)).1) hno
    · intro cfg hcfg _
      exact ⟨{}, hwithout, (polls_override_default (hparse.symm.trans hcfg)).2⟩

section
variable {node : List (String × Json)}
  (h : (Json.object fields).find "capability" = some (.object node))
include h

/-- With capabilities there is what they say. -/
theorem baseConfig_object : baseConfig (.object fields) =
    (capabilityMonitorConfig (.object node)).map fun cfg => (true, cfg) := by
  rw [baseConfig, h]

/-- The pod's own view, with capabilities. -/
theorem isCapabilityEnabled_object (type : CapabilityType) :
    ((Pod.make vendor info).init (.object fields)).1.isCapabilityEnabled type =
      isEnabled (readConfigOf type (.object node)) := by
  have hnode : capabilityNode (.object fields) = .object node := by
    rw [capabilityNode, Json.getObjectOr, h]
    rfl
  rw [isCapabilityEnabled_init, hnode]

/-- The view of the monitor, with capabilities and without a section of its own. -/
theorem parseMonitorConfig_withoutMonitor_object :
    parseMonitorConfig (withoutMonitor (.object fields)) =
      capabilityMonitorConfig (.object node) := by
  rw [parseMonitorConfig_withoutMonitor, baseConfig_object h]
  cases capabilityMonitorConfig (.object node) <;> rfl

/-- The view of the monitor, with capabilities. -/
theorem parseMonitorConfig_object {cfg : PodMonitorConfig} :
    parseMonitorConfig (.object fields) = some cfg ↔
      ∃ base, capabilityMonitorConfig (.object node) = some base ∧
        overrideMonitorConfig true base (monitorNode (.object fields)) = some cfg := by
  rw [parseMonitorConfig_eq, baseConfig_object h, Option.bind_map, Option.bind_eq_some_iff]
  rfl

end

/-- What is polled is what is open. -/
theorem polls_iff_isOpen {node : List (String × Json)} {base : PodMonitorConfig}
    (hbase : capabilityMonitorConfig (.object node) = some base) {type : CapabilityType}
    (htype : type ∈ polled) :
    base.polls type = true ↔ isOpen (.object node) (capabilityTypeToKey type) = some true := by
  rw [capabilityMonitorConfig_cases hbase type htype, Option.some.injEq]

/-- Where it is an object, each section must be readable, and each that counts explicit. -/
theorem follows_object_iff {node : List (String × Json)}
    (h : (Json.object fields).find "capability" = some (.object node)) :
    Follows ((Pod.make vendor info).init (.object fields)).1 (.object fields) ↔
      (∀ type ∈ polled, Readable (.object node) type) ∧
        (MonitorReadable (monitorNode (.object fields)) →
          ¬ SwitchedOff (monitorNode (.object fields)) →
            ∀ type ∈ polled, Explicit (.object node) type) := by
  have henabled := isCapabilityEnabled_object vendor info h
  have hwithout := parseMonitorConfig_withoutMonitor_object h
  constructor
  · intro hf
    have hread : capabilityMonitorConfig (.object node) ≠ none := hwithout ▸ hf.noThrow
    refine ⟨capabilityMonitorConfig_ne_none.1 hread, fun hmonitor hoff type htype => ?_⟩
    obtain ⟨base, hb⟩ := Option.ne_none_iff_exists'.1 hread
    obtain ⟨cfg, hcfg⟩ := hmonitor.exists_override true base
    rw [explicit_iff, ← henabled]
    intro hen
    have hparse := (parseMonitorConfig_object h).2 ⟨base, hb, hcfg⟩
    have hpoll := hf.complete cfg hparse hoff (by simp [h]) type htype hen
    exact (polls_iff_isOpen hb htype).1 ((polls_override hcfg type).1 hpoll)
  · intro ⟨hread, hexplicit⟩
    refine ⟨?_, ?_, ?_, ?_⟩
    · rw [hwithout]
      exact capabilityMonitorConfig_ne_none.2 hread
    · intro cfg hcfg type hpoll
      obtain ⟨base, hb, ho⟩ := (parseMonitorConfig_object h).1 hcfg
      rw [henabled]
      exact isEnabled_of_isOpen ((polls_iff_isOpen hb (mem_polled_of_polls hpoll)).1
        ((polls_override ho type).1 hpoll))
    · intro cfg hcfg hoff _ type htype hen
      obtain ⟨base, hb, ho⟩ := (parseMonitorConfig_object h).1 hcfg
      have hspelled := hexplicit (overrideMonitorConfig_cases ho).1 hoff type htype
      rw [henabled] at hen
      exact (polls_override ho type).2 hoff
        ((polls_iff_isOpen hb htype).2 (explicit_iff.1 hspelled hen))
    · intro cfg hcfg _
      obtain ⟨base, hb, ho⟩ := (parseMonitorConfig_object h).1 hcfg
      exact ⟨base, hwithout.trans hb, fun type => (polls_override ho type).1⟩

end

/-- **The polls follow the pod.** -/
theorem follows_iff (vendor : PodVendor) (info : PodInfo) (fields : List (String × Json)) :
    Follows ((Pod.make vendor info).init (.object fields)).1 (.object fields) ↔
      Spelled (.object fields) := by
  rw [Spelled]
  split
  · next hnone =>
    rw [follows_default_iff vendor info (by simp [hnone]), hnone]
    simp
  · next node hcap => exact follows_object_iff vendor info hcap
  · next value hno hcap =>
    rw [follows_default_iff vendor info fun node hnode => hno node (Option.some.inj
      (hcap.symm.trans hnode)), hcap]
    simp

/-- A section whose `open` is a boolean: the pod takes it for enabled, the manager throws. -/
theorem not_follows : ¬ ∀ (vendor : PodVendor) (info : PodInfo) (fields : List (String × Json)),
    Follows ((Pod.make vendor info).init (.object fields)).1 (.object fields) := by
  intro h
  exact (h .dji {} [("capability", .object [("PTZ", .object [("open", .boolean true)])])]).noThrow
    rfl

end PodModule
