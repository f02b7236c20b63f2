import FastCppServer.FlyControl.RoundTrip
import FastCppServer.FlyControl.Send

/-!
# What a `Send*` method hands to the port

A call of a `Send*` method by itself: it is refused, or one frame goes to `serial_.Write`. A method
that fills the structure itself writes the command byte that belongs to it; the five methods that
take the structure from the caller write the byte that stands in there. So a fresh parser pops the
frame as that of the called method just where the structure has its own byte
(`send_wellFormed_iff`).
-/

namespace FlyControl

open Framing Bytes Cursor MyLEHelper

/-! ## A call -/

/-- What a call does: what it returns, the text in `err`, and what `serial_.Write` gets. -/
structure Outcome where
  returned : Bool
  err : Option String
  handed : List (List Byte)

/-- `SendRawData`, with what `serial_.Write` returns and writes into `err`. -/
def sendRawData (write : List Byte → Nat × Option String) (data : List Byte) : Outcome :=
  let (written, err) := write data
  { returned := written = data.length, err, handed := [data] }

/-- A call of a `Send*` method that gets this number. -/
def Send.outcome (write : List Byte → Nat × Option String) (cnt : Byte) (send : Send) : Outcome :=
  match send.command with
  | .error e => { returned := false, err := some e, handed := [] }
  | .ok command => sendRawData write (encode cnt command)

/-- The command byte in the structure. -/
def Command.cmdType : Command → Byte
  | .setDestination data => data.cmdType
  | .setRoute data => data.cmdType
  | .setAngle data => data.cmdType
  | .setSpeed data => data.cmdType
  | .setAltitude data => data.cmdType
  | .powerSwitch data => data.cmdType
  | .parachute data => data.cmdType
  | .buttonCommand data => data.cmdType
  | .setOriginReturn data => data.cmdType
  | .setGeofence data => data.cmdType
  | .switchMode data => data.cmdType
  | .guidance data => data.cmdType
  | .guidanceNew data => data.cmdType
  | .gimbalAngRate data => data.cmdType
  | .gimbalAngle data => data.cmdType
  | .targetState data => data.cmdType

/-- The command byte that belongs to the function. -/
def Command.ownType : Command → Byte
  | .setDestination _ => cmdSetDestination
  | .setRoute _ => cmdSetRoute
  | .setAngle _ => cmdSetAngle
  | .setSpeed _ => cmdSetSpeed
  | .setAltitude _ => cmdSetAltitude
  | .powerSwitch _ => cmdPowerSwitch
  | .parachute _ => cmdParachute
  | .buttonCommand _ => cmdButton
  | .setOriginReturn _ => cmdSetOriginReturn
  | .setGeofence _ => cmdSetGeofence
  | .switchMode _ => cmdSwitchMode
  | .guidance _ => cmdGuidance
  | .guidanceNew _ => cmdGuidanceNew
  | .gimbalAngRate _ => cmdGimbalAngRate
  | .gimbalAngle _ => cmdGimbalAngle
  | .targetState _ => cmdTargetState

/-- The same arguments under that byte. -/
def Command.restore : Command → Command
  | .setDestination data => .setDestination { data with cmdType := cmdSetDestination }
  | .setRoute data => .setRoute { data with cmdType := cmdSetRoute }
  | .setAngle data => .setAngle { data with cmdType := cmdSetAngle }
  | .setSpeed data => .setSpeed { data with cmdType := cmdSetSpeed }
  | .setAltitude data => .setAltitude { data with cmdType := cmdSetAltitude }
  | .powerSwitch data => .powerSwitch { data with cmdType := cmdPowerSwitch }
  | .parachute data => .parachute { data with cmdType := cmdParachute }
  | .buttonCommand data => .buttonCommand { data with cmdType := cmdButton }
  | .setOriginReturn data => .setOriginReturn { data with cmdType := cmdSetOriginReturn }
  | .setGeofence data => .setGeofence { data with cmdType := cmdSetGeofence }
  | .switchMode data => .switchMode { data with cmdType := cmdSwitchMode }
  | .guidance data => .guidance { data with cmdType := cmdGuidance }
  | .guidanceNew data => .guidanceNew { data with cmdType := cmdGuidanceNew }
  | .gimbalAngRate data => .gimbalAngRate { data with cmdType := cmdGimbalAngRate }
  | .gimbalAngle data => .gimbalAngle { data with cmdType := cmdGimbalAngle }
  | .targetState data => .targetState { data with cmdType := cmdTargetState }

/-- A fresh parser pops the bytes as one valid frame, with this number, the type and the command
byte of the function, and the arguments. -/
def WellFormed (cnt : Byte) (command : Command) (bytes : List Byte) : Prop :=
  ∃ frame, drain (feedData [] bytes) = ([frame], []) ∧ frame.valid = true ∧ frame.cnt = cnt ∧
    frame.frameType = command.frameType ∧ frame.payload.head? = some command.ownType ∧
    frame.payload = command.restore.payload ∧
    readCommand frame.frameType frame.payload 0 =
      (.ok (some command.restore), frame.payload.length)

/-- The call is refused with a text in `err`, or it hands over one such frame. -/
def Sends (cnt : Byte) (send : Send) (o : Outcome) : Prop :=
  (o.returned = false ∧ (∃ e, o.err = some e) ∧ o.handed = []) ∨
    ∃ command bytes, send.command = .ok command ∧ o.handed = [bytes] ∧ WellFormed cnt command bytes

/-- A structure that the caller has filled keeps the command byte of its function. -/
def Send.OwnType : Send → Prop
  | .guidance data => data.cmdType = cmdGuidance
  | .guidanceNew data => data.cmdType = cmdGuidanceNew
  | .gimbalAngRate data => data.cmdType = cmdGimbalAngRate
  | .gimbalAngle data => data.cmdType = cmdGimbalAngle
  | .targetState data => data.cmdType = cmdTargetState
  | _ => True

/-! ## The command byte -/

/-- A payload begins with the command byte of its structure. -/
theorem Command.payload_eq (c : Command) : c.payload = c.cmdType :: c.payload.tail := by
  cases c with
  | setRoute data =>
    rw [Command.payload, setRoutePayload_eq]
    rfl
  | setGeofence data =>
    rw [Command.payload, setGeofencePayload_eq]
    rfl
  | _ =>
    simp [Command.payload, Command.cmdType, setDestinationPayload, setAnglePayload, setSpeedPayload,
      setAltitudePayload, powerSwitchPayload, parachutePayload, buttonCommandPayload,
      setOriginReturnPayload, switchModePayload, guidancePayload, guidanceNewPayload,
      gimbalAngRatePayload, gimbalAnglePayload, targetStatePayload]

/-- The arguments stand behind the command byte. -/
theorem Command.restore_payload (c : Command) :
    c.restore.payload = c.ownType :: c.payload.tail := by
  cases c with
  | setRoute data =>
    rw [Command.restore, Command.payload, Command.payload, setRoutePayload_eq, setRoutePayload_eq]
    rfl
  | setGeofence data =>
    rw [Command.restore, Command.payload, Command.payload, setGeofencePayload_eq,
      setGeofencePayload_eq]
    rfl
  | _ =>
    simp [Command.restore, Command.payload, Command.ownType, setDestinationPayload,
      setAnglePayload, setSpeedPayload, setAltitudePayload, powerSwitchPayload, parachutePayload,
      buttonCommandPayload, setOriginReturnPayload, switchModePayload, guidancePayload,
      guidanceNewPayload, gimbalAngRatePayload, gimbalAnglePayload, targetStatePayload]

/-- The frame type does not depend on the command byte. -/
theorem Command.restore_frameType (c : Command) : c.restore.frameType = c.frameType := by
  cases c <;> rfl

/-- With the byte restored, and a number of points that fits, the structure is as it should be. -/
theorem Send.restore_own {send : Send} {c : Command} (h : send.command = .ok c) :
    c.restore.Own := by
  cases send with
  | setRoute points =>
    simp only [Send.command] at h
    split at h
    · cases h
    next hlen =>
      cases h
      rw [not_or] at hlen
      exact ⟨rfl, by dsimp only; omega⟩
  | setGeofence points =>
    simp only [Send.command] at h
    split at h
    · cases h
    next hlen =>
      cases h
      rw [not_or] at hlen
      exact ⟨rfl, by dsimp only; omega⟩
  | _ =>
    cases h
    exact rfl

/-- A method that fills the structure itself leaves its default byte. -/
theorem Send.ownType_iff {send : Send} {c : Command} (h : send.command = .ok c) :
    send.OwnType ↔ c.cmdType = c.ownType := by
  cases send with
  | setRoute points =>
    simp only [Send.command] at h
    split at h
    · cases h
    · cases h
      exact iff_of_true trivial rfl
  | setGeofence points =>
    simp only [Send.command] at h
    split at h
    · cases h
    · cases h
      exact iff_of_true trivial rfl
  | guidance data | guidanceNew data | gimbalAngRate data | gimbalAngle data | targetState data =>
    cases h
    exact Iff.rfl
  | _ =>
    cases h
    exact iff_of_true trivial rfl

/-! ## A frame that takes up the buffer -/

/-- The frames of a scan fit into the buffer, and the only one that takes all of it stands at its
front. -/
theorem scan_whole {b r : List Byte} {frame : ParsedFrame} (h : Scan flyFramer b [frame] r none) :
    frame.payload.length + 7 ≤ b.length ∧
      (frame.payload.length + 7 = b.length → frame = parsedFrame b b.length) := by
  generalize has : [frame] = as at h
  generalize none = e at h
  induction h with
  | wait hv => cases has
  | fail hv => cases has
  | @skip b n as r e hv hs ih =>
    have hbounds := flyFramer.skip_bounds hv
    obtain ⟨hle, -⟩ := ih has
    rw [List.length_drop] at hle
    exact ⟨by omega, fun heq => by omega⟩
  | @emit b a n as r e hv hs ih =>
    cases has
    have hd := candidate_decides b
    have hv : candidate b = .emit frame n := hv
    rw [hv] at hd
    cases hd with
    | frame hh h0 hle htail =>
      have hbounds := expectedLen_bounds h0
      have hlen := parsedFrame_payload_length hbounds.1 hle
      refine ⟨by omega, fun heq => ?_⟩
      rw [hlen] at heq
      rw [heq]

/-- A frame is well formed just if the caller has left the command byte as it was. -/
theorem wellFormed_iff {cnt : Byte} {c : Command} (h : c.restore.Own) :
    WellFormed cnt c (encode cnt c) ↔ c.cmdType = c.ownType := by
  constructor
  · rintro ⟨frame, hdrain, -, -, -, -, hpayload, -⟩
    -- the frame is as long as what was handed over
    have hs := drain_scan (feedData [] (encode cnt c))
    rw [hdrain] at hs
    obtain ⟨-, hwhole⟩ := scan_whole hs
    have hlen : frame.payload.length + 7 = (feedData [] (encode cnt c)).length := by
      have htail := congrArg List.length c.payload_eq
      rw [hpayload, c.restore_payload, feedData, List.nil_append, encode_eq,
        buildFrame_length, htail]
      rfl
    have hframe := hwhole hlen
    rw [feedData, List.nil_append, encode_eq, parsedFrame_buildFrame] at hframe
    rw [hframe, c.restore_payload] at hpayload
    exact (List.cons.inj (c.payload_eq.symm.trans hpayload)).1
  · intro hcmd
    have heq : c.restore.payload = c.payload := by
      rw [c.restore_payload, ← hcmd, ← c.payload_eq]
    have hintact := h.intact cnt
    rw [c.restore_frameType, heq] at hintact
    refine ⟨frameOf cnt c.frameType c.payload, ?_, rfl, rfl, rfl, ?_, heq.symm, ?_⟩
    · have hscan := hintact.scan scan_nil
      rw [List.append_nil, ← encode_eq] at hscan
      obtain ⟨hframes, hrest, -⟩ := (drain_scan (feedData [] (encode cnt c))).det hscan
      exact Prod.ext hframes hrest
    · rw [← hcmd, frameOf]
      dsimp only
      rw [c.payload_eq]
      rfl
    · have hreads := h.reads
      rw [c.restore_frameType, heq] at hreads
      refine hreads.run ?_
      have hbounds := expectedLen_bounds (b := buildFrame cnt c.frameType c.payload)
        (by rw [hintact, buildFrame_length]; omega)
      rw [hintact, buildFrame_length, maxFrameLen] at hbounds
      rw [sizeMod]
      omega

/-- **A `Send*` method hands over one well-formed frame or nothing**, just where a structure that
the caller has filled has the command byte of the called function. -/
theorem send_wellFormed_iff (write : List Byte → Nat × Option String) (cnt : Byte) (send : Send) :
    Sends cnt send (send.outcome write cnt) ↔ send.OwnType := by
  rw [Send.outcome]
  cases hc : send.command with
  | error e =>
    refine iff_of_true (.inl ⟨rfl, ⟨e, rfl⟩, rfl⟩) ?_
    cases send with
    | guidance data | guidanceNew data | gimbalAngRate data | gimbalAngle data | targetState data =>
      cases hc
    | _ => trivial
  | ok c =>
    have hiff : WellFormed cnt c (encode cnt c) ↔ c.cmdType = c.ownType :=
      wellFormed_iff (Send.restore_own hc)
    rw [Send.ownType_iff hc, ← hiff]
    constructor
    · rintro (⟨-, -, hnone⟩ | ⟨c', bytes, hc', hbytes, hwell⟩)
      · cases hnone
      · obtain rfl := Except.ok.inj (hc.symm.trans hc')
        cases hbytes
        exact hwell
    · intro hwell
      exact .inr ⟨c, encode cnt c, hc, rfl, hwell⟩

/-- A guidance command with the byte of the angular-rate mode. -/
theorem send_not_wellFormed :
    ¬ ∀ (write : List Byte → Nat × Option String) (cnt : Byte) (send : Send),
      Sends cnt send (send.outcome write cnt) := by
  intro h
  rcases h (fun data => (data.length, none)) 0 (.guidance { cmdType := cmdGimbalAngRate }) with
    ⟨-, -, hnone⟩ | ⟨c, bytes, hc, hbytes, hwell⟩
  · cases hnone
  · cases hc
    cases hbytes
    have hown : (Command.guidance { cmdType := cmdGimbalAngRate }).restore.Own := rfl
    have hcmd := (wellFormed_iff hown).1 hwell
    revert hcmd
    decide

end FlyControl
