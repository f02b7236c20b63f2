import FastCppServer.Searchlight.State
import FastCppServer.Searchlight.Stream
import Mathlib.Data.List.Range

/-!
# The searchlight command path

`Lamp` is what a command does, said without frames: `Command.apply`, with the arguments clamped. A
command built, decoded and applied to the reported state does to it what it does to the lamp
(`lamp_markOnlineByFrame`), so a list of commands does (`command_path`): the reported state refines
the lamp.
-/

namespace SearchlightControl

open Framing Bytes

/-! ## The reference model -/

/-- The device as its commands see it. -/
structure Lamp where
  led : LedPowerState
  flash : FlashState
  brightness : Int
  flashHz : Int
  servoX : Int
  servoY : Int
  deriving DecidableEq

/-- What a command does to the lamp. -/
def Command.apply : Command → Lamp → Lamp
  | .ledOn, lamp => { lamp with led := .on, flash := .disabled }
  | .ledOff, lamp => { lamp with led := .off, flash := .disabled }
  | .brightness level, lamp => { lamp with brightness := max 0 (min level 100), led := .on }
  | .flashEnable, lamp => { lamp with led := .on, flash := .enabled }
  | .flashDisable, lamp => { lamp with flash := .disabled }
  | .flashHz hz, lamp => { lamp with flashHz := max 1 (min hz 50) }
  | .servoHome, lamp => { lamp with servoX := 0, servoY := 0 }
  | .servoMoveTo x y, lamp =>
    { lamp with servoX := max (-180) (min x 180), servoY := max (-180) (min y 180) }

/-- The lamp that the reported state describes. -/
def SearchlightState.lamp (s : SearchlightState) : Lamp where
  led := s.led
  flash := s.flash
  brightness := s.brightness
  flashHz := s.flashHz
  servoX := s.servoXDegree
  servoY := s.servoYDegree

/-! ## Values on the wire -/

/-- Clamping between bounds is the usual minimum and maximum. -/
theorem clamp_eq {a b : Int} (h : a ≤ b) (v : Int) : clamp v a b = max a (min v b) := by
  unfold clamp
  split_ifs <;> omega

/-- What is clamped is between the bounds. -/
theorem clamp_bounds {a b : Int} (h : a ≤ b) (v : Int) : a ≤ clamp v a b ∧ clamp v a b ≤ b := by
  rw [clamp_eq h]
  omega

/-- A value that fits a byte is read back from it. -/
theorem toNat_ofInt {v : Int} (hl : 0 ≤ v) (hu : v < 256) : ((UInt8.ofInt v).toNat : Int) = v := by
  unfold UInt8.ofInt
  rw [UInt8.toNat_ofNat']
  omega

/-- The two bytes of a number, high byte first. -/
theorem appendBigEndianInt16_eq {v : Int} (hl : -32768 ≤ v) (hu : v ≤ 32767) (payload : List Byte) :
    appendBigEndianInt16 payload v =
      payload ++ [((Int16.ofInt v).toUInt16 >>> 8).toUInt8, (Int16.ofInt v).toUInt16.toUInt8] := by
  have hv : clamp v (-32768) 32767 = v := by
    rw [clamp_eq (by decide)]
    omega
  simp [appendBigEndianInt16, hv, and_ff]

/-- A big-endian number is read back, sign included. -/
theorem readBigEndianInt16_bytes {v : Int} (hl : -32768 ≤ v) (hu : v ≤ 32767) :
    (readBigEndianInt16 ((Int16.ofInt v).toUInt16 >>> 8).toUInt8
      (Int16.ofInt v).toUInt16.toUInt8).toInt = v := by
  have hraw := uint16_recombine (Int16.ofInt v).toUInt16
  rw [UInt16.or_comm] at hraw
  rw [readBigEndianInt16, hraw]
  exact Int16.toInt_ofInt_of_le hl (Int.lt_of_le_of_lt hu (by decide))

/-- A degree scaled to servo units and divided again is the degree. -/
theorem tdiv_unitPerDegree (d : Int) : (d * unitPerDegree).tdiv 182 = d :=
  Int.mul_tdiv_cancel d (by decide)

/-! ## One command -/

/-- **A command through the wire.** Its frame does to the reported state what the command does to
the lamp. -/
theorem lamp_applyPayloadLocked (command : Command) (c : Byte) (s : SearchlightState) :
    (applyPayloadLocked (frameOf command.payload c) s).lamp = command.apply s.lamp := by
  cases command with
  | ledOn | ledOff | flashEnable | flashDisable | servoHome => rfl
  | brightness level =>
    have hb := clamp_bounds (a := 0) (b := 100) (by decide) level
    have hv := toNat_ofInt hb.1 (by omega)
    rw [clamp_eq (by decide)] at hv
    show Lamp.mk .on s.flash (UInt8.ofInt (clamp level 0 100)).toNat s.flashHz s.servoXDegree
      s.servoYDegree = _
    rw [clamp_eq (by decide), hv]
    rfl
  | flashHz hz =>
    have hb := clamp_bounds (a := 1) (b := 50) (by decide) hz
    have hv := toNat_ofInt (show 0 ≤ clamp hz 1 50 by omega) (by omega)
    rw [clamp_eq (by decide)] at hv
    show Lamp.mk s.led s.flash s.brightness (UInt8.ofInt (clamp hz 1 50)).toNat s.servoXDegree
      s.servoYDegree = _
    rw [clamp_eq (by decide), hv]
    rfl
  | servoMoveTo x y =>
    have hx := clamp_bounds (a := -180) (b := 180) (by decide) x
    have hy := clamp_bounds (a := -180) (b := 180) (by decide) y
    have hxl : -32768 ≤ clamp x (-180) 180 * unitPerDegree := by rw [unitPerDegree]; omega
    have hxu : clamp x (-180) 180 * unitPerDegree ≤ 32767 := by rw [unitPerDegree]; omega
    have hyl : -32768 ≤ -clamp y (-180) 180 * unitPerDegree := by rw [unitPerDegree]; omega
    have hyu : -clamp y (-180) 180 * unitPerDegree ≤ 32767 := by rw [unitPerDegree]; omega
    have hxr := readBigEndianInt16_bytes hxl hxu
    have hyr := readBigEndianInt16_bytes hyl hyu
    rw [Command.payload, appendBigEndianInt16_eq hxl hxu, appendBigEndianInt16_eq hyl hyu]
    generalize (Int16.ofInt (clamp x (-180) 180 * unitPerDegree)).toUInt16 = xRaw at hxr
    generalize (Int16.ofInt (-clamp y (-180) 180 * unitPerDegree)).toUInt16 = yRaw at hyr
    show Lamp.mk s.led s.flash s.brightness s.flashHz
      ((readBigEndianInt16 (xRaw >>> 8).toUInt8 xRaw.toUInt8).toInt.tdiv 182)
      ((-(readBigEndianInt16 (yRaw >>> 8).toUInt8 yRaw.toUInt8).toInt).tdiv 182) = _
    rw [hxr, hyr, tdiv_unitPerDegree, Int.neg_mul, Int.neg_neg, tdiv_unitPerDegree,
      clamp_eq (by decide), clamp_eq (by decide)]
    rfl

/-- No order is longer than a payload may be. -/
theorem payload_length (command : Command) : command.payload.length ≤ kMaxPayloadLength := by
  cases command with
  | servoMoveTo x y => simp [Command.payload, padPayload, appendBigEndianInt16, kMaxPayloadLength]
  | servoHome => decide
  | _ => exact (show (4 : Nat) ≤ 61 by decide)

/-- An order to the lamp changes what is known of the lamp, and of nothing else. -/
theorem applyLed_frame (op value : Byte) (s : SearchlightState) :
    ∃ led flash brightness flashHz,
      applyLed op value s = { s with led, flash, brightness, flashHz } := by
  rw [applyLed]
  split_ifs <;> exact ⟨_, _, _, _, rfl⟩

/-- A payload changes the lamp and nothing else of the state. -/
theorem applyPayloadLocked_frame (frame : DecodedFrame) (s : SearchlightState) :
    ∃ led flash brightness flashHz servoXDegree servoYDegree, applyPayloadLocked frame s =
      { s with led, flash, brightness, flashHz, servoXDegree, servoYDegree } := by
  obtain ⟨led, flash, brightness, flashHz, hled⟩ :=
    applyLed_frame (byteAt frame.payload 2) (byteAt frame.payload 3) s
  rw [applyPayloadLocked, hled]
  dsimp only
  split_ifs <;> exact ⟨_, _, _, _, _, _, rfl⟩

/-- What a frame reports besides the lamp. -/
theorem markOnlineByFrame_frame (nowMs : Int) (frame : DecodedFrame) (s : SearchlightState) :
    (markOnlineByFrame nowMs frame s).presence = .online ∧
      (markOnlineByFrame nowMs frame s).rxFrameCount = s.rxFrameCount + 1 ∧
      (markOnlineByFrame nowMs frame s).checksumErrorCount = s.checksumErrorCount := by
  unfold markOnlineByFrame
  generalize hs : SearchlightState.mk _ _ _ _ _ _ _ _ _ _ _ _ _ _ _ _ = t
  obtain ⟨led, flash, brightness, flashHz, x, y, ht⟩ := applyPayloadLocked_frame frame t
  rw [ht, ← hs]
  exact ⟨rfl, rfl, rfl⟩

/-! ## A list of commands -/

/-- The frames decoded from a builder's frames. -/
def framesOf (frameCounter : Byte) : List Command → List DecodedFrame
  | [] => []
  | command :: commands =>
    frameOf command.payload frameCounter :: framesOf ((frameCounter + 1) &&& 0x03) commands

/-- The frames of some orders, one behind the other, are decoded one by one. -/
theorem scan_makeFrames (c : Byte) (commands : List Command) :
    Scan lightFramer (makeFrames c commands).flatten (framesOf c commands) [] none := by
  induction commands generalizing c with
  | nil => exact .wait (show candidate [] = .wait from rfl)
  | cons command commands ih => exact scan_encode (payload_length command) c (ih _)

/-- Nothing is left in the buffer and no error is told. -/
theorem drain_makeFrames (c : Byte) (commands : List Command) :
    drain (makeFrames c commands).flatten = { frames := framesOf c commands } := by
  obtain ⟨error, hs, he⟩ := drain_scan (makeFrames c commands).flatten
  obtain ⟨hf, hb, rfl⟩ := hs.det (scan_makeFrames c commands)
  exact Received.ext hf he hb

/-- The builder counts modulo 4. -/
theorem frameCounter_framesOf (c : Byte) (commands : List Command) :
    (framesOf c commands).map DecodedFrame.frameCounter =
      (List.range commands.length).map fun i => UInt8.ofNat ((c.toNat + i) % 4) := by
  induction commands generalizing c with
  | nil => rfl
  | cons command commands ih =>
    have hnext : ((c + 1) &&& 0x03 : Byte).toNat = (c.toNat + 1) % 4 := by
      rw [toNat_and_three, UInt8.toNat_add]
      simp
    rw [framesOf, List.map_cons, ih, List.length_cons, List.range_succ_eq_map, List.map_cons,
      List.map_map, hnext]
    congr 1
    · apply UInt8.toNat_inj.1
      show (c &&& 0x03).toNat = _
      rw [toNat_and_three, UInt8.toNat_ofNat']
      omega
    · refine List.map_congr_left fun i _ => ?_
      show UInt8.ofNat _ = UInt8.ofNat _
      congr 1
      omega

/-- The frames lead to the state that the orders ask for, and the device counts as heard of. -/
theorem markOnlineByFrames_framesOf (nowMs : Nat → Int) (s : SearchlightState) (c : Byte)
    (commands : List Command) :
    (markOnlineByFrames nowMs s (framesOf c commands)).lamp =
        commands.foldl (fun lamp command => command.apply lamp) s.lamp ∧
      (markOnlineByFrames nowMs s (framesOf c commands)).rxFrameCount =
        s.rxFrameCount + UInt64.ofNat commands.length ∧
      (markOnlineByFrames nowMs s (framesOf c commands)).checksumErrorCount =
        s.checksumErrorCount := by
  induction commands generalizing nowMs s c with
  | nil => exact ⟨rfl, (UInt64.add_zero _).symm, rfl⟩
  | cons command commands ih =>
    obtain ⟨hl, hr, he⟩ := ih (fun i => nowMs (i + 1))
      (markOnlineByFrame (nowMs 0) (frameOf command.payload c) s) ((c + 1) &&& 0x03)
    obtain ⟨-, hr₁, he₁⟩ := markOnlineByFrame_frame (nowMs 0) (frameOf command.payload c) s
    refine ⟨?_, ?_, ?_⟩
    · rw [List.foldl_cons, ← show (markOnlineByFrame (nowMs 0) (frameOf command.payload c) s).lamp =
        command.apply s.lamp from lamp_applyPayloadLocked command c _]
      exact hl
    · rw [framesOf, markOnlineByFrames, hr, hr₁, List.length_cons, UInt64.ofNat_add,
        UInt64.add_assoc, UInt64.add_comm 1]
      rfl
    · rw [framesOf, markOnlineByFrames, he, he₁]

/-- **The command path refines the lamp.** The frames one builder makes of any list of commands are
decoded whole, without error and with consecutive counters, and applied to the reported state they
do to it what the commands do to the lamp; every one of them is counted. -/
theorem command_path (c : Byte) (nowMs : Nat → Int) (s : SearchlightState)
    (commands : List Command) :
    let received := drain (makeFrames c commands).flatten
    let reported := markOnlineByFrames nowMs s received.frames
    received.buffer = [] ∧ received.errors = [] ∧
      received.frames.map DecodedFrame.frameCounter =
        ((List.range commands.length).map fun i => UInt8.ofNat ((c.toNat + i) % 4)) ∧
      reported.lamp = commands.foldl (fun lamp command => command.apply lamp) s.lamp ∧
      reported.rxFrameCount = s.rxFrameCount + UInt64.ofNat commands.length ∧
      reported.checksumErrorCount = s.checksumErrorCount := by
  intro received reported
  have hreceived : received = { frames := framesOf c commands } := drain_makeFrames c commands
  have hreported : reported = markOnlineByFrames nowMs s (framesOf c commands) := by
    show markOnlineByFrames nowMs s received.frames = _
    rw [hreceived]
  rw [hreceived, hreported]
  exact ⟨rfl, rfl, frameCounter_framesOf c commands, markOnlineByFrames_framesOf nowMs s c commands⟩

end SearchlightControl
