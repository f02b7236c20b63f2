import FastCppServer.Lib.Transition
import FastCppServer.FlyControl.Inbound

/-!
# Receive sessions

`MyFlyControl::Start`, `Stop` and the thread of `ReceiveLoop` between them. `Start` clears the
parser, the thread feeds it what `ReadBytes` returns and hands every frame with a right checksum to
`HandleFrame`, and `Stop` waits for the thread to leave its loop. The calls of the owner and the
steps of the thread interleave. The callbacks are ones that return: `HandleFrame` catches nothing of
what they throw, and a `Stop` from within one would wait for its own thread.

What the thread handles is decided by the bytes of each session alone (`session_exact`): neither
where the reads cut them nor when a read fails or finds nothing counts, and the end of one session
does not become the front of a frame in the next. The latest heartbeat outlives the sessions.
-/

namespace FlyControl

open Framing Transition Bytes

/-! ## The steps -/

/-- Where the thread of `ReceiveLoop` stands. -/
inductive LoopPhase where
  /-- At `while (running_.load())`. -/
  | check
  /-- In `serial_.ReadBytes`. -/
  | read
  /-- At `while (parser_.PopFrame(frame))`. -/
  | popping
  deriving DecidableEq

/-- `MyFlyControl` as far as it receives. -/
structure Session where
  running : Bool := false
  /-- `Stop` has cleared `running_` and waits in `join`. -/
  joining : Bool := false
  thread : Thread LoopPhase := .none
  /-- The buffer of `parser_`. -/
  buffer : List Byte := []
  receiver : Receiver := {}
  /-- The callbacks called and the warnings written, in order. -/
  handled : List Handled := []
  /-- An exception has left the thread. -/
  crashed : Bool := false

namespace Session

/-- A call of the owner, or a step of the thread with what the port does in it. -/
inductive Label where
  /-- A call of `Start` that returns `true`: the port was open, or could be opened. -/
  | start
  /-- A call of `Start` that returns `false`. -/
  | startFails
  /-- `Stop`, up to `join`. -/
  | stop
  /-- `join` returns. -/
  | join
  | setOnHeartbeat (set : Bool)
  | setOnCommandReply (set : Bool)
  | setOnGimbalControl (set : Bool)
  /-- The thread looks at `running_`. -/
  | check
  /-- `ReadBytes` returns these bytes, or writes into `err`. -/
  | read (bytes : Except String (List Byte))
  /-- The thread calls `PopFrame`, and `HandleFrame` on the frame where it is valid. -/
  | pop

/-- `HandleFrame` in the thread. -/
def handle (s : Session) (frame : ParsedFrame) : Session :=
  match handleFrame s.receiver frame with
  | .ok (receiver, handled) => { s with receiver, handled := s.handled ++ handled }
  | .error _ => { s with crashed := true }

/-- One step. -/
def step (s : Session) : Label → Option Session
  | .start =>
    if s.running ∨ s.joining then none
    else some { s with running := true, thread := .running .check, buffer := [] }
  | .startFails => if s.joining then none else some s
  | .stop =>
    if s.joining then none
    else if s.running then some { s with running := false, joining := true }
    else some s
  | .join =>
    match s.joining, s.thread with
    | true, .exited => some { s with joining := false, thread := .none }
    | _, _ => none
  | .setOnHeartbeat set => some { s with receiver := { s.receiver with onHeartbeat := set } }
  | .setOnCommandReply set => some { s with receiver := { s.receiver with onReply := set } }
  | .setOnGimbalControl set => some { s with receiver := { s.receiver with onGimbal := set } }
  | .check =>
    match s.thread with
    | .running .check =>
      some { s with thread := if s.running then .running .read else .exited }
    | _ => none
  | .read bytes =>
    match s.thread with
    | .running .read =>
      match bytes with
      | .error _ => some { s with thread := .running .check }
      | .ok [] => some { s with thread := .running .check }
      | .ok (b :: bytes) =>
        some { s with buffer := feedData s.buffer (b :: bytes), thread := .running .popping }
    | _ => none
  | .pop =>
    match s.thread with
    | .running .popping =>
      match popFrame s.buffer with
      | (none, buffer) => some { s with buffer, thread := .running .check }
      | (some frame, buffer) =>
        if frame.valid then some (handle { s with buffer } frame) else some { s with buffer }
    | _ => none

/-! ## What the bytes of the sessions say -/

/-- The bytes read in the sessions that are over, and in the last one. -/
def read (ls : List Label) : List (List Byte) × List Byte :=
  ls.foldl (fun r l =>
    match l with
    | .start => (r.1 ++ [r.2], [])
    | .read (.ok bytes) => (r.1, r.2 ++ bytes)
    | _ => r) ([], [])

/-- The frames with a right checksum that a fresh parser takes out of the bytes. -/
def framesOf (bytes : List Byte) : List ParsedFrame := (drain bytes).1.filter ParsedFrame.valid

/-- The frames of all sessions, each parsed by itself. -/
def frames (ls : List Label) : List ParsedFrame :=
  (read ls).1.flatMap framesOf ++ framesOf (read ls).2

/-- The heartbeat that the frame carries. -/
def heartbeatOf (frame : ParsedFrame) : Option HeartbeatData :=
  if frame.frameType = frameTypeHeartbeat then
    match decodeHeartbeat frame.payload { cnt := frame.cnt } with
    | .ok hb => hb
    | .error _ => none
  else none

/-- What `HandleFrame` calls for the frame while these callbacks are set. -/
def callsOf (receiver : Receiver) (frame : ParsedFrame) : List Handled :=
  match handleFrame receiver frame with
  | .ok (_, handled) => handled
  | .error _ => []

/-- The step sets a callback. -/
def Label.setsCallback : Label → Bool
  | .setOnHeartbeat _ | .setOnCommandReply _ | .setOnGimbalControl _ => true
  | _ => false

/-- What is read up to a step: `start` begins a new session, and a read appends to the current
one. -/
theorem read_concat (ls : List Label) (l : Label) :
    read (ls ++ [l]) =
      match l with
      | .start => ((read ls).1 ++ [(read ls).2], [])
      | .read (.ok bytes) => ((read ls).1, (read ls).2 ++ bytes)
      | _ => read ls := List.foldl_concat ..

/-! ## One frame -/

/-- A frame that `PopFrame` takes out has the payload its decoder asks for. -/
def Complete (frame : ParsedFrame) : Prop :=
  frame.frameType ≠ frameTypeCommand →
    frame.payload.length + 7 = getExpectedFrameLen frame.frameType 0

/-- What the parser takes out is complete, so that no decoder finds it too short. -/
theorem complete_of_emit {b : List Byte} {frame : ParsedFrame} {n : Nat}
    (h : candidate b = .emit frame n) : Complete frame := by
  intro ht
  obtain ⟨as, r, e, hs⟩ := Scan.total flyFramer (b.drop n)
  have hdrain : (drain b).1 = frame :: as := (Scan.det (drain_scan b) (.emit h hs)).1
  have hmem : frame ∈ (receive b [[]]).1 := by simp [receive, feedData, hdrain]
  exact mem_receive hmem ht

/-- `HandleFrame` on such a frame throws nothing, keeps a heartbeat, and leaves the callbacks. -/
theorem handleFrame_complete (r : Receiver) {frame : ParsedFrame} (h : Complete frame) :
    ∃ handled, handleFrame r frame = .ok
      (match heartbeatOf frame with
        | some hb => { r with latestHb := hb, hasHb := true }
        | none => r, handled) := by
  unfold handleFrame heartbeatOf
  split
  · next ht =>
    have hlen := h (by rw [ht]; decide)
    rw [ht] at hlen
    obtain ⟨hb, -, hdec⟩ := heartbeat_decodesTo (Nat.add_right_cancel (m := 7) hlen) frame.cnt
    rw [decodeHeartbeat, hdec.decoded]
    exact ⟨_, rfl⟩
  split
  · next ht =>
    have hlen := h (by rw [ht]; decide)
    rw [ht] at hlen
    obtain ⟨reply, -, hdec⟩ := commandReply_decodesTo (Nat.add_right_cancel (m := 7) hlen) frame.cnt
    rw [decodeCommandReply, hdec.decoded]
    exact ⟨_, rfl⟩
  split
  · next ht =>
    have hlen := h (by rw [ht]; decide)
    rw [ht] at hlen
    obtain ⟨gimbal, -, hdec⟩ := gimbalControl_decodesTo (Nat.add_right_cancel (m := 7) hlen)
      frame.cnt
    rw [decodeGimbalControl, hdec.decoded]
    exact ⟨_, rfl⟩
  · exact ⟨_, rfl⟩

/-- Which callbacks a complete frame calls depends on the frame and on which are set, and not on the
rest of the receiver. -/
theorem callsOf_complete (r : Receiver) {frame : ParsedFrame} (h : Complete frame) :
    handleFrame r frame = .ok
      (match heartbeatOf frame with
        | some hb => { r with latestHb := hb, hasHb := true }
        | none => r, callsOf r frame) := by
  obtain ⟨handled, hh⟩ := handleFrame_complete r h
  rw [callsOf, hh]

/-- The callbacks that are set decide what is called. -/
theorem callsOf_congr {r r' : Receiver} (h : r.onHeartbeat = r'.onHeartbeat)
    (h' : r.onReply = r'.onReply) (h'' : r.onGimbal = r'.onGimbal) (frame : ParsedFrame) :
    callsOf r frame = callsOf r' frame := by
  unfold callsOf handleFrame
  rcases eq_or_ne frame.frameType frameTypeHeartbeat with ht | ht
  · rw [if_pos ht, if_pos ht, h]
    cases decodeHeartbeat frame.payload { cnt := frame.cnt } with
    | error e => rfl
    | ok hb => cases hb <;> rfl
  rw [if_neg ht, if_neg ht]
  rcases eq_or_ne frame.frameType frameTypeReply with ht | ht
  · rw [if_pos ht, if_pos ht, h']
    cases decodeCommandReply frame.payload { cnt := frame.cnt } with
    | error e => rfl
    | ok reply => cases reply <;> rfl
  rw [if_neg ht, if_neg ht]
  rcases eq_or_ne frame.frameType frameTypeGimbalControl with ht | ht
  · rw [if_pos ht, if_pos ht, h'']
    cases decodeGimbalControl frame.payload { cnt := frame.cnt } with
    | error e => rfl
    | ok gimbal => cases gimbal <;> rfl
  rw [if_neg ht, if_neg ht]
  rfl

/-! ## What every run keeps -/

/-- The receiver has the last heartbeat of these frames. -/
structure Took (r : Receiver) (frames : List ParsedFrame) : Prop where
  hasHb : r.hasHb = (frames.filterMap heartbeatOf).getLast?.isSome
  latestHb : r.latestHb = (frames.filterMap heartbeatOf).getLast?.getD {}

/-- The callbacks are still those of `r`, and were called for these frames. -/
structure Called (r : Receiver) (s : Session) (frames : List ParsedFrame) : Prop where
  onHeartbeat : s.receiver.onHeartbeat = r.onHeartbeat
  onReply : s.receiver.onReply = r.onReply
  onGimbal : s.receiver.onGimbal = r.onGimbal
  handled : s.handled = frames.flatMap (callsOf r)

/-- The frames handled in the sessions that are over, and `popped` in the last one. -/
def soFar (ls : List Label) (popped : List ParsedFrame) : List ParsedFrame :=
  (read ls).1.flatMap framesOf ++ popped.filter ParsedFrame.valid

/-- `popped` are the frames of the last session so far: what the parser takes out from here on
continues them to the frames of all its bytes. -/
structure Inv (r : Receiver) (ls : List Label) (s : Session) (popped : List ParsedFrame) :
    Prop where
  alive : s.crashed = false
  scan : ∀ as rest, Scan flyFramer s.buffer as rest none →
    Scan flyFramer (read ls).2 (popped ++ as) rest none
  waits : s.thread ≠ .running .popping → candidate s.buffer = .wait
  off : s.running = false → s.joining = false → s.thread = .none
  took : Took s.receiver (soFar ls popped)
  called : (∀ l ∈ ls, l.setsCallback = false) → Called r s (soFar ls popped)

/-- Before the first step nothing has been read. -/
theorem inv_init (r : Receiver) (hr : Took r []) : Inv r [] { receiver := r } [] where
  alive := rfl
  scan := fun _ _ h => h
  waits := fun _ => rfl
  off := fun _ _ => rfl
  took := hr
  called := fun _ => ⟨rfl, rfl, rfl, rfl⟩

/-- Between its passes the thread has popped all frames of the session. -/
theorem Inv.popped_eq {r : Receiver} {ls : List Label} {s : Session} {popped : List ParsedFrame}
    (hi : Inv r ls s popped) (hp : s.thread ≠ .running .popping) :
    popped.filter ParsedFrame.valid = framesOf (read ls).2 := by
  have hscan := hi.scan [] s.buffer (.wait (hi.waits hp))
  rw [List.append_nil] at hscan
  rw [framesOf, (Scan.det (drain_scan _) hscan).1]

/-! ## Every step keeps it -/

/-- The latest heartbeat is that of the last heartbeat handled. -/
theorem Took.handle {r : Receiver} {frames : List ParsedFrame} (h : Took r frames)
    (frame : ParsedFrame) :
    Took (match heartbeatOf frame with
      | some hb => { r with latestHb := hb, hasHb := true }
      | none => r) (frames ++ [frame]) := by
  cases hf : heartbeatOf frame with
  | none =>
    constructor
    · simpa [hf] using h.hasHb
    · simpa [hf] using h.latestHb
  | some hb =>
    constructor
    · simp [hf]
    · simp [hf]

/-- One more frame is handled. -/
theorem Called.handle {r : Receiver} {s : Session} {frames : List ParsedFrame}
    (h : Called r s frames) {frame : ParsedFrame} (hc : Complete frame) :
    Called r (s.handle frame) (frames ++ [frame]) := by
  have hcalls : callsOf s.receiver frame = callsOf r frame :=
    callsOf_congr h.onHeartbeat h.onReply h.onGimbal frame
  rw [Session.handle, callsOf_complete s.receiver hc, hcalls]
  have hhandled : s.handled ++ callsOf r frame = (frames ++ [frame]).flatMap (callsOf r) := by
    rw [h.handled, List.flatMap_append, List.flatMap_singleton]
  cases heartbeatOf frame with
  | none => exact ⟨h.onHeartbeat, h.onReply, h.onGimbal, hhandled⟩
  | some hb => exact ⟨h.onHeartbeat, h.onReply, h.onGimbal, hhandled⟩

/-- Handling a frame changes the receiver and what has been called, and nothing of the thread. -/
theorem handle_thread (s : Session) {frame : ParsedFrame} (hc : Complete frame) :
    (s.handle frame).crashed = s.crashed ∧ (s.handle frame).buffer = s.buffer ∧
      (s.handle frame).thread = s.thread ∧ (s.handle frame).running = s.running ∧
      (s.handle frame).joining = s.joining ∧
      (s.handle frame).receiver = match heartbeatOf frame with
        | some hb => { s.receiver with latestHb := hb, hasHb := true }
        | none => s.receiver := by
  rw [Session.handle, callsOf_complete s.receiver hc]
  exact ⟨rfl, rfl, rfl, rfl, rfl, rfl⟩

/-- A step that neither reads nor handles. -/
theorem Inv.quiet {r : Receiver} {ls : List Label} {s : Session} {popped : List ParsedFrame}
    (hi : Inv r ls s popped) {l : Label} (hread : Session.read (ls ++ [l]) = Session.read ls)
    {t : Session} (halive : t.crashed = s.crashed) (hbuffer : t.buffer = s.buffer)
    (hwaits : t.thread ≠ .running .popping → s.thread ≠ .running .popping)
    (hoff : t.running = false → t.joining = false → t.thread = .none)
    (hhas : t.receiver.hasHb = s.receiver.hasHb)
    (hlatest : t.receiver.latestHb = s.receiver.latestHb)
    (hcalled : l.setsCallback = false → t.receiver = s.receiver ∧ t.handled = s.handled) :
    Inv r (ls ++ [l]) t popped := by
  have hframes : soFar (ls ++ [l]) popped = soFar ls popped := by rw [soFar, hread, soFar]
  refine ⟨halive.trans hi.alive, ?_, ?_, hoff, ?_, ?_⟩
  · rw [hread, hbuffer]
    exact hi.scan
  · intro hp
    rw [hbuffer]
    exact hi.waits (hwaits hp)
  · rw [hframes]
    exact ⟨hhas.trans hi.took.hasHb, hlatest.trans hi.took.latestHb⟩
  · intro hset
    obtain ⟨hreceiver, hhandled⟩ := hcalled (hset l (by simp))
    have hc := hi.called fun l hl => hset l (List.mem_append_left _ hl)
    rw [hframes]
    exact ⟨hreceiver ▸ hc.onHeartbeat, hreceiver ▸ hc.onReply, hreceiver ▸ hc.onGimbal,
      hhandled.trans hc.handled⟩

/-- A new session: the buffer is cleared, and what was left of the old one is forgotten. -/
theorem Inv.start {r : Receiver} {ls : List Label} {s : Session} {popped : List ParsedFrame}
    (hi : Inv r ls s popped) (hrun : s.running = false) (hjoin : s.joining = false) :
    Inv r (ls ++ [.start]) { s with running := true, thread := .running .check, buffer := [] }
      [] := by
  have hread : Session.read (ls ++ [.start]) =
      ((Session.read ls).1 ++ [(Session.read ls).2], []) := read_concat ..
  have hframes : soFar (ls ++ [.start]) [] = soFar ls popped := by
    have hp : s.thread ≠ .running .popping := by
      rw [hi.off hrun hjoin]
      nofun
    rw [soFar, soFar, hread, hi.popped_eq hp]
    simp
  refine ⟨hi.alive, ?_, fun _ => rfl, nofun, ?_, fun hset => ?_⟩
  · intro as rest hs
    rw [hread]
    exact hs
  · rw [hframes]
    exact hi.took
  · rw [hframes]
    have hc := hi.called fun l hl => hset l (List.mem_append_left _ hl)
    exact ⟨hc.onHeartbeat, hc.onReply, hc.onGimbal, hc.handled⟩

/-- The thread feeds a chunk: what is popped from the longer buffer continues what is popped. -/
theorem Inv.feed {r : Receiver} {ls : List Label} {s : Session} {popped : List ParsedFrame}
    (hi : Inv r ls s popped) (ht : s.thread = .running .read) (bytes : List Byte) :
    Inv r (ls ++ [.read (.ok bytes)])
      { s with buffer := feedData s.buffer bytes, thread := .running .popping } popped := by
  have hread : Session.read (ls ++ [.read (.ok bytes)]) =
      ((Session.read ls).1, (Session.read ls).2 ++ bytes) := read_concat ..
  have hframes : soFar (ls ++ [.read (.ok bytes)]) popped = soFar ls popped := by
    rw [soFar, hread, soFar]
  have hwait := hi.waits (by rw [ht]; nofun)
  refine ⟨hi.alive, ?_, fun h => absurd rfl h, ?_, ?_, fun hset => ?_⟩
  · intro as rest hs
    have hscan := hi.scan [] s.buffer (.wait hwait)
    rw [List.append_nil] at hscan
    rw [hread]
    exact hscan.append rfl hs
  · intro hrun hjoin
    cases ht.symm.trans (hi.off hrun hjoin)
  · rw [hframes]
    exact hi.took
  · rw [hframes]
    have hc := hi.called fun l hl => hset l (List.mem_append_left _ hl)
    exact ⟨hc.onHeartbeat, hc.onReply, hc.onGimbal, hc.handled⟩

/-- The thread pops a frame, and handles it where its checksum is right. -/
theorem Inv.pop {r : Receiver} {ls : List Label} {s : Session} {popped : List ParsedFrame}
    (hi : Inv r ls s popped) (ht : s.thread = .running .popping) {frame : ParsedFrame}
    {buffer : List Byte} (hp : popFrame s.buffer = (some frame, buffer)) :
    Inv r (ls ++ [.pop])
      (if frame.valid then handle { s with buffer } frame else { s with buffer })
      (popped ++ [frame]) := by
  have hread : Session.read (ls ++ [.pop]) = Session.read ls := read_concat ..
  obtain ⟨b, hs, ⟨-, hb⟩ | ⟨frame', n, hv, hb⟩⟩ := popFrame_spec s.buffer
  · cases hp.symm.trans hb
  cases hp.symm.trans hb
  have hscan : ∀ as rest, Scan flyFramer (b.drop n) as rest none →
      Scan flyFramer (Session.read (ls ++ [.pop])).2 (popped ++ [frame] ++ as) rest none := by
    intro as rest h
    rw [hread, List.append_assoc]
    exact hi.scan _ _ (hs.scan (.emit hv h))
  have hoff : s.running = false → s.joining = false → s.thread = .none := hi.off
  split
  · next hvalid =>
    have hframes : soFar (ls ++ [.pop]) (popped ++ [frame]) = soFar ls popped ++ [frame] := by
      rw [soFar, soFar, hread, List.filter_append]
      simp [hvalid]
    have hc := complete_of_emit hv
    obtain ⟨h1, h2, h3, h4, h5, h6⟩ := handle_thread { s with buffer := b.drop n } hc
    refine ⟨h1.trans hi.alive, ?_, ?_, ?_, ?_, fun hset => ?_⟩
    · rw [h2]
      exact hscan
    · rw [h3]
      exact fun h => absurd ht h
    · rw [h3, h4, h5]
      exact hoff
    · rw [h6, hframes]
      exact hi.took.handle frame
    · rw [hframes]
      have hcalled := hi.called fun l hl => hset l (List.mem_append_left _ hl)
      have hcalled' : Called r { s with buffer := b.drop n } (soFar ls popped) :=
        ⟨hcalled.onHeartbeat, hcalled.onReply, hcalled.onGimbal, hcalled.handled⟩
      exact hcalled'.handle hc
  · next hvalid =>
    have hframes : soFar (ls ++ [.pop]) (popped ++ [frame]) = soFar ls popped := by
      rw [soFar, soFar, hread, List.filter_append]
      simp [hvalid]
    refine ⟨hi.alive, hscan, fun h => absurd ht h, hoff, ?_, fun hset => ?_⟩
    · rw [hframes]
      exact hi.took
    · rw [hframes]
      have hcalled := hi.called fun l hl => hset l (List.mem_append_left _ hl)
      exact ⟨hcalled.onHeartbeat, hcalled.onReply, hcalled.onGimbal, hcalled.handled⟩

/-- The thread has popped what there was. -/
theorem Inv.popNone {r : Receiver} {ls : List Label} {s : Session} {popped : List ParsedFrame}
    (hi : Inv r ls s popped) (ht : s.thread = .running .popping) {buffer : List Byte}
    (hp : popFrame s.buffer = (none, buffer)) :
    Inv r (ls ++ [.pop]) { s with buffer, thread := .running .check } popped := by
  have hread : Session.read (ls ++ [.pop]) = Session.read ls := read_concat ..
  have hframes : soFar (ls ++ [.pop]) popped = soFar ls popped := by rw [soFar, hread, soFar]
  obtain ⟨b, hs, ⟨hv, hb⟩ | ⟨frame', n, -, hb⟩⟩ := popFrame_spec s.buffer
  · cases hp.symm.trans hb
    refine ⟨hi.alive, ?_, fun _ => hv, ?_, ?_, fun hset => ?_⟩
    · intro as rest h
      rw [hread]
      exact hi.scan as rest (hs.scan h)
    · intro hrun hjoin
      cases ht.symm.trans (hi.off hrun hjoin)
    · rw [hframes]
      exact hi.took
    · rw [hframes]
      have hc := hi.called fun l hl => hset l (List.mem_append_left _ hl)
      exact ⟨hc.onHeartbeat, hc.onReply, hc.onGimbal, hc.handled⟩
  · cases hp.symm.trans hb

/-- A read keeps it, whatever the port throws or delivers. -/
theorem Inv.read {r : Receiver} {ls : List Label} {s t : Session} {popped : List ParsedFrame}
    (hi : Inv r ls s popped) {bytes : Except String (List Byte)}
    (h : Session.step s (.read bytes) = some t) : Inv r (ls ++ [.read bytes]) t popped := by
  simp only [Session.step] at h
  split at h
  · next hthread =>
    have hquiet : ∀ l, Session.read (ls ++ [l]) = Session.read ls → l.setsCallback = false →
        Inv r (ls ++ [l]) { s with thread := .running .check } popped := by
      intro l hl hset
      refine hi.quiet hl rfl rfl (fun _ hp => ?_) (fun hrun hjoin => ?_) rfl rfl
        fun _ => ⟨rfl, rfl⟩
      · cases hthread.symm.trans hp
      · cases hthread.symm.trans (hi.off hrun hjoin)
    split at h
    · cases h
      exact hquiet _ (read_concat ..) rfl
    · cases h
      refine hquiet _ ?_ rfl
      rw [read_concat]
      exact Prod.ext rfl (List.append_nil _)
    · cases h
      exact hi.feed hthread _
  · cases h

/-- One turn of the inner loop keeps it: a valid frame is handled, and any other dropped. -/
theorem Inv.popping {r : Receiver} {ls : List Label} {s t : Session} {popped : List ParsedFrame}
    (hi : Inv r ls s popped) (h : Session.step s .pop = some t) :
    ∃ popped', Inv r (ls ++ [.pop]) t popped' := by
  simp only [Session.step] at h
  split at h
  · next hthread =>
    split at h
    · next buffer hp =>
      cases h
      exact ⟨popped, hi.popNone hthread hp⟩
    · next frame buffer hp =>
      have hpop := hi.pop hthread hp
      split at h
      · next hvalid =>
        cases h
        rw [if_pos hvalid] at hpop
        exact ⟨_, hpop⟩
      · next hvalid =>
        cases h
        rw [if_neg hvalid] at hpop
        exact ⟨_, hpop⟩
  · cases h

/-- **A step keeps it.** -/
theorem Inv.step {r : Receiver} {ls : List Label} {s t : Session} {popped : List ParsedFrame}
    (hi : Inv r ls s popped) {l : Label} (h : Session.step s l = some t) :
    ∃ popped', Inv r (ls ++ [l]) t popped' := by
  cases l with
  | start =>
    simp only [Session.step] at h
    split at h
    · cases h
    next hoff =>
      cases h
      rw [not_or, Bool.not_eq_true, Bool.not_eq_true] at hoff
      exact ⟨[], hi.start hoff.1 hoff.2⟩
  | startFails =>
    simp only [Session.step] at h
    split at h
    · cases h
    cases h
    exact ⟨popped, hi.quiet (read_concat ..) rfl rfl id hi.off rfl rfl fun _ => ⟨rfl, rfl⟩⟩
  | stop =>
    simp only [Session.step] at h
    split at h
    · cases h
    split at h
    · cases h
      exact ⟨popped, hi.quiet (read_concat ..) rfl rfl id nofun rfl rfl fun _ => ⟨rfl, rfl⟩⟩
    · cases h
      exact ⟨popped, hi.quiet (read_concat ..) rfl rfl id hi.off rfl rfl fun _ => ⟨rfl, rfl⟩⟩
  | join =>
    simp only [Session.step] at h
    split at h
    · next hthread =>
      cases h
      refine ⟨popped, hi.quiet (read_concat ..) rfl rfl (fun _ hp => ?_) (fun _ _ => rfl) rfl rfl
        fun _ => ⟨rfl, rfl⟩⟩
      cases hthread.symm.trans hp
    · cases h
  | setOnHeartbeat set | setOnCommandReply set | setOnGimbalControl set =>
    cases h
    exact ⟨popped, hi.quiet (read_concat ..) rfl rfl id hi.off rfl rfl fun hset => by cases hset⟩
  | check =>
    simp only [Session.step] at h
    split at h
    · next hthread =>
      cases h
      refine ⟨popped, hi.quiet (read_concat ..) rfl rfl (fun _ hp => ?_) (fun hrun hjoin => ?_) rfl
        rfl fun _ => ⟨rfl, rfl⟩⟩
      · cases hthread.symm.trans hp
      · cases hthread.symm.trans (hi.off hrun hjoin)
    · cases h
  | read bytes => exact ⟨popped, hi.read h⟩
  | pop => exact hi.popping h

/-- Every run keeps the invariant. -/
theorem inv_run {r : Receiver} (hr : Took r []) {ls : List Label} {s : Session}
    (h : run Session.step { receiver := r } ls = some s) : ∃ popped, Inv r ls s popped :=
  run_induction (P := fun ls s => ∃ popped, Inv r ls s popped) ⟨[], inv_init r hr⟩
    (fun _ _ _ _ _ ⟨_, hi⟩ hl => hi.step hl) h

end Session

end FlyControl
