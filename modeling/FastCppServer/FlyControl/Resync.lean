import FastCppServer.FlyControl.Stall

/-!
# Resynchronisation of the flight-control parser

What becomes of an intact frame in a noisy stream. `drainAt` is `drain` with the offset of every
frame it pops (`drainAt_frames`), and those are the frames the framer emits (`mem_drainAt`).

Two of the parser's ways to deal with a false header differ. Without the tail bytes one byte is
dropped, and nothing is lost. With them the candidate is popped whole, also when its checksum fails
and it is reported with `valid = false`: the frames popped, valid or not, take up disjoint spans of
the stream, and an intact frame is popped when no other popped frame takes its bytes
(`drainAt_intact`). So a frame is lost, with no valid one over it, just where the parser has come to
such a candidate before it, or to an unknown command (`intact_popped_iff`).
-/

namespace FlyControl

open Framing Bytes

/-! ## Draining with offsets -/

/-- `drainLoop`, with the place that each frame has been taken from. -/
def drainAtLoop : Nat → Nat → List Byte → List (Nat × ParsedFrame)
  | 0, _, _ => []
  | fuel + 1, offset, buffer =>
    match popFrame buffer with
    | (none, _) => []
    | (some frame, rest) =>
      let next := offset + (buffer.length - rest.length)
      (next - (frame.payload.length + 7), frame) :: drainAtLoop fuel next rest

/-- The frames popped from the stream, each with the offset of its first byte. -/
def drainAt (s : List Byte) : List (Nat × ParsedFrame) := drainAtLoop (s.length + 1) 0 s

/-- Apart from the places it is `drainLoop`. -/
theorem drainAtLoop_frames (fuel offset : Nat) (b : List Byte) :
    (drainAtLoop fuel offset b).map Prod.snd = (drainLoop fuel b).1 := by
  induction fuel generalizing offset b with
  | zero => rfl
  | succ fuel ih =>
    unfold drainAtLoop drainLoop
    cases popFrame b with
    | mk frame rest =>
      cases frame with
      | none => rfl
      | some frame => simp [ih]

/-- `drainAt` pops what `drain` pops. -/
theorem drainAt_frames (s : List Byte) : (drainAt s).map Prod.snd = (drain s).1 :=
  drainAtLoop_frames _ _ s

/-- A popped frame is seven bytes longer than its payload. -/
theorem emit_length {b : List Byte} {frame : ParsedFrame} {n : Nat}
    (h : candidate b = .emit frame n) : n = frame.payload.length + 7 := by
  have hd := candidate_decides b
  rw [h] at hd
  cases hd with
  | frame hh h0 hle htail =>
    have hn := expectedLen_bounds h0
    exact (parsedFrame_payload_length hn.1 hle).symm

/-- A skip drops one byte. -/
theorem skip_one {b : List Byte} {n : Nat} (h : candidate b = .skip n) : n = 1 := by
  have hd := candidate_decides b
  rw [h] at hd
  cases hd <;> rfl

/-- The places are those at which the scan takes out a frame. -/
theorem mem_drainAtLoop (fuel offset : Nat) (b : List Byte) (hf : b.length < fuel) (k : Nat)
    (frame : ParsedFrame) :
    (k, frame) ∈ drainAtLoop fuel offset b ↔ ∃ j, k = offset + j ∧ Emits flyFramer b j frame := by
  induction fuel generalizing offset b with
  | zero => omega
  | succ fuel ih =>
    unfold drainAtLoop
    obtain ⟨r, hs, ⟨hv, hp⟩ | ⟨frame₀, n, hv, hp⟩⟩ := popFrame_spec b
    · simp only [hp, List.not_mem_nil, hs.emits_iff, false_iff]
      rintro ⟨j, -, i, -, hi⟩
      exact not_emits_of_wait hv i frame hi
    · have hb : 0 < n ∧ n ≤ r.length := flyFramer.emit_bounds hv
      have hle := hs.length_le
      have hn := emit_length hv
      have hlen : (r.drop n).length = r.length - n := List.length_drop
      simp only [hp, List.mem_cons, Prod.mk.injEq, ih _ (r.drop n) (by omega), hs.emits_iff,
        emits_of_emit (F := flyFramer) hv]
      constructor
      · rintro (⟨rfl, rfl⟩ | ⟨j, rfl, hj⟩)
        · exact ⟨b.length - r.length, by omega, 0, by omega, .inl ⟨rfl, rfl⟩⟩
        · exact ⟨b.length - r.length + (n + j), by omega, n + j, rfl, .inr ⟨j, rfl, hj⟩⟩
      · rintro ⟨_, rfl, _, rfl, ⟨rfl, rfl⟩ | ⟨j, rfl, hj⟩⟩
        · exact .inl ⟨by omega, rfl⟩
        · exact .inr ⟨j, by omega, hj⟩

/-- **The frames of `drainAt`** are those the framer emits, at their offsets. -/
theorem mem_drainAt (s : List Byte) (k : Nat) (frame : ParsedFrame) :
    (k, frame) ∈ drainAt s ↔ Emits flyFramer s k frame := by
  rw [drainAt, mem_drainAtLoop _ _ s (by omega)]
  simp

/-! ## Intact frames in a stream -/

/-- The popped frame takes some of the `n` bytes from offset `k` on. -/
def Overlaps (popped : Nat × ParsedFrame) (k n : Nat) : Prop :=
  popped.1 < k + n ∧ k < popped.1 + (popped.2.payload.length + 7)

/-- The bytes of intact frames sent one after the other. -/
def wire (frames : List (Byte × Byte × List Byte)) : List Byte :=
  (frames.map fun f => buildFrame f.1 f.2.1 f.2.2).flatten

/-- There are at most as many frames as bytes on the wire. -/
theorem length_le_wire (frames : List (Byte × Byte × List Byte)) :
    frames.length ≤ (wire frames).length := by
  induction frames with
  | nil => exact Nat.le_refl _
  | cons f frames ih =>
    have hw : wire (f :: frames) = buildFrame f.1 f.2.1 f.2.2 ++ wire frames := by simp [wire]
    rw [hw, List.length_append, buildFrame_length, List.length_cons]
    omega

/-- The scan of a long stream comes to an early offset, or passes over it with one frame, or stops
before it at an unknown command. -/
theorem reaches_or_frame {s : List Byte} {k : Nat} (hlong : k + maxFrameLen ≤ s.length)
    (hu : ∀ j, Reaches flyFramer s j → j < k → ¬ UnknownCommandAt (s.drop j)) :
    Reaches flyFramer s k ∨
      ∃ j frame, Emits flyFramer s j frame ∧ j < k ∧ k < j + (frame.payload.length + 7) := by
  rcases Reaches.or_passed flyFramer s k with hk | ⟨j, hj, hjk, ⟨n, hc, hn⟩ | hstop⟩
  · exact .inl hk
  · rcases hc with hv | ⟨frame, hv⟩
    · have := skip_one hv
      omega
    · exact .inr ⟨j, frame, ⟨hj, n, hv⟩, hjk, by rwa [← emit_length hv]⟩
  · -- a parser that waits holds less than one frame
    have hw : candidate (s.drop j) = .wait := by
      cases hv : candidate (s.drop j) with
      | wait => rfl
      | skip n => exact absurd (.inl hv) (hstop n)
      | emit frame n => exact absurd (.inr ⟨frame, hv⟩) (hstop n)
      | fail e => exact e.elim
    have hlen := length_lt_of_wait hw (hu j hj hjk)
    rw [List.length_drop] at hlen
    omega

/-- Two popped frames, valid or not, take up disjoint spans, or they are one. -/
theorem drainAt_disjoint {s : List Byte} {popped popped' : Nat × ParsedFrame}
    (h : popped ∈ drainAt s) (h' : popped' ∈ drainAt s)
    (ho : Overlaps popped' popped.1 (popped.2.payload.length + 7)) : popped' = popped := by
  obtain ⟨k, frame⟩ := popped
  obtain ⟨j, frame'⟩ := popped'
  obtain ⟨h1, h2⟩ := ho
  dsimp only at h1 h2
  rw [mem_drainAt] at h h'
  obtain ⟨n, hv⟩ := h.2
  obtain ⟨m, hv'⟩ := h'.2
  have hn := emit_length hv
  have hm := emit_length hv'
  have hkj := Emits.disjoint h.1 hv h'
  have hjk := Emits.disjoint h'.1 hv' h
  obtain rfl : j = k := by omega
  cases hv.symm.trans hv'
  rfl

/-- **Intact frames and noise.** With enough intact frames behind the stream and no unknown command
before it, an intact frame in the stream is popped, valid and at its own offset, if and only if no
other popped frame overlaps it. -/
theorem drainAt_intact {a b s : List Byte} {cnt frameType : Byte} {payload : List Byte}
    {more : List (Byte × Byte × List Byte)} (hi : Intact cnt frameType payload)
    (henough : maxFrameLen ≤ more.length)
    (hs : s = a ++ buildFrame cnt frameType payload ++ b ++ wire more)
    (hu : ∀ j, Reaches flyFramer s j → j < a.length → ¬ UnknownCommandAt (s.drop j)) :
    (a.length, frameOf cnt frameType payload) ∈ drainAt s ↔
      ∀ popped ∈ drainAt s, Overlaps popped a.length (payload.length + 7) →
        popped = (a.length, frameOf cnt frameType payload) := by
  constructor
  · intro hk popped hp ho
    exact drainAt_disjoint hk hp ho
  · intro hno
    have hlen : a.length + maxFrameLen ≤ s.length := by
      have := length_le_wire more
      simp only [hs, List.length_append]
      omega
    rw [mem_drainAt]
    rcases reaches_or_frame hlen hu with hk | ⟨j, frame, he, hjk, hkj⟩
    · refine ⟨hk, (buildFrame cnt frameType payload).length, ?_⟩
      rw [hs, List.append_assoc, List.append_assoc, List.drop_left]
      exact hi.emits _
    · -- that frame overlaps this one
      have := hno (j, frame) ((mem_drainAt s j frame).2 he) ⟨by dsimp only; omega, hkj⟩
      obtain ⟨rfl, -⟩ := Prod.mk.inj this
      omega

/-- What loses a frame at this offset: before it the parser comes to a candidate that reaches over
the offset and is popped as a whole although its checksum fails, or to a command header that it
waits on for ever. -/
def Lost (s : List Byte) (k : Nat) : Prop :=
  ∃ j < k, Reaches flyFramer s j ∧
    (UnknownCommandAt (s.drop j) ∨
      ∃ frame n, candidate (s.drop j) = .emit frame n ∧ frame.valid = false ∧ k < j + n)

/-- At an offset that the parser comes to nothing has been lost. -/
theorem not_lost_of_reaches {s : List Byte} {k : Nat} (hk : Reaches flyFramer s k) :
    ¬ Lost s k := by
  rintro ⟨j, hjk, hj, hstop⟩
  obtain ⟨n, hn, hle⟩ := hj.consumes_of_lt hk hjk
  rcases hstop with hu | ⟨frame, m, hv, -, hm⟩
  · exact hn.ne_wait (hu.wait)
  · obtain rfl : n = m := hn.det (.inr ⟨frame, hv⟩)
    omega

/-- **When an intact frame is lost.** No valid frame takes its bytes and enough frames follow the
stream: then it is popped, valid and at its own offset, if and only if the parser has not come,
before it, to a candidate with a wrong checksum that it pops over the frame, or to an unknown
command. -/
theorem intact_popped_iff {a b s : List Byte} {cnt frameType : Byte} {payload : List Byte}
    {more : List (Byte × Byte × List Byte)} (hi : Intact cnt frameType payload)
    (henough : maxFrameLen ≤ more.length)
    (hs : s = a ++ buildFrame cnt frameType payload ++ b ++ wire more)
    (hvalid : ∀ popped ∈ drainAt s, popped.2.valid = true →
      Overlaps popped a.length (payload.length + 7) →
        popped = (a.length, frameOf cnt frameType payload)) :
    (a.length, frameOf cnt frameType payload) ∈ drainAt s ↔ ¬ Lost s a.length := by
  constructor
  · intro hk
    exact not_lost_of_reaches ((mem_drainAt _ _ _).1 hk).1
  · intro hlost
    have hlen : a.length + maxFrameLen ≤ s.length := by
      have := length_le_wire more
      simp only [hs, List.length_append]
      omega
    rw [mem_drainAt]
    rcases reaches_or_frame hlen fun j hj hjk hu => hlost ⟨j, hjk, hj, .inl hu⟩ with
      hk | ⟨j, frame, he, hjk, hkj⟩
    · refine ⟨hk, (buildFrame cnt frameType payload).length, ?_⟩
      rw [hs, List.append_assoc, List.append_assoc, List.drop_left]
      exact hi.emits _
    · -- the frame that is popped over this one is not valid, or it would be this one
      exfalso
      obtain ⟨hj, n, hv⟩ := he
      cases hok : frame.valid with
      | false =>
        rw [← emit_length hv] at hkj
        exact hlost ⟨j, hjk, hj, .inr ⟨frame, n, hv, hok, hkj⟩⟩
      | true =>
        have := hvalid (j, frame) ((mem_drainAt s j frame).2 ⟨hj, n, hv⟩) hok
          ⟨by dsimp only; omega, hkj⟩
        obtain ⟨rfl, -⟩ := Prod.mk.inj this
        omega

/-- A false header, the start of a route of one point, -/
def falseRoute : List Byte := [0xEB, 0x90, 0x00, 0x10, 0x02, 0x01]

/-- and the end of its span: five bytes, a wrong checksum and the tail. -/
def falseRouteEnd : List Byte := [0, 0, 0, 0, 0, 0x55, 0xED, 0xDE]

/-- A reply frame between the two, with these frames behind them. -/
def maskedReply (more : List (Byte × Byte × List Byte)) : List Byte :=
  falseRoute ++ buildFrame 0 frameTypeReply [1, 0] ++ falseRouteEnd ++ wire more

/-- The false route is the first frame that is popped, and its checksum fails. -/
theorem candidate_maskedReply (more : List (Byte × Byte × List Byte)) :
    candidate (maskedReply more) =
      .emit (parsedFrame (maskedReply []) 23) 23 := by
  have hv : candidate (falseRoute ++ buildFrame 0 frameTypeReply [1, 0] ++ falseRouteEnd) =
      .emit (parsedFrame (maskedReply []) 23) 23 := rfl
  exact (candidate_append (wire more) (by rw [hv]; nofun)).trans hv

/-- No valid frame takes bytes of the reply. -/
theorem valid_maskedReply (more : List (Byte × Byte × List Byte)) :
    ∀ popped ∈ drainAt (maskedReply more), popped.2.valid = true → Overlaps popped 6 9 →
      popped = (6, frameOf 0 frameTypeReply [1, 0]) := by
  rintro ⟨k, frame⟩ hp hvalid ⟨h1, -⟩
  have hverdict : flyFramer.verdict (maskedReply more) =
      .emit (parsedFrame (maskedReply []) 23) 23 := candidate_maskedReply more
  have hframes := emits_of_emit hverdict k frame
  rw [mem_drainAt, hframes] at hp
  rcases hp with ⟨rfl, rfl⟩ | ⟨j, rfl, -⟩
  · exact absurd hvalid (by decide)
  · dsimp only at h1
    omega

/-- The reply behind a masked one is lost, with whatever is sent after it. -/
theorem lost_maskedReply (more : List (Byte × Byte × List Byte)) : Lost (maskedReply more) 6 :=
  ⟨0, by omega, .start, .inr ⟨_, _, candidate_maskedReply more, rfl, by omega⟩⟩

/-- The reply is not popped, whatever follows. -/
theorem intact_popped_iff_masked :
    (6, frameOf 0 frameTypeReply [1, 0]) ∉
      drainAt (maskedReply (List.replicate maxFrameLen (0, frameTypeReply, [0, 0]))) := by
  have henough : maxFrameLen ≤
      (List.replicate maxFrameLen ((0 : Byte), frameTypeReply, [(0 : Byte), 0])).length :=
    Nat.le_of_eq List.length_replicate.symm
  generalize List.replicate maxFrameLen ((0 : Byte), frameTypeReply, [(0 : Byte), 0]) = more
    at henough ⊢
  intro h
  exact (intact_popped_iff (a := falseRoute) (b := falseRouteEnd) (by decide) henough rfl
    (valid_maskedReply more)).1 h (lost_maskedReply more)

/-- A reply frame between the two is lost: no valid frame overlaps it, and however many intact
frames follow, it is not popped. -/
theorem intact_reply_lost :
    ¬ ∃ enough, ∀ more : List (Byte × Byte × List Byte),
      (∀ f ∈ more, Intact f.1 f.2.1 f.2.2) → enough ≤ more.length →
      (∀ popped ∈ drainAt (falseRoute ++ buildFrame 0 frameTypeReply [1, 0] ++ falseRouteEnd ++
          wire more), popped.2.valid = true → Overlaps popped 6 9 →
        popped = (6, frameOf 0 frameTypeReply [1, 0])) →
      (6, frameOf 0 frameTypeReply [1, 0]) ∈
        drainAt (falseRoute ++ buildFrame 0 frameTypeReply [1, 0] ++ falseRouteEnd ++
          wire more) := by
  rintro ⟨enough, h⟩
  have hpopped := h (List.replicate enough (0, frameTypeReply, [0, 0]))
    (fun f hf => by rw [List.eq_of_mem_replicate hf]; exact intact_reply)
    (Nat.le_of_eq List.length_replicate.symm) (valid_maskedReply _)
  exact not_lost_of_reaches ((mem_drainAt _ _ _).1 hpopped).1 (lost_maskedReply _)

end FlyControl
