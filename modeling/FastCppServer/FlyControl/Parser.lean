import FastCppServer.FlyControl.Frame

/-!
# The flight-control parser as a framer

`candidate` is the decision the parser takes at the front of its buffer, `Decides` the ways it is
taken. It does not change when more bytes arrive (`candidate_append`), so the parser is a framer
(`flyFramer`), and its loops compute the framer's scan (`popFrame_spec`, `drain_scan`): their fuel
is never used up. Chunking independence (`receive_eq_drain`) is then the framer's.

An intact frame at the front is always popped whole (`Intact.emits`).
-/

namespace FlyControl

open Framing Bytes

/-! ## The parser as a framer -/

/-- Two header bytes stand at the front. -/
def HeaderAt (b : List Byte) : Prop :=
  2 ≤ b.length ∧ byteAt b 0 = frameHeader0 ∧ byteAt b 1 = frameHeader1

/-- The frame of `n` bytes at the front ends with the two tail bytes. -/
def TailAt (b : List Byte) (n : Nat) : Prop :=
  byteAt b (n - 2) = frameTail0 ∧ byteAt b (n - 1) = frameTail1

/-- The decision of the parser at the front of its buffer: a byte that starts no header is dropped,
a header is examined. -/
def candidate (buffer : List Byte) : Verdict ParsedFrame Empty :=
  if buffer.length < 2 then .wait
  else if byteAt buffer 0 = frameHeader0 ∧ byteAt buffer 1 = frameHeader1 then examine buffer
  else .skip 1

/-- The decision of the parser, one constructor for each way it is taken. -/
inductive Decides (b : List Byte) : Verdict ParsedFrame Empty → Prop
  | tooShort : b.length < 2 → Decides b .wait
  | junk : 2 ≤ b.length → ¬ HeaderAt b → Decides b (.skip 1)
  | short : HeaderAt b → b.length < 5 → Decides b .wait
  | typeUnknown : HeaderAt b → 5 ≤ b.length → byteAt b 3 ≠ frameTypeCommand →
      expectedLen b = 0 → Decides b (.skip 1)
  | lengthUnknown : HeaderAt b → 5 ≤ b.length → byteAt b 3 = frameTypeCommand →
      expectedLen b = 0 → Decides b .wait
  | incomplete : HeaderAt b → 5 ≤ b.length → expectedLen b ≠ 0 → b.length < expectedLen b →
      Decides b .wait
  | badTail : HeaderAt b → expectedLen b ≠ 0 → expectedLen b ≤ b.length →
      ¬ TailAt b (expectedLen b) → Decides b (.skip 1)
  | frame : HeaderAt b → expectedLen b ≠ 0 → expectedLen b ≤ b.length →
      TailAt b (expectedLen b) → Decides b (.emit (parsedFrame b (expectedLen b)) (expectedLen b))

/-- The verdict on a buffer is the one that is told here. -/
theorem Decides.eq {b : List Byte} {v : Verdict ParsedFrame Empty} (h : Decides b v) :
    candidate b = v := by
  cases h with
  | tooShort h2 => simp [candidate, h2]
  | junk h2 hh =>
    have : ¬ (byteAt b 0 = frameHeader0 ∧ byteAt b 1 = frameHeader1) := fun h => hh ⟨h2, h⟩
    simp [candidate, this, show ¬ b.length < 2 by omega]
  | short hh h5 => simp [candidate, examine, hh.2, h5, Nat.not_lt.2 hh.1]
  | typeUnknown hh h5 ht h0 =>
    simp [candidate, examine, hh.2, h0, ht, show ¬ b.length < 2 by omega,
      show ¬ b.length < 5 by omega]
  | lengthUnknown hh h5 ht h0 =>
    simp [candidate, examine, hh.2, h0, ht, show ¬ b.length < 2 by omega,
      show ¬ b.length < 5 by omega]
  | incomplete hh h5 h0 hlt =>
    simp [candidate, examine, hh.2, h0, hlt, show ¬ b.length < 2 by omega,
      show ¬ b.length < 5 by omega]
  | badTail hh h0 hle htail =>
    have hn := expectedLen_bounds h0
    have htail' := not_and_or.1 htail
    simp [candidate, examine, hh.2, h0, htail', show ¬ b.length < 2 by omega,
      show ¬ b.length < 5 by omega, show ¬ b.length < expectedLen b by omega]
  | frame hh h0 hle htail =>
    have hn := expectedLen_bounds h0
    simp [candidate, examine, hh.2, h0, htail.1, htail.2, show ¬ b.length < 2 by omega,
      show ¬ b.length < 5 by omega, show ¬ b.length < expectedLen b by omega]

/-- On each buffer the parser waits, gives up a byte, or takes out a frame, and the buffer says
which. -/
theorem candidate_decides (b : List Byte) : Decides b (candidate b) := by
  have total : ∃ v, Decides b v := by
    by_cases h2 : b.length < 2
    · exact ⟨_, .tooShort h2⟩
    by_cases hh : HeaderAt b
    swap
    · exact ⟨_, .junk (by omega) hh⟩
    by_cases h5 : b.length < 5
    · exact ⟨_, .short hh h5⟩
    by_cases h0 : expectedLen b = 0
    · by_cases ht : byteAt b 3 = frameTypeCommand
      · exact ⟨_, .lengthUnknown hh (by omega) ht h0⟩
      · exact ⟨_, .typeUnknown hh (by omega) ht h0⟩
    by_cases hlt : b.length < expectedLen b
    · exact ⟨_, .incomplete hh (by omega) h0 hlt⟩
    by_cases htail : TailAt b (expectedLen b)
    · exact ⟨_, .frame hh h0 (by omega) htail⟩
    · exact ⟨_, .badTail hh h0 (by omega) htail⟩
  obtain ⟨v, hv⟩ := total
  rwa [hv.eq]

/-- The first two bytes tell whether there is a header, whatever comes behind them. -/
theorem headerAt_append {b : List Byte} (h2 : 2 ≤ b.length) (x : List Byte) :
    HeaderAt (b ++ x) ↔ HeaderAt b := by
  simp only [HeaderAt, byteAt_append_left (show 0 < b.length by omega),
    byteAt_append_left (show 1 < b.length by omega), List.length_append, h2,
    show 2 ≤ b.length + x.length by omega]

/-- Whether the tail is right is decided once its bytes are there. -/
theorem tailAt_append {b : List Byte} {n : Nat} (h9 : 9 ≤ n) (hn : n ≤ b.length) (x : List Byte) :
    TailAt (b ++ x) n ↔ TailAt b n := by
  simp only [TailAt, byteAt_append_left (show n - 2 < b.length by omega),
    byteAt_append_left (show n - 1 < b.length by omega)]

/-- **A decision does not change when more bytes arrive.** Each is taken on bytes that are there. -/
theorem candidate_append {b : List Byte} (x : List Byte) (h : candidate b ≠ .wait) :
    candidate (b ++ x) = candidate b := by
  have hd := candidate_decides b
  generalize candidate b = v at hd h ⊢
  refine Decides.eq ?_
  have hlen : (b ++ x).length = b.length + x.length := List.length_append
  cases hd with
  | tooShort | short | lengthUnknown | incomplete => exact absurd rfl h
  | junk h2 hh => exact .junk (by omega) (by rwa [headerAt_append h2])
  | typeUnknown hh h5 ht h0 =>
    have h3 : byteAt (b ++ x) 3 = byteAt b 3 := byteAt_append_left (by omega) x
    refine .typeUnknown ((headerAt_append hh.1 x).2 hh) (by omega) (h3 ▸ ht) ?_
    rw [expectedLen_append h5 x (.inr ht), h0]
  | badTail hh h0 hle htail =>
    have hn := expectedLen_bounds h0
    have hE := expectedLen_append (by omega) x (.inl h0)
    refine .badTail ((headerAt_append hh.1 x).2 hh) (hE ▸ h0) (by omega) ?_
    rwa [hE, tailAt_append hn.1 hle]
  | frame hh h0 hle htail =>
    have hn := expectedLen_bounds h0
    have hE := expectedLen_append (by omega) x (.inl h0)
    rw [← parsedFrame_append hn.1 hle x, ← hE]
    refine .frame ((headerAt_append hh.1 x).2 hh) (hE ▸ h0) (by omega) ?_
    rwa [hE, tailAt_append hn.1 hle]

/-- The parser as a framer. -/
def flyFramer : Framer Byte ParsedFrame Empty where
  verdict := candidate
  skip_bounds := by
    intro b n h
    have hd := candidate_decides b
    rw [h] at hd
    cases hd with
    | junk h2 _ => omega
    | typeUnknown _ h5 _ _ => omega
    | badTail _ h0 hle _ => have := expectedLen_bounds h0; omega
  emit_bounds := by
    intro b a n h
    have hd := candidate_decides b
    rw [h] at hd
    cases hd with
    | frame _ h0 hle _ => have := expectedLen_bounds h0; omega
  stable := fun x h => candidate_append x h

/-! ## The loops compute the scan -/

/-- `FindHeader` drops the bytes the framer skips, up to a header or the last byte. -/
theorem findHeader_spec (b : List Byte) :
    Skips flyFramer b (findHeader b).2 ∧
      (findHeader b).1 = decide (2 ≤ (findHeader b).2.length) ∧
      ((findHeader b).1 = true → HeaderAt (findHeader b).2) := by
  induction b with
  | nil => exact ⟨.refl, rfl, nofun⟩
  | cons b0 rest ih =>
    cases rest with
    | nil => exact ⟨.refl, rfl, nofun⟩
    | cons b1 rest =>
      unfold findHeader
      by_cases hh : b0 = frameHeader0 ∧ b1 = frameHeader1
      · rw [if_pos hh]
        exact ⟨.refl, by simp, fun _ => ⟨by simp, hh⟩⟩
      · rw [if_neg hh]
        have hj : Decides (b0 :: b1 :: rest) (.skip 1) := .junk (by simp) (fun h => hh h.2)
        exact ⟨.skip (n := 1) hj.eq ih.1, ih.2⟩

/-- With enough fuel the loop of `PopFrame` skips to the first decision that ends it: it waits, or
it takes a frame out. -/
theorem popFrameLoop_spec (fuel : Nat) (b : List Byte) (hf : b.length < fuel) :
    ∃ r, Skips flyFramer b r ∧
      ((candidate r = .wait ∧ popFrameLoop fuel b = (none, r)) ∨
        ∃ frame n, candidate r = .emit frame n ∧
          popFrameLoop fuel b = (some frame, r.drop n)) := by
  induction fuel generalizing b with
  | zero => omega
  | succ fuel ih =>
    obtain ⟨hs, hlen, hh⟩ := findHeader_spec b
    unfold popFrameLoop
    rcases hfh : findHeader b with ⟨ok, r⟩
    rw [hfh] at hs hlen hh
    dsimp only at hs hlen hh
    cases ok with
    | false =>
      have h2 : Decides r .wait := .tooShort (by simpa using hlen)
      exact ⟨r, hs, .inl ⟨h2.eq, rfl⟩⟩
    | true =>
      have hr := hh rfl
      have hc : candidate r = examine r := by
        simp only [candidate, Nat.not_lt.2 hr.1, hr.2, and_self, if_true, if_false]
      dsimp only
      rw [← hc]
      cases hv : candidate r with
      | wait => exact ⟨r, hs, .inl ⟨hv, rfl⟩⟩
      | emit frame n => exact ⟨r, hs, .inr ⟨frame, n, hv, rfl⟩⟩
      | fail e => exact e.elim
      | skip n =>
        have hb : 0 < n ∧ n ≤ r.length := flyFramer.skip_bounds hv
        have hle := hs.length_le
        obtain ⟨r', hs', h'⟩ := ih (r.drop n) (by rw [List.length_drop]; omega)
        exact ⟨r', hs.trans (.skip hv hs'), h'⟩

/-- **`PopFrame`.** It skips to the first buffer it waits on or takes a frame from. -/
theorem popFrame_spec (b : List Byte) :
    ∃ r, Skips flyFramer b r ∧
      ((candidate r = .wait ∧ popFrame b = (none, r)) ∨
        ∃ frame n, candidate r = .emit frame n ∧ popFrame b = (some frame, r.drop n)) :=
  popFrameLoop_spec _ b (by omega)

/-- Popping until nothing is found is scanning the buffer, frame by frame and byte by byte. -/
theorem drainLoop_scan (fuel : Nat) (b : List Byte) (hf : b.length < fuel) :
    Scan flyFramer b (drainLoop fuel b).1 (drainLoop fuel b).2 none := by
  induction fuel generalizing b with
  | zero => omega
  | succ fuel ih =>
    obtain ⟨r, hs, ⟨hv, hp⟩ | ⟨frame, n, hv, hp⟩⟩ := popFrame_spec b
    · simp only [drainLoop, hp]
      exact hs.scan (.wait hv)
    · have hb : 0 < n ∧ n ≤ r.length := flyFramer.emit_bounds hv
      have hle := hs.length_le
      simp only [drainLoop, hp]
      exact hs.scan (.emit hv (ih _ (by rw [List.length_drop]; omega)))

/-- **Draining computes the scan of the buffer.** -/
theorem drain_scan (b : List Byte) : Scan flyFramer b (drain b).1 (drain b).2 none :=
  drainLoop_scan _ b (by omega)

/-- The receive loop computes the chunk-wise scan. -/
theorem receive_scan (b : List Byte) (chunks : List (List Byte)) :
    ScanChunks flyFramer b chunks (receive b chunks).1 (receive b chunks).2 [] := by
  induction chunks generalizing b with
  | nil => exact .nil
  | cons chunk chunks ih =>
    have h := drain_scan (feedData b chunk)
    exact ScanChunks.cons h (ih _)

/-- **Chunking independence of the stream parser.** However a stream is cut into chunks, feeding
them one by one to a fresh parser and draining after each gives the frames and the residual buffer
of feeding the whole stream and draining once. -/
theorem receive_eq_drain (chunks : List (List Byte)) :
    receive [] chunks = drain (feedData [] chunks.flatten) := by
  have hw : candidate [] = .wait := rfl
  obtain ⟨h1, h2, -⟩ := (receive_scan [] chunks).eq_of_scan hw (drain_scan ([] ++ chunks.flatten))
  exact Prod.ext h1 h2

/-! ## Intact frames -/

/-- `BuildFrame` of this type and payload gives a frame the parser takes whole: the type, and for a
command frame the command byte, are known, and the payload has the length that goes with them. -/
def Intact (cnt frameType : Byte) (payload : List Byte) : Prop :=
  expectedLen (buildFrame cnt frameType payload) = (buildFrame cnt frameType payload).length

instance (cnt frameType : Byte) (payload : List Byte) : Decidable (Intact cnt frameType payload) :=
  inferInstanceAs (Decidable (_ = _))

/-- The valid frame the parser makes of `BuildFrame`'s bytes. -/
def frameOf (cnt frameType : Byte) (payload : List Byte) : ParsedFrame :=
  { cnt, frameType, payload, valid := true
    checksum := calcChecksum ([frameHeader0, frameHeader1, cnt, frameType] ++ payload) }

/-- A frame has seven bytes around its payload. -/
theorem buildFrame_length (cnt frameType : Byte) (payload : List Byte) :
    (buildFrame cnt frameType payload).length = payload.length + 7 := by
  simp [buildFrame]

/-- A frame that is built begins with a header. -/
theorem headerAt_buildFrame (cnt frameType : Byte) (payload : List Byte) :
    HeaderAt (buildFrame cnt frameType payload) := by
  simp [HeaderAt, buildFrame]

/-- And ends with a tail. -/
theorem tailAt_buildFrame (cnt frameType : Byte) (payload : List Byte) :
    TailAt (buildFrame cnt frameType payload) (buildFrame cnt frameType payload).length := by
  rw [TailAt, buildFrame_length]
  unfold buildFrame
  simp only [List.cons_append, List.nil_append]
  constructor
  · rw [show payload.length + 7 - 2 = payload.length + 1 + 4 by omega]
    simp [byteAt_append_right]
  · rw [show payload.length + 7 - 1 = payload.length + 2 + 4 by omega]
    simp [byteAt_append_right]

/-- Parsing a frame that is built gives back its counter, type and payload, with a checksum that is
right. -/
theorem parsedFrame_buildFrame (cnt frameType : Byte) (payload : List Byte) :
    parsedFrame (buildFrame cnt frameType payload) (buildFrame cnt frameType payload).length =
      frameOf cnt frameType payload := by
  rw [buildFrame_length]
  unfold parsedFrame frameOf buildFrame
  rw [show payload.length + 7 - 3 = payload.length + 4 by omega]
  simp [byteAt_append_right]

/-- **An intact frame at the front is popped**, whatever follows it. -/
theorem Intact.emits {cnt frameType : Byte} {payload : List Byte}
    (h : Intact cnt frameType payload) (x : List Byte) :
    candidate (buildFrame cnt frameType payload ++ x) =
      .emit (frameOf cnt frameType payload) (buildFrame cnt frameType payload).length := by
  have hd : Decides (buildFrame cnt frameType payload)
      (.emit (frameOf cnt frameType payload) (buildFrame cnt frameType payload).length) := by
    have h0 : expectedLen (buildFrame cnt frameType payload) ≠ 0 := by
      rw [h, buildFrame_length]; omega
    rw [← parsedFrame_buildFrame, ← h]
    refine .frame (headerAt_buildFrame _ _ _) h0 (Nat.le_of_eq h) ?_
    rw [h]
    exact tailAt_buildFrame _ _ _
  rw [candidate_append x (by rw [hd.eq]; nofun), hd.eq]

/-- An intact frame in front is taken out whole, and the scan goes on behind it. -/
theorem Intact.scan {cnt frameType : Byte} {payload : List Byte} (h : Intact cnt frameType payload)
    {x : List Byte} {as : List ParsedFrame} {r : List Byte} (hs : Scan flyFramer x as r none) :
    Scan flyFramer (buildFrame cnt frameType payload ++ x) (frameOf cnt frameType payload :: as) r
      none :=
  .emit (h.emits x) (by rwa [List.drop_left])

end FlyControl
