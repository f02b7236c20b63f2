import FastCppServer.FlyControl.Parser

/-!
# When the flight-control parser stalls

`PopFrame` gives an unknown frame type up, but a command frame whose command byte is unknown it
waits on, and no continuation ends the wait (`UnknownCommandAt.wait`). A parser is `Live` when it
does not stand before such a header and will not come to stand before one: what it holds is bounded,
and bytes can be found after which it takes every intact frame again. `live_iff` says exactly when
that is so of the stream fed so far.

A header can be doomed before its frame is complete: all bytes but the last are there and the first
tail byte is wrong. The parser then waits for one more byte, whatever it is, and goes on behind the
header. `eagerFramer` goes on at once; it stands where the parser stands after the next byte
(`scan_of_eager`), so the unknown commands the parser will come to are those it comes to.
-/

namespace FlyControl

open Framing Bytes

/-! ## Headers of unknown commands -/

/-- The header of a command frame whose command byte is in no table. -/
def UnknownCommandAt (b : List Byte) : Prop :=
  HeaderAt b ∧ 5 ≤ b.length ∧ byteAt b 3 = frameTypeCommand ∧
    commandFrameLen (byteAt b 4) = 0 ∧ byteAt b 4 ≠ cmdSetRoute ∧ byteAt b 4 ≠ cmdSetGeofence

/-- More bytes do not help an unknown command byte. -/
theorem UnknownCommandAt.append {b : List Byte} (h : UnknownCommandAt b) (x : List Byte) :
    UnknownCommandAt (b ++ x) := by
  obtain ⟨hh, h5, h3, hc⟩ := h
  refine ⟨(headerAt_append hh.1 x).2 hh, by rw [List.length_append]; omega, ?_, ?_⟩
  · rwa [byteAt_append_left (by omega)]
  · rwa [byteAt_append_left (by omega)]

/-- The command byte of a command frame is the first byte of its payload. -/
theorem cmdByteOf_command {b : List Byte} (h5 : 5 ≤ b.length) (h3 : byteAt b 3 = frameTypeCommand) :
    cmdByteOf b = byteAt b 4 := by
  simp [cmdByteOf, h5, h3]

/-- The length of a command frame: the table's, or the point count's. -/
theorem expectedLen_command {b : List Byte} (h5 : 5 ≤ b.length)
    (h3 : byteAt b 3 = frameTypeCommand) :
    expectedLen b =
      if commandFrameLen (byteAt b 4) = 0 then calcVariableLenFrameLen b frameTypeCommand
      else commandFrameLen (byteAt b 4) := by
  have ht : getExpectedFrameLen frameTypeCommand (byteAt b 4) = commandFrameLen (byteAt b 4) := rfl
  simp only [expectedLen, cmdByteOf_command h5 h3, h3, ht]

/-- For an unknown command byte the parser has no length. -/
theorem UnknownCommandAt.expectedLen_eq {b : List Byte} (h : UnknownCommandAt b) :
    expectedLen b = 0 := by
  obtain ⟨-, h5, h3, hc, hr, hg⟩ := h
  rw [expectedLen_command h5 h3, if_pos hc]
  simp [calcVariableLenFrameLen, hr, hg]

/-- **The stall.** Before the header of an unknown command the parser waits. -/
theorem UnknownCommandAt.wait {b : List Byte} (h : UnknownCommandAt b) : candidate b = .wait :=
  (Decides.lengthUnknown h.1 h.2.1 h.2.2.1 h.expectedLen_eq).eq

/-- A command frame of unknown length is that of an unknown command, or a route or a geofence whose
point count is yet to come. -/
theorem unknownCommand_or_count {b : List Byte} (hh : HeaderAt b) (h5 : 5 ≤ b.length)
    (h3 : byteAt b 3 = frameTypeCommand) (h0 : expectedLen b = 0) :
    UnknownCommandAt b ∨
      (b.length = 5 ∧ (byteAt b 4 = cmdSetRoute ∨ byteAt b 4 = cmdSetGeofence)) := by
  rw [expectedLen_command h5 h3] at h0
  by_cases hc : commandFrameLen (byteAt b 4) = 0
  · rw [if_pos hc] at h0
    unfold calcVariableLenFrameLen at h0
    by_cases hr : byteAt b 4 = cmdSetRoute
    · refine .inr ⟨?_, .inl hr⟩
      by_contra hne
      simp [hr, show ¬ b.length < 6 by omega] at h0
    by_cases hg : byteAt b 4 = cmdSetGeofence
    · refine .inr ⟨?_, .inr hg⟩
      by_contra hne
      simp [hg, show ¬ b.length < 6 by omega] at h0
      split at h0 <;> omega
    · exact .inl ⟨hh, h5, h3, hc, hr, hg⟩
  · rw [if_neg hc] at h0
    exact absurd h0 hc

/-! ## Going on behind a doomed header -/

/-- All bytes of the frame at the front but the last are there, and the first tail byte is wrong. -/
def MissesTail (b : List Byte) : Prop :=
  HeaderAt b ∧ 5 ≤ b.length ∧ b.length + 1 = expectedLen b ∧ byteAt b (b.length - 1) ≠ frameTail0

instance (b : List Byte) : Decidable (HeaderAt b) := inferInstanceAs (Decidable (_ ∧ _))

instance (b : List Byte) : Decidable (MissesTail b) := inferInstanceAs (Decidable (_ ∧ _))

instance (b : List Byte) : Decidable (UnknownCommandAt b) := inferInstanceAs (Decidable (_ ∧ _))

/-- The parser waits on a doomed header. -/
theorem MissesTail.wait {b : List Byte} (h : MissesTail b) : candidate b = .wait := by
  obtain ⟨hh, h5, hlen, -⟩ := h
  exact (Decides.incomplete hh h5 (by omega) (by omega)).eq

/-- Any next byte makes the parser give a doomed header up. -/
theorem MissesTail.skip {b : List Byte} (h : MissesTail b) {x : List Byte} (hx : x ≠ []) :
    candidate (b ++ x) = .skip 1 := by
  obtain ⟨hh, h5, hlen, htail⟩ := h
  have hpos := List.length_pos_iff.2 hx
  have hE := expectedLen_append h5 x (.inl (by omega))
  have hlen' : (b ++ x).length = b.length + x.length := List.length_append
  refine (Decides.badTail ((headerAt_append hh.1 x).2 hh) (by omega) (by omega) ?_).eq
  rw [hE]
  rintro ⟨h1, -⟩
  rw [show expectedLen b - 2 = b.length - 1 by omega, byteAt_append_left (by omega)] at h1
  exact htail h1

/-- The decision of the parser, except that a doomed header is given up at once. -/
def eager (b : List Byte) : Verdict ParsedFrame Empty :=
  if MissesTail b then .skip 1 else candidate b

/-- Where the parser does not wait, a parser that never waits does the same. -/
theorem eager_of_ne_wait {b : List Byte} (h : candidate b ≠ .wait) : eager b = candidate b :=
  if_neg fun hm => h hm.wait

/-- A parser that never waits gives up at least a byte, and no more than there are. -/
theorem eager_skip_bounds {b : List Byte} {n : Nat} (h : eager b = .skip n) :
    0 < n ∧ n ≤ b.length := by
  by_cases hm : MissesTail b
  · rw [eager, if_pos hm] at h
    cases h
    have := hm.2.1
    omega
  · rw [eager, if_neg hm] at h
    exact flyFramer.skip_bounds h

/-- Nor does it take out more than there is. -/
theorem eager_emit_bounds {b : List Byte} {a : ParsedFrame} {n : Nat} (h : eager b = .emit a n) :
    0 < n ∧ n ≤ b.length := by
  by_cases hm : MissesTail b
  · rw [eager, if_pos hm] at h
    cases h
  · rw [eager, if_neg hm] at h
    exact flyFramer.emit_bounds h

/-- A decision that has been made stays, whatever comes behind. -/
theorem eager_append {b : List Byte} (x : List Byte) (h : eager b ≠ .wait) :
    eager (b ++ x) = eager b := by
  by_cases hm : MissesTail b
  · by_cases hx : x = []
    · rw [hx, List.append_nil]
    · rw [eager_of_ne_wait (by rw [hm.skip hx]; nofun), hm.skip hx, eager, if_pos hm]
  · rw [eager, if_neg hm] at h
    have ha := candidate_append x h
    rw [eager_of_ne_wait (by rwa [ha]), ha, eager, if_neg hm]

/-- The parser that gives a doomed header up at once. -/
def eagerFramer : Framer Byte ParsedFrame Empty where
  verdict := eager
  skip_bounds := eager_skip_bounds
  emit_bounds := eager_emit_bounds
  stable := eager_append

/-- **One byte later the parser has gone as far.** What the eager scan of `b` leaves is where the
parser's own scan of any longer stream comes by. -/
theorem scan_of_eager {b : List Byte} {as : List ParsedFrame} {r : List Byte} {e : Option Empty}
    (h : Scan eagerFramer b as r e) {x : List Byte} (hx : x ≠ []) {as' : List ParsedFrame}
    {q : List Byte} (h' : Scan flyFramer (r ++ x) as' q none) :
    Scan flyFramer (b ++ x) (as ++ as') q none := by
  have ahead : ∀ {b : List Byte}, eager b ≠ .wait → candidate (b ++ x) = eager b := by
    intro b hb
    by_cases hm : MissesTail b
    · rw [hm.skip hx, eager, if_pos hm]
    · rw [eager, if_neg hm] at hb ⊢
      exact candidate_append x hb
  induction h with
  | wait _ => exact h'
  | fail hv => exact (‹Empty›).elim
  | @skip b n _ _ _ hv _ ih =>
    have hv' : eager b = .skip n := hv
    have hb : 0 < n ∧ n ≤ b.length := eagerFramer.skip_bounds hv
    refine .skip (n := n) ((ahead (by rw [hv']; nofun)).trans hv') ?_
    rw [List.drop_append_of_le_length hb.2]
    exact ih h'
  | @emit b a n _ _ _ hv _ ih =>
    have hv' : eager b = .emit a n := hv
    have hb : 0 < n ∧ n ≤ b.length := eagerFramer.emit_bounds hv
    refine .emit (n := n) ((ahead (by rw [hv']; nofun)).trans hv') ?_
    rw [List.drop_append_of_le_length hb.2]
    exact ih h'

/-! ## Clearing the buffer -/

/-- Some nonempty continuation leaves the parser with an empty buffer. -/
def Clears (b : List Byte) : Prop :=
  ∃ c as, c ≠ [] ∧ Scan flyFramer (b ++ c) as [] none

/-- What a scan leaves can be cleared, so what it started from can. -/
theorem clears_of_scan {b x r : List Byte} {as : List ParsedFrame}
    (h : Scan flyFramer (b ++ x) as r none) (hr : Clears r) : Clears b := by
  obtain ⟨c, as', hc, hs⟩ := hr
  refine ⟨x ++ c, as ++ as', by simp [hc], ?_⟩
  rw [← List.append_assoc]
  exact h.append rfl hs

/-- What is cleared with bytes behind it is cleared without them. -/
theorem Clears.of_append {b x : List Byte} (h : Clears (b ++ x)) : Clears b := by
  obtain ⟨c, as, hc, hs⟩ := h
  exact ⟨x ++ c, as, by simp [hc], by rwa [← List.append_assoc]⟩

/-- The reply frame, an intact frame of nine bytes. -/
theorem intact_reply : Intact 0 frameTypeReply [0, 0] := by decide

/-- There is nothing to scan in an empty buffer. -/
theorem scan_nil : Scan flyFramer [] [] [] none := .wait (show candidate [] = .wait from rfl)

/-- An empty buffer is clear. -/
theorem clears_nil : Clears [] :=
  ⟨buildFrame 0 frameTypeReply [0, 0] ++ [], [frameOf 0 frameTypeReply [0, 0]], nofun,
    intact_reply.scan scan_nil⟩

/-- A single byte that starts no header is dropped in front of the next frame. -/
theorem clears_zero : Clears [0] :=
  ⟨buildFrame 0 frameTypeReply [0, 0] ++ [], [frameOf 0 frameTypeReply [0, 0]], nofun,
    .skip (n := 1)
      (show candidate ([0] ++ (buildFrame 0 frameTypeReply [0, 0] ++ [])) = .skip 1 from rfl)
      (intact_reply.scan scan_nil)⟩

/-- The two tail bytes complete the frame at the front. -/
theorem clears_of_tail {b c : List Byte} (hh : HeaderAt b) (h5 : 5 ≤ b.length) (hc : c ≠ [])
    (hE : (b ++ c).length = expectedLen b) (ht : TailAt (b ++ c) (b ++ c).length) : Clears b := by
  have hlen : (b ++ c).length = b.length + c.length := List.length_append
  have h0 : expectedLen b ≠ 0 := by omega
  have hE' := expectedLen_append h5 c (.inl h0)
  have hd : Decides (b ++ c) (.emit _ (expectedLen (b ++ c))) :=
    .frame ((headerAt_append hh.1 c).2 hh) (by omega) (by omega) (by rwa [hE', ← hE])
  refine ⟨c, [_], hc, .emit hd.eq ?_⟩
  rw [hE', ← hE, List.drop_length]
  exact scan_nil

/-- A frame that is not complete, and not doomed, is completed by zeros and the tail. -/
theorem clears_of_incomplete {b : List Byte} (hh : HeaderAt b) (h5 : 5 ≤ b.length)
    (hlt : b.length < expectedLen b) (hm : ¬ MissesTail b) : Clears b := by
  have hn := expectedLen_bounds (b := b) (by omega)
  by_cases h1 : b.length + 1 = expectedLen b
  · have hlast : byteAt b (b.length - 1) = frameTail0 := by
      by_contra hne
      exact hm ⟨hh, h5, h1, hne⟩
    refine clears_of_tail (c := [frameTail1]) hh h5 (by simp) (by simpa using h1) ⟨?_, ?_⟩
    · rw [List.length_append, List.length_singleton, byteAt_append_left (by omega)]
      exact hlast
    · rw [List.length_append, List.length_singleton, byteAt_append_right (by omega)]
      simp
  · -- zeros up to the tail
    have hpad :
        (b ++ List.replicate (expectedLen b - 2 - b.length) 0).length = expectedLen b - 2 := by
      simp; omega
    refine clears_of_tail (c := List.replicate (expectedLen b - 2 - b.length) 0 ++
      [frameTail0, frameTail1]) hh h5 (by simp) ?_ ?_
    · rw [← List.append_assoc, List.length_append, hpad]
      simp; omega
    · rw [← List.append_assoc, TailAt, List.length_append, hpad]
      constructor
      · rw [byteAt_append_right (by simp at hpad ⊢; omega), hpad]
        simp
      · rw [byteAt_append_right (by simp at hpad ⊢; omega), hpad]
        simp

/-- A header of five or six bytes whose length is told is far from its tail. -/
theorem clears_of_five {b : List Byte} (hh : HeaderAt b) (hlen : b.length = 5 ∨ b.length = 6)
    (h0 : expectedLen b ≠ 0) : Clears b := by
  have hn := expectedLen_bounds h0
  exact clears_of_incomplete hh (by omega) (by omega) (fun hm => by have := hm.2.2.1; omega)

/-- A header whose frame type or fifth byte is yet to come. -/
theorem clears_of_short {b : List Byte} (hh : HeaderAt b) (h5 : b.length < 5) : Clears b := by
  have hreply : ∀ cnt : Byte, Clears [frameHeader0, frameHeader1, cnt] := fun cnt =>
    Clears.of_append (x := [frameTypeReply, 0])
      (clears_of_five ⟨by simp, rfl, rfl⟩ (.inl rfl) (show (9 : Nat) ≠ 0 by decide))
  obtain ⟨h2, hb0, hb1⟩ := hh
  match b, h2, h5 with
  | [b0, b1], _, _ =>
    obtain rfl : b0 = frameHeader0 := hb0
    obtain rfl : b1 = frameHeader1 := hb1
    exact Clears.of_append (x := [0]) (hreply 0)
  | [b0, b1, cnt], _, _ =>
    obtain rfl : b0 = frameHeader0 := hb0
    obtain rfl : b1 = frameHeader1 := hb1
    exact hreply cnt
  | [b0, b1, cnt, t], _, _ =>
    obtain rfl : b0 = frameHeader0 := hb0
    obtain rfl : b1 = frameHeader1 := hb1
    by_cases ht : t = frameTypeCommand
    · subst ht
      exact Clears.of_append (x := [cmdPowerSwitch])
        (clears_of_five ⟨by simp, rfl, rfl⟩ (.inl rfl) (show (9 : Nat) ≠ 0 by decide))
    by_cases h0 : expectedLen [frameHeader0, frameHeader1, cnt, t, 0] = 0
    swap
    · exact Clears.of_append (x := [0]) (clears_of_five ⟨by simp, rfl, rfl⟩ (.inl rfl) h0)
    -- the header is given up, and what is left waits after at most three further skips
    have hskip : Decides [frameHeader0, frameHeader1, cnt, t, 0] (.skip 1) :=
      .typeUnknown ⟨by simp, rfl, rfl⟩ (by simp) ht h0
    have hjunk : Decides [frameHeader1, cnt, t, 0] (.skip 1) :=
      .junk (by simp) (fun h => absurd h.2.1 (show ¬ frameHeader1 = frameHeader0 by decide))
    by_cases hc : HeaderAt [cnt, t, 0]
    · obtain ⟨-, hc0, hc1⟩ := hc
      obtain rfl : cnt = frameHeader0 := hc0
      obtain rfl : t = frameHeader1 := hc1
      exact clears_of_scan (x := [0]) (.skip hskip.eq (.skip hjunk.eq (.wait rfl))) (hreply 0)
    · have hcnt : Decides [cnt, t, 0] (.skip 1) := .junk (by simp) hc
      have ht0 : Decides [t, 0] (.skip 1) :=
        .junk (by simp) (fun h => absurd h.2.2 (show ¬ (0 : Byte) = frameHeader1 by decide))
      exact clears_of_scan (x := [0])
        (.skip hskip.eq (.skip hjunk.eq (.skip hcnt.eq (.skip ht0.eq (.wait rfl))))) clears_zero

/-- **Where the parser waits it can be cleared**, unless it stands before an unknown command or a
doomed header. -/
theorem clears_of_wait {b : List Byte} (hw : candidate b = .wait) (hu : ¬ UnknownCommandAt b)
    (hm : ¬ MissesTail b) : Clears b := by
  have hd := candidate_decides b
  rw [hw] at hd
  cases hd with
  | tooShort h2 =>
    match b, h2 with
    | [], _ => exact clears_nil
    | [b0], _ =>
      by_cases h0 : b0 = frameHeader0
      · subst h0
        exact Clears.of_append (x := [frameHeader1]) (clears_of_short ⟨by simp, rfl, rfl⟩ (by simp))
      · have hj : Decides [b0, 0] (.skip 1) := .junk (by simp) (fun h => h0 h.2.1)
        exact clears_of_scan (x := [0]) (.skip hj.eq (.wait rfl)) clears_zero
  | short hh h5 => exact clears_of_short hh h5
  | incomplete hh h5 h0 hlt => exact clears_of_incomplete hh h5 hlt hm
  | lengthUnknown hh h5 h3 h0 =>
    -- a route or a geofence whose point count is yet to come: say that it has no points
    obtain ⟨hlen, hc⟩ := (unknownCommand_or_count hh h5 h3 h0).resolve_left hu
    have h3' : byteAt (b ++ [0]) 3 = frameTypeCommand := by rwa [byteAt_append_left (by omega)]
    have h4' : byteAt (b ++ [0]) 4 = byteAt b 4 := byteAt_append_left (by omega) _
    have h5' : byteAt (b ++ [0]) 5 = 0 := by rw [byteAt_append_right (by omega), hlen]; rfl
    have hE : expectedLen (b ++ [0]) = 9 := by
      rw [expectedLen_command (by simp; omega) h3', h4']
      have h6 : ¬ b.length + 1 < 6 := by omega
      rcases hc with hc | hc <;> rw [hc]
      · rw [if_pos (by decide)]
        simp [calcVariableLenFrameLen, h4', hc, h5', h6]
      · rw [if_pos (by decide)]
        simp [calcVariableLenFrameLen, h4', hc, h5', h6,
          show cmdSetGeofence ≠ cmdSetRoute by decide]
    exact Clears.of_append (x := [0])
      (clears_of_five ((headerAt_append hh.1 _).2 hh) (.inr (by simp; omega)) (by omega))

/-! ## Liveness -/

/-- A header stands somewhere in the buffer. -/
def HoldsHeader (b : List Byte) : Prop := ∃ k, HeaderAt (b.drop k)

/-- What the parser owes when it waits with `r` in its buffer. -/
structure Live (r : List Byte) : Prop where
  /-- A header in the buffer belongs to a stream from which a frame is popped. -/
  completable : HoldsHeader r → ∃ cont frame, (popFrame (r ++ cont)).1 = some frame
  /-- Less than the longest admissible frame is held. -/
  bounded : r.length < maxFrameLen
  /-- Later intact frames are reachable: after some bytes, each of them is popped. -/
  later : ∃ cont, ∀ cnt frameType payload, Intact cnt frameType payload →
    ∃ frames, drain (r ++ cont ++ buildFrame cnt frameType payload) =
      (frames ++ [frameOf cnt frameType payload], [])

/-- The receive loop leaves what the scan of the whole stream leaves. -/
theorem receive_scan_flatten (chunks : List (List Byte)) :
    Scan flyFramer chunks.flatten (receive [] chunks).1 (receive [] chunks).2 none := by
  have h := drain_scan ([] ++ chunks.flatten)
  obtain ⟨h1, h2, -⟩ := (receive_scan [] chunks).eq_of_scan rfl h
  rw [h1, h2]
  exact h

/-- A buffer that can be cleared is live: behind the bytes that clear it every intact frame is
popped. -/
theorem Clears.live {r : List Byte} (h : Clears r) (hb : r.length < maxFrameLen) : Live r := by
  obtain ⟨c, as, hc, hs⟩ := h
  have hall : ∀ {cnt frameType payload}, Intact cnt frameType payload →
      Scan flyFramer (r ++ c ++ buildFrame cnt frameType payload)
        (as ++ [frameOf cnt frameType payload]) [] none := by
    intro cnt frameType payload hi
    refine hs.append rfl ?_
    simpa using hi.scan scan_nil
  refine ⟨fun _ => ?_, hb, c, fun cnt frameType payload hi => ⟨as, ?_⟩⟩
  · refine ⟨c ++ buildFrame 0 frameTypeReply [0, 0], ?_⟩
    have h := hall intact_reply
    rw [List.append_assoc] at h
    obtain ⟨q, hq, ⟨hv, hp⟩ | ⟨frame, n, hv, hp⟩⟩ :=
      popFrame_spec (r ++ (c ++ buildFrame 0 frameTypeReply [0, 0]))
    · have := (Scan.det (hq.scan (.wait hv)) h).1
      exact absurd this (by simp)
    · exact ⟨frame, by rw [hp]⟩
  · obtain ⟨h1, h2, -⟩ := Scan.det (drain_scan _) (hall hi)
    exact Prod.ext h1 h2

/-- Where the parser comes by, the eager one does. -/
theorem reaches_eager {s : List Byte} {k : Nat} (h : Reaches flyFramer s k) :
    Reaches eagerFramer s k := by
  induction h with
  | start => exact .start
  | @step k n _ hc ih =>
    refine ih.step ?_
    have hv : eagerFramer.verdict (s.drop k) = flyFramer.verdict (s.drop k) :=
      eager_of_ne_wait hc.ne_wait
    unfold Consumes
    rwa [hv]

/-- A parser that waits, not before an unknown command, holds less than one frame. -/
theorem length_lt_of_wait {b : List Byte} (hw : candidate b = .wait) (hu : ¬ UnknownCommandAt b) :
    b.length < maxFrameLen := by
  have hd := candidate_decides b
  rw [hw] at hd
  cases hd with
  | tooShort h2 => simp only [maxFrameLen]; omega
  | short _ h5 => simp only [maxFrameLen]; omega
  | incomplete _ _ h0 hlt => have := expectedLen_bounds h0; omega
  | lengthUnknown hh h5 h3 h0 =>
    have := ((unknownCommand_or_count hh h5 h3 h0).resolve_left hu).1
    simp only [maxFrameLen]
    omega

/-- **An unknown command ends it.** Once the eager parser comes to one, whatever follows, the parser
stays before that header. -/
theorem not_live_of_unknownCommand {s r : List Byte} {frames : List ParsedFrame}
    (hr : Scan flyFramer s frames r none) {k : Nat} (hk : Reaches eagerFramer s k)
    (hu : UnknownCommandAt (s.drop k)) : ¬ Live r := by
  intro hlive
  obtain ⟨as, q, e, he⟩ := Scan.total eagerFramer s
  have hm : ¬ MissesTail (s.drop k) := by
    rintro ⟨-, -, hlen, -⟩
    rw [hu.expectedLen_eq] at hlen
    omega
  have hw : eagerFramer.verdict (s.drop k) = .wait := (if_neg hm).trans hu.wait
  obtain rfl : q = s.drop k := he.rest_eq (Subsingleton.elim _ _) hk hw
  obtain ⟨c, hc⟩ := hlive.later
  obtain ⟨frames', hd⟩ := hc _ _ _ intact_reply
  have hstay := scan_of_eager he (x := c ++ buildFrame 0 frameTypeReply [0, 0])
    (by simp [buildFrame]) (.wait (hu.append _).wait)
  have hgo := drain_scan (r ++ c ++ buildFrame 0 frameTypeReply [0, 0])
  rw [hd, List.append_assoc] at hgo
  have hnil := (Scan.det (hr.append rfl hgo) hstay).2.1
  simp [buildFrame] at hnil

/-- Without one, the buffer can be cleared. -/
theorem live_of_no_unknownCommand {s r : List Byte} {frames : List ParsedFrame}
    (hr : Scan flyFramer s frames r none)
    (hu : ∀ k, Reaches eagerFramer s k → ¬ UnknownCommandAt (s.drop k)) : Live r := by
  obtain ⟨as, q, e, he⟩ := Scan.total eagerFramer s
  obtain rfl : e = none := Subsingleton.elim _ _
  obtain ⟨k, hk, rfl⟩ := he.reaches_rest rfl
  have hw : eager (s.drop k) = .wait := he.rest_wait rfl
  have hm : ¬ MissesTail (s.drop k) := by
    intro hm
    rw [eager, if_pos hm] at hw
    cases hw
  rw [eager, if_neg hm] at hw
  obtain ⟨c, as', hc, hs⟩ := clears_of_wait hw (hu k hk) hm
  -- the continuation that clears what the eager parser holds clears what the parser holds
  have hclear : Clears r := by
    obtain ⟨as'', q, e, hq⟩ := Scan.total flyFramer (r ++ c)
    obtain rfl : e = none := Subsingleton.elim _ _
    obtain ⟨-, rfl, -⟩ := Scan.det (hr.append rfl hq) (scan_of_eager he hc hs)
    exact ⟨c, as'', hc, hq⟩
  obtain ⟨j, hj, hrest⟩ := hr.reaches_rest rfl
  exact hclear.live (length_lt_of_wait (hr.rest_wait rfl) (hrest ▸ hu j (reaches_eager hj)))

/-- **When the flight-control parser stalls.** However the stream was fed, the parser is live if and
only if the scan of the stream comes to no header of an unknown command. -/
theorem live_iff (chunks : List (List Byte)) :
    Live (receive [] chunks).2 ↔
      ∀ k, Reaches eagerFramer chunks.flatten k → ¬ UnknownCommandAt (chunks.flatten.drop k) := by
  have hr := receive_scan_flatten chunks
  exact ⟨fun h k hk hu => not_live_of_unknownCommand hr hk hu h, live_of_no_unknownCommand hr⟩

/-- Five bytes stall it: a command frame with command byte `0xFF`. -/
theorem not_live_command_ff : ¬ Live (receive [] [[0xEB, 0x90, 0x00, 0x10, 0xFF]]).2 :=
  not_live_of_unknownCommand (receive_scan_flatten _) .start (by decide)

end FlyControl
