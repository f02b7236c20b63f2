import FastCppServer.MyGasDetectorPoll.Crc

/-!
# The answer of a gas detector

The port delivers bytes in chunks of any size, and each `ReadBytes` takes what has come, no more
than it asks for (`serve`). `ReadResponse` gives a frame without an error just if what is delivered
begins with a frame that is as long as its own header says (`WellFramed`); of the result
`ParseResponse` makes of it the texts and the branches are in `parseResponse`, and `parseReads` is
what it reads, with every index checked.
-/

namespace MyGasDetectorPoll

/-! ## The port -/

/-- What `ReadBytes` gives while so many bytes are asked for, and the chunks that are left. After
the last chunk it fails, or the deadline has passed. -/
def serve (failure : String) : Nat → List (List UInt8) → List Read × List (List UInt8)
  | 0, chunks => ([], chunks)
  | _ + 1, [] => (if failure = "" then [] else [{ error := failure }], [])
  | asked + 1, chunk :: rest =>
    if chunk.length ≤ asked + 1 then
      let (reads, left) := serve failure (asked + 1 - chunk.length) rest
      ({ bytes := chunk } :: reads, left)
    else ([{ bytes := chunk.take (asked + 1) }], chunk.drop (asked + 1) :: rest)

/-- `ReadResponse` at a port, and the chunks that are left. -/
def readPort (failure : String) (chunks : List (List UInt8)) :
    (List UInt8 × String) × List (List UInt8) :=
  let (headerReads, rest) := serve failure 3 chunks
  let (bodyReads, left) := serve failure (remaining (readUpTo 3 [] headerReads).1) rest
  (readResponse headerReads bodyReads, left)

/-- The bytes are those that are asked for, as far as they come, and the others are left. -/
theorem serve_spec (failure : String) (asked : Nat) (chunks : List (List UInt8)) :
    received (serve failure asked chunks).1 = chunks.flatten.take asked ∧
      (serve failure asked chunks).2.flatten = chunks.flatten.drop asked := by
  induction chunks generalizing asked with
  | nil =>
    cases asked with
    | zero => exact ⟨rfl, rfl⟩
    | succ asked =>
      refine ⟨?_, by simp [serve]⟩
      by_cases hfailure : failure = "" <;> simp [serve, received, hfailure]
  | cons chunk rest ih =>
    cases asked with
    | zero => exact ⟨rfl, rfl⟩
    | succ asked =>
      rw [serve, List.flatten_cons]
      split
      · next hle =>
        obtain ⟨hreads, hleft⟩ := ih (asked + 1 - chunk.length)
        refine ⟨?_, ?_⟩
        · rw [received, if_neg (by simp), hreads, List.take_append, List.take_of_length_le hle]
        · rw [hleft, List.drop_append, List.drop_eq_nil_of_le hle, List.nil_append]
      · next hgt =>
        have hle : asked + 1 ≤ chunk.length := by omega
        refine ⟨?_, ?_⟩
        · rw [received, if_neg (by simp), received, List.append_nil,
            List.take_append_of_le_length hle]
        · rw [List.flatten_cons, List.drop_append_of_le_length hle]

/-! ## A frame -/

/-- How long a frame says that it is. -/
def declaredLength (frame : List UInt8) : Nat :=
  if frame.getD 1 0 &&& 0x80 ≠ 0 then 5 else (frame.getD 2 0).toNat + 5

/-- A frame with a whole header, as long as it says, and no longer than a frame may be. -/
structure WellFramed (frame : List UInt8) : Prop where
  header : 3 ≤ frame.length
  length_eq : frame.length = declaredLength frame
  length_le : frame.length ≤ 260

/-- A frame says how long it is by its header. -/
theorem declaredLength_eq (frame : List UInt8) : declaredLength frame = 3 + remaining frame := by
  rw [declaredLength, remaining]
  split <;> omega

/-- The header is in the first three bytes. -/
theorem remaining_take (frame : List UInt8) : remaining (frame.take 3) = remaining frame := by
  simp [remaining, List.getD_eq_getElem?_getD]

/-- What a frame begins says how long the frame is. -/
theorem remaining_of_prefix {frame data : List UInt8} (h : frame <+: data)
    (hlen : 3 ≤ frame.length) : remaining frame = remaining data := by
  obtain ⟨rest, rfl⟩ := h
  rw [← remaining_take (frame ++ rest), List.take_append_of_le_length hlen, remaining_take]

/-- What `ReadResponse` comes to at a port. -/
theorem readPort_cases (failure : String) (chunks : List (List UInt8)) :
    (chunks.flatten.length < 3 ∧
      ∃ e, (readPort failure chunks).1 = (chunks.flatten, e) ∧ (chunks.flatten ≠ [] → e ≠ "")) ∨
    (3 ≤ chunks.flatten.length ∧
      (readPort failure chunks).2.flatten = chunks.flatten.drop (3 + remaining chunks.flatten) ∧
      ∃ e, (readPort failure chunks).1 =
          (chunks.flatten.take (3 + remaining chunks.flatten), e) ∧
        (e = "" ↔ 3 + remaining chunks.flatten ≤ chunks.flatten.length)) := by
  obtain ⟨hheader, hrest⟩ := serve_spec failure 3 chunks
  have hread : (readUpTo 3 [] (serve failure 3 chunks).1).1 = chunks.flatten.take 3 := by
    rw [readUpTo_fst (Nat.zero_le 3), hheader]
    simp [List.take_take]
  let x : Exchange :=
    { discards := [], written := 8, headerReads := (serve failure 3 chunks).1
      bodyReads := (serve failure (remaining chunks.flatten) (serve failure 3 chunks).2).1 }
  obtain ⟨hbody, hleft⟩ := serve_spec failure (remaining chunks.flatten) (serve failure 3 chunks).2
  have hxheader : x.header = chunks.flatten.take 3 := by
    rw [Exchange.header, hheader, List.take_take, Nat.min_self]
  have hxbody : x.body = (chunks.flatten.drop 3).take (remaining chunks.flatten) := by
    rw [Exchange.body, hxheader, remaining_take, hbody, hrest, List.take_take, Nat.min_self]
  have hport : readPort failure chunks = (readResponse x.headerReads x.bodyReads,
      (serve failure (remaining chunks.flatten) (serve failure 3 chunks).2).2) := by
    rw [readPort]
    dsimp only
    rw [hread, remaining_take]
  rw [hport]
  by_cases hshort : chunks.flatten.length < 3
  · have hall : x.header = chunks.flatten := by
      rw [hxheader, List.take_of_length_le (by omega)]
    refine .inl ⟨hshort, ?_⟩
    have hread := readResponse_short (x := x) (by rw [hall]; exact hshort)
    rwa [hall] at hread
  · have hlen : x.header.length = 3 := by
      rw [hxheader, List.length_take]
      omega
    obtain ⟨e, he, hiff⟩ := readResponse_long hlen
    refine .inr ⟨by omega, ?_, e, ?_, ?_⟩
    · rw [hleft, hrest, List.drop_drop]
    · rw [he, hxheader, hxbody, List.take_add]
    · rw [hiff, hxheader, hxbody, remaining_take, List.length_take, List.length_drop]
      omega

/-- **A frame is read without an error** just if what is delivered begins with it, and what follows
it is left. -/
theorem readPort_frame_iff {failure : String} {chunks : List (List UInt8)} {frame : List UInt8} :
    (readPort failure chunks).1 = (frame, "") ∧ frame ≠ [] ↔
      WellFramed frame ∧ frame <+: chunks.flatten := by
  rcases readPort_cases failure chunks with ⟨hshort, e, he, herror⟩ | ⟨hlong, -, e, he, hwhole⟩
  · constructor
    · rintro ⟨hread, hne⟩
      rw [he] at hread
      obtain ⟨rfl, rfl⟩ := Prod.mk.inj hread
      exact absurd rfl (herror hne)
    · rintro ⟨hframe, hprefix⟩
      have hle := hprefix.length_le
      have hheader := hframe.header
      omega
  · constructor
    · rintro ⟨hread, -⟩
      rw [he] at hread
      obtain ⟨rfl, rfl⟩ := Prod.mk.inj hread
      have hle := hwhole.1 rfl
      have hbounds := remaining_bounds chunks.flatten
      have hlen : (chunks.flatten.take (3 + remaining chunks.flatten)).length =
          3 + remaining chunks.flatten := by
        rw [List.length_take]
        omega
      have hprefix := List.take_prefix (3 + remaining chunks.flatten) chunks.flatten
      refine ⟨⟨by omega, ?_, by omega⟩, hprefix⟩
      rw [declaredLength_eq, hlen, remaining_of_prefix hprefix (by omega)]
    · rintro ⟨hframe, hprefix⟩
      have hlen : frame.length = 3 + remaining chunks.flatten := by
        rw [hframe.length_eq, declaredLength_eq, remaining_of_prefix hprefix hframe.header]
      have htake : chunks.flatten.take (3 + remaining chunks.flatten) = frame := by
        rw [← hlen]
        exact (List.prefix_iff_eq_take.1 hprefix).symm
      refine ⟨?_, fun hnil => ?_⟩
      · rw [he, htake, hwhole.2 (hlen ▸ hprefix.length_le)]
      · have hheader := hframe.header
        rw [hnil] at hheader
        cases hheader

/-- What is left after a frame is what comes behind it. -/
theorem readPort_left {failure : String} {chunks : List (List UInt8)} {frame : List UInt8}
    (h : WellFramed frame ∧ frame <+: chunks.flatten) :
    frame ++ (readPort failure chunks).2.flatten = chunks.flatten := by
  obtain ⟨hframe, hprefix⟩ := h
  have hlen : frame.length = 3 + remaining chunks.flatten := by
    rw [hframe.length_eq, declaredLength_eq, remaining_of_prefix hprefix hframe.header]
  rcases readPort_cases failure chunks with ⟨hshort, -⟩ | ⟨-, hleft, -⟩
  · have hle := hprefix.length_le
    have hheader := hframe.header
    omega
  · rw [hleft, ← hlen]
    conv => lhs; rw [List.prefix_iff_eq_take.1 hprefix]
    rw [List.length_take, Nat.min_eq_left hprefix.length_le]
    exact List.take_append_drop _ _

/-! ## What the parser accepts -/

/-- The registers of a result, in the order of the frame. -/
def GasDetectorData.registers (r : GasDetectorData) : List UInt16 :=
  [r.definitionRegister, r.concentrationRegister, r.lowAlarmRegister, r.highAlarmRegister,
    r.rangeRegister, r.statusRegister, r.adRegister, r.temperatureRegister, r.gasRegister,
    r.humidityRegister]

/-- What the seven checks of `ParseResponse` let through. -/
structure Accepted (response : List UInt8) (address : UInt8) (count : Nat) : Prop where
  long : 5 ≤ response.length
  crc : crcAtEnd response = crc16Modbus response.dropLast.dropLast
  address : response.getD 0 0 = address
  function : response.getD 1 0 = 0x03
  byteCount : (response.getD 2 0).toNat = count * 2
  length_eq : response.length = count * 2 + 5

variable {response : List UInt8} {address : UInt8} {count : Nat}

/-- What passes the seven checks is valid, and its registers are read. -/
theorem parseResponse_accepted (h : Accepted response address count) :
    (parseResponse response address count).valid = true ∧
      (parseResponse response address count).registers =
        (List.range 10).map (register response) := by
  have hexception : ¬ response.getD 1 0 &&& 0x80 ≠ 0 := by
    rw [h.function]
    decide
  have hcount : ¬ ((response.getD 2 0).toNat ≠ count * 2 ∨ response.length ≠ count * 2 + 5) := by
    rintro (hbytes | hlen)
    · exact hbytes h.byteCount
    · exact hlen h.length_eq
  rw [parseResponse]
  dsimp only
  rw [if_neg (Nat.not_lt.2 h.long), if_neg (not_not.2 h.crc), if_neg (not_not.2 h.address),
    if_neg hexception, if_neg (not_not.2 h.function), if_neg hcount]
  exact ⟨rfl, rfl⟩

/-- What does not pass them is not valid, and has an error. -/
theorem parseResponse_rejected (h : ¬ Accepted response address count) :
    (parseResponse response address count).valid = false ∧
      (parseResponse response address count).error ≠ "" := by
  rw [parseResponse]
  dsimp only
  split
  · exact ⟨rfl, by simp⟩
  · next hlong =>
    split
    · exact ⟨rfl, by simp⟩
    · next hcrc =>
      split
      · exact ⟨rfl, by simp⟩
      · next haddress =>
        split
        · exact ⟨rfl, by simp⟩
        · split
          · exact ⟨rfl, by simp⟩
          · next hfunction =>
            split
            · exact ⟨rfl, by simp⟩
            · next hcount =>
              obtain ⟨hbytes, hlen⟩ := not_or.1 hcount
              exact absurd ⟨Nat.not_lt.1 hlong, not_not.1 hcrc, not_not.1 haddress,
                not_not.1 hfunction, not_not.1 hbytes, not_not.1 hlen⟩ h

/-- **A result is valid** when the response passes the seven checks. -/
theorem valid_iff_accepted :
    (parseResponse response address count).valid = true ↔ Accepted response address count := by
  constructor
  · intro hvalid
    by_contra hrejected
    rw [(parseResponse_rejected hrejected).1] at hvalid
    cases hvalid
  · exact fun h => (parseResponse_accepted h).1

/-! ## What the parser reads -/

/-- The register in the data of a frame, with the reads checked. -/
def registerAt (response : List UInt8) (index : Nat) : Option UInt16 := do
  let high ← response[3 + index * 2]?
  let low ← response[3 + index * 2 + 1]?
  return (high.toUInt16 <<< 8) ||| low.toUInt16

/-- What `ParseResponse` reads, with every index checked, up to the registers of a valid result. -/
def parseReads (response : List UInt8) (expectedAddress : UInt8) (expectedRegisterCount : Nat) :
    Option (Option (List UInt16)) := do
  if response.length < 5 then
    return none
  let low ← response[response.length - 2]?
  let high ← response[response.length - 1]?
  if low.toUInt16 ||| (high.toUInt16 <<< 8) ≠ crc16Modbus response.dropLast.dropLast then
    return none
  let code ← response[1]?
  let address ← response[0]?
  if address ≠ expectedAddress then
    return none
  if code &&& 0x80 ≠ 0 then
    let _exceptionCode ← response[2]?
    return none
  if code ≠ 0x03 then
    return none
  let byteCount ← response[2]?
  if byteCount.toNat ≠ expectedRegisterCount * 2 ∨
      response.length ≠ expectedRegisterCount * 2 + 5 then
    return none
  let registers ← (List.range 10).mapM (registerAt response)
  return some registers

/-- A read within a response needs no default. -/
theorem getElem?_eq_getD {i : Nat} (h : i < response.length) :
    response[i]? = some (response.getD i 0) := by
  rw [List.getD_eq_getElem?_getD, List.getElem?_eq_getElem h, Option.getD_some]

/-- All checked reads succeed where the last one is within the response. -/
theorem mapM_registerAt :
    ∀ {indices : List Nat}, (∀ i ∈ indices, 3 + i * 2 + 1 < response.length) →
      indices.mapM (registerAt response) = some (indices.map (register response))
  | [], _ => rfl
  | i :: indices, h => by
    have hi := h i (List.mem_cons_self ..)
    have hfirst : registerAt response i = some (register response i) := by
      rw [registerAt, getElem?_eq_getD hi, getElem?_eq_getD (Nat.lt_of_succ_lt hi)]
      rfl
    rw [List.mapM_cons, hfirst, mapM_registerAt fun j hj => h j (List.mem_cons_of_mem i hj)]
    rfl

/-- **The reads of an accepted response lie in it** where there are ten registers at least. -/
theorem parseReads_accepted (hcount : 10 ≤ count) (h : Accepted response address count) :
    parseReads response address count = some (some ((List.range 10).map (register response))) := by
  have hlong := h.long
  have hlen := h.length_eq
  have hcrc := h.crc
  have hexception : ¬ response.getD 1 0 &&& 0x80 ≠ 0 := by
    rw [h.function]
    decide
  have hdeclared :
      ¬ ((response.getD 2 0).toNat ≠ count * 2 ∨ response.length ≠ count * 2 + 5) := by
    rintro (hbytes | hlen)
    · exact hbytes h.byteCount
    · exact hlen h.length_eq
  rw [parseReads, if_neg (Nat.not_lt.2 hlong),
    getElem?_eq_getD (i := response.length - 2) (by omega),
    getElem?_eq_getD (i := response.length - 1) (by omega), getElem?_eq_getD (i := 1) (by omega),
    getElem?_eq_getD (i := 0) (by omega), getElem?_eq_getD (i := 2) (by omega)]
  simp only [Option.bind_eq_bind, Option.bind_some]
  rw [crcAtEnd] at hcrc
  rw [if_neg (not_not.2 hcrc), if_neg (not_not.2 h.address), if_neg hexception,
    if_neg (not_not.2 h.function), if_neg hdeclared, mapM_registerAt fun i hi => by
      have := List.mem_range.1 hi
      omega]
  rfl

/-- So do those of a rejected one. -/
theorem parseReads_rejected (h : ¬ Accepted response address count) :
    parseReads response address count = some none := by
  rw [parseReads]
  split
  · rfl
  · next hlong =>
    rw [getElem?_eq_getD (i := response.length - 2) (by omega),
      getElem?_eq_getD (i := response.length - 1) (by omega), getElem?_eq_getD (i := 1) (by omega),
      getElem?_eq_getD (i := 0) (by omega), getElem?_eq_getD (i := 2) (by omega)]
    simp only [Option.bind_eq_bind, Option.bind_some]
    split
    · rfl
    · next hcrc =>
      split
      · rfl
      · next haddress =>
        split
        · rfl
        · split
          · rfl
          · next hfunction =>
            split
            · rfl
            · next hcount =>
              obtain ⟨hbytes, hlen⟩ := not_or.1 hcount
              exact absurd ⟨Nat.not_lt.1 hlong, not_not.1 hcrc, not_not.1 haddress,
                not_not.1 hfunction, not_not.1 hbytes, not_not.1 hlen⟩ h

/-! ## The answer to a request for ten registers -/

/-- The words of the data, the high byte first. -/
def words : List UInt8 → List Nat
  | high :: low :: rest => (high.toNat * 256 + low.toNat) :: words rest
  | _ => []

/-- The CRC at the end is that of the body. -/
theorem eq_withCrc_iff (h : 2 ≤ response.length) :
    crcAtEnd response = crc16Modbus response.dropLast.dropLast ↔
      response = withCrc response.dropLast.dropLast := by
  rw [crcAtEnd_eq_iff h]
  constructor
  · intro hzero
    obtain ⟨low, high, hend⟩ := split_end h
    have hcrc := (crcAtEnd_eq_iff h).2 hzero
    rw [hend, crcAtEnd_append, ← hend] at hcrc
    conv => lhs; rw [hend]
    rw [withCrc, ← hcrc, toUInt8_low_or_high, toUInt8_shift_low_or_high]
  · intro heq
    rw [heq]
    exact crc16Modbus_withCrc _

/-- The well-formed answers. -/
def answer (address : UInt8) (data : List UInt8) : List UInt8 :=
  withCrc (address :: 0x03 :: 20 :: data)

/-- **The answers that are accepted** are the well-formed ones. -/
theorem accepted_iff_answer :
    Accepted response address 10 ↔ ∃ data, data.length = 20 ∧ response = answer address data := by
  constructor
  · intro h
    have hlen : response.length = 25 := h.length_eq
    have hcheck := (eq_withCrc_iff (by omega)).1 h.crc
    have hbody : response.dropLast.dropLast.length = 23 := by
      rw [List.length_dropLast, List.length_dropLast, hlen]
    match hparts : response.dropLast.dropLast, hbody with
    | a :: b :: c :: data, hbody =>
      rw [hparts] at hcheck
      have haddress := h.address
      have hfunction := h.function
      have hcount := h.byteCount
      rw [hcheck] at haddress hfunction hcount
      have hc : c = 20 := UInt8.toNat_inj.1 hcount
      refine ⟨data, Nat.succ.inj (Nat.succ.inj (Nat.succ.inj hbody)), ?_⟩
      rw [hcheck, answer, ← haddress, ← hfunction, hc]
      rfl
  · rintro ⟨data, hlen, rfl⟩
    have hlength : (answer address data).length = 25 := by
      rw [answer, withCrc, List.length_append]
      simp [hlen]
    refine ⟨by omega, ?_, rfl, rfl, rfl, hlength⟩
    exact (crcAtEnd_eq_iff (by omega)).2 (crc16Modbus_withCrc _)

/-- A register is the word of its two bytes. -/
theorem toNat_register (response : List UInt8) (i : Nat) :
    (register response i).toNat =
      (response.getD (3 + i * 2) 0).toNat * 256 + (response.getD (3 + i * 2 + 1) 0).toNat := by
  have hhigh := (response.getD (3 + i * 2) 0).toNat_lt
  have hlow := (response.getD (3 + i * 2 + 1) 0).toNat_lt
  rw [register, UInt16.toNat_or, UInt16.toNat_shiftLeft, UInt8.toNat_toUInt16, UInt8.toNat_toUInt16]
  have hshift : (response.getD (3 + i * 2) 0).toNat <<< ((8 : UInt16).toNat % 16) % 2 ^ 16 =
      (response.getD (3 + i * 2) 0).toNat <<< 8 := by
    refine Nat.mod_eq_of_lt ?_
    rw [show (8 : UInt16).toNat % 16 = 8 from rfl, Nat.shiftLeft_eq]
    omega
  rw [hshift, ← Nat.shiftLeft_add_eq_or_of_lt hlow, Nat.shiftLeft_eq]

/-- The words of data, by their places. -/
theorem words_eq :
    ∀ (n : Nat) {data : List UInt8}, data.length = 2 * n →
      words data = (List.range n).map fun i =>
        (data.getD (i * 2) 0).toNat * 256 + (data.getD (i * 2 + 1) 0).toNat
  | 0, data, h => by
    rw [List.length_eq_zero_iff.1 h]
    rfl
  | n + 1, high :: low :: rest, h => by
    have hlen : rest.length = 2 * n := by
      simp only [List.length_cons] at h
      omega
    rw [words, words_eq n hlen, List.range_succ_eq_map, List.map_cons, List.map_map]
    refine congrArg₂ List.cons rfl (List.map_congr_left fun i _ => ?_)
    have hindex : (i + 1) * 2 = i * 2 + 1 + 1 := by omega
    rw [Function.comp_apply, Nat.succ_eq_add_one, hindex]
    rfl
  | n + 1, [_], h => by
    simp only [List.length_cons, List.length_nil] at h
    omega
  | n + 1, [], h => by
    simp only [List.length_nil] at h
    omega

/-- The registers of an answer are the words of its data. -/
theorem registers_answer {data : List UInt8} (h : data.length = 20) :
    ((List.range 10).map (register (answer address data))).map UInt16.toNat = words data := by
  have hdata : ∀ j < 20, (answer address data).getD (3 + j) 0 = data.getD j 0 := by
    intro j hj
    rw [answer, withCrc, List.getD_eq_getElem?_getD, List.getD_eq_getElem?_getD,
      List.getElem?_append_left (by simp; omega), Nat.add_comm 3 j]
    rfl
  rw [words_eq 10 h, List.map_map]
  refine List.map_congr_left fun i hi => ?_
  have hlt := List.mem_range.1 hi
  rw [Function.comp_apply, toNat_register, Nat.add_assoc, hdata _ (by omega), hdata _ (by omega)]

/-- **The answers that are accepted** are the well-formed ones, however they arrive: `ReadResponse`
gives a frame without an error just if what is delivered begins with it, and leaves the bytes after
it; `ParseResponse` accepts for ten registers just the answers with their CRC, the registers being
the words of the data, and reads no byte outside of the response. -/
theorem accepts_exact :
    (∀ (failure : String) (chunks : List (List UInt8)) (frame : List UInt8),
      ((readPort failure chunks).1 = (frame, "") ∧ frame ≠ [] ↔
        WellFramed frame ∧ frame <+: chunks.flatten) ∧
      ((readPort failure chunks).1 = (frame, "") ∧ frame ≠ [] →
        frame ++ (readPort failure chunks).2.flatten = chunks.flatten)) ∧
    ∀ (response : List UInt8) (address : UInt8),
      let result := parseResponse response address 10
      (result.valid = true ↔ ∃ data, data.length = 20 ∧ response = answer address data) ∧
      (∀ data, data.length = 20 → response = answer address data →
        result.registers.map UInt16.toNat = words data) ∧
      (result.valid = false → result.error ≠ "") ∧
      parseReads response address 10 =
        some (if result.valid then some result.registers else none) := by
  refine ⟨fun failure chunks frame =>
    ⟨readPort_frame_iff, fun h => readPort_left (readPort_frame_iff.1 h)⟩,
    fun response address => ⟨?_, ?_, ?_, ?_⟩⟩
  · rw [valid_iff_accepted, accepted_iff_answer]
  · intro data hlen heq
    rw [(parseResponse_accepted (accepted_iff_answer.2 ⟨data, hlen, heq⟩)).2, heq]
    exact registers_answer hlen
  · intro hinvalid
    refine (parseResponse_rejected fun haccepted => ?_).2
    rw [(parseResponse_accepted haccepted).1] at hinvalid
    cases hinvalid
  · by_cases haccepted : Accepted response address 10
    · obtain ⟨hvalid, hregisters⟩ := parseResponse_accepted haccepted
      rw [parseReads_accepted (Nat.le_refl 10) haccepted, hvalid, hregisters]
      rfl
    · rw [parseReads_rejected haccepted, (parseResponse_rejected haccepted).1]
      rfl

/-- An answer that comes in two chunks is read to its end, and no further. -/
theorem accepts_exact_two_chunks :
    (readPort "" [(answer 1 (List.replicate 20 0)).take 2,
      (answer 1 (List.replicate 20 0)).drop 2 ++ [7]]).1 = (answer 1 (List.replicate 20 0), "") ∧
    (parseResponse (answer 1 (List.replicate 20 0)) 1 10).registers.map UInt16.toNat =
      List.replicate 10 0 := by
  have hlen : (answer 1 (List.replicate 20 0)).length = 25 := rfl
  have hframe : WellFramed (answer 1 (List.replicate 20 0)) := ⟨by omega, rfl, by omega⟩
  have hprefix : answer 1 (List.replicate 20 0) <+:
      [(answer 1 (List.replicate 20 0)).take 2,
        (answer 1 (List.replicate 20 0)).drop 2 ++ [7]].flatten := by
    refine ⟨[7], ?_⟩
    rw [List.flatten_cons, List.flatten_cons, List.flatten_nil, List.append_nil,
      ← List.append_assoc, List.take_append_drop]
  exact ⟨((accepts_exact.1 "" _ _).1.2 ⟨hframe, hprefix⟩).1,
    (accepts_exact.2 _ 1).2.1 (List.replicate 20 0) rfl rfl⟩

end MyGasDetectorPoll
