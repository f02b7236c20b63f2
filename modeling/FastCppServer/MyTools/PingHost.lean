import FastCppServer.MyTools.ICMPChecksum
import FastCppServer.MyTools.MyIPTools

/-!
# One ping

`PingHost` sends an echo request and looks at the packets that its raw socket receives until one of
them is taken for the reply, the deadline has passed or nothing more comes. A raw socket receives
the replies to every ping of the machine. The request has a number of its own, but the number of a
reply is not looked at, nor is its code, nor whether the IP header is as long as one is at least:
the first packet from the host with the type of a reply and the identifier of the process is taken
(`Accepted`). The call is answered by its own reply unless that packet is another one
(`onlyOwn_iff`).
-/

namespace MyTools.MyIPTools

/-- The header of an ICMP message, in the order of its bytes. -/
structure ICMPHeader where
  type : UInt8
  code : UInt8
  checksum : UInt16
  id : UInt16
  sequence : UInt16
  deriving DecidableEq

/-- A 16-bit field as it is stored. -/
def fieldBytes (field : UInt16) : List UInt8 := [field.toUInt8, (field >>> 8).toUInt8]

/-- The eight bytes it is sent as. -/
def ICMPHeader.bytes (header : ICMPHeader) : List UInt8 :=
  [header.type, header.code] ++ fieldBytes header.checksum ++ fieldBytes header.id ++
    fieldBytes header.sequence

/-- A 16-bit field at an index. -/
def readField (data : List UInt8) (i : Nat) : Option UInt16 := do
  let b0 ← data[i]?
  let b1 ← data[i + 1]?
  return word b0 b1

/-- The request. The folding of its checksum ends within two rounds (`foldCarries_ends`). -/
def request (pid : Nat) (my_seq : UInt16) : ICMPHeader :=
  let icmp_req : ICMPHeader := {
    type := 8
    code := 0
    checksum := 0
    id := .ofNat (pid &&& 0xFFFF)
    sequence := my_seq }
  { icmp_req with checksum := (computeICMPChecksum 3 icmp_req.bytes).getD 0 }

/-- What a call of `recvfrom` brings: a time-out or an error, or a packet with its source, and the
time that is read from the clock behind it. -/
inductive Reception where
  | failed
  | packet (data : List UInt8) (source : InAddr) (now : Int)

/-- What a round of the receive loop ends with. `beyond` is a field that is read behind the bytes
received. -/
inductive Round where
  | again
  | finished (alive : Bool)
  | beyond
  deriving DecidableEq

/-- A round of the receive loop. The buffer has room for 256 bytes. -/
def receive (icmp_req : ICMPHeader) (dest : InAddr) (deadline : Int) : Reception → Round
  | .failed => .finished false
  | .packet data source now =>
    let recv_buf := data.take 256
    let received := recv_buf.length
    if now ≥ deadline then .finished false
    else if received < 20 + 8 then .again
    else
      match recv_buf[0]? with
      | none => .beyond
      | some first =>
        let ip_hdr_len := (first &&& 0x0F).toNat * 4
        if received < ip_hdr_len + 8 then .again
        else
          match recv_buf[ip_hdr_len]? with
          | none => .beyond
          | some type =>
            if type ≠ 0 then .again
            else
              match readField recv_buf (ip_hdr_len + 4) with
              | none => .beyond
              | some id =>
                if id = icmp_req.id ∧ source = dest then .finished true else .again

/-- What a call comes to. `waiting` is a call that is still in `recvfrom`. -/
inductive Answer where
  | waiting
  | returned (alive : Bool)
  | beyond
  deriving DecidableEq

/-- `while (true)`. -/
def receiveLoop (icmp_req : ICMPHeader) (dest : InAddr) (deadline : Int) :
    List Reception → Answer
  | [] => .waiting
  | reception :: receptions =>
    match receive icmp_req dest deadline reception with
    | .again => receiveLoop icmp_req dest deadline receptions
    | .finished alive => .returned alive
    | .beyond => .beyond

/-- A call, with the answers of the system: whether there is a socket, the identifier of the
process, the number that `s_ping_sequence.fetch_add(1)` gives, whether the request is sent and the
time behind it. -/
structure Call where
  ip : Text
  timeout_ms : Int
  socket : Bool
  pid : Nat
  my_seq : UInt16
  sent : Bool
  now : Int

namespace Call

/-- When the call gives up. -/
def deadline (call : Call) : Int := call.now + call.timeout_ms

/-- The request of a call, with its process number and its own sequence number. -/
def icmp_req (call : Call) : ICMPHeader := request call.pid call.my_seq

/-- `dest.sin_addr`. -/
def dest (call : Call) : Option InAddr := inet_pton (cString call.ip)

end Call

/-- `pingHost`: false when the socket, the address or the sending fails, else what the receive loop
answers. -/
def pingHost (call : Call) (receptions : List Reception) : Answer :=
  if ¬ call.socket then .returned false
  else
    match call.dest with
    | none => .returned false
    | some dest =>
      if ¬ call.sent then .returned false
      else receiveLoop call.icmp_req dest call.deadline receptions

/-! ## Which packets are replies -/

/-- The length that the first byte of a packet gives to its IP header. -/
def ipHeaderLength (data : List UInt8) : Nat := (Bytes.byteAt data 0 &&& 0x0F).toNat * 4

/-- The header at an index, when all of it is there. -/
def ICMPHeader.read (data : List UInt8) (i : Nat) : Option ICMPHeader := do
  let type ← data[i]?
  let code ← data[i + 1]?
  let checksum ← readField data (i + 2)
  let id ← readField data (i + 4)
  let sequence ← readField data (i + 6)
  return { type, code, checksum, id, sequence }

/-- A packet is the echo reply with this identifier and this number: behind an IP header of at least
five words there is an ICMP header of type 0 and code 0 that has them. -/
def IsEchoReply (data : List UInt8) (id sequence : UInt16) : Prop :=
  20 ≤ ipHeaderLength data ∧
    ∃ reply, ICMPHeader.read data (ipHeaderLength data) = some reply ∧ reply.type = 0 ∧
      reply.code = 0 ∧ reply.id = id ∧ reply.sequence = sequence

/-- A packet that the loop takes for a reply: it has the type and the identifier, at the place where
the length in its first byte puts them. -/
def Accepted (data : List UInt8) (id : UInt16) : Prop :=
  20 + 8 ≤ data.length ∧
    ∃ reply, ICMPHeader.read data (ipHeaderLength data) = some reply ∧ reply.type = 0 ∧
      reply.id = id

instance (data : List UInt8) (id sequence : UInt16) : Decidable (IsEchoReply data id sequence) :=
  match h : ICMPHeader.read data (ipHeaderLength data) with
  | none => isFalse (by simp [IsEchoReply, h])
  | some reply =>
    decidable_of_iff (20 ≤ ipHeaderLength data ∧ reply.type = 0 ∧ reply.code = 0 ∧ reply.id = id ∧
      reply.sequence = sequence) (by simp [IsEchoReply, h])

instance (data : List UInt8) (id : UInt16) : Decidable (Accepted data id) :=
  match h : ICMPHeader.read data (ipHeaderLength data) with
  | none => isFalse (by simp [Accepted, h])
  | some reply =>
    decidable_of_iff (20 + 8 ≤ data.length ∧ reply.type = 0 ∧ reply.id = id)
      (by simp [Accepted, h])

section
variable (call : Call)

/-- The call's own reply, from its destination. -/
def Own (reception : Reception) : Prop :=
  ∃ data dest now, reception = .packet data dest now ∧ call.dest = some dest ∧
    IsEchoReply data call.icmp_req.id call.icmp_req.sequence

/-- A packet from the destination that is taken for the reply and is another one. -/
def Foreign (reception : Reception) : Prop :=
  ∃ data dest now, reception = .packet data dest now ∧ call.dest = some dest ∧
    now < call.deadline ∧ Accepted data call.icmp_req.id ∧
      ¬ IsEchoReply data call.icmp_req.id call.icmp_req.sequence

instance : (reception : Reception) → Decidable (Foreign call reception)
  | .failed => isFalse (by simp [Foreign])
  | .packet data dest now =>
    decidable_of_iff (call.dest = some dest ∧ now < call.deadline ∧
      Accepted data call.icmp_req.id ∧
        ¬ IsEchoReply data call.icmp_req.id call.icmp_req.sequence) (by
      constructor
      · rintro ⟨hdest, hnow, haccepted, hno⟩
        exact ⟨data, dest, now, rfl, hdest, hnow, haccepted, hno⟩
      · rintro ⟨_, _, _, heq, hdest, hnow, haccepted, hno⟩
        cases heq
        exact ⟨hdest, hnow, haccepted, hno⟩)

/-- A packet that comes in time and is passed over. -/
def PassedOver (reception : Reception) : Prop :=
  ∃ data source now, reception = .packet data source now ∧ now < call.deadline ∧
    ¬ (call.dest = some source ∧ Accepted data call.icmp_req.id)

/-- The call is answered by its own reply only, and reads no field behind the bytes received: after
each beginning of what it receives, when it has returned true, its own reply was among them. -/
def OnlyOwn (receptions : List Reception) : Prop :=
  ∀ pre post, receptions = pre ++ post → pingHost call pre ≠ .beyond ∧
    (pingHost call pre = .returned true → ∃ reception ∈ pre, Own call reception)

/-- The first packet that is not passed over is another one's. -/
def ForeignFirst (receptions : List Reception) : Prop :=
  call.socket = true ∧ call.sent = true ∧ ∃ pre reception post,
    receptions = pre ++ reception :: post ∧ (∀ r ∈ pre, PassedOver call r) ∧
      Foreign call reception

end

/-! ## The request -/

/-- The bytes of a header, the checksum by itself. -/
theorem bytes_eq (type code : UInt8) (checksum id sequence : UInt16) :
    ICMPHeader.bytes ⟨type, code, checksum, id, sequence⟩ =
      [type, code] ++ checksum.toUInt8 :: (checksum >>> 8).toUInt8 ::
        (fieldBytes id ++ fieldBytes sequence) :=
  rfl

/-- The request that is sent has a valid checksum. -/
theorem request_valid (pid : Nat) (my_seq : UInt16) {fuel : Nat} (hfuel : 3 ≤ fuel) :
    computeICMPChecksum fuel (request pid my_seq).bytes = some 0 := by
  have hzero : (0 : UInt16).toUInt8 = 0 ∧ ((0 : UInt16) >>> 8).toUInt8 = 0 := ⟨rfl, rfl⟩
  rw [request]
  generalize UInt16.ofNat (pid &&& 0xFFFF) = id
  dsimp only
  rw [bytes_eq 8 0 0, hzero.1, hzero.2]
  have hlen : ([8, 0] ++ 0 :: 0 :: (fieldBytes id ++ fieldBytes my_seq)).length < 2 ^ 17 := by
    rw [fieldBytes, fieldBytes]
    exact of_decide_eq_true rfl
  obtain ⟨c, hfolded, hc⟩ := computeICMPChecksum_eq (total_lt hlen)
  rw [hc 3 (Nat.le_refl 3), Option.getD_some, bytes_eq]
  exact computeICMPChecksum_stored hlen rfl hfolded hfuel

/-! ## Reading a header -/

/-- A byte within the data can be read. -/
theorem getElem?_of_lt {data : List UInt8} {i : Nat} (h : i < data.length) :
    ∃ b, data[i]? = some b := ⟨_, List.getElem?_eq_getElem h⟩

/-- So can a field of two bytes. -/
theorem readField_of_lt {data : List UInt8} {i : Nat} (h : i + 1 < data.length) :
    ∃ field, readField data i = some field := by
  obtain ⟨b0, h0⟩ := getElem?_of_lt (Nat.lt_of_succ_lt h)
  obtain ⟨b1, h1⟩ := getElem?_of_lt h
  exact ⟨word b0 b1, by rw [readField, h0, h1]; rfl⟩

/-- A header that is there is read. -/
theorem read_of_length {data : List UInt8} {i : Nat} (h : i + 8 ≤ data.length) :
    ∃ reply, ICMPHeader.read data i = some reply ∧ data[i]? = some reply.type ∧
      readField data (i + 4) = some reply.id := by
  obtain ⟨type, htype⟩ := @getElem?_of_lt data i (by omega)
  obtain ⟨code, hcode⟩ := @getElem?_of_lt data (i + 1) (by omega)
  obtain ⟨checksum, hchecksum⟩ := @readField_of_lt data (i + 2) (by omega)
  obtain ⟨id, hid⟩ := @readField_of_lt data (i + 4) (by omega)
  obtain ⟨sequence, hsequence⟩ := @readField_of_lt data (i + 6) (by omega)
  refine ⟨⟨type, code, checksum, id, sequence⟩, ?_, htype, hid⟩
  rw [ICMPHeader.read, htype, hcode, hchecksum, hid, hsequence]
  rfl

/-- A header that could be read lies within the data. -/
theorem length_of_read {data : List UInt8} {i : Nat} {reply : ICMPHeader}
    (h : ICMPHeader.read data i = some reply) : i + 8 ≤ data.length := by
  have hlast : ∃ b, data[i + 7]? = some b := by
    simp only [ICMPHeader.read, readField, Option.bind_eq_bind, Option.bind_eq_some_iff] at h
    obtain ⟨_, _, _, _, _, _, _, _, _, ⟨_, _, b, hb, _⟩, _⟩ := h
    exact ⟨b, hb⟩
  obtain ⟨b, hb⟩ := hlast
  exact (List.getElem?_eq_some_iff.1 hb).1

/-- A header is read back from its bytes. -/
theorem read_bytes (header : ICMPHeader) (back : List UInt8) :
    ICMPHeader.read (header.bytes ++ back) 0 = some header := by
  have hread : ICMPHeader.read (header.bytes ++ back) 0 = some {
      type := header.type
      code := header.code
      checksum := word header.checksum.toUInt8 (header.checksum >>> 8).toUInt8
      id := word header.id.toUInt8 (header.id >>> 8).toUInt8
      sequence := word header.sequence.toUInt8 (header.sequence >>> 8).toUInt8 } :=
    rfl
  rw [hread, word_bytes, word_bytes, word_bytes]

/-- And from behind other bytes. -/
theorem read_front (front data : List UInt8) :
    ICMPHeader.read (front ++ data) front.length = ICMPHeader.read data 0 := by
  have hget : ∀ i, (front ++ data)[front.length + i]? = data[i]? := by
    intro i
    rw [List.getElem?_append_right (Nat.le_add_right _ _), Nat.add_sub_cancel_left]
  have hfield : ∀ i, readField (front ++ data) (front.length + i) = readField data i := by
    intro i
    rw [readField, readField, hget, Nat.add_assoc, hget]
  have hfirst := hget 0
  rw [Nat.add_zero] at hfirst
  rw [ICMPHeader.read, ICMPHeader.read, hfirst, hget, hfield, hfield, hfield, Nat.zero_add,
    Nat.zero_add, Nat.zero_add, Nat.zero_add]

/-- The IP header takes sixty bytes at most. -/
theorem ipHeaderLength_le (data : List UInt8) : ipHeaderLength data ≤ 60 := by
  have hle : (Bytes.byteAt data 0 &&& 0x0F).toNat ≤ 15 := by
    rw [UInt8.toNat_and]
    exact Nat.and_le_right
  rw [ipHeaderLength]
  omega

/-- A reply that is one is taken. -/
theorem IsEchoReply.accepted {data : List UInt8} {id sequence : UInt16}
    (h : IsEchoReply data id sequence) : Accepted data id := by
  obtain ⟨hheader, reply, hread, htype, -, hid, -⟩ := h
  have hlen := length_of_read hread
  exact ⟨by omega, reply, hread, htype, hid⟩

/-- A packet that is too short for the header has none. -/
theorem Accepted.length_le {data : List UInt8} {id : UInt16} (h : Accepted data id) :
    20 + 8 ≤ data.length ∧ ipHeaderLength data + 8 ≤ data.length := by
  obtain ⟨hlen, reply, hread, -⟩ := h
  exact ⟨hlen, length_of_read hread⟩

/-- Which headers are taken. -/
theorem accepted_iff {data : List UInt8} {reply : ICMPHeader} {id : UInt16}
    (hlen : 20 + 8 ≤ data.length)
    (hread : ICMPHeader.read data (ipHeaderLength data) = some reply) :
    Accepted data id ↔ reply.type = 0 ∧ reply.id = id := by
  constructor
  · rintro ⟨_, reply', hread', htype, hid⟩
    rw [hread, Option.some.injEq] at hread'
    subst hread'
    exact ⟨htype, hid⟩
  · rintro ⟨htype, hid⟩
    exact ⟨hlen, reply, hread, htype, hid⟩

/-! ## A round -/

section
variable (icmp_req : ICMPHeader) (dest : InAddr) {deadline : Int}

/-- A packet that comes after the deadline is not looked at. -/
theorem receive_late (data : List UInt8) (source : InAddr) {now : Int} (h : deadline ≤ now) :
    receive icmp_req dest deadline (.packet data source now) = .finished false := by
  rw [receive]
  exact if_pos h

/-- What is read of a packet that comes in time is within the bytes received. -/
theorem receive_packet (data : List UInt8) (source : InAddr) {now : Int} (h : now < deadline) :
    receive icmp_req dest deadline (.packet data source now) = .finished true ∧
        source = dest ∧ Accepted data icmp_req.id ∨
      receive icmp_req dest deadline (.packet data source now) = .again ∧
        ¬ (source = dest ∧ Accepted data icmp_req.id) := by
  have hhdr := ipHeaderLength_le data
  have hbuf : (data.take 256).length = min 256 data.length := List.length_take
  have hget : ∀ i < 256, (data.take 256)[i]? = data[i]? := fun i hi => List.getElem?_take_of_lt hi
  rw [receive]
  dsimp only
  rw [if_neg (by omega)]
  by_cases hshort : data.length < 20 + 8
  · rw [if_pos (by omega)]
    exact .inr ⟨rfl, fun hall => absurd hall.2.length_le.1 (Nat.not_le.2 hshort)⟩
  · obtain ⟨first, hfirst⟩ := @getElem?_of_lt data 0 (by omega)
    have hlength : (first &&& 0x0F).toNat * 4 = ipHeaderLength data := by
      rw [ipHeaderLength, Bytes.byteAt, List.getD_eq_getElem?_getD, hfirst, Option.getD_some]
    rw [if_neg (by omega), hget 0 (by decide), hfirst]
    dsimp only
    rw [hlength]
    by_cases hcut : data.length < ipHeaderLength data + 8
    · rw [if_pos (by omega)]
      exact .inr ⟨rfl, fun hall => absurd hall.2.length_le.2 (Nat.not_le.2 hcut)⟩
    · obtain ⟨reply, hread, htype, hid⟩ := read_of_length (Nat.le_of_not_lt hcut)
      have hfield : readField (data.take 256) (ipHeaderLength data + 4) = some reply.id := by
        rw [readField, hget _ (by omega), hget _ (by omega)]
        exact hid
      rw [if_neg (by omega), hget _ (by omega), htype,
        accepted_iff (Nat.le_of_not_lt hshort) hread]
      dsimp only
      by_cases hzero : reply.type = 0
      · rw [if_neg (not_not_intro hzero), hfield]
        dsimp only
        by_cases hboth : reply.id = icmp_req.id ∧ source = dest
        · rw [if_pos hboth]
          exact .inl ⟨rfl, hboth.2, hzero, hboth.1⟩
        · rw [if_neg hboth]
          exact .inr ⟨rfl, fun hall => hboth ⟨hall.2.2, hall.1⟩⟩
      · rw [if_pos hzero]
        exact .inr ⟨rfl, fun hall => hzero hall.2.1⟩

end

/-! ## The call -/

section
variable {call : Call}

/-- A packet that the call takes for its reply. -/
def Takes (call : Call) (reception : Reception) : Prop :=
  ∃ data dest now, reception = .packet data dest now ∧ call.dest = some dest ∧
    now < call.deadline ∧ Accepted data call.icmp_req.id

/-- **A round** passes a packet over, takes one, or gives up. -/
theorem receive_cases {dest : InAddr} (hdest : call.dest = some dest) (reception : Reception) :
    receive call.icmp_req dest call.deadline reception = .again ∧ PassedOver call reception ∨
      receive call.icmp_req dest call.deadline reception = .finished true ∧
        Takes call reception ∨
      receive call.icmp_req dest call.deadline reception = .finished false ∧
        ¬ PassedOver call reception ∧ ¬ Takes call reception := by
  cases reception with
  | failed =>
    refine .inr (.inr ⟨rfl, ?_, ?_⟩)
    · rintro ⟨_, _, _, heq, _⟩
      cases heq
    · rintro ⟨_, _, _, heq, _⟩
      cases heq
  | packet data source now =>
    by_cases hlate : call.deadline ≤ now
    · refine .inr (.inr ⟨receive_late call.icmp_req dest data source hlate, ?_, ?_⟩)
      · rintro ⟨_, _, _, heq, hnow, _⟩
        cases heq
        omega
      · rintro ⟨_, _, _, heq, _, hnow, _⟩
        cases heq
        omega
    · rw [not_le] at hlate
      rcases receive_packet call.icmp_req dest data source hlate with
        ⟨hround, rfl, haccepted⟩ | ⟨hround, hno⟩
      · exact .inr (.inl ⟨hround, data, source, now, rfl, hdest, hlate, haccepted⟩)
      · refine .inl ⟨hround, data, source, now, rfl, hlate, ?_⟩
        rintro ⟨hsource, haccepted⟩
        rw [hdest, Option.some.injEq] at hsource
        exact hno ⟨hsource.symm, haccepted⟩

/-- A packet that is passed over is not taken. -/
theorem PassedOver.not_takes {reception : Reception} (h : PassedOver call reception) :
    ¬ Takes call reception := by
  obtain ⟨data, source, now, rfl, -, hno⟩ := h
  rintro ⟨data', dest, now', heq, hdest, -, haccepted⟩
  cases heq
  exact hno ⟨hdest, haccepted⟩

/-- What comes in time and is the call's own is taken. -/
theorem PassedOver.not_own {reception : Reception} (h : PassedOver call reception) :
    ¬ Own call reception := by
  obtain ⟨data, source, now, rfl, hnow, hno⟩ := h
  rintro ⟨data', dest, now', heq, hdest, hreply⟩
  cases heq
  exact hno ⟨hdest, hreply.accepted⟩

/-- A foreign packet is not the call's own. -/
theorem Foreign.not_own {reception : Reception} (h : Foreign call reception) :
    ¬ Own call reception := by
  obtain ⟨data, dest, now, rfl, -, -, -, hno⟩ := h
  rintro ⟨data', dest', now', heq, -, hreply⟩
  cases heq
  exact hno hreply

/-- A packet that is taken and not the call's own is foreign. -/
theorem Takes.foreign {reception : Reception} (h : Takes call reception)
    (hown : ¬ Own call reception) : Foreign call reception := by
  obtain ⟨data, dest, now, rfl, hdest, hnow, haccepted⟩ := h
  exact ⟨data, dest, now, rfl, hdest, hnow, haccepted,
    fun hreply => hown ⟨data, dest, now, rfl, hdest, hreply⟩⟩

/-- A foreign packet is taken: the checks do not tell it from an own one. -/
theorem Foreign.takes {reception : Reception} (h : Foreign call reception) :
    Takes call reception := by
  obtain ⟨data, dest, now, rfl, hdest, hnow, haccepted, -⟩ := h
  exact ⟨data, dest, now, rfl, hdest, hnow, haccepted⟩

/-- **The loop** reads no field behind the bytes received, and returns true for the first packet
that is not passed over. -/
theorem receiveLoop_spec {dest : InAddr} (hdest : call.dest = some dest)
    (receptions : List Reception) :
    receiveLoop call.icmp_req dest call.deadline receptions ≠ .beyond ∧
      (receiveLoop call.icmp_req dest call.deadline receptions = .returned true ↔
        ∃ pre reception post, receptions = pre ++ reception :: post ∧
          (∀ r ∈ pre, PassedOver call r) ∧ Takes call reception) := by
  induction receptions with
  | nil =>
    refine ⟨Answer.noConfusion, ⟨Answer.noConfusion, ?_⟩⟩
    rintro ⟨pre, reception, post, heq, -⟩
    cases pre with
    | nil => cases heq
    | cons r pre => cases heq
  | cons r receptions ih =>
    rw [receiveLoop]
    rcases receive_cases hdest r with
      ⟨hround, hpassed⟩ | ⟨hround, htakes⟩ | ⟨hround, hno, hno'⟩
    · rw [hround]
      refine ⟨ih.1, ih.2.trans ⟨?_, ?_⟩⟩
      · rintro ⟨pre, reception, post, rfl, hpre, htakes⟩
        exact ⟨r :: pre, reception, post, rfl, List.forall_mem_cons.2 ⟨hpassed, hpre⟩, htakes⟩
      · rintro ⟨pre, reception, post, heq, hpre, htakes⟩
        cases pre with
        | nil =>
          cases heq
          exact absurd htakes hpassed.not_takes
        | cons r' pre =>
          cases heq
          exact ⟨pre, reception, post, rfl, (List.forall_mem_cons.1 hpre).2, htakes⟩
    · rw [hround]
      refine ⟨Answer.noConfusion, fun _ => ⟨[], r, receptions, rfl, ?_, htakes⟩, fun _ => rfl⟩
      intro r' hr'
      cases hr'
    · rw [hround]
      refine ⟨Answer.noConfusion, fun hreturned => ?_, ?_⟩
      · cases hreturned
      · rintro ⟨pre, reception, post, heq, hpre, htakes⟩
        cases pre with
        | nil =>
          cases heq
          exact absurd htakes hno'
        | cons r' pre =>
          cases heq
          exact absurd (hpre r (List.mem_cons_self ..)) hno

end

/-- **What `PingHost` returns.** -/
theorem pingHost_spec (call : Call) (receptions : List Reception) :
    pingHost call receptions ≠ .beyond ∧
      (pingHost call receptions = .returned true ↔ call.socket = true ∧ call.sent = true ∧
        ∃ pre reception post, receptions = pre ++ reception :: post ∧
          (∀ r ∈ pre, PassedOver call r) ∧ Takes call reception) := by
  rw [pingHost]
  by_cases hsocket : call.socket = true
  · rw [if_neg (not_not_intro hsocket)]
    cases hdest : call.dest with
    | none =>
      refine ⟨Answer.noConfusion, fun hreturned => ?_, ?_⟩
      · cases hreturned
      · rintro ⟨_, _, _, _, _, _, _, _, _, _, _, hdest', _⟩
        cases hdest.symm.trans hdest'
    | some dest =>
      by_cases hsent : call.sent = true
      · obtain ⟨hbeyond, hloop⟩ := receiveLoop_spec hdest receptions
        dsimp only
        rw [if_neg (not_not_intro hsent)]
        refine ⟨hbeyond, hloop.trans ⟨fun h => ⟨hsocket, hsent, h⟩, fun h => h.2.2⟩⟩
      · dsimp only
        rw [if_pos hsent]
        refine ⟨Answer.noConfusion, fun hreturned => ?_, fun h => absurd h.2.1 hsent⟩
        cases hreturned
  · rw [if_pos hsocket]
    refine ⟨Answer.noConfusion, fun hreturned => ?_, fun h => absurd h.1 hsocket⟩
    cases hreturned

/-- **When a call is answered by its own reply only**: unless the first packet that is not passed
over is another one's. -/
theorem onlyOwn_iff (call : Call) (receptions : List Reception) :
    OnlyOwn call receptions ↔ ¬ ForeignFirst call receptions := by
  constructor
  · rintro honly ⟨hsocket, hsent, pre, reception, post, rfl, hpre, hforeign⟩
    have hreturned : pingHost call (pre ++ [reception]) = .returned true :=
      (pingHost_spec call _).2.2 ⟨hsocket, hsent, pre, reception, [], rfl, hpre, hforeign.takes⟩
    obtain ⟨r, hr, hown⟩ := (honly (pre ++ [reception]) post (by simp)).2 hreturned
    rcases List.mem_append.1 hr with hr | hr
    · exact (hpre r hr).not_own hown
    · rw [List.mem_singleton.1 hr] at hown
      exact hforeign.not_own hown
  · rintro hno begin post rfl
    refine ⟨(pingHost_spec call begin).1, fun hreturned => ?_⟩
    obtain ⟨hsocket, hsent, pre, reception, rest, rfl, hpre, htakes⟩ :=
      (pingHost_spec call begin).2.1 hreturned
    refine ⟨reception, List.mem_append_right pre (List.mem_cons_self ..), ?_⟩
    by_contra hown
    exact hno ⟨hsocket, hsent, pre, reception, rest ++ post, by simp, hpre, htakes.foreign hown⟩

end MyTools.MyIPTools
