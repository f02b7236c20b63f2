import FastCppServer.Lib.Transition
import FastCppServer.MyGasDetectorPoll.Poll
import Mathlib.Data.List.Induction

/-!
# The books of the gas detector poll

After every run of the worker the counters, the latest results and the last error are what the
results stored so far say, and each address has one result at most. `crc_error_count` is the one
counter that is wrong: `StoreResult` takes a failed result for a CRC error if five bytes have been
read, and a response that breaks off after five bytes (`Exchange.Cut`) is no such error. The books
balance at each point of a run just if no response breaks off so (`books_balance_iff`).
-/

namespace MyGasDetectorPoll

open Transition

/-! ## What is read -/

/-- The bytes before a read fails. -/
def received : List Read → List UInt8
  | [] => []
  | r :: rest => if r.error ≠ "" then [] else r.bytes ++ received rest

/-- `ReadUpTo` comes to the bytes before the first failure, or to as many as it wants. -/
theorem readUpTo_fst {size : Nat} {result : List UInt8} {reads : List Read}
    (h : result.length ≤ size) :
    (readUpTo size result reads).1 = result ++ (received reads).take (size - result.length) := by
  induction reads generalizing result with
  | nil => simp [readUpTo, received]
  | cons r rest ih =>
    rw [readUpTo, received]
    split
    · split
      · simp
      · rw [ih (by rw [List.length_append, List.length_take]; omega), List.append_assoc,
          List.take_append]
        congr 2
        rw [List.length_append, List.length_take]
        congr 1
        omega
    · have hzero : size - result.length = 0 := by omega
      rw [hzero, List.take_zero, List.append_nil]

/-- A read that comes to its end fails nowhere. -/
theorem readUpTo_snd {size : Nat} {result : List UInt8} {reads : List Read}
    (hle : size ≤ result.length + (received reads).length) :
    (readUpTo size result reads).2 = "" := by
  induction reads generalizing result with
  | nil => rfl
  | cons r rest ih =>
    rw [readUpTo]
    rw [received] at hle
    split
    · next hlt =>
      split
      · next herror =>
        rw [if_pos herror, List.length_nil] at hle
        omega
      · next herror =>
        rw [if_neg herror, List.length_append] at hle
        refine ih ?_
        rw [List.length_append, List.length_take]
        omega
    · rfl

namespace Exchange

variable {x : Exchange}

/-- The first three bytes, as far as they come. -/
def header (x : Exchange) : List UInt8 := (received x.headerReads).take 3

/-- The others. -/
def body (x : Exchange) : List UInt8 := (received x.bodyReads).take (remaining x.header)

/-- The request goes out. -/
def Sent (x : Exchange) : Prop :=
  discardInputBuffer x.discards = true ∧ x.writeError = "" ∧ x.written = 8

/-- The response is read to its end. -/
def Complete (x : Exchange) : Prop :=
  x.Sent ∧ x.header.length = 3 ∧ x.body.length = remaining x.header

/-- The response breaks off, and not before five bytes. -/
def Cut (x : Exchange) : Prop :=
  x.Sent ∧ x.header.length = 3 ∧ 2 ≤ x.body.length ∧ x.body.length < remaining x.header

/-- The response is read to its end, and its CRC does not match. -/
def CrcMismatch (x : Exchange) : Prop :=
  x.Complete ∧ crcAtEnd (x.header ++ x.body) ≠ crc16Modbus (x.header ++ x.body).dropLast.dropLast

instance (x : Exchange) : Decidable x.Sent :=
  inferInstanceAs (Decidable (_ ∧ _))

instance (x : Exchange) : Decidable x.Complete :=
  inferInstanceAs (Decidable (_ ∧ _))

instance (x : Exchange) : Decidable x.Cut :=
  inferInstanceAs (Decidable (_ ∧ _))

instance (x : Exchange) : Decidable x.CrcMismatch :=
  inferInstanceAs (Decidable (_ ∧ _))

/-- A response that is read to its end does not break off. -/
theorem not_cut_of_complete (h : x.Complete) : ¬ x.Cut := by
  rintro ⟨-, -, -, hlt⟩
  have hlen := h.2.2
  omega

/-- No more is read than the header says. -/
theorem body_length_le : x.body.length ≤ remaining x.header := by
  rw [body, List.length_take]
  omega

/-- The header has three bytes at most. -/
theorem header_length_le : x.header.length ≤ 3 := by
  rw [header, List.length_take]
  omega

end Exchange

/-- Behind the header come two bytes at least. -/
theorem remaining_bounds (header : List UInt8) : 2 ≤ remaining header ∧ remaining header ≤ 257 := by
  have hlt := (header.getD 2 0).toNat_lt
  rw [remaining]
  split <;> omega

variable {x : Exchange}

/-- The header is read. -/
theorem readUpTo_header : ∃ e, readUpTo 3 [] x.headerReads = (x.header, e) :=
  ⟨_, Prod.ext (readUpTo_fst (Nat.zero_le 3)) rfl⟩

/-- The rest is read, without an error if it is all there. -/
theorem readUpTo_body :
    ∃ e, readUpTo (remaining x.header) [] x.bodyReads = (x.body, e) ∧
      (x.body.length = remaining x.header → e = "") := by
  refine ⟨_, Prod.ext (readUpTo_fst (Nat.zero_le _)) rfl, fun hlen => readUpTo_snd ?_⟩
  rw [Exchange.body, List.length_take] at hlen
  rw [List.length_nil]
  omega

/-- A response of less than three bytes comes with an error, if it is not empty. -/
theorem readResponse_short (h : x.header.length < 3) :
    ∃ e, readResponse x.headerReads x.bodyReads = (x.header, e) ∧ (x.header ≠ [] → e ≠ "") := by
  obtain ⟨e, he⟩ := readUpTo_header (x := x)
  rw [readResponse, he]
  dsimp only
  rw [if_pos h]
  refine ⟨_, rfl, fun hne => ?_⟩
  split
  · simp
  · next hcond => exact fun herror => hcond ⟨herror, hne⟩

/-- A longer one comes with an error, just if it breaks off. -/
theorem readResponse_long (h : x.header.length = 3) :
    ∃ e, readResponse x.headerReads x.bodyReads = (x.header ++ x.body, e) ∧
      (e = "" ↔ x.body.length = remaining x.header) := by
  obtain ⟨e, he⟩ := readUpTo_header (x := x)
  obtain ⟨e', he', hcomplete⟩ := readUpTo_body (x := x)
  have hsize : ¬ kMaxResponseSize < x.header.length + remaining x.header := by
    have hbounds := remaining_bounds x.header
    rw [kMaxResponseSize]
    omega
  rw [readResponse, he]
  dsimp only
  rw [if_neg (by omega), if_neg hsize, he']
  refine ⟨_, rfl, ?_⟩
  dsimp only
  rw [List.length_append, h]
  by_cases hlen : x.body.length = remaining x.header
  · rw [if_neg (by omega), hcomplete hlen]
    exact ⟨fun _ => hlen, fun _ => rfl⟩
  · have hlt : 3 + x.body.length < 3 + remaining x.header := by
      have hle := x.body_length_le
      omega
    refine ⟨fun herror => ?_, fun hlen' => absurd hlen' hlen⟩
    split at herror
    · simp at herror
    · next hcond => exact absurd ⟨hlt, herror⟩ hcond

/-! ## What a result says -/

variable {config : GasDetectorPollConfig} {address : UInt8}

/-- What the worker relies on in a result. -/
structure Parsed (response : List UInt8) (address : UInt8) (r : GasDetectorData) : Prop where
  address_eq : r.address = address.toNat
  timeout_eq : r.timeout = false
  crcOk_iff : 5 ≤ response.length →
    (r.crcOk = true ↔ crcAtEnd response = crc16Modbus response.dropLast.dropLast)
  crcOk_of_valid : r.valid = true → r.crcOk = true
  error_of_valid : r.valid = true → r.error = ""

/-- `ParseResponse` gives a result that the worker can rely on. -/
theorem parseResponse_parsed (response : List UInt8) (address : UInt8) (n : Nat) :
    Parsed response address (parseResponse response address n) := by
  have hinvalid : ∀ {p : Prop}, false = true → p := fun h => absurd h Bool.false_ne_true
  rw [parseResponse]
  dsimp only
  split
  · next hshort => exact ⟨rfl, rfl, fun h => by omega, hinvalid, hinvalid⟩
  · split
    · next hcrc => exact ⟨rfl, rfl, fun _ => by simp [hcrc], hinvalid, hinvalid⟩
    · next hcrc =>
      have heq := not_not.1 hcrc
      have hiff : decide (crcAtEnd response = crc16Modbus response.dropLast.dropLast) = true ↔
          crcAtEnd response = crc16Modbus response.dropLast.dropLast := decide_eq_true_iff
      split
      · exact ⟨rfl, rfl, fun _ => hiff, hinvalid, hinvalid⟩
      · split
        · exact ⟨rfl, rfl, fun _ => hiff, hinvalid, hinvalid⟩
        · split
          · exact ⟨rfl, rfl, fun _ => hiff, hinvalid, hinvalid⟩
          · split
            · exact ⟨rfl, rfl, fun _ => hiff, hinvalid, hinvalid⟩
            · exact ⟨rfl, rfl, fun _ => hiff, fun _ => hiff.2 heq, fun _ => rfl⟩

/-- A request has eight bytes. -/
theorem buildRequest_length {startRegister count : UInt16} :
    (buildRequest address startRegister count).length = 8 := rfl

/-- What a request comes to, by how far the response comes. -/
theorem query_cases (config : GasDetectorPollConfig) (address : UInt8) (x : Exchange) :
    (¬ x.Sent ∧ ∃ error,
      query config address x = (makeFailureResult address.toNat error false, [])) ∨
    (x.Sent ∧ x.header.length < 3 ∧ ∃ error timeout,
      query config address x = (makeFailureResult address.toNat error timeout, x.header)) ∨
    (x.Sent ∧ x.header.length = 3 ∧ x.body.length < remaining x.header ∧ ∃ error,
      query config address x =
        (makeFailureResult address.toNat error false, x.header ++ x.body)) ∨
    (x.Complete ∧ query config address x =
      (parseResponse (x.header ++ x.body) address config.registerCount.toNat,
        x.header ++ x.body)) := by
  rw [query, buildRequest_length]
  dsimp only
  split
  · next hdiscard =>
    refine .inl ⟨fun h => ?_, _, rfl⟩
    rw [h.1] at hdiscard
    cases hdiscard
  · next hdiscard =>
    split
    · next hwrite =>
      refine .inl ⟨fun h => ?_, _, rfl⟩
      rcases hwrite with herror | hlen
      · exact herror h.2.1
      · exact hlen h.2.2
    · next hwrite =>
      rw [not_or, not_not, not_not] at hwrite
      have hsent : x.Sent := ⟨by simpa using hdiscard, hwrite⟩
      by_cases hheader : x.header.length = 3
      · have hne : x.header ++ x.body ≠ [] := by
          rw [← List.length_pos_iff, List.length_append]
          omega
        obtain ⟨e, he, herror⟩ := readResponse_long hheader
        rw [he]
        dsimp only
        rw [if_neg hne]
        by_cases hbody : x.body.length = remaining x.header
        · rw [if_neg (not_not.2 (herror.2 hbody))]
          exact .inr (.inr (.inr ⟨⟨hsent, hheader, hbody⟩, rfl⟩))
        · rw [if_pos (mt herror.1 hbody)]
          have hlt := lt_of_le_of_ne x.body_length_le hbody
          exact .inr (.inr (.inl ⟨hsent, hheader, hlt, _, rfl⟩))
      · have hlt := lt_of_le_of_ne x.header_length_le hheader
        obtain ⟨e, he, herror⟩ := readResponse_short hlt
        rw [he]
        dsimp only
        split
        · exact .inr (.inl ⟨hsent, hlt, _, _, rfl⟩)
        · next hne =>
          rw [if_pos (herror hne)]
          exact .inr (.inl ⟨hsent, hlt, _, _, rfl⟩)

/-- The result of a request is that of the address that was asked. -/
theorem query_address : (query config address x).1.address = address.toNat := by
  rcases query_cases config address x with ⟨-, e, h⟩ | ⟨-, -, e, t, h⟩ | ⟨-, -, -, e, h⟩ | ⟨-, h⟩
    <;> rw [h]
  · rfl
  · rfl
  · rfl
  · exact (parseResponse_parsed _ _ _).address_eq

/-- A valid result has no error. -/
theorem query_error (h : (query config address x).1.valid = true) :
    (query config address x).1.error = "" := by
  rcases query_cases config address x with
    ⟨-, e, he⟩ | ⟨-, -, e, t, he⟩ | ⟨-, -, -, e, he⟩ | ⟨-, he⟩
    <;> rw [he] at h ⊢
  · cases h
  · cases h
  · cases h
  · exact (parseResponse_parsed _ _ _).error_of_valid h

/-- **What is counted as a CRC error**: those that are, and the responses that break off. -/
theorem counted_iff :
    ((query config address x).1.valid = false ∧ (query config address x).1.crcOk = false ∧
      5 ≤ (query config address x).2.length) ↔ x.CrcMismatch ∨ x.Cut := by
  rcases query_cases config address x with
    ⟨hsent, e, h⟩ | ⟨-, hheader, e, t, h⟩ | ⟨hsent, hheader, hbody, e, h⟩ | ⟨hcomplete, h⟩
      <;> rw [h]
  · refine ⟨fun hcounted => absurd hcounted.2.2 (by simp), ?_⟩
    rintro (⟨⟨hs, -⟩, -⟩ | ⟨hs, -⟩) <;> exact absurd hs hsent
  · refine ⟨fun hcounted => absurd hcounted.2.2 (by dsimp only; omega), ?_⟩
    rintro (⟨⟨-, hlen, -⟩, -⟩ | ⟨-, hlen, -⟩) <;> omega
  · rw [List.length_append, hheader]
    constructor
    · rintro ⟨-, -, hlen⟩
      exact .inr ⟨hsent, hheader, by omega, hbody⟩
    · rintro (⟨⟨-, -, hlen⟩, -⟩ | ⟨-, -, hlen, -⟩)
      · omega
      · exact ⟨rfl, rfl, by omega⟩
  · have hparsed := parseResponse_parsed (x.header ++ x.body) address config.registerCount.toNat
    have hlong : 5 ≤ (x.header ++ x.body).length := by
      have hbounds := remaining_bounds x.header
      rw [List.length_append, hcomplete.2.1, hcomplete.2.2]
      omega
    have hcrc := hparsed.crcOk_iff hlong
    constructor
    · rintro ⟨-, hbad, -⟩
      refine .inl ⟨hcomplete, fun heq => ?_⟩
      rw [hcrc.2 heq] at hbad
      cases hbad
    · rintro (⟨-, hne⟩ | hcut)
      · have hbad := Bool.eq_false_iff.2 (mt hcrc.1 hne)
        refine ⟨Bool.eq_false_iff.2 fun hvalid => ?_, hbad, hlong⟩
        rw [hparsed.crcOk_of_valid hvalid] at hbad
        cases hbad
      · exact absurd hcut (Exchange.not_cut_of_complete hcomplete)

/-! ## The latest results -/

section
variable {stored : GasDetectorData} {l : List GasDetectorData}

/-- A result that is stored takes the place of that of its address, or comes last. -/
theorem map_address_replaceResult : (replaceResult stored l).map (·.address) =
    if stored.address ∈ l.map (·.address) then l.map (·.address)
    else l.map (·.address) ++ [stored.address] := by
  induction l with
  | nil => rfl
  | cons r l ih =>
    rw [replaceResult]
    by_cases hr : r.address = stored.address
    · simp [hr]
    · rw [if_neg hr, List.map_cons, ih, List.map_cons]
      by_cases hmem : stored.address ∈ l.map (·.address)
      · rw [if_pos hmem, if_pos (List.mem_cons_of_mem _ hmem)]
      · rw [if_neg hmem, if_neg, List.cons_append]
        exact fun h => hmem ((List.mem_cons.1 h).resolve_left (Ne.symm hr))

/-- There stays one result for each address. -/
theorem nodup_replaceResult (h : (l.map (·.address)).Nodup) :
    ((replaceResult stored l).map (·.address)).Nodup := by
  rw [map_address_replaceResult]
  split
  · exact h
  · next hmem =>
    rw [List.nodup_append]
    refine ⟨h, List.nodup_singleton _, fun a ha b hb hab => hmem ?_⟩
    rw [← List.mem_singleton.1 hb, ← hab]
    exact ha

/-- A result that is stored takes the place of that of its address, and of no other. -/
theorem mem_replaceResult (h : (l.map (·.address)).Nodup) {r : GasDetectorData} :
    r ∈ replaceResult stored l ↔ r = stored ∨ r ∈ l ∧ r.address ≠ stored.address := by
  induction l with
  | nil => simp [replaceResult]
  | cons r' l ih =>
    rw [List.map_cons, List.nodup_cons] at h
    rw [replaceResult]
    split
    · next hr' =>
      -- the others have other addresses
      have hne : r ∈ l → r.address ≠ stored.address := by
        intro hr heq
        exact h.1 (hr' ▸ heq ▸ List.mem_map_of_mem hr)
      rw [List.mem_cons, List.mem_cons]
      constructor
      · rintro (hr | hr)
        · exact .inl hr
        · exact .inr ⟨.inr hr, hne hr⟩
      · rintro (hr | ⟨rfl | hr, hr''⟩)
        · exact .inl hr
        · exact absurd hr' hr''
        · exact .inr hr
    · next hr' =>
      rw [List.mem_cons, ih h.2, List.mem_cons]
      constructor
      · rintro (rfl | rfl | ⟨hr, hne⟩)
        · exact .inr ⟨.inl rfl, hr'⟩
        · exact .inl rfl
        · exact .inr ⟨.inr hr, hne⟩
      · rintro (rfl | ⟨rfl | hr, hne⟩)
        · exact .inr (.inl rfl)
        · exact .inl rfl
        · exact .inr (.inr ⟨hr, hne⟩)

end

/-! ## The books -/

/-- What is stored for an address. -/
abbrev Entry := UInt8 × Exchange

/-- What has been stored, in order. -/
def stored (events : List Event) : List Entry :=
  events.filterMap fun
    | .store address x => some (address, x)
    | _ => none

/-- The results, numbered from one. -/
def numbered (config : GasDetectorPollConfig) (log : List Entry) : List GasDetectorData :=
  log.mapIdx fun i p => { (query config p.1 p.2).1 with sequence := i + 1 }

/-- The last result of the address, or the one that `Init` puts there. -/
def lastOf (config : GasDetectorPollConfig) (log : List Entry) (address : Nat) : GasDetectorData :=
  ((numbered config log).filter (·.address = address)).getLast?.getD { address }

/-- A request that is counted, and its result not stored. -/
def Poll.inFlight (s : Poll) : Nat :=
  match s.stage with
  | .asked _ _ => 1
  | _ => 0

/-- The books, but for the CRC errors. -/
structure Books (config : GasDetectorPollConfig) (log : List Entry) (s : Poll) : Prop where
  requests : s.requestCount = s.successCount + s.invalidFrameCount + s.inFlight
  timeouts : s.timeoutCount ≤ s.invalidFrameCount
  nodup : (s.latestResults.map (·.address)).Nodup
  latest : ∀ r ∈ s.latestResults, r = lastOf config log r.address
  present : ∀ r ∈ numbered config log, ∃ r' ∈ s.latestResults, r'.address = r.address
  sequences : (numbered config log).Pairwise (·.sequence < ·.sequence)
  communication : s.communicationOk = ((numbered config log).getLast?.map (·.valid)).getD false
  error : s.lastError = ((numbered config log).getLast?.map (·.error)).getD ""

/-- **The books balance.** -/
structure Balanced (config : GasDetectorPollConfig) (log : List Entry) (s : Poll) : Prop
    extends Books config log s where
  crcErrors : s.crcErrorCount = log.countP fun p => p.2.CrcMismatch

/-- What every run keeps. It counts the responses that break off with the CRC errors. -/
structure Kept (config : GasDetectorPollConfig) (log : List Entry) (s : Poll) : Prop
    extends Books config log s where
  crcErrors : s.crcErrorCount =
    (log.countP fun p => p.2.CrcMismatch) + log.countP fun p => p.2.Cut
  next : s.nextSequence = log.length + 1

variable {log : List Entry} {s t : Poll}

/-- The next result has the next number. -/
theorem numbered_concat : numbered config (log ++ [(address, x)]) =
    numbered config log ++ [{ (query config address x).1 with sequence := log.length + 1 }] :=
  List.mapIdx_concat

/-- What `StoreResult` does. -/
structure Stores (s : Poll) (result : GasDetectorData) (response : List UInt8) (t : Poll) :
    Prop where
  requests : t.requestCount = s.requestCount
  stored : t.successCount + t.invalidFrameCount = s.successCount + s.invalidFrameCount + 1
  timeouts : s.timeoutCount ≤ s.invalidFrameCount → t.timeoutCount ≤ t.invalidFrameCount
  crcErrors : t.crcErrorCount = s.crcErrorCount +
    if result.valid = false ∧ result.crcOk = false ∧ 5 ≤ response.length then 1 else 0
  latest : t.latestResults =
    replaceResult { result with sequence := s.nextSequence } s.latestResults
  communication : t.communicationOk = result.valid
  error : (result.valid = true → result.error = "") → t.lastError = result.error
  next : t.nextSequence = s.nextSequence + 1

/-- **What `StoreResult` counts.** -/
theorem storeResult_stores (s : Poll) (result : GasDetectorData) (response : List UInt8) :
    Stores s result response (storeResult s result response) := by
  rw [storeResult]
  dsimp only
  split
  · next hvalid =>
    exact
      { requests := rfl, stored := Nat.succ_add _ _, timeouts := id, crcErrors := by simp [hvalid]
        latest := rfl, communication := rfl, error := fun herror => (herror hvalid).symm
        next := rfl }
  · next hvalid =>
    refine
      { requests := rfl, stored := rfl, timeouts := fun hle => ?_, crcErrors := ?_, latest := rfl
        communication := rfl, error := fun _ => rfl, next := rfl }
    · dsimp only
      split <;> omega
    · have hfalse := Bool.eq_false_iff.2 hvalid
      dsimp only
      split <;> simp_all

/-- The last result of an address, when one more is stored. -/
theorem lastOf_concat {a : Nat} : lastOf config (log ++ [(address, x)]) a =
    if address.toNat = a then { (query config address x).1 with sequence := log.length + 1 }
    else lastOf config log a := by
  rw [lastOf, numbered_concat, List.filter_append, List.getLast?_append]
  by_cases ha : address.toNat = a
  · rw [if_pos ha]
    simp [query_address, ha]
  · rw [if_neg ha, lastOf]
    simp [query_address, ha]

/-- The results are numbered up to how many there are. -/
theorem sequence_le {r : GasDetectorData} (hr : r ∈ numbered config log) :
    r.sequence ≤ log.length := by
  rw [numbered, List.mem_mapIdx] at hr
  obtain ⟨i, hi, rfl⟩ := hr
  exact hi

/-- **A result is stored.** -/
theorem Kept.store {rest : List UInt8} (h : Kept config log s)
    (hstage : s.stage = .asked address rest) :
    Kept config (log ++ [(address, x)])
      { storeResult s (query config address x).1 (query config address x).2 with
        stage := .next rest } := by
  have hstores := storeResult_stores s (query config address x).1 (query config address x).2
  have hmem : ∀ r, r ∈ replaceResult
        { (query config address x).1 with sequence := s.nextSequence } s.latestResults ↔
      r = { (query config address x).1 with sequence := s.nextSequence } ∨
        r ∈ s.latestResults ∧ r.address ≠ (query config address x).1.address :=
    fun _ => mem_replaceResult h.nodup
  refine { requests := ?_, timeouts := hstores.timeouts h.timeouts, nodup := ?_, latest := ?_,
           present := ?_, sequences := ?_, communication := ?_, error := ?_, crcErrors := ?_,
           next := ?_ }
  · have hrequests := h.requests
    rw [Poll.inFlight, hstage] at hrequests
    exact hstores.requests.trans (hrequests.trans hstores.stored.symm)
  · rw [hstores.latest]
    exact nodup_replaceResult h.nodup
  · intro r hr
    rw [hstores.latest, hmem] at hr
    rw [lastOf_concat]
    rcases hr with rfl | ⟨hr, hne⟩
    · rw [if_pos query_address.symm, h.next]
    · have hother : ¬ address.toNat = r.address := fun heq =>
        hne (heq.symm.trans query_address.symm)
      rw [if_neg hother]
      exact h.latest r hr
  · intro r hr
    rw [hstores.latest]
    rw [numbered_concat, List.mem_append, List.mem_singleton] at hr
    by_cases haddress : r.address = (query config address x).1.address
    · exact ⟨_, (hmem _).2 (.inl rfl), haddress.symm⟩
    · rcases hr with hr | rfl
      · obtain ⟨r', hr', heq⟩ := h.present r hr
        exact ⟨r', (hmem r').2 (.inr ⟨hr', heq ▸ haddress⟩), heq⟩
      · exact absurd rfl haddress
  · rw [numbered_concat, List.pairwise_append]
    refine ⟨h.sequences, List.pairwise_singleton _ _, fun r hr r' hr' => ?_⟩
    rw [List.mem_singleton.1 hr']
    exact Nat.lt_succ_of_le (sequence_le hr)
  · rw [numbered_concat, List.getLast?_concat]
    exact hstores.communication
  · rw [numbered_concat, List.getLast?_concat]
    exact hstores.error query_error
  · rw [hstores.crcErrors, h.crcErrors, List.countP_append, List.countP_append]
    simp only [counted_iff, List.countP_singleton, decide_eq_true_eq]
    by_cases hcut : x.Cut
    · have hmismatch : ¬ x.CrcMismatch := fun hm => Exchange.not_cut_of_complete hm.1 hcut
      simp only [hcut, hmismatch, or_true, if_true, if_false]
      omega
    · by_cases hmismatch : x.CrcMismatch
      · simp only [hcut, hmismatch, or_false, if_true, if_false]
        omega
      · simp only [hcut, hmismatch, or_false, if_false]
        omega
  · rw [List.length_append, List.length_singleton, hstores.next, h.next]

/-! ## Runs -/

/-- At first nothing has been stored. -/
theorem init_kept (h : config.addresses.Nodup) : Kept config [] (init config) := by
  have haddresses : (init config).latestResults.map (·.address) =
      config.addresses.map (·.toNat) := by
    rw [init, List.map_map]
    rfl
  refine { requests := rfl, timeouts := Nat.le_refl _, nodup := ?_, latest := ?_, present := ?_,
           sequences := List.Pairwise.nil, communication := rfl, error := rfl, crcErrors := rfl,
           next := rfl }
  · rw [haddresses]
    exact h.map fun a b => UInt8.toNat_inj.1
  · intro r hr
    obtain ⟨address, -, rfl⟩ := List.mem_map.1 hr
    rfl
  · intro r hr
    cases hr

/-- What has been stored grows step by step. -/
theorem stored_concat {events : List Event} {e : Event} :
    stored (events ++ [e]) = stored events ++ stored [e] :=
  List.filterMap_append

/-- **What one step does**: it stores a result, or it stores none and keeps the count of the
requests. -/
theorem step_cases {e : Event} (h : step config s e = some t) :
    (∃ address x rest, e = .store address x ∧ s.stage = .asked address rest ∧
      t = { storeResult s (query config address x).1 (query config address x).2 with
        stage := .next rest }) ∨
    (stored [e] = [] ∧ t.requestCount + s.inFlight = s.requestCount + t.inFlight ∧
      t = { s with
        requestCount := t.requestCount, cycleCount := t.cycleCount, stage := t.stage }) := by
  cases hstage : s.stage with
  | top =>
    cases e <;> simp only [step, hstage, reduceCtorEq, Option.some.injEq] at h
    · subst h
      exact .inr ⟨rfl, by simp [Poll.inFlight, hstage], rfl⟩
    · subst h
      exact .inr ⟨rfl, by simp [Poll.inFlight, hstage], rfl⟩
  | next rest =>
    cases rest <;> cases e <;> simp only [step, hstage, reduceCtorEq, Option.some.injEq] at h
    · subst h
      exact .inr ⟨rfl, by simp [Poll.inFlight, hstage], rfl⟩
    · subst h
      exact .inr ⟨rfl, by simp [Poll.inFlight, hstage], rfl⟩
    · subst h
      exact .inr ⟨rfl, by simp [Poll.inFlight, hstage], rfl⟩
  | asked address rest =>
    cases e <;> simp only [step, hstage, reduceCtorEq] at h
    split at h
    · next haddress =>
      subst haddress
      cases h
      exact .inl ⟨_, _, rest, rfl, rfl, rfl⟩
    · cases h
  | done => cases e <;> simp only [step, hstage, reduceCtorEq] at h

/-- **What one step keeps.** -/
theorem Kept.step {events : List Event} {e : Event} (h : Kept config (stored events) s)
    (hstep : step config s e = some t) : Kept config (stored (events ++ [e])) t := by
  rw [stored_concat]
  rcases step_cases hstep with ⟨address, x, rest, rfl, hstage, rfl⟩ | ⟨hnone, hrequests, ht⟩
  · exact h.store hstage
  · have hsum : t.requestCount = s.successCount + s.invalidFrameCount + t.inFlight := by
      have hs := h.requests
      omega
    rw [hnone, List.append_nil]
    rw [ht] at hsum ⊢
    exact { h with requests := hsum }

/-- **What every run keeps.** -/
theorem run_kept (hnodup : config.addresses.Nodup) {events : List Event}
    (h : run (step config) (init config) events = some s) : Kept config (stored events) s :=
  run_induction (P := fun events s => Kept config (stored events) s) (init_kept hnodup)
    (fun _ _ _ _ _ hs hstep => hs.step hstep) h

/-- The books balance just if nothing is counted that is not a CRC error. -/
theorem Kept.balanced_iff (h : Kept config log s) :
    Balanced config log s ↔ ∀ p ∈ log, ¬ p.2.Cut := by
  have hzero : (log.countP fun p => p.2.Cut) = 0 ↔ ∀ p ∈ log, ¬ p.2.Cut := by
    rw [List.countP_eq_zero]
    simp
  rw [← hzero]
  constructor
  · intro hbalanced
    have hcrc := hbalanced.crcErrors
    have hkept := h.crcErrors
    omega
  · intro hcut
    refine { h with crcErrors := ?_ }
    rw [h.crcErrors, hcut, Nat.add_zero]

/-- What has been stored is what the steps have stored. -/
theorem mem_stored {events : List Event} {p : Entry} :
    p ∈ stored events ↔ Event.store p.1 p.2 ∈ events := by
  rw [stored, List.mem_filterMap]
  constructor
  · rintro ⟨e, he, hp⟩
    cases e <;> simp at hp
    subst hp
    exact he
  · intro h
    exact ⟨_, h, rfl⟩

/-- **The books balance** at every point of a run, just if no response in it breaks off after five
bytes or more. -/
theorem books_balance_iff {json : MyData.Json}
    (hconfig : configAddresses json = .ok config.addresses)
    {events : List Event} (hrun : run (step config) (init config) events = some s) :
    (∀ pre t, pre <+: events → run (step config) (init config) pre = some t →
        Balanced config (stored pre) t) ↔
      ∀ address x, Event.store address x ∈ events → ¬ x.Cut := by
  have hnodup := configAddresses_nodup hconfig
  constructor
  · intro hbalanced address x hmem
    have hs := hbalanced events s (List.prefix_refl events) hrun
    exact (run_kept hnodup hrun).balanced_iff.1 hs (address, x) (mem_stored.2 hmem)
  · rintro hcut pre t ⟨post, rfl⟩ ht
    refine (run_kept hnodup ht).balanced_iff.2 fun p hp => hcut p.1 p.2 ?_
    exact List.mem_append_left post (mem_stored.1 hp)

section
/-- One address. -/
def one : GasDetectorPollConfig := { addresses := [1] }

/-- Nothing comes. -/
def silence : Exchange := { discards := [{ available := 0 }], written := 8 }

/-- Five bytes come, of twenty-five. -/
def brokenOff : Exchange :=
  { silence with headerReads := [{ bytes := [1, 3, 20] }], bodyReads := [{ bytes := [0, 0] }] }

/-- Two addresses. -/
def two : GasDetectorPollConfig := { addresses := [1, 2] }

/-- The ten registers of the first address come, with this for a CRC. -/
def registers (crc : UInt16) : Exchange :=
  { silence with
    headerReads := [{ bytes := [1, 3, 20] }]
    bodyReads :=
      [{ bytes := List.replicate 20 (0 : UInt8) ++ [crc.toUInt8, (crc >>> 8).toUInt8] }] }

/-- The second address answers with an exception. -/
def exception : Exchange :=
  { silence with
    headerReads := [{ bytes := [2, 0x83, 2] }]
    bodyReads := [{ bytes := [0x30, 0xF1] }] }

/-- Two rounds: a good response and silence, a wrong CRC and an exception. -/
def twoRounds : List Event :=
  [.enter, .request, .store 1 (registers 26531), .request, .store 2 silence, .cycle,
    .enter, .request, .store 1 (registers 0), .request, .store 2 exception, .cycle]

/-- **The books balance over two rounds**, with a good response, silence, a wrong CRC and an
exception. -/
theorem books_balance_twoRounds :
    ∃ s, run (step two) (init two) twoRounds = some s ∧
      (s.requestCount, s.successCount, s.timeoutCount, s.invalidFrameCount, s.crcErrorCount) =
        (4, 1, 1, 3, 1) ∧
      ∀ pre t, pre <+: twoRounds → run (step two) (init two) pre = some t →
        Balanced two (stored pre) t := by
  have hjson : configAddresses (.object [("addresses", .array [.integer 1, .integer 2])]) =
      .ok two.addresses := by decide
  have hrun : (run (step two) (init two) twoRounds).map (fun s =>
      (s.requestCount, s.successCount, s.timeoutCount, s.invalidFrameCount, s.crcErrorCount)) =
        some (4, 1, 1, 3, 1) := by decide +kernel
  obtain ⟨s, hs, hcounts⟩ := Option.map_eq_some_iff.1 hrun
  have hcut : ∀ p ∈ stored twoRounds, ¬ p.2.Cut := by decide +kernel
  exact ⟨s, hs, hcounts, (books_balance_iff hjson hs).2 fun address x hmem =>
    hcut (address, x) (mem_stored.2 hmem)⟩

/-- A request, and what comes of it. -/
def ask (x : Exchange) : List Event := [.enter, .request, .store 1 x, .cycle]

/-- A response that breaks off is no CRC error, and is counted as one. -/
theorem broken_off_counted : ∃ s, run (step one) (init one) (ask brokenOff) = some s ∧
    s.crcErrorCount = 1 ∧ ¬ brokenOff.CrcMismatch ∧ ¬ Balanced one (stored (ask brokenOff)) s := by
  refine ⟨_, rfl, rfl, by decide, fun h => ?_⟩
  have hcount : 1 = (stored (ask brokenOff)).countP fun p => p.2.CrcMismatch := h.crcErrors
  revert hcount
  decide

end

end MyGasDetectorPoll
