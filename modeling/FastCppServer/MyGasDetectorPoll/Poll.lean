import FastCppServer.MyGasDetectorPoll.Config
import Mathlib.Data.Option.Basic

/-!
# The worker of the gas detector poll

`WorkerLoop` asks one address after another and stores what comes of it. What the serial port does
in one request is an `Exchange`; the frame that is read from it is decoded by `parseResponse`. Of
the data of a result the model has the flags, the codes, the registers and the error text, not the
texts and the floating point values that are made of the registers, nor the clock. None of what the
loop calls throws: `MySerial` gives an error text instead.

The counters and the sequence numbers are natural numbers. At a request in a millisecond a counter
of 64 bits goes on for more than five hundred million years.
-/

namespace MyGasDetectorPoll

/-- The longest response. -/
def kMaxResponseSize : Nat := 260

/-- `crc` after the eight shifts of a byte. -/
def crcShifts : Nat → UInt16 → UInt16
  | 0, crc => crc
  | n + 1, crc => crcShifts n (if crc &&& 1 ≠ 0 then (crc >>> 1) ^^^ 0xA001 else crc >>> 1)

/-- `Crc16Modbus`. -/
def crc16Modbus (data : List UInt8) : UInt16 :=
  data.foldl (fun crc byte => crcShifts 8 (crc ^^^ byte.toUInt16)) 0xFFFF

/-- `BuildRequest`. -/
def buildRequest (address : UInt8) (startRegister count : UInt16) : List UInt8 :=
  let body :=
    [address, 0x03, (startRegister >>> 8).toUInt8, startRegister.toUInt8, (count >>> 8).toUInt8,
      count.toUInt8]
  let crc := crc16Modbus body
  body ++ [crc.toUInt8, (crc >>> 8).toUInt8]

/-- A number in upper-case hexadecimal digits, zeros in front. -/
def hexText (width n : Nat) : String :=
  let digits := (Nat.toDigits 16 n).map Char.toUpper
  .ofList (List.replicate (width - digits.length) '0' ++ digits)

/-- `HexFrame`. -/
def hexFrame (data : List UInt8) : String :=
  String.intercalate " " (data.map fun byte => hexText 2 byte.toNat)

/-- The result for one address. -/
structure GasDetectorData where
  address : Nat := 0
  valid : Bool := false
  timeout : Bool := false
  crcOk : Bool := false
  functionCode : Nat := 0
  byteCount : Nat := 0
  exceptionCode : Nat := 0
  crcReceived : UInt16 := 0
  crcCalculated : UInt16 := 0
  definitionRegister : UInt16 := 0
  decimalPlaces : Nat := 0
  concentrationRegister : UInt16 := 0
  lowAlarmRegister : UInt16 := 0
  highAlarmRegister : UInt16 := 0
  rangeRegister : UInt16 := 0
  statusRegister : UInt16 := 0
  adRegister : UInt16 := 0
  temperatureRegister : UInt16 := 0
  gasCode : Nat := 0
  gasRegister : UInt16 := 0
  humidityRegister : UInt16 := 0
  error : String := "尚未查询"
  sequence : Nat := 0
  deriving DecidableEq

/-- The name of an exception code. -/
def exceptionName (code : Nat) : String :=
  match code with
  | 1 => "非法功能"
  | 2 => "非法数据地址"
  | 3 => "非法数据值"
  | 4 => "从站设备故障"
  | _ => "未知异常"

/-- The decimal places of a definition register. -/
def decimalPlaces (code : Nat) : Nat :=
  match code with
  | 0x4 => 1
  | 0x8 => 2
  | 0xC => 3
  | _ => 0

/-- The two bytes at the end, the low one first. -/
def crcAtEnd (response : List UInt8) : UInt16 :=
  (response.getD (response.length - 2) 0).toUInt16 |||
    ((response.getD (response.length - 1) 0).toUInt16 <<< 8)

/-- The register in the data of a frame. -/
def register (response : List UInt8) (index : Nat) : UInt16 :=
  ((response.getD (3 + index * 2) 0).toUInt16 <<< 8) |||
    (response.getD (3 + index * 2 + 1) 0).toUInt16

/-- `ParseResponse`. Its `error` is that of the result. -/
def parseResponse (response : List UInt8) (expectedAddress : UInt8)
    (expectedRegisterCount : Nat) : GasDetectorData :=
  let result : GasDetectorData := { address := expectedAddress.toNat }
  if response.length < 5 then
    { result with
      error := "报文长度不足：至少需要 5 字节，实际收到 " ++ toString response.length ++ " 字节" }
  else
    let crcReceived := crcAtEnd response
    let crcCalculated := crc16Modbus (response.dropLast.dropLast)
    let result := { result with crcReceived, crcCalculated, crcOk := crcReceived = crcCalculated }
    if crcReceived ≠ crcCalculated then
      { result with
        error := "CRC 校验失败：接收 CRC=0x" ++ hexText 4 crcReceived.toNat ++ "，计算 CRC=0x" ++
          hexText 4 crcCalculated.toNat }
    else
      let code := response.getD 1 0
      let result := { result with functionCode := code.toNat }
      if response.getD 0 0 ≠ expectedAddress then
        { result with
          error := "从站地址错误：期望 " ++ toString expectedAddress.toNat ++ "，实际 " ++
            toString (response.getD 0 0).toNat }
      else if code &&& 0x80 ≠ 0 then
        let exceptionCode := (response.getD 2 0).toNat
        { result with
          exceptionCode
          error := "Modbus 异常响应：异常码 0x" ++ hexText 2 exceptionCode ++ "（" ++
            exceptionName exceptionCode ++ "）" ++
              if response.length ≠ 5 then
                "，异常帧长度错误，期望 5 字节，实际 " ++ toString response.length ++ " 字节"
              else "" }
      else if code ≠ 0x03 then
        { result with error := "功能码错误：期望 0x03，实际 0x" ++ hexText 2 code.toNat }
      else
        let byteCount := (response.getD 2 0).toNat
        let result := { result with byteCount }
        let expectedByteCount := expectedRegisterCount * 2
        if byteCount ≠ expectedByteCount ∨ response.length ≠ expectedByteCount + 5 then
          { result with
            error := "响应长度错误：期望数据区 " ++ toString expectedByteCount ++ " 字节、完整帧 " ++
              toString (expectedByteCount + 5) ++ " 字节，实际声明 " ++ toString byteCount ++
                " 字节、收到 " ++ toString response.length ++ " 字节" }
        else
          let definition := register response 0
          { result with
            definitionRegister := definition
            decimalPlaces := decimalPlaces (definition.toNat / 2 ^ 8 % 2 ^ 4)
            concentrationRegister := register response 1
            lowAlarmRegister := register response 2
            highAlarmRegister := register response 3
            rangeRegister := register response 4
            statusRegister := register response 5
            adRegister := register response 6
            temperatureRegister := register response 7
            gasRegister := register response 8
            gasCode := (register response 8).toNat / 2 ^ 8
            humidityRegister := register response 9
            valid := true
            error := "" }

/-- `MakeFailureResult`. -/
def makeFailureResult (address : Nat) (error : String) (timeout : Bool) : GasDetectorData :=
  { address, timeout, error }

/-! ## The serial port -/

/-- What `Available` gives, and `ReadBytes` after it. -/
structure Discard where
  available : Nat
  availableError : String := ""
  discarded : List UInt8 := []
  readError : String := ""

/-- `DiscardInputBuffer`. The list ends where a stop is requested. -/
def discardInputBuffer : List Discard → Bool
  | [] => false
  | d :: rest =>
    if d.availableError ≠ "" then false
    else if d.available = 0 then true
    else if d.readError ≠ "" then false
    else if d.discarded = [] then false
    else discardInputBuffer rest

/-- What `ReadBytes` gives. -/
structure Read where
  bytes : List UInt8 := []
  error : String := ""

/-- `ReadUpTo`, and its `error`. The list ends where the deadline has passed, or a stop is
requested. A read gives no more than it is asked for. -/
def readUpTo (size : Nat) (result : List UInt8) : List Read → List UInt8 × String
  | [] => (result, "")
  | r :: rest =>
    if result.length < size then
      if r.error ≠ "" then (result, r.error)
      else readUpTo size (result ++ r.bytes.take (size - result.length)) rest
    else (result, "")

/-- The bytes that follow the first three. -/
def remaining (header : List UInt8) : Nat :=
  if header.getD 1 0 &&& 0x80 ≠ 0 then 2 else (header.getD 2 0).toNat + 2

/-- `ReadResponse`, and its `error`. -/
def readResponse (headerReads bodyReads : List Read) : List UInt8 × String :=
  let (header, error) := readUpTo 3 [] headerReads
  if header.length < 3 then
    (header,
      if error = "" ∧ header ≠ [] then
        "响应头不完整：期望 3 字节，实际收到 " ++ toString header.length ++ " 字节"
      else error)
  else if kMaxResponseSize < header.length + remaining header then
    (header, "响应声明长度超过 Modbus RTU 最大帧长度")
  else
    let (body, error) := readUpTo (remaining header) [] bodyReads
    let response := header ++ body
    (response,
      if response.length < 3 + remaining header ∧ error = "" then
        "响应帧未读取完整：期望 " ++ toString (3 + remaining header) ++ " 字节，实际收到 " ++
          toString response.length ++ " 字节"
      else error)

/-- What the port does in one request. -/
structure Exchange where
  discards : List Discard
  written : Nat
  writeError : String := ""
  headerReads : List Read := []
  bodyReads : List Read := []

/-- The fields of the configuration that the worker reads. -/
structure GasDetectorPollConfig where
  addresses : List UInt8
  timeoutMs : Nat := 400
  startRegister : UInt16 := 0
  registerCount : UInt16 := 10

/-- What a request comes to: the result, and the response. -/
def query (config : GasDetectorPollConfig) (address : UInt8) (x : Exchange) :
    GasDetectorData × List UInt8 :=
  let request := buildRequest address config.startRegister config.registerCount
  if discardInputBuffer x.discards = false then
    (makeFailureResult address.toNat "发送前清理串口接收缓存失败" false, [])
  else if x.writeError ≠ "" ∨ x.written ≠ request.length then
    (makeFailureResult address.toNat
      ("请求发送失败：实际写入 " ++ toString x.written ++ " 字节，期望 " ++ toString request.length ++
        " 字节" ++ if x.writeError ≠ "" then "，原因：" ++ x.writeError else "") false, [])
  else
    let (response, readError) := readResponse x.headerReads x.bodyReads
    if response = [] then
      (makeFailureResult address.toNat
        (if readError = "" then
          "通信超时：在 " ++ toString config.timeoutMs ++ " ms 内未收到任何数据"
        else "读取响应失败：" ++ readError) (readError = ""), response)
    else if readError ≠ "" then
      (makeFailureResult address.toNat ("读取响应失败：" ++ readError) false, response)
    else (parseResponse response address config.registerCount.toNat, response)

/-! ## The worker -/

/-- Where the worker is. -/
inductive Stage where
  /-- At the `while`. -/
  | top
  /-- In the `for`, before the addresses that are left. -/
  | next (rest : List UInt8)
  /-- The request is counted, the result not stored. -/
  | asked (address : UInt8) (rest : List UInt8)
  /-- It has returned. -/
  | done
  deriving DecidableEq

/-- The worker and its counts. -/
structure Poll where
  latestResults : List GasDetectorData
  requestCount : Nat := 0
  successCount : Nat := 0
  timeoutCount : Nat := 0
  invalidFrameCount : Nat := 0
  crcErrorCount : Nat := 0
  cycleCount : Nat := 0
  nextSequence : Nat := 1
  communicationOk : Bool := false
  lastError : String := ""
  lastFrame : String := ""
  stage : Stage := .top
  deriving DecidableEq

/-- After `Init` and `Start`. A worker starts no other way: `Stop` takes the initialisation back. -/
def init (config : GasDetectorPollConfig) : Poll :=
  { latestResults := config.addresses.map fun address => { address := address.toNat } }

/-- The results with this one in the place of the first one of its address, or at the end. -/
def replaceResult (stored : GasDetectorData) : List GasDetectorData → List GasDetectorData
  | [] => [stored]
  | r :: rest =>
    if r.address = stored.address then stored :: rest else r :: replaceResult stored rest

/-- `StoreResult`. -/
def storeResult (s : Poll) (result : GasDetectorData) (response : List UInt8) : Poll :=
  let stored := { result with sequence := s.nextSequence }
  let s :=
    { s with
      nextSequence := s.nextSequence + 1
      latestResults := replaceResult stored s.latestResults
      lastFrame := if response = [] then "" else hexFrame response
      communicationOk := stored.valid }
  if stored.valid then { s with successCount := s.successCount + 1, lastError := "" }
  else
    { s with
      invalidFrameCount := s.invalidFrameCount + 1
      timeoutCount := if stored.timeout then s.timeoutCount + 1 else s.timeoutCount
      crcErrorCount :=
        if stored.crcOk = false ∧ 5 ≤ response.length then s.crcErrorCount + 1 else s.crcErrorCount
      lastError := stored.error }

/-- A step of the worker. -/
inductive Event where
  /-- It enters the `for`. -/
  | enter
  /-- It counts a request. -/
  | request
  /-- The port has done its part, and the result is stored. -/
  | store (address : UInt8) (x : Exchange)
  /-- It has been through all addresses. -/
  | cycle
  /-- It sees the stop request. -/
  | stop

/-- One step of the worker. -/
def step (config : GasDetectorPollConfig) (s : Poll) (e : Event) : Option Poll :=
  match s.stage, e with
  | .top, .enter => some { s with stage := .next config.addresses }
  | .next (address :: rest), .request =>
    some { s with requestCount := s.requestCount + 1, stage := .asked address rest }
  | .asked address rest, .store a x =>
    if a = address then
      let (result, response) := query config address x
      some { storeResult s result response with stage := .next rest }
    else none
  | .next [], .cycle => some { s with cycleCount := s.cycleCount + 1, stage := .top }
  | .next (_ :: _), .stop => some { s with stage := .done }
  | .top, .stop => some { s with stage := .done }
  | _, _ => none

end MyGasDetectorPoll
