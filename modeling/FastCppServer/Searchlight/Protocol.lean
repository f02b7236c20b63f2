import FastCppServer.Lib.Bytes
import FastCppServer.Lib.Framer

/-!
# The searchlight protocol

`SearchlightProtocol.cpp`: the frame codec, and the decoding loop of `Searchlight::readSerialLoop`.
A frame is `55 AA`, the command id, a length byte (its low six bits count the command id, itself and
the payload; its high two bits are the frame counter), the payload and an exclusive-or checksum that
starts at the length byte.

`tryDecode` returns the decoded frame if it succeeds, the receive buffer it leaves, and the error
text, which is empty if there is nothing to report.
-/

namespace SearchlightControl

open Framing Bytes

/-- A byte on the wire. -/
abbrev Byte := UInt8

def kHeader0 : Byte := 0x55
def kHeader1 : Byte := 0xAA
def kCmdId : Byte := 0xDC
def kMaxPayloadLength : Nat := 61

/-- What `TryDecode` makes of a frame. `lengthByte` is the byte as received, with the counter in its
upper bits. -/
structure DecodedFrame where
  cmdId : Byte := 0
  lengthByte : Byte := 0
  bodyLength : Byte := 0
  frameCounter : Byte := 0
  payload : List Byte := []
  checksum : Byte := 0
  deriving DecidableEq

/-! ## Encoding -/

/-- The exclusive or of all bytes from the length byte on. -/
def checksum (frameWithoutChecksum : List Byte) : Byte :=
  if frameWithoutChecksum.length ≤ 3 then 0
  else (frameWithoutChecksum.drop 3).foldl (· ^^^ ·) 0

/-- The length byte: the body length in its low six bits, the frame counter above them. -/
def lengthByteOf (bodyLength frameCounter : Byte) : Byte :=
  (bodyLength &&& (0x3F : Byte)) ||| ((frameCounter &&& (0x03 : Byte)) <<< (6 : Byte))

/-- `Encode`. A payload that is too long gives no frame at all. -/
def encode (cmdId : Byte) (payload : List Byte) (frameCounter : Byte) : List Byte :=
  if payload.length > kMaxPayloadLength then []
  else
    let bodyLength : Byte := UInt8.ofNat (payload.length + 2)
    let frame := [kHeader0, kHeader1, cmdId, lengthByteOf bodyLength frameCounter] ++ payload
    frame ++ [checksum frame]

/-! ## Texts -/

/-- A digit of `std::hex` with `std::uppercase`. -/
def hexDigit (n : Nat) : Char :=
  if n < 10 then Char.ofNat ('0'.toNat + n) else Char.ofNat ('A'.toNat + (n - 10))

/-- Two upper-case hexadecimal digits. -/
def byteToHex (value : Byte) : String :=
  String.ofList [hexDigit (value.toNat / 16), hexDigit (value.toNat % 16)]

/-- The bytes in hexadecimal, one blank between two of them. -/
def toHex (bytes : List Byte) : String := String.intercalate " " (bytes.map byteToHex)

/-- The text of the error for another command id. -/
def unknownCmdIdText : String := "收到未知 CMD_ID，已丢弃当前缓冲区，避免帧错位"

/-- The text of the error for a body length out of bounds. -/
def illegalLengthText : String := "长度字段非法，已清空接收缓冲区"

/-- The text of the error for a checksum that does not match, with both checksums. -/
def checksumText (expected actual : Byte) : String :=
  "校验失败，期望 0x" ++ byteToHex expected ++ "，实际 0x" ++ byteToHex actual ++
    "，已清空接收缓冲区"

/-! ## Decoding -/

/-- The `while` loop of `tryDecode`: drops bytes until a header is at the front. -/
def dropToHeader : List Byte → List Byte
  | b0 :: b1 :: rest =>
    if b0 = kHeader0 ∧ b1 = kHeader1 then b0 :: b1 :: rest else dropToHeader (b1 :: rest)
  | buffer => buffer

/-- The frame made of the first `totalLength` bytes. -/
def decodedFrame (buffer : List Byte) (totalLength : Nat) : DecodedFrame :=
  let lengthByte := byteAt buffer 3
  { cmdId := byteAt buffer 2
    lengthByte
    bodyLength := lengthByte &&& 0x3F
    frameCounter := (lengthByte >>> 6) &&& 0x03
    payload := (buffer.drop 4).take (totalLength - 5)
    checksum := byteAt buffer (totalLength - 1) }

/-- What `tryDecode` does behind its loop: `wait` is `return false`, `fail` is `buffer.clear()` with
an error, `emit` removes the frame's bytes and returns `true`. -/
def examine (buffer : List Byte) : Verdict DecodedFrame String :=
  if buffer.length < 4 then .wait
  else if byteAt buffer 2 ≠ kCmdId then .fail unknownCmdIdText
  else
    let bodyLength := byteAt buffer 3 &&& 0x3F
    if bodyLength < 2 ∨ bodyLength > 63 then .fail illegalLengthText
    else
      let payloadLength := bodyLength.toNat - 2
      let totalLength := payloadLength + 5
      if buffer.length < totalLength then .wait
      else
        let expected := checksum (buffer.take (totalLength - 1))
        let actual := byteAt buffer (totalLength - 1)
        if expected ≠ actual then .fail (checksumText expected actual)
        else .emit (decodedFrame buffer totalLength) totalLength

/-- `TryDecode`: the frame, the buffer afterwards, and the text of the error, which is empty where
more bytes are needed. -/
def tryDecode (buffer : List Byte) : Option DecodedFrame × List Byte × String :=
  let buffer := dropToHeader buffer
  match examine buffer with
  | .wait => (none, buffer, "")
  | .skip n => (none, buffer.drop n, "")
  | .emit frame n => (some frame, buffer.drop n, "")
  | .fail error => (none, [], error)

/-! ## The read loop -/

/-- What a read loop has decoded and reported, and the buffer it leaves. -/
@[ext]
structure Received where
  frames : List DecodedFrame := []
  errors : List String := []
  buffer : List Byte := []
  deriving DecidableEq

/-- The calls of `TryDecode` one behind the other. An error ends them, and has cleared the
buffer. -/
def drainLoop : Nat → List Byte → Received
  | 0, buffer => { buffer }
  | fuel + 1, buffer =>
    match tryDecode buffer with
    | (none, buffer, error) => { errors := if error = "" then [] else [error], buffer }
    | (some frame, buffer, error) =>
      let received := drainLoop fuel buffer
      { received with
        frames := frame :: received.frames
        errors := (if error = "" then [] else [error]) ++ received.errors }

/-- Calls `tryDecode` until it returns `false`. -/
def drain (buffer : List Byte) : Received := drainLoop (buffer.length + 1) buffer

/-- Appends the chunks one by one and drains after each. -/
def receive (buffer : List Byte) : List (List Byte) → Received
  | [] => { buffer }
  | chunk :: chunks =>
    let first := drain (buffer ++ chunk)
    let rest := receive first.buffer chunks
    { frames := first.frames ++ rest.frames
      errors := first.errors ++ rest.errors
      buffer := rest.buffer }

end SearchlightControl
