import Ners.Base.Word

set_option autoImplicit false

namespace Ners.H2

def frameHeaderSize : Nat := 9

inductive H2Error where
  | frameTooShort
  | invalidFrameType (value : UInt8)
  | frameTooLarge (size limit : Nat)
  | protocolError (message : String)
  | flowControlError
  | streamClosed
deriving DecidableEq

inductive FrameType where
  | data
  | headers
  | priority
  | rstStream
  | settings
  | pushPromise
  | ping
  | goAway
  | windowUpdate
  | continuation
deriving DecidableEq

def FrameType.code : FrameType → UInt8
  | .data => 0x0
  | .headers => 0x1
  | .priority => 0x2
  | .rstStream => 0x3
  | .settings => 0x4
  | .pushPromise => 0x5
  | .ping => 0x6
  | .goAway => 0x7
  | .windowUpdate => 0x8
  | .continuation => 0x9

def FrameType.tryFrom (value : UInt8) : Except H2Error FrameType :=
  if value = 0x0 then .ok .data
  else if value = 0x1 then .ok .headers
  else if value = 0x2 then .ok .priority
  else if value = 0x3 then .ok .rstStream
  else if value = 0x4 then .ok .settings
  else if value = 0x5 then .ok .pushPromise
  else if value = 0x6 then .ok .ping
  else if value = 0x7 then .ok .goAway
  else if value = 0x8 then .ok .windowUpdate
  else if value = 0x9 then .ok .continuation
  else .error (.invalidFrameType value)

def endStreamFlag : UInt8 := 0x1
def endHeadersFlag : UInt8 := 0x4
def ackFlag : UInt8 := 0x1

inductive Frame where
  | data (streamId : UInt32) (endStream : Bool) (data : Bytes)
  | headers (streamId : UInt32) (endStream endHeaders : Bool) (headerBlock : Bytes)
  | priority (streamId : UInt32) (exclusive : Bool) (dependency : UInt32) (weight : UInt8)
  | rstStream (streamId errorCode : UInt32)
  | settings (ack : Bool) (settings : List (UInt16 × UInt32))
  | pushPromise (streamId promisedStreamId : UInt32) (headerBlock : Bytes)
  | ping (ack : Bool) (data : Vector UInt8 8)
  | goAway (lastStreamId errorCode : UInt32) (debugData : Bytes)
  | windowUpdate (streamId increment : UInt32)
  | continuation (streamId : UInt32) (endHeaders : Bool) (headerBlock : Bytes)
deriving DecidableEq

-- while p.len() >= 6
def parseSettings : Bytes → List (UInt16 × UInt32)
  | p0 :: p1 :: p2 :: p3 :: p4 :: p5 :: p => (u16FromBe p0 p1, u32FromBe p2 p3 p4 p5) :: parseSettings p
  | _ => []

-- The match on the frame type. A kind with fixed fields refuses a payload that
-- is too short for them and ignores what follows them.
def parsePayload (frameType : FrameType) (flags : UInt8) (streamId : UInt32) (payload : Bytes) : Except H2Error Frame :=
  match frameType with
  | .data => .ok (.data streamId (flags &&& endStreamFlag ≠ 0) payload)
  | .headers => .ok (.headers streamId (flags &&& endStreamFlag ≠ 0) (flags &&& endHeadersFlag ≠ 0) payload)
  | .settings => .ok (.settings (flags &&& ackFlag ≠ 0) (parseSettings payload))
  | .windowUpdate =>
      match payload with
      | p0 :: p1 :: p2 :: p3 :: _ => .ok (.windowUpdate streamId (u32FromBe (p0 &&& 0x7f) p1 p2 p3))
      | _ => .error .frameTooShort
  | .ping =>
      match payload with
      | p0 :: p1 :: p2 :: p3 :: p4 :: p5 :: p6 :: p7 :: _ =>
          .ok (.ping (flags &&& ackFlag ≠ 0) #v[p0, p1, p2, p3, p4, p5, p6, p7])
      | _ => .error .frameTooShort
  | .goAway =>
      match payload with
      | p0 :: p1 :: p2 :: p3 :: p4 :: p5 :: p6 :: p7 :: debugData =>
          .ok (.goAway (u32FromBe (p0 &&& 0x7f) p1 p2 p3) (u32FromBe p4 p5 p6 p7) debugData)
      | _ => .error .frameTooShort
  | .rstStream =>
      match payload with
      | p0 :: p1 :: p2 :: p3 :: _ => .ok (.rstStream streamId (u32FromBe p0 p1 p2 p3))
      | _ => .error .frameTooShort
  | .priority =>
      match payload with
      | p0 :: p1 :: p2 :: p3 :: weight :: _ =>
          .ok (.priority streamId (p0 &&& 0x80 ≠ 0) (u32FromBe (p0 &&& 0x7f) p1 p2 p3) weight)
      | _ => .error .frameTooShort
  | .pushPromise =>
      match payload with
      | p0 :: p1 :: p2 :: p3 :: headerBlock =>
          .ok (.pushPromise streamId (u32FromBe (p0 &&& 0x7f) p1 p2 p3) headerBlock)
      | _ => .error .frameTooShort
  | .continuation => .ok (.continuation streamId (flags &&& endHeadersFlag ≠ 0) payload)

-- The result and what the call leaves in `buf`. An unknown type is refused in
-- front of the frame, a short payload behind it.
def Frame.parse (buf : Bytes) : Except H2Error (Option Frame) × Bytes :=
  match buf with
  | b0 :: b1 :: b2 :: b3 :: flags :: b5 :: b6 :: b7 :: b8 :: rest =>
      let length := b0.toNat <<< 16 ||| b1.toNat <<< 8 ||| b2.toNat
      match FrameType.tryFrom b3 with
      | .error e => (.error e, buf)
      | .ok frameType =>
          let streamId := u32FromBe (b5 &&& 0x7f) b6 b7 b8
          let totalLen := frameHeaderSize + length
          if buf.length < totalLen then (.ok none, buf)
          else
            match parsePayload frameType flags streamId (rest.take length) with
            | .error e => (.error e, rest.drop length)
            | .ok frame => (.ok (some frame), rest.drop length)
  | _ => (.ok none, buf)

-- The frame type, flags, stream id and payload that serialize puts behind the length.
def Frame.parts : Frame → FrameType × UInt8 × UInt32 × Bytes
  | .data streamId endStream bytes => (.data, if endStream then endStreamFlag else 0, streamId, bytes)
  | .headers streamId endStream endHeaders headerBlock =>
      let flags : UInt8 := 0
      let flags := if endStream then flags ||| endStreamFlag else flags
      let flags := if endHeaders then flags ||| endHeadersFlag else flags
      (.headers, flags, streamId, headerBlock)
  | .settings ack pairs =>
      (.settings, if ack then ackFlag else 0, 0, pairs.flatMap fun (id, value) => putU16 id ++ putU32 value)
  | .windowUpdate streamId increment => (.windowUpdate, 0, streamId, putU32 (increment &&& 0x7fffffff))
  | .ping ack bytes => (.ping, if ack then ackFlag else 0, 0, bytes.toList)
  | .goAway lastStreamId errorCode debugData =>
      (.goAway, 0, 0, putU32 (lastStreamId &&& 0x7fffffff) ++ putU32 errorCode ++ debugData)
  | .rstStream streamId errorCode => (.rstStream, 0, streamId, putU32 errorCode)
  | .priority streamId exclusive dependency weight =>
      let dep := if exclusive then dependency ||| 0x80000000 else dependency
      (.priority, 0, streamId, putU32 dep ++ [weight])
  | .pushPromise streamId promisedStreamId headerBlock =>
      (.pushPromise, 0, streamId, putU32 (promisedStreamId &&& 0x7fffffff) ++ headerBlock)
  | .continuation streamId endHeaders headerBlock =>
      (.continuation, if endHeaders then endHeadersFlag else 0, streamId, headerBlock)

def Frame.payload (frame : Frame) : Bytes := frame.parts.2.2.2

-- Only the low 24 bits of the payload's length are written.
def frameHeader (len : Nat) (frameType : FrameType) (flags : UInt8) (streamId : UInt32) : Bytes :=
  [.ofNat (len >>> 16), .ofNat (len >>> 8), .ofNat len, frameType.code, flags] ++ putU32 streamId

def Frame.serialize (frame : Frame) (buf : Bytes) : Bytes :=
  let (frameType, flags, streamId, payload) := frame.parts
  buf ++ frameHeader payload.length frameType flags streamId ++ payload

def Frame.streamId : Frame → UInt32
  | .data streamId _ _ | .headers streamId _ _ _ | .priority streamId _ _ _ | .rstStream streamId _ => streamId
  | .settings _ _ => 0
  | .pushPromise streamId _ _ => streamId
  | .ping _ _ | .goAway _ _ _ => 0
  | .windowUpdate streamId _ | .continuation streamId _ _ => streamId

end Ners.H2
