import Ners.H2.Frame
import Ners.H2.Stream
import Ners.Hpack.Encoder
import Mathlib.Data.List.AList

set_option autoImplicit false

namespace Ners.H2

open Hpack (Header HpackDecoder HpackEncoder)

-- "PRI * HTTP/2.0\r\n\r\nSM\r\n\r\n"
def h2Preface : Bytes :=
  [0x50, 0x52, 0x49, 0x20, 0x2a, 0x20, 0x48, 0x54, 0x54, 0x50, 0x2f, 0x32, 0x2e, 0x30, 0x0d, 0x0a, 0x0d, 0x0a, 0x53, 0x4d,
    0x0d, 0x0a, 0x0d, 0x0a]

structure H2Settings where
  headerTableSize : UInt32 := 4096
  enablePush : Bool := true
  maxConcurrentStreams : UInt32 := 100
  initialWindowSize : UInt32 := 65535
  maxFrameSize : UInt32 := 16384
  maxHeaderListSize : UInt32 := 8192
deriving DecidableEq

abbrev Streams := AList fun _ : UInt32 => Stream

-- streams.get_mut(&id) followed by an update in place.
def Streams.modify (streams : Streams) (id : UInt32) (f : Stream → Stream) : Streams :=
  match streams.lookup id with
  | some stream => streams.insert id (f stream)
  | none => streams

-- for stream in streams.values_mut()
def Streams.modifyAll (streams : Streams) (f : Stream → Stream) : Streams :=
  ⟨streams.entries.map fun entry => ⟨entry.1, f entry.2⟩, by
    have keys : (streams.entries.map fun entry : Sigma fun _ : UInt32 => Stream =>
        (⟨entry.1, f entry.2⟩ : Sigma fun _ : UInt32 => Stream)).keys = streams.entries.keys := by
      simp [List.keys]
    rw [List.NodupKeys, keys]
    exact streams.nodupKeys⟩

structure H2Connection where
  localSettings : H2Settings
  remoteSettings : H2Settings
  streams : Streams
  hpackEncoder : HpackEncoder
  hpackDecoder : HpackDecoder
  sendWindow : Int32
  recvWindow : Int32
  prefaceReceived : Bool
  settingsAcked : Bool
  outgoing : List Frame
  goingAway : Bool
  lastStreamId : UInt32

def H2Connection.new (settings : H2Settings) : H2Connection where
  localSettings := settings
  remoteSettings := {}
  streams := ∅
  hpackEncoder := .new settings.headerTableSize.toNat
  hpackDecoder := .new 4096
  sendWindow := settings.initialWindowSize.toInt32
  recvWindow := settings.initialWindowSize.toInt32
  prefaceReceived := false
  settingsAcked := false
  outgoing := []
  goingAway := false
  lastStreamId := 0

def H2Connection.sendSettings (conn : H2Connection) : H2Connection :=
  let settings := [(0x1, conn.localSettings.headerTableSize), (0x3, conn.localSettings.maxConcurrentStreams),
    (0x4, conn.localSettings.initialWindowSize), (0x5, conn.localSettings.maxFrameSize)]
  { conn with outgoing := conn.outgoing ++ [.settings false settings] }

def H2Connection.processPreface (conn : H2Connection) (data : Bytes) : Bool × H2Connection :=
  if h2Preface.length ≤ data.length ∧ data.take h2Preface.length = h2Preface then
    (true, H2Connection.sendSettings { conn with prefaceReceived := true })
  else (false, conn)

-- One turn of the loop over the settings of a frame.
def H2Connection.applySetting (conn : H2Connection) (id : UInt16) (value : UInt32) : H2Connection :=
  let remote := conn.remoteSettings
  if id = 0x1 then { conn with remoteSettings := { remote with headerTableSize := value } }
  else if id = 0x2 then { conn with remoteSettings := { remote with enablePush := value ≠ 0 } }
  else if id = 0x3 then { conn with remoteSettings := { remote with maxConcurrentStreams := value } }
  else if id = 0x4 then
    let delta := value.toInt32 - remote.initialWindowSize.toInt32
    { conn with
      remoteSettings := { remote with initialWindowSize := value }
      streams := conn.streams.modifyAll fun stream => stream.updateSendWindow delta }
  else if id = 0x5 then { conn with remoteSettings := { remote with maxFrameSize := value } }
  else if id = 0x6 then { conn with remoteSettings := { remote with maxHeaderListSize := value } }
  else conn

-- What HEADERS does to its stream, which is new if the map has none.
def Stream.receiveHeaders (stream : Stream) (headers : List Header) (endStream : Bool) : Stream :=
  let stream := { stream.open with requestHeaders := headers }
  if endStream then stream.halfCloseRemote else stream

-- What DATA does to a stream that can receive it.
def Stream.receiveData (stream : Stream) (data : Bytes) (endStream : Bool) : Stream :=
  let stream := { stream with
    requestBody := stream.requestBody ++ data
    recvWindow := stream.recvWindow - .ofNat data.length }
  if endStream then stream.halfCloseRemote else stream

-- The error of a failed call stands beside the connection it leaves; a fault
-- of the decoder unwinds through the call.
def H2Connection.processFrame (conn : H2Connection) (frame : Frame) : Except Fault (Except H2Error Unit × H2Connection) :=
  match frame with
  | .settings ack settings =>
      if ack then .ok (.ok (), { conn with settingsAcked := true })
      else
        let conn := settings.foldl (fun conn (id, value) => conn.applySetting id value) conn
        .ok (.ok (), { conn with outgoing := conn.outgoing ++ [.settings true []] })
  | .headers streamId endStream _ headerBlock =>
      match conn.hpackDecoder.decode headerBlock with
      | .error fault => .error fault
      | .ok (.error e, decoder) => .ok (.error (.protocolError e), { conn with hpackDecoder := decoder })
      | .ok (.ok headers, decoder) =>
          let stream := (conn.streams.lookup streamId).getD (.new streamId conn.localSettings.initialWindowSize.toInt32)
          .ok (.ok (), { conn with
            hpackDecoder := decoder
            streams := conn.streams.insert streamId (stream.receiveHeaders headers endStream)
            lastStreamId := max conn.lastStreamId streamId })
  | .data streamId endStream data =>
      match conn.streams.lookup streamId with
      | none => .ok (.ok (), conn)
      | some stream =>
          if stream.canReceive then
            .ok (.ok (), { conn with
              streams := conn.streams.insert streamId (stream.receiveData data endStream)
              recvWindow := conn.recvWindow - .ofNat data.length })
          else .ok (.ok (), conn)
  | .windowUpdate streamId increment =>
      if streamId = 0 then .ok (.ok (), { conn with sendWindow := conn.sendWindow + increment.toInt32 })
      else .ok (.ok (), { conn with streams := conn.streams.modify streamId (·.updateSendWindow increment.toInt32) })
  | .ping ack data =>
      if ack then .ok (.ok (), conn) else .ok (.ok (), { conn with outgoing := conn.outgoing ++ [.ping true data] })
  | .goAway _ _ _ => .ok (.ok (), { conn with goingAway := true })
  | .rstStream streamId _ => .ok (.ok (), { conn with streams := conn.streams.modify streamId (·.close) })
  | .priority _ _ _ _ | .pushPromise _ _ _ | .continuation _ _ _ => .ok (.ok (), conn)

def H2Connection.sendHeaders (conn : H2Connection) (streamId : UInt32) (headers : List Header) (endStream : Bool) :
    H2Connection :=
  let (headerBlock, encoder) := conn.hpackEncoder.encode headers
  { conn with
    hpackEncoder := encoder
    outgoing := conn.outgoing ++ [.headers streamId endStream true headerBlock]
    streams := conn.streams.modify streamId fun stream =>
      let stream := { stream with responseHeaders := headers }
      if endStream then stream.halfCloseLocal else stream }

def H2Connection.sendData (conn : H2Connection) (streamId : UInt32) (data : Bytes) (endStream : Bool) : H2Connection :=
  { conn with
    outgoing := conn.outgoing ++ [.data streamId endStream data]
    streams := if endStream then conn.streams.modify streamId (·.halfCloseLocal) else conn.streams }

def H2Connection.takeOutgoing (conn : H2Connection) : List Frame × H2Connection :=
  (conn.outgoing, { conn with outgoing := [] })

def H2Connection.getStream (conn : H2Connection) (streamId : UInt32) : Option Stream := conn.streams.lookup streamId

def H2Connection.activeStreamCount (conn : H2Connection) : Nat :=
  (conn.streams.entries.map fun entry => entry.2).countP fun stream => stream.state ≠ .closed

end Ners.H2
