import Ners.Hpack.Decoder

set_option autoImplicit false

namespace Ners.H2

open Hpack (Header)

inductive StreamState where
  | idle
  | reservedLocal
  | reservedRemote
  | «open»
  | halfClosedLocal
  | halfClosedRemote
  | closed
deriving DecidableEq

-- i32::saturating_add; the other operators on i32 keep the low word in a
-- release build, as Int32 does.
def saturatingAdd (a b : Int32) : Int32 := .ofIntClamp (a.toInt + b.toInt)

structure Stream where
  id : UInt32
  state : StreamState
  requestHeaders : List Header
  responseHeaders : List Header
  requestBody : Bytes
  sendWindow : Int32
  recvWindow : Int32
deriving DecidableEq

def Stream.new (id : UInt32) (initialWindowSize : Int32) : Stream :=
  ⟨id, .idle, [], [], [], initialWindowSize, initialWindowSize⟩

def Stream.open (s : Stream) : Stream := if s.state = .idle then { s with state := .open } else s

def Stream.halfCloseRemote (s : Stream) : Stream :=
  match s.state with
  | .open => { s with state := .halfClosedRemote }
  | .halfClosedLocal => { s with state := .closed }
  | _ => s

def Stream.halfCloseLocal (s : Stream) : Stream :=
  match s.state with
  | .open => { s with state := .halfClosedLocal }
  | .halfClosedRemote => { s with state := .closed }
  | _ => s

def Stream.close (s : Stream) : Stream := { s with state := .closed }

def Stream.canSend (s : Stream) : Bool := s.state = .open ∨ s.state = .halfClosedRemote

def Stream.canReceive (s : Stream) : Bool := s.state = .open ∨ s.state = .halfClosedLocal

def Stream.updateSendWindow (s : Stream) (delta : Int32) : Stream :=
  { s with sendWindow := saturatingAdd s.sendWindow delta }

section

-- What does not read the state of a stream outlasts its changes.
variable {τ : Type} (field : Stream → τ) (stateless : ∀ stream state, field { stream with state := state } = field stream)

include stateless

theorem open_keeps (stream : Stream) : field stream.open = field stream := by
  unfold Stream.open
  split
  · exact stateless stream _
  · rfl

theorem half_close_remote_keeps (stream : Stream) : field stream.halfCloseRemote = field stream := by
  unfold Stream.halfCloseRemote
  split
  · exact stateless stream _
  · exact stateless stream _
  · rfl

theorem half_close_local_keeps (stream : Stream) : field stream.halfCloseLocal = field stream := by
  unfold Stream.halfCloseLocal
  split
  · exact stateless stream _
  · exact stateless stream _
  · rfl

end

end Ners.H2
