import Ners.Base.Machine

set_option autoImplicit false

namespace Ners.Server

inductive IoError where
  | connectionReset
  | writeZero
  | other
deriving DecidableEq

-- What one call of read or write on a socket can come to. A read of no bytes
-- is the end of the stream.
inductive ReadResult where
  | bytes (data : Bytes)
  | wouldBlock
  | error
deriving DecidableEq

inductive WriteResult where
  | accepted (count : Nat)
  | wouldBlock
  | error
deriving DecidableEq

-- The outcomes that a socket has in store for one visit; past the last it blocks.
structure Io where
  reads : List ReadResult
  writes : List WriteResult
deriving DecidableEq

-- The loop of read_all: the buffer it leaves and what it returns.
def readLoop : List ReadResult → Bytes → Nat → Bytes × Except IoError Nat
  | [], buf, totalRead => (buf, .ok totalRead)
  | .wouldBlock :: _, buf, totalRead => (buf, .ok totalRead)
  | .error :: _, buf, _ => (buf, .error .other)
  | .bytes [] :: _, buf, _ => (buf, .error .connectionReset)
  | .bytes (b :: more) :: rest, buf, totalRead =>
      readLoop rest (buf ++ b :: more) (totalRead + (b :: more).length)

def readAll (io : Io) (buf : Bytes) : Bytes × Except IoError Nat := readLoop io.reads buf 0

-- The loop of write_all on the data behind the offset: the count it returns,
-- and how many bytes the socket took in all. A socket takes at most what it is
-- offered.
def writeLoop : List WriteResult → Bytes → Nat → Nat × Except IoError Nat
  | [], _, totalWritten => (totalWritten, .ok totalWritten)
  | .wouldBlock :: _, _, totalWritten => (totalWritten, .ok totalWritten)
  | .error :: _, _, totalWritten => (totalWritten, .error .other)
  | .accepted 0 :: _, _, totalWritten => (totalWritten, .error .writeZero)
  | .accepted (n + 1) :: rest, data, totalWritten =>
      let totalWritten := totalWritten + min (n + 1) (data.length - totalWritten)
      if data.length ≤ totalWritten then (totalWritten, .ok totalWritten) else writeLoop rest data totalWritten

def writeAll (io : Io) (buf : Bytes) (offset : Nat) : Except Fault (Bytes × Except IoError Nat) :=
  match sliceFrom buf offset with
  | .error fault => .error fault
  | .ok data =>
      if data = [] then .ok ([], .ok 0)
      else
        let written := writeLoop io.writes data 0
        .ok (data.take written.1, written.2)

-- The bytes that a visit reads, whatever is in the buffer already.
def bytesRead (io : Io) : Bytes := (readAll io []).1

theorem write_all_ok (io : Io) (buf : Bytes) (offset : Nat) (within : offset ≤ buf.length) :
    ∃ count result, writeAll io buf offset = .ok ((buf.drop offset).take count, result) := by
  rw [writeAll, slice_from_ok buf offset within]
  by_cases empty : buf.drop offset = []
  · simp only [empty, if_true]
    exact ⟨0, .ok 0, rfl⟩
  · simp only [if_neg empty]
    exact ⟨_, _, rfl⟩

end Ners.Server
