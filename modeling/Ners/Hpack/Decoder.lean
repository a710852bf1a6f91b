import Ners.Hpack.Integer
import Ners.Hpack.Table

set_option autoImplicit false

namespace Ners.Hpack

open Utf8 (fromUtf8Lossy)

abbrev Header := String × String

-- A call that returns Result<α, String> unless it faults.
abbrev Outcome (α : Type) := Except Fault (Except String α)

structure HpackDecoder extends HpackTable
deriving DecidableEq

def HpackDecoder.new (maxSize : Nat) : HpackDecoder := ⟨.new maxSize⟩

def HpackDecoder.addEntry (d : HpackDecoder) (name value : String) : HpackDecoder := ⟨d.toHpackTable.addEntry name value⟩

def HpackDecoder.resize (d : HpackDecoder) (newSize : Nat) : HpackDecoder := ⟨d.toHpackTable.resize newSize⟩

-- An index expression on a slice or a deque unwinds when it is out of range.
def tableIndex {α : Type} (rows : List α) (i : Nat) : Except Fault α :=
  match rows[i]? with
  | some row => .ok row
  | none => .error .panic

def HpackDecoder.getIndexed (d : HpackDecoder) (index : Nat) : Outcome Header :=
  if index = 0 then .ok (.error "Invalid index 0")
  else if index ≤ staticTable.length then
    match tableIndex staticTable (index - 1) with
    | .error fault => .error fault
    | .ok field => .ok (.ok field)
  else
    let dynIndex := index - staticTable.length - 1
    if d.dynamicTable.length ≤ dynIndex then .ok (.error ("Invalid dynamic index " ++ toString dynIndex))
    else
      match tableIndex d.dynamicTable dynIndex with
      | .error fault => .error fault
      | .ok entry => .ok (.ok (entry.name, entry.value))

-- The sum of the position and the announced length wraps before it is compared.
-- Both arms of the Huffman flag read the raw bytes.
def decodeString (data : Bytes) : Outcome (String × Nat) :=
  match data with
  | [] => .ok (.error "Empty string data")
  | first :: _ =>
      let huffman := first.toNat &&& 0x80 ≠ 0
      match decodeInteger data 7 with
      | .error e => .ok (.error e)
      | .ok (len, pos) =>
          let stop := wrap (pos + len)
          if data.length < stop then .ok (.error "String too long")
          else
            match slice data pos stop with
            | .error fault => .error fault
            | .ok bytes =>
                let s := if huffman then fromUtf8Lossy bytes else fromUtf8Lossy bytes
                .ok (.ok (s, stop))

-- decode_string(&data[pos..]) followed by `pos += consumed`.
def readString (data : Bytes) (pos : Nat) : Outcome (String × Nat) :=
  match sliceFrom data pos with
  | .error fault => .error fault
  | .ok rest =>
      match decodeString rest with
      | .error fault => .error fault
      | .ok (.error e) => .ok (.error e)
      | .ok (.ok (s, consumed)) => .ok (.ok (s, pos + consumed))

def HpackDecoder.literalName (d : HpackDecoder) (data : Bytes) (nameIndex pos : Nat) : Outcome (String × Nat) :=
  if nameIndex = 0 then readString data pos
  else
    match d.getIndexed nameIndex with
    | .error fault => .error fault
    | .ok (.error e) => .ok (.error e)
    | .ok (.ok field) => .ok (.ok (field.1, pos))

def HpackDecoder.decodeLiteral (d : HpackDecoder) (data : Bytes) (pfx : Nat) (index : Bool) :
    Except Fault (Except String (Header × Nat) × HpackDecoder) :=
  match decodeInteger data pfx with
  | .error e => .ok (.error e, d)
  | .ok (nameIndex, pos) =>
      match d.literalName data nameIndex pos with
      | .error fault => .error fault
      | .ok (.error e) => .ok (.error e, d)
      | .ok (.ok (name, pos)) =>
          match readString data pos with
          | .error fault => .error fault
          | .ok (.error e) => .ok (.error e, d)
          | .ok (.ok (value, pos)) =>
              .ok (.ok ((name, value), pos), if index then d.addEntry name value else d)

-- What one turn of the loop in decode adds to `headers` and to `pos`.
def pushed : Except String (Header × Nat) → Except String (Option Header × Nat)
  | .error e => .error e
  | .ok (header, consumed) => .ok (some header, consumed)

-- The body of the loop in decode; `data` is &data[pos..] there and `first` its first byte.
def HpackDecoder.decodeField (d : HpackDecoder) (first : UInt8) (data : Bytes) :
    Except Fault (Except String (Option Header × Nat) × HpackDecoder) :=
  if first.toNat &&& 0x80 ≠ 0 then
    match decodeInteger data 7 with
    | .error e => .ok (.error e, d)
    | .ok (index, consumed) =>
        match d.getIndexed index with
        | .error fault => .error fault
        | .ok (.error e) => .ok (.error e, d)
        | .ok (.ok header) => .ok (.ok (some header, consumed), d)
  else if first.toNat &&& 0x40 ≠ 0 then
    match d.decodeLiteral data 6 true with
    | .error fault => .error fault
    | .ok (result, d) => .ok (pushed result, d)
  else if first.toNat &&& 0x20 ≠ 0 then
    match decodeInteger data 5 with
    | .error e => .ok (.error e, d)
    | .ok (newSize, consumed) => .ok (.ok (none, consumed), d.resize newSize)
  else
    let pfx := if first.toNat &&& 0x10 ≠ 0 then 4 else 4
    match d.decodeLiteral data pfx false with
    | .error fault => .error fault
    | .ok (result, d) => .ok (pushed result, d)

-- `while pos < data.len()`, carrying &data[pos..]. Every turn takes a byte, so
-- the length of the block bounds the number of turns.
def decodeLoop : Nat → HpackDecoder → Bytes → List Header → Except Fault (Except String (List Header) × HpackDecoder)
  | _, d, [], headers => .ok (.ok headers, d)
  | 0, _, _ :: _, _ => .error .hang
  | fuel + 1, d, first :: rest, headers =>
      match d.decodeField first (first :: rest) with
      | .error fault => .error fault
      | .ok (.error e, d) => .ok (.error e, d)
      | .ok (.ok (header, consumed), d) =>
          decodeLoop fuel d ((first :: rest).drop consumed) (headers ++ header.toList)

def HpackDecoder.decode (d : HpackDecoder) (data : Bytes) : Except Fault (Except String (List Header) × HpackDecoder) :=
  decodeLoop data.length d data []

end Ners.Hpack
