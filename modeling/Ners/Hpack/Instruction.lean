import Ners.Base.PrefixInteger
import Ners.Hpack.Decoder

set_option autoImplicit false

namespace Ners.Hpack

open PrefixInteger (code)
open Utf8 (asBytes)

-- The representations of a header block, with every string literal raw.
inductive Indexing where
  | incremental
  | without
  | never
deriving DecidableEq

inductive FieldName where
  | index (i : Nat)
  | text (name : String)
deriving DecidableEq

inductive Instruction where
  | indexed (i : Nat)
  | literal (mode : Indexing) (name : FieldName) (value : String)
  | sizeUpdate (newSize : Nat)
deriving DecidableEq

def Indexing.pfx : Indexing → Nat
  | .incremental => 6
  | .without | .never => 4

def Indexing.bits : Indexing → Nat
  | .incremental => 0x40
  | .without => 0x00
  | .never => 0x10

def writeString (s : String) : Bytes := code 7 0 (asBytes s).length ++ asBytes s

def writeName (mode : Indexing) : FieldName → Bytes
  | .index i => code mode.pfx mode.bits i
  | .text name => code mode.pfx mode.bits 0 ++ writeString name

def Instruction.write : Instruction → Bytes
  | .indexed i => code 7 0x80 i
  | .literal mode name value => writeName mode name ++ writeString value
  | .sizeUpdate newSize => code 5 0x20 newSize

def writeBlock (instructions : List Instruction) : Bytes := instructions.flatMap Instruction.write

-- Integers and string lengths are below 2 ^ 63, and index 0 is left to mark a
-- name that is spelled out.
def FieldName.Writable : FieldName → Prop
  | .index i => 1 ≤ i ∧ i < 2 ^ 63
  | .text name => (asBytes name).length < 2 ^ 63

def Instruction.Writable : Instruction → Prop
  | .indexed i => i < 2 ^ 63
  | .literal _ name value => name.Writable ∧ (asBytes value).length < 2 ^ 63
  | .sizeUpdate newSize => newSize < 2 ^ 63

instance (name : FieldName) : Decidable name.Writable :=
  match name with
  | .index i => inferInstanceAs (Decidable (1 ≤ i ∧ i < 2 ^ 63))
  | .text name => inferInstanceAs (Decidable ((asBytes name).length < 2 ^ 63))

instance (instruction : Instruction) : Decidable instruction.Writable :=
  match instruction with
  | .indexed i => inferInstanceAs (Decidable (i < 2 ^ 63))
  | .literal _ name value => inferInstanceAs (Decidable (name.Writable ∧ (asBytes value).length < 2 ^ 63))
  | .sizeUpdate newSize => inferInstanceAs (Decidable (newSize < 2 ^ 63))

-- The reference table: entries newest first behind the static ones, evicted
-- from the old end to a total of at most `limit`.
structure ReferenceTable where
  entries : List Header
  limit : Nat
deriving DecidableEq

def headerSize (header : Header) : Nat := 32 + (asBytes header.1).length + (asBytes header.2).length

def ReferenceTable.lookup (t : ReferenceTable) (i : Nat) : Option Header :=
  if i = 0 then none
  else if i ≤ 61 then staticTable[i - 1]?
  else t.entries[i - 62]?

def ReferenceTable.insert (t : ReferenceTable) (header : Header) : ReferenceTable :=
  { t with entries := Eviction.fit headerSize t.limit (header :: t.entries) }

def ReferenceTable.setLimit (t : ReferenceTable) (limit : Nat) : ReferenceTable :=
  ⟨Eviction.fit headerSize limit t.entries, limit⟩

-- A name reference is read from the table before the insertion evicts.
def ReferenceTable.resolve (t : ReferenceTable) : FieldName → Option String
  | .index i => (t.lookup i).map Prod.fst
  | .text name => some name

def ReferenceTable.step (t : ReferenceTable) : Instruction → Option (Option Header × ReferenceTable)
  | .indexed i => (t.lookup i).map fun header => (some header, t)
  | .literal mode name value =>
      (t.resolve name).map fun name =>
        (some (name, value), if mode = .incremental then t.insert (name, value) else t)
  | .sizeUpdate newSize => some (none, t.setLimit newSize)

-- Headers of the whole block, or none from the first instruction that refers
-- to no entry; the table is the one that instruction met.
def ReferenceTable.run (t : ReferenceTable) : List Instruction → Option (List Header) × ReferenceTable
  | [] => (some [], t)
  | instruction :: later =>
      match t.step instruction with
      | none => (none, t)
      | some (header, next) => ((next.run later).1.map (header.toList ++ ·), (next.run later).2)

end Ners.Hpack
