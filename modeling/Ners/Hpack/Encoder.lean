import Ners.Hpack.Integer
import Ners.Hpack.Table

set_option autoImplicit false

namespace Ners.Hpack

open Utf8 (asBytes)

structure HpackEncoder extends HpackTable
deriving DecidableEq

def HpackEncoder.new (maxSize : Nat) : HpackEncoder := ⟨.new maxSize⟩

def HpackEncoder.addEntry (e : HpackEncoder) (name value : String) : HpackEncoder := ⟨e.toHpackTable.addEntry name value⟩

-- STATIC_TABLE.iter().enumerate() from position i on: the first entry with the
-- name decides, whether or not a later one has the value too.
def findStaticFrom (name value : String) : List (String × String) → Nat → Option (Nat × Bool)
  | [], _ => none
  | (n, v) :: rest, i =>
      if n = name then
        if v = value then some (i + 1, true) else some (i + 1, false)
      else findStaticFrom name value rest (i + 1)

def findStatic (name value : String) : Option (Nat × Bool) := findStaticFrom name value staticTable 0

def encodeString (s : String) : Bytes := encodeInteger (asBytes s).length 7 0 ++ asBytes s

-- The body of the loop in encode: the bytes it appends and the encoder after it.
def HpackEncoder.encodeHeader (e : HpackEncoder) (name value : String) : Bytes × HpackEncoder :=
  match findStatic name value with
  | some (index, hasValue) =>
      if hasValue then (encodeInteger index 7 0x80, e)
      else (encodeInteger index 6 0x40 ++ encodeString value, e.addEntry name value)
  | none => ([0x40] ++ encodeString name ++ encodeString value, e.addEntry name value)

def HpackEncoder.encode (e : HpackEncoder) : List (String × String) → Bytes × HpackEncoder
  | [] => ([], e)
  | (name, value) :: rest =>
      let written := e.encodeHeader name value
      let later := written.2.encode rest
      (written.1 ++ later.1, later.2)

theorem find_static_found (name value : String) (rows : List (String × String)) (i index : Nat) (hasValue : Bool)
    (found : findStaticFrom name value rows i = some (index, hasValue)) :
    i + 1 ≤ index ∧ ∃ v, rows[index - (i + 1)]? = some (name, v) ∧ (hasValue = true → v = value) := by
  induction rows generalizing i with
  | nil => simp [findStaticFrom] at found
  | cons row rest ih =>
      obtain ⟨n, v⟩ := row
      by_cases same : n = name
      · subst n
        by_cases whole : v = value
        · simp only [findStaticFrom, if_true, if_pos whole, Option.some.injEq, Prod.mk.injEq] at found
          obtain ⟨rfl, rfl⟩ := found
          exact ⟨Nat.le_refl _, v, by simp, fun _ => whole⟩
        · simp only [findStaticFrom, if_true, if_neg whole, Option.some.injEq, Prod.mk.injEq] at found
          obtain ⟨rfl, rfl⟩ := found
          exact ⟨Nat.le_refl _, v, by simp, fun impossible => by cases impossible⟩
      · simp only [findStaticFrom, if_neg same] at found
        obtain ⟨later, v', access, agrees⟩ := ih (i + 1) found
        refine ⟨by omega, v', ?_, agrees⟩
        rw [show index - (i + 1) = index - (i + 1 + 1) + 1 by omega, List.getElem?_cons_succ]
        exact access

end Ners.Hpack
