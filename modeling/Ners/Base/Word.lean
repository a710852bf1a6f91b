import Ners.Base.Machine

set_option autoImplicit false

namespace Ners

-- u16::from_be_bytes and BufMut::put_u16, then the same for u32.
def u16FromBe (a b : UInt8) : UInt16 := .ofNat (a.toNat * 2 ^ 8 + b.toNat)

def putU16 (v : UInt16) : Bytes := [.ofNat (v.toNat / 2 ^ 8), .ofNat v.toNat]

def u32FromBe (a b c d : UInt8) : UInt32 := .ofNat (a.toNat * 2 ^ 24 + b.toNat * 2 ^ 16 + c.toNat * 2 ^ 8 + d.toNat)

def putU32 (v : UInt32) : Bytes :=
  [.ofNat (v.toNat / 2 ^ 24), .ofNat (v.toNat / 2 ^ 16), .ofNat (v.toNat / 2 ^ 8), .ofNat v.toNat]

theorem byte_low (n : Nat) : (UInt8.ofNat n).toNat = n % 256 := UInt8.toNat_ofNat

theorem u16_from_put (v : UInt16) : u16FromBe (.ofNat (v.toNat / 2 ^ 8)) (.ofNat v.toNat) = v := by
  have bound := v.toNat_lt
  apply UInt16.toNat_inj.mp
  rw [u16FromBe, byte_low, byte_low, UInt16.toNat_ofNat_of_lt' (by show _ < 65536; omega)]
  omega

theorem u32_value (a b c d : UInt8) :
    (u32FromBe a b c d).toNat = a.toNat * 2 ^ 24 + b.toNat * 2 ^ 16 + c.toNat * 2 ^ 8 + d.toNat := by
  have bounds := And.intro (And.intro a.toNat_lt b.toNat_lt) (And.intro c.toNat_lt d.toNat_lt)
  exact UInt32.toNat_ofNat_of_lt' (by show _ < 4294967296; omega)

theorem u32_from_put (v : UInt32) :
    u32FromBe (.ofNat (v.toNat / 2 ^ 24)) (.ofNat (v.toNat / 2 ^ 16)) (.ofNat (v.toNat / 2 ^ 8)) (.ofNat v.toNat) = v := by
  have bound := v.toNat_lt
  apply UInt32.toNat_inj.mp
  rw [u32_value, byte_low, byte_low, byte_low, byte_low]
  omega

theorem low_seven_bits (b : UInt8) : (b &&& 0x7f).toNat = b.toNat % 128 := Nat.and_two_pow_sub_one_eq_mod b.toNat 7

theorem top_bit (b : UInt8) : b &&& 0x80 ≠ 0 ↔ 128 ≤ b.toNat := by
  have all : ∀ m : Fin 256, UInt8.ofFin m &&& 0x80 ≠ 0 ↔ 128 ≤ (UInt8.ofFin m).toNat := by decide +kernel
  exact all b.toFin

theorem u32_from_masked (a b c d : UInt8) :
    (u32FromBe (a &&& 0x7f) b c d).toNat = (u32FromBe a b c d).toNat % 2 ^ 31 := by
  have bounds := And.intro (And.intro a.toNat_lt b.toNat_lt) (And.intro c.toNat_lt d.toNat_lt)
  rw [u32_value, u32_value, low_seven_bits]
  omega

theorem low_bits_value (v : UInt32) : (v &&& 0x7fffffff).toNat = v.toNat % 2 ^ 31 := Nat.and_two_pow_sub_one_eq_mod v.toNat 31

theorem low_bits_same (v : UInt32) (small : v.toNat < 2 ^ 31) : v &&& 0x7fffffff = v := by
  apply UInt32.toNat_inj.mp
  rw [low_bits_value, Nat.mod_eq_of_lt small]

theorem high_bit_value (v : UInt32) (small : v.toNat < 2 ^ 31) : (v ||| 0x80000000).toNat = 2 ^ 31 + v.toNat := by
  rw [UInt32.toNat_or, Nat.or_comm]
  exact (Nat.two_pow_add_eq_or_of_lt small 1).symm

end Ners
