import Mathlib.Algebra.Ring.Int.Defs
import Mathlib.Algebra.Ring.Nat

set_option autoImplicit false

namespace Ners.Signed

-- The range of an i32.
def Fits32 (n : Int) : Prop := -2 ^ 31 ≤ n ∧ n < 2 ^ 31

instance (n : Int) : Decidable (Fits32 n) := inferInstanceAs (Decidable (-2 ^ 31 ≤ n ∧ n < 2 ^ 31))

theorem to_int_fits (a : Int32) : Fits32 a.toInt := ⟨a.le_toInt, a.toInt_lt⟩

theorem bmod_exact (n : Int) (fits : Fits32 n) : n.bmod (2 ^ 32) = n := by
  obtain ⟨low, high⟩ := fits
  exact Int.bmod_eq_of_le (by omega) (by omega)

theorem add_exact_iff (a b : Int32) : (a + b).toInt = a.toInt + b.toInt ↔ Fits32 (a.toInt + b.toInt) := by
  constructor
  · intro exact_
    rw [← exact_]
    exact to_int_fits _
  · intro fits
    rw [Int32.toInt_add, bmod_exact _ fits]

theorem sub_exact_iff (a b : Int32) : (a - b).toInt = a.toInt - b.toInt ↔ Fits32 (a.toInt - b.toInt) := by
  constructor
  · intro exact_
    rw [← exact_]
    exact to_int_fits _
  · intro fits
    rw [Int32.toInt_sub, bmod_exact _ fits]

theorem clamp_exact_iff (n : Int) : (Int32.ofIntClamp n).toInt = n ↔ Fits32 n := by
  constructor
  · intro exact_
    rw [← exact_]
    exact to_int_fits _
  · rintro ⟨low, high⟩
    exact Int32.toInt_ofIntClamp low (Int.le_of_lt_add_one high)

theorem cast_bmod (x : UInt32) : x.toInt32.toInt = (x.toNat : Int).bmod (2 ^ 32) := BitVec.toInt_eq_toNat_bmod x.toBitVec

theorem cast_exact_iff (x : UInt32) : x.toInt32.toInt = x.toNat ↔ x.toNat < 2 ^ 31 := by
  constructor
  · intro exact_
    have fits := (to_int_fits x.toInt32).2
    omega
  · intro small
    rw [cast_bmod, bmod_exact]
    constructor <;> omega

theorem cast_injective (x y : UInt32) (same : x.toInt32.toInt = y.toInt32.toInt) : x = y :=
  UInt32.toBitVec_inj.mp (BitVec.eq_of_toInt_eq same)

theorem cast_agrees_iff (x y : UInt32) (small : y.toNat < 2 ^ 31) : x.toInt32.toInt = y.toNat ↔ y = x := by
  rw [← (cast_exact_iff y).mpr small]
  constructor
  · intro same
    exact (cast_injective x y same).symm
  · intro same
    rw [same]

theorem length_exact (n : Nat) (small : n < 2 ^ 31) : (Int32.ofNat n).toInt = n := Int32.toInt_ofNat_of_lt small

theorem take_length_exact (w : Int32) (n : Nat) (room : n ≤ w.toInt) : (w - .ofNat n).toInt = w.toInt - n := by
  have high := w.toInt_lt
  have length := length_exact n (by omega)
  rw [(sub_exact_iff w _).mpr, length]
  rw [length]
  constructor <;> omega

theorem difference_exact (a b : UInt32) (fits : Fits32 (a.toNat - b.toNat)) :
    (a.toInt32 - b.toInt32).toInt = a.toNat - b.toNat := by
  rw [Int32.toInt_sub, cast_bmod, cast_bmod, Int.bmod_sub_bmod, Int.sub_bmod_bmod, bmod_exact _ fits]

-- Sums with a u32 on the right and no negative number on the left.
theorem increment_cast (w : Int32) (n : UInt32) (here : 0 ≤ w.toInt) (room : w.toInt + n.toNat < 2 ^ 31) :
    n.toInt32.toInt = n.toNat ∧ Fits32 (w.toInt + n.toNat) :=
  ⟨(cast_exact_iff n).mpr (by omega), by omega, room⟩

theorem add_increment_iff (w : Int32) (n : UInt32) (here : 0 ≤ w.toInt) :
    (w + n.toInt32).toInt = w.toInt + n.toNat ↔ w.toInt + n.toNat < 2 ^ 31 := by
  constructor
  · intro exact_
    rw [← exact_]
    exact Int32.toInt_lt _
  · intro room
    obtain ⟨cast, fits⟩ := increment_cast w n here room
    rw [(add_exact_iff w n.toInt32).mpr (cast ▸ fits), cast]

theorem clamp_increment_iff (w : Int32) (n : UInt32) (here : 0 ≤ w.toInt) :
    (Int32.ofIntClamp (w.toInt + n.toInt32.toInt)).toInt = w.toInt + n.toNat ↔ w.toInt + n.toNat < 2 ^ 31 := by
  constructor
  · intro exact_
    rw [← exact_]
    exact Int32.toInt_lt _
  · intro room
    obtain ⟨cast, fits⟩ := increment_cast w n here room
    rw [(clamp_exact_iff _).mpr (cast ▸ fits), cast]

end Ners.Signed
