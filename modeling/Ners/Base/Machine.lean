import Mathlib.Algebra.Ring.Nat
import Mathlib.Data.List.Basic

set_option autoImplicit false

namespace Ners

abbrev Bytes := List UInt8

-- How a call can end other than by returning: it unwinds, or its loop never
-- stops. Results of fallible code are values below this layer.
inductive Fault where
  | panic
  | hang
deriving DecidableEq, Repr

-- usize and u64 are 64 bits wide; a release build keeps the low word of a sum.
def wrap (n : Nat) : Nat := n % 2 ^ 64

theorem wrap_exact (n : Nat) (fits : n < 2 ^ 64) : wrap n = n := Nat.mod_eq_of_lt fits

theorem wrap_lt (n : Nat) : wrap n < 2 ^ 64 := Nat.mod_lt n (by decide)

theorem wrap_carry (a b : Nat) (word : b < 2 ^ 64) (carry : 2 ^ 64 ≤ a + b) : wrap (a + b) < a := by
  have bound := wrap_lt (a + b)
  unfold wrap at *
  omega

theorem byte_value (n : Nat) (small : n < 256) : (UInt8.ofNat n).toNat = n := UInt8.toNat_ofNat_of_lt' small

-- Rust checks both ends of a slice expression; either failing unwinds.
def slice (data : Bytes) (start stop : Nat) : Except Fault Bytes :=
  if start ≤ stop ∧ stop ≤ data.length then .ok ((data.drop start).take (stop - start)) else .error .panic

def sliceFrom (data : Bytes) (start : Nat) : Except Fault Bytes := slice data start data.length

theorem slice_ok (data : Bytes) (start stop : Nat) (ordered : start ≤ stop) (within : stop ≤ data.length) :
    slice data start stop = .ok ((data.drop start).take (stop - start)) := if_pos ⟨ordered, within⟩

theorem slice_panics (data : Bytes) (start stop : Nat) (crossed : stop < start) :
    slice data start stop = .error .panic := if_neg (fun both => by omega)

theorem slice_from_ok (data : Bytes) (start : Nat) (within : start ≤ data.length) :
    sliceFrom data start = .ok (data.drop start) := by
  rw [sliceFrom, slice_ok data start data.length within (Nat.le_refl _)]
  rw [List.take_of_length_le (by simp)]

end Ners
