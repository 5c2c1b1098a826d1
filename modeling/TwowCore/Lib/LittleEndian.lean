import Mathlib

/-!
# Little-endian numbers

The bytes of a number, lowest first, in a given width.
-/

namespace TwowCore.Lib

/-- The lowest `width` bytes of `n`. -/
def littleEndian : ℕ → ℕ → List UInt8
  | 0, _ => []
  | width + 1, n => UInt8.ofNat (n % 256) :: littleEndian width (n / 256)

/-- The number that bytes stand for. -/
def ofLittleEndian : List UInt8 → ℕ
  | [] => 0
  | byte :: rest => byte.toNat + 256 * ofLittleEndian rest

@[simp]
theorem length_littleEndian (width n : ℕ) : (littleEndian width n).length = width := by
  induction width generalizing n with
  | zero => rfl
  | succ width ih => simp only [littleEndian, List.length_cons, ih]

/-- A number that fits is read back. -/
theorem ofLittleEndian_littleEndian {width n : ℕ} (h : n < 256 ^ width) :
    ofLittleEndian (littleEndian width n) = n := by
  induction width generalizing n with
  | zero =>
      rw [pow_zero] at h
      show 0 = n
      omega
  | succ width ih =>
      rw [pow_succ] at h
      have hbyte : (UInt8.ofNat (n % 256)).toNat = n % 256 := by
        rw [UInt8.toNat_ofNat']
        omega
      show (UInt8.ofNat (n % 256)).toNat + 256 * ofLittleEndian (littleEndian width (n / 256)) = n
      rw [ih (by omega), hbyte]
      omega

end TwowCore.Lib
