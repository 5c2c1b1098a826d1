import Mathlib.Data.UInt

/-!
# Moving units between two 32-bit counters

Two counters of machine words exchange an amount: one is lowered, the other raised, both modulo
2^32. The lemmas say exactly when the exchange keeps the sum of the two as numbers.
-/

namespace TwowCore.Lib

/-- Lowering one counter and raising another keeps the sum exactly when either both or none of
them wraps around. -/
theorem transfer_exact_iff (source dest amount : UInt32) :
    (dest + amount).toNat + (source - amount).toNat = dest.toNat + source.toNat ↔
      (amount ≤ source ↔ dest.toNat + amount.toNat < 2 ^ 32) := by
  have hs := source.toNat_lt
  have hd := dest.toNat_lt
  have ha := amount.toNat_lt
  rw [UInt32.toNat_add, UInt32.toNat_sub, UInt32.le_iff_toNat_le]
  omega

/-- Taking an amount out of a counter keeps the sum exactly when the counter has it. -/
theorem take_exact_iff (source amount : UInt32) :
    amount.toNat + (source - amount).toNat = source.toNat ↔ amount ≤ source := by
  have hs := source.toNat_lt
  have ha := amount.toNat_lt
  rw [UInt32.toNat_sub, UInt32.le_iff_toNat_le]
  omega

/-- Adding two counters keeps the sum exactly when it fits a word. -/
theorem add_exact_iff (left right : UInt32) :
    (left + right).toNat = left.toNat + right.toNat ↔ left.toNat + right.toNat < 2 ^ 32 := by
  have hl := left.toNat_lt
  have hr := right.toNat_lt
  rw [UInt32.toNat_add]
  omega

end TwowCore.Lib
