import Mathlib

/-!
# The next number that is free

A counter that goes on while the number it stands at is taken stops at the first free one, and it
needs no more steps than there are numbers taken.
-/

namespace TwowCore.Lib

/-- The first number from `next` on that is not taken, in at most so many steps. -/
def nextFree (ids : List ℕ) : ℕ → ℕ → ℕ
  | 0, next => next
  | steps + 1, next => if next ∈ ids then nextFree ids steps (next + 1) else next

/-- A free number is where the counter stops. -/
theorem nextFree_of_notMem {ids : List ℕ} {next : ℕ} (h : next ∉ ids) (steps : ℕ) :
    nextFree ids steps next = next := by
  cases steps with
  | zero => rfl
  | succ steps => exact if_neg h

/-- The counter does not go back. -/
theorem le_nextFree (ids : List ℕ) (steps next : ℕ) : next ≤ nextFree ids steps next := by
  induction steps generalizing next with
  | zero => exact Nat.le_refl next
  | succ steps ih =>
      unfold nextFree
      split
      · exact Nat.le_of_succ_le (ih (next + 1))
      · exact Nat.le_refl next

/-- What the counter passes is taken. -/
theorem mem_of_lt_nextFree {ids : List ℕ} {steps next n : ℕ} (hle : next ≤ n)
    (hlt : n < nextFree ids steps next) : n ∈ ids := by
  induction steps generalizing next with
  | zero => exact absurd hlt (Nat.not_lt.mpr hle)
  | succ steps ih =>
      unfold nextFree at hlt
      split at hlt
      · next hmem =>
        rcases Nat.eq_or_lt_of_le hle with rfl | hless
        · exact hmem
        · exact ih hless hlt
      · exact absurd hlt (Nat.not_lt.mpr hle)

/-- The counter stops at a free number, or it has made all its steps. -/
theorem nextFree_notMem_or {ids : List ℕ} (steps next : ℕ) :
    nextFree ids steps next ∉ ids ∨ nextFree ids steps next = next + steps := by
  induction steps generalizing next with
  | zero => exact Or.inr rfl
  | succ steps ih =>
      unfold nextFree
      split
      · refine (ih (next + 1)).imp_right fun heq => ?_
        rw [heq]
        omega
      · next hfree => exact Or.inl hfree

/-- With a step for each number that is taken the counter stops at a free number. -/
theorem nextFree_notMem (ids : List ℕ) (next : ℕ) : nextFree ids ids.length next ∉ ids := by
  intro hmem
  have hall := (nextFree_notMem_or ids.length next).resolve_left (not_not.mpr hmem)
  -- all numbers up to the last one are taken, and these are too many
  have hsub : Finset.Icc next (next + ids.length) ⊆ ids.toFinset := by
    intro n hn
    rw [Finset.mem_Icc] at hn
    rw [List.mem_toFinset]
    rcases Nat.eq_or_lt_of_le hn.2 with rfl | hless
    · exact hall ▸ hmem
    · exact mem_of_lt_nextFree hn.1 (hall ▸ hless)
  have hcard := Finset.card_le_card hsub
  have hle := ids.toFinset_card_le
  rw [Nat.card_Icc] at hcard
  omega

end TwowCore.Lib
