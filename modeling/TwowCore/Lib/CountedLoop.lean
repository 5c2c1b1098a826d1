import Mathlib

/-!
# Loops on a 16-bit counter

A loop up to a bound, with fuel. It ends when the counter can reach the bound; it never does when the bound
lies behind the largest value of the counter.
-/

namespace TwowCore.Lib

/-- `for (uint16 i = …; i < bound; ++i)`. -/
def forUInt16 {σ : Type} (bound : ℕ) (body : UInt16 → σ → Option σ) : ℕ → UInt16 → σ → Option σ
  | 0, _, _ => none
  | fuel + 1, i, s =>
      if i.toNat < bound then do
        let s ← body i s
        forUInt16 bound body fuel (i + 1) s
      else some s

variable {σ : Type} {bound : ℕ} {body : UInt16 → σ → Option σ}

/-- What holds before a turn and after it holds behind the loop. -/
theorem forUInt16_spec (body : UInt16 → σ → Option σ) (P : ℕ → σ → Prop) (hbound : bound < 2 ^ 16)
    (hbody : ∀ i s, i.toNat < bound → P i.toNat s → ∃ s', body i s = some s' ∧ P (i.toNat + 1) s')
    {fuel : ℕ} {i : UInt16} {s : σ} (hi : i.toNat ≤ bound) (hfuel : bound - i.toNat < fuel)
    (hP : P i.toNat s) : ∃ s', forUInt16 bound body fuel i s = some s' ∧ P bound s' := by
  induction fuel generalizing i s with
  | zero => exact absurd hfuel (Nat.not_lt_zero _)
  | succ fuel ih =>
      unfold forUInt16
      by_cases hlt : i.toNat < bound
      · obtain ⟨s₁, hstep, hP₁⟩ := hbody i s hlt hP
        have hnext : (i + 1).toNat = i.toNat + 1 := by
          rw [UInt16.toNat_add]
          exact Nat.mod_eq_of_lt (by rw [UInt16.toNat_one]; omega)
        obtain ⟨s₂, hrest, hP₂⟩ := ih (i := i + 1) (by omega) (by omega) (hnext ▸ hP₁)
        refine ⟨s₂, ?_, hP₂⟩
        rw [if_pos hlt, hstep]
        exact hrest
      · have hend : i.toNat = bound := by omega
        rw [if_neg hlt]
        exact ⟨s, rfl, hend ▸ hP⟩

/-- A loop whose turns never fail is a fold over the counters. -/
theorem forUInt16_foldl (turn : σ → ℕ → σ) (hbound : bound < 2 ^ 16) {fuel : ℕ} {i : UInt16} (s : σ)
    (hfuel : bound - i.toNat < fuel) :
    forUInt16 bound (fun i s => some (turn s i.toNat)) fuel i s =
      some ((List.range' i.toNat (bound - i.toNat)).foldl turn s) := by
  induction fuel generalizing i s with
  | zero => exact absurd hfuel (Nat.not_lt_zero _)
  | succ fuel ih =>
      unfold forUInt16
      by_cases hlt : i.toNat < bound
      · have hnext : (i + 1).toNat = i.toNat + 1 := by
          rw [UInt16.toNat_add]
          exact Nat.mod_eq_of_lt (by rw [UInt16.toNat_one]; omega)
        obtain ⟨left, hleft⟩ : ∃ left, bound - i.toNat = left + 1 := ⟨bound - i.toNat - 1, by omega⟩
        have hrest : bound - (i + 1).toNat = left := by omega
        rw [if_pos hlt, hleft, List.range'_succ, List.foldl_cons]
        refine (ih (turn s i.toNat) (by omega)).trans ?_
        rw [hrest, hnext]
      · have hend : bound - i.toNat = 0 := by omega
        rw [if_neg hlt, hend]
        rfl

/-- What every turn keeps is kept by a loop that ends. -/
theorem forUInt16_keeps (P : σ → Prop) (hbody : ∀ i s s', body i s = some s' → P s → P s')
    {fuel : ℕ} {i : UInt16} {s s' : σ} (h : forUInt16 bound body fuel i s = some s') (hP : P s) :
    P s' := by
  induction fuel generalizing i s with
  | zero => cases h
  | succ fuel ih =>
      unfold forUInt16 at h
      split_ifs at h
      · obtain ⟨s₁, hstep, hrest⟩ := Option.bind_eq_some_iff.mp h
        exact ih hrest (hbody i s s₁ hstep hP)
      · cases h
        exact hP

/-- Every counter is below the bound. -/
theorem forUInt16_endless (hbound : 2 ^ 16 ≤ bound) (fuel : ℕ) (i : UInt16) (s : σ) :
    forUInt16 bound body fuel i s = none := by
  induction fuel generalizing i s with
  | zero => rfl
  | succ fuel ih =>
      have hlt : i.toNat < bound := Nat.lt_of_lt_of_le i.toNat_lt hbound
      unfold forUInt16
      rw [if_pos hlt]
      cases hstep : body i s with
      | none => rfl
      | some s₁ => exact ih (i + 1) s₁

end TwowCore.Lib
