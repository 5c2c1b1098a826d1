import Mathlib

/-!
# Merge joins

Rows that are sorted by a key are read by loops that share one cursor. Each loop has a key of its own: it
passes over the rows with a smaller key, takes those with its key and stops before the first with a
greater one.
-/

namespace TwowCore.Lib

variable {ρ σ : Type*} (key : ρ → ℕ) (body : σ → ρ → σ)

/-- The loop for a key: what it has made of its rows, the smaller keys it has passed, and the rows that
are left. -/
def takeOwn (k : ℕ) : List ρ → σ → List ℕ → σ × List ℕ × List ρ
  | [], s, passed => (s, passed, [])
  | row :: rest, s, passed =>
      if key row < k then takeOwn k rest s (passed ++ [key row])
      else if k < key row then (s, passed, row :: rest)
      else takeOwn k rest (body s row) passed

variable {key}

/-- In sorted rows the loop takes the rows of its key, in their order, and no others. -/
theorem takeOwn_eq {k : ℕ} {rows : List ρ} (h : rows.Pairwise fun a b => key a ≤ key b) (s : σ)
    (passed : List ℕ) :
    takeOwn key body k rows s passed =
      ((rows.filter fun row => key row = k).foldl body s,
        passed ++ (rows.filter fun row => key row < k).map key,
        rows.filter fun row => k < key row) := by
  induction rows generalizing s passed with
  | nil => exact Prod.ext rfl (Prod.ext (List.append_nil _).symm rfl)
  | cons row rest ih =>
      obtain ⟨hrow, hrest⟩ := List.pairwise_cons.mp h
      unfold takeOwn
      by_cases hsmall : key row < k
      · rw [if_pos hsmall, ih hrest, List.filter_cons_of_neg (by simpa using by omega),
          List.filter_cons_of_pos (by simpa using hsmall),
          List.filter_cons_of_neg (by simpa using by omega), List.map_cons, List.append_assoc]
        rfl
      · by_cases hgreat : k < key row
        · -- Everything that follows has a greater key too.
          have hnone : ∀ p : ρ → Bool, (∀ r, p r = true → key r ≤ k) →
              (row :: rest).filter p = [] := by
            intro p hp
            rw [List.filter_eq_nil_iff]
            intro r hr htrue
            have hle := hp r htrue
            rcases List.mem_cons.mp hr with rfl | hr
            · omega
            · have hrow' := hrow r hr
              omega
          have hall : (row :: rest).filter (fun r => k < key r) = row :: rest := by
            rw [List.filter_eq_self]
            intro r hr
            rcases List.mem_cons.mp hr with rfl | hr
            · simpa using hgreat
            · have hrow' := hrow r hr
              simpa using by omega
          rw [if_neg hsmall, if_pos hgreat, hall,
            hnone (fun r => key r = k) (fun r hr => by simp only [decide_eq_true_eq] at hr; omega),
            hnone (fun r => key r < k) (fun r hr => by simp only [decide_eq_true_eq] at hr; omega),
            List.map_nil, List.append_nil]
          rfl
        · rw [if_neg hsmall, if_neg hgreat, ih hrest,
            List.filter_cons_of_pos (by simpa using by omega),
            List.filter_cons_of_neg (by simpa using hsmall),
            List.filter_cons_of_neg (by simpa using hgreat), List.foldl_cons]

/-- The rows of a greater key are still there after the loop of a smaller one. -/
theorem filter_key_filter {k k' : ℕ} (h : k < k') (rows : List ρ) :
    (rows.filter fun row => k < key row).filter (fun row => key row = k') =
      rows.filter fun row => key row = k' := by
  rw [List.filter_filter]
  refine List.filter_congr fun row _ => ?_
  by_cases hkey : key row = k'
  · simp [hkey, h]
  · simp [hkey]

end TwowCore.Lib
