import Mathlib.Data.Finset.Sort
import Mathlib.Order.Lattice

/-!
# Renumbering

Numbers are replaced by consecutive ones, one after the other and in their order, as a sequence of updates does
it in place. No update meets a number that has been given out before, so that the whole sequence replaces each
number by its rank.
-/

namespace TwowCore.Lib

/-- The updates, on one cell: each number of the list is replaced by the next consecutive one. -/
def renumber : List ℕ → ℕ → ℕ → ℕ
  | [], _, cell => cell
  | id :: rest, next, cell => renumber rest (next + 1) (if cell = id then next else cell)

/-- How many numbers are less. -/
def rank (ids : List ℕ) (cell : ℕ) : ℕ := ids.countP (· < cell)

variable {ids : List ℕ} {next cell : ℕ}

theorem rank_cons (id : ℕ) (rest : List ℕ) (cell : ℕ) :
    rank (id :: rest) cell = rank rest cell + if id < cell then 1 else 0 := by
  rw [rank, List.countP_cons]
  simp only [decide_eq_true_eq]
  rfl

/-- A number that was given out is not replaced again. -/
theorem renumber_of_lt (hsorted : ids.Pairwise (· < ·)) (hle : ∀ id ∈ ids, next ≤ id) (hlt : cell < next) :
    renumber ids next cell = cell := by
  induction ids generalizing next with
  | nil => rfl
  | cons id rest ih =>
      obtain ⟨hfirst, hrest⟩ := List.pairwise_cons.mp hsorted
      have hid : next ≤ id := hle id List.mem_cons_self
      rw [renumber, if_neg (by omega)]
      refine ih hrest (fun other hother => ?_) (by omega)
      have hbelow := hfirst other hother
      omega

/-- The updates in order are one replacement by the rank. -/
theorem renumber_eq (hsorted : ids.Pairwise (· < ·)) (hle : ∀ id ∈ ids, next ≤ id) (cell : ℕ) :
    renumber ids next cell = if cell ∈ ids then next + rank ids cell else cell := by
  induction ids generalizing next cell with
  | nil => rfl
  | cons id rest ih =>
      obtain ⟨hfirst, hrest⟩ := List.pairwise_cons.mp hsorted
      have hid : next ≤ id := hle id List.mem_cons_self
      have hlater : ∀ other ∈ rest, next + 1 ≤ other := by
        intro other hother
        have hbelow := hfirst other hother
        omega
      rw [renumber]
      by_cases hsame : cell = id
      · subst hsame
        have hnone : rank (cell :: rest) cell = 0 := by
          refine List.countP_eq_zero.mpr fun other hother => ?_
          rcases List.mem_cons.mp hother with rfl | hmem
          · simp
          · have hbelow := hfirst other hmem
            simp only [decide_eq_true_eq]
            omega
        rw [if_pos rfl, renumber_of_lt hrest hlater (Nat.lt_succ_self next), if_pos List.mem_cons_self, hnone,
          Nat.add_zero]
      · rw [if_neg hsame, ih hrest hlater]
        by_cases hmem : cell ∈ rest
        · have hbelow := hfirst cell hmem
          rw [if_pos hmem, if_pos (List.mem_cons_of_mem _ hmem), rank_cons, if_pos hbelow]
          omega
        · rw [if_neg hmem, if_neg fun h => (List.mem_cons.mp h).elim hsame hmem]

/-- Ranks are in the order of the numbers. -/
theorem rank_lt_rank {i j : ℕ} (hi : i ∈ ids) (hlt : i < j) : rank ids i < rank ids j := by
  induction ids with
  | nil => cases hi
  | cons id rest ih =>
      have hle : rank rest i ≤ rank rest j := List.countP_mono_left fun other _ hother => by
        simp only [decide_eq_true_eq] at hother ⊢
        omega
      rw [rank_cons, rank_cons]
      rcases List.mem_cons.mp hi with rfl | hmem
      · rw [if_neg (Nat.lt_irrefl i), if_pos hlt]
        omega
      · have hrest := ih hmem
        split_ifs <;> omega

theorem rank_lt_length {i : ℕ} (hi : i ∈ ids) : rank ids i < ids.length := by
  refine lt_of_le_of_ne List.countP_le_length fun heq => ?_
  have hall := List.countP_eq_length.mp heq i hi
  simp at hall

/-- Two numbers of the list have different ranks. -/
theorem rank_inj {i j : ℕ} (hi : i ∈ ids) (hj : j ∈ ids) (h : rank ids i = rank ids j) : i = j := by
  rcases Nat.lt_trichotomy i j with hlt | heq | hgt
  · exact absurd h (Nat.ne_of_lt (rank_lt_rank hi hlt))
  · exact heq
  · exact absurd h.symm (Nat.ne_of_lt (rank_lt_rank hj hgt))

end TwowCore.Lib
