import Mathlib

/-!
# Sorted lists with equal keys

A multimap is a list that is sorted by a key. A new entry goes behind those with its key, so that entries
with one key stand in the order in which they came. `stamp` says in which order they came.
-/

namespace TwowCore.Lib

variable {α : Type*} (key stamp : α → ℕ)

/-- Puts an entry behind those whose key is not greater. -/
def insertLast (a : α) (l : List α) : List α := l.orderedInsert (fun b c => key b < key c) a

/-- The order of a multimap: by key, and with one key as they came. -/
def Before (a b : α) : Prop := key a < key b ∨ key a = key b ∧ stamp a < stamp b

variable {key stamp} {a : α} {l first rest : List α}

/-- One more entry. -/
theorem insertLast_perm (a : α) (l : List α) : (insertLast key a l).Perm (a :: l) :=
  List.perm_orderedInsert _ a l

/-- The entries after one more has come. -/
theorem mem_insertLast {b : α} : b ∈ insertLast key a l ↔ b = a ∨ b ∈ l := by
  rw [(insertLast_perm a l).mem_iff, List.mem_cons]

/-- An entry goes behind everything with a smaller key. -/
theorem insertLast_append (h : ∀ b ∈ first, key b ≤ key a) :
    insertLast key a (first ++ rest) = first ++ insertLast key a rest := by
  induction first with
  | nil => rfl
  | cons b first ih =>
      have hb : ¬ key a < key b := Nat.not_lt.mpr (h b List.mem_cons_self)
      show (b :: (first ++ rest)).orderedInsert (fun b c => key b < key c) a = _
      rw [List.orderedInsert_cons, if_neg hb]
      show b :: insertLast key a (first ++ rest) = _
      rw [ih fun c hc => h c (List.mem_cons_of_mem _ hc)]
      rfl

/-- The order is kept when the new entry came last. -/
theorem insertLast_sorted (hsorted : l.Pairwise (Before key stamp)) (hlast : ∀ b ∈ l, stamp b < stamp a) :
    (insertLast key a l).Pairwise (Before key stamp) := by
  induction l with
  | nil => exact List.pairwise_singleton _ _
  | cons b l ih =>
      obtain ⟨hb, hl⟩ := List.pairwise_cons.mp hsorted
      show ((b :: l).orderedInsert (fun b c => key b < key c) a).Pairwise _
      rw [List.orderedInsert_cons]
      split_ifs with hlt
      · refine List.pairwise_cons.mpr ⟨fun c hc => Or.inl ?_, hsorted⟩
        rcases List.mem_cons.mp hc with rfl | hc
        · exact hlt
        · have hle := hb c hc
          unfold Before at hle
          omega
      · refine List.pairwise_cons.mpr ⟨fun c hc => ?_, ih hl fun c hc => hlast c (List.mem_cons_of_mem _ hc)⟩
        rcases mem_insertLast.mp hc with rfl | hc
        · have hstamp := hlast b List.mem_cons_self
          unfold Before
          omega
        · exact hb c hc

/-- What a sorted list has up to a key is its front. -/
theorem filter_append_of_sorted (hsorted : l.Pairwise (Before key stamp)) (k : ℕ) :
    l = l.filter (fun b => key b ≤ k) ++ l.filter (fun b => k < key b) := by
  induction l with
  | nil => rfl
  | cons b l ih =>
      obtain ⟨hb, hl⟩ := List.pairwise_cons.mp hsorted
      by_cases hk : key b ≤ k
      · rw [List.filter_cons_of_pos (by simpa using hk), List.filter_cons_of_neg (by simpa using hk),
          List.cons_append, ← ih hl]
      · have hnone : l.filter (fun c => key c ≤ k) = [] := by
          refine List.filter_eq_nil_iff.mpr fun c hc => ?_
          have hle := hb c hc
          unfold Before at hle
          rw [decide_eq_true_eq]
          omega
        have hall : l.filter (fun c => k < key c) = l := by
          refine List.filter_eq_self.mpr fun c hc => ?_
          have hle := hb c hc
          unfold Before at hle
          rw [decide_eq_true_eq]
          omega
        rw [List.filter_cons_of_neg (by simpa using hk),
          List.filter_cons_of_pos (by simpa using Nat.not_le.mp hk), hnone, hall, List.nil_append]

end TwowCore.Lib
