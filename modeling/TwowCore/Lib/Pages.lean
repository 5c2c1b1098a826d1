import Mathlib.Data.List.Basic

/-!
# A list in pages

A page of a list starts at a position and has at most so many elements. The pages from position 0 on give
the list.
-/

namespace TwowCore.Lib

variable {α : Type*}

/-- The page that starts at a position. -/
def page (size start : ℕ) (l : List α) : List α := (l.drop start).take size

/-- A page that ends before the list does is not changed by what comes after, and one that has started
but is not full takes the next element. -/
theorem page_concat (size start : ℕ) (l : List α) (a : α) :
    page size start (l ++ [a]) =
      if start ≤ l.length ∧ (page size start l).length < size then page size start l ++ [a]
      else page size start l := by
  unfold page
  by_cases hstart : start ≤ l.length
  · rw [List.drop_append_of_le_length hstart, List.length_take]
    by_cases hroom : (l.drop start).length < size
    · have hfits : (l.drop start ++ [a]).length ≤ size := by
        rw [List.length_append, List.length_singleton]
        omega
      rw [if_pos ⟨hstart, by omega⟩, List.take_of_length_le hfits,
        List.take_of_length_le (Nat.le_of_lt hroom)]
    · rw [if_neg (by omega), List.take_append_of_le_length (by omega)]
  · rw [if_neg fun h => hstart h.1, List.drop_eq_nil_of_le (by simp; omega),
      List.drop_eq_nil_of_le (by omega)]

/-- The first pages are the beginning of the list. -/
theorem pages_flatMap (size n : ℕ) (l : List α) :
    ((List.range n).flatMap fun k => page size (size * k) l) = l.take (size * n) := by
  induction n with
  | zero => simp
  | succ n ih =>
      rw [List.range_succ, List.flatMap_append, ih, List.flatMap_singleton, Nat.mul_succ,
        List.take_add]
      rfl

/-- Skipping elements that all have an image skips as many images. -/
theorem filterMap_drop {β : Type*} {f : α → Option β} {l : List α}
    (h : ∀ a ∈ l, (f a).isSome = true) (n : ℕ) :
    (l.drop n).filterMap f = (l.filterMap f).drop n := by
  induction l generalizing n with
  | nil => simp
  | cons a rest ih =>
      obtain ⟨b, hb⟩ := Option.isSome_iff_exists.mp (h a List.mem_cons_self)
      cases n with
      | zero => rfl
      | succ n =>
          rw [List.drop_succ_cons, List.filterMap_cons_some hb, List.drop_succ_cons]
          exact ih (fun other hother => h other (List.mem_cons_of_mem _ hother)) n

end TwowCore.Lib
