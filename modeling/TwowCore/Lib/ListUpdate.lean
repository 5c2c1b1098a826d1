import Mathlib

/-!
# Updating a list in place

A list that serves as a store of records is written at an index, extended at its end and shortened
at an index. The lemmas say what these do to a sum over the records and to the distinctness of a
key of the records.
-/

namespace TwowCore.Lib

variable {α β : Type*}

section Sums

variable (f : α → ℕ)

/-- Writing an index changes the sum by the difference there. -/
theorem sum_map_set {l : List α} {i : ℕ} {old : α} (h : l[i]? = some old) (new : α) :
    ((l.set i new).map f).sum + f old = (l.map f).sum + f new := by
  induction l generalizing i with
  | nil => cases h
  | cons x xs ih =>
      cases i with
      | zero =>
          cases h
          simp only [List.set_cons_zero, List.map_cons, List.sum_cons]
          omega
      | succ i =>
          have hrest := ih (by simpa using h)
          simp only [List.set_cons_succ, List.map_cons, List.sum_cons]
          omega

/-- Taking out an index lowers the sum by what was there. -/
theorem sum_map_eraseIdx {l : List α} {i : ℕ} {old : α} (h : l[i]? = some old) :
    ((l.eraseIdx i).map f).sum + f old = (l.map f).sum := by
  induction l generalizing i with
  | nil => cases h
  | cons x xs ih =>
      cases i with
      | zero =>
          cases h
          simp only [List.eraseIdx_cons_zero, List.map_cons, List.sum_cons]
          omega
      | succ i =>
          have hrest := ih (by simpa using h)
          simp only [List.eraseIdx_cons_succ, List.map_cons, List.sum_cons]
          omega

end Sums

section Keys

variable (key : α → β) {l : List α} {i j : ℕ} {old new : α}

/-- Writing a record with the key of the old one keeps the keys. -/
theorem map_set_same (h : l[i]? = some old) (hkey : key new = key old) :
    (l.set i new).map key = l.map key := by
  obtain ⟨hlt, hget⟩ := List.getElem?_eq_some_iff.mp h
  rw [List.map_set, hkey, ← hget]
  exact (List.map_set).symm.trans (congrArg (List.map key) (List.set_getElem_self hlt))

/-- Writing a record with the key of the old one, or with a key no record has, keeps the keys
distinct. -/
theorem nodup_map_set (hnodup : (l.map key).Nodup) (h : l[i]? = some old)
    (hkey : key new = key old ∨ key new ∉ l.map key) : ((l.set i new).map key).Nodup := by
  rcases hkey with hsame | hfresh
  · rw [map_set_same key h hsame]
    exact hnodup
  · rw [List.map_set]
    exact hnodup.set hfresh

/-- Taking out a record keeps the keys distinct. -/
theorem nodup_map_eraseIdx (hnodup : (l.map key).Nodup) (i : ℕ) :
    ((l.eraseIdx i).map key).Nodup :=
  hnodup.sublist ((l.eraseIdx_sublist i).map key)

/-- Adding a record with a key no record has keeps the keys distinct. -/
theorem nodup_map_concat (hnodup : (l.map key).Nodup) (hkey : key new ∉ l.map key) :
    ((l ++ [new]).map key).Nodup := by
  rw [List.map_append, List.map_singleton, ← List.concat_eq_append]
  exact hnodup.concat hkey

/-- Two records that exchange their keys keep the keys up to order. -/
theorem perm_map_exchange {left right left' right' : α} (hi : l[i]? = some left)
    (hj : l[j]? = some right) (hleft : key left' = key right) (hright : key right' = key left) :
    (((l.set i left').set j right').map key).Perm (l.map key) := by
  obtain ⟨hlti, hgeti⟩ := List.getElem?_eq_some_iff.mp hi
  obtain ⟨hltj, hgetj⟩ := List.getElem?_eq_some_iff.mp hj
  have hperm := @List.set_set_perm _ (l.map key) i j (by simpa using hlti)
    (by simpa using hltj)
  rw [List.map_set, List.map_set, hleft, hright, ← hgeti, ← hgetj]
  simpa using hperm

/-- Where keys are distinct, replacing the record with a key is writing its index. -/
theorem map_ite_key_eq_set [DecidableEq β] (hnodup : (l.map key).Nodup) (h : l[i]? = some old)
    (new : α) : (l.map fun record => if key record = key old then new else record) = l.set i new := by
  induction l generalizing i with
  | nil => cases h
  | cons x xs ih =>
      rw [List.map_cons, List.nodup_cons] at hnodup
      cases i with
      | zero =>
          cases h
          rw [List.map_cons, if_pos rfl, List.set_cons_zero]
          congr 1
          refine (List.map_congr_left fun record hmem => if_neg fun hsame => ?_).trans (List.map_id xs)
          exact hnodup.1 (hsame ▸ List.mem_map_of_mem hmem)
      | succ i =>
          have hold : xs[i]? = some old := by simpa using h
          have hne : key x ≠ key old := fun hsame =>
            hnodup.1 (hsame ▸ List.mem_map_of_mem (List.mem_of_getElem? hold))
          rw [List.map_cons, if_neg hne, List.set_cons_succ, ih hnodup.2 hold]

/-- Where keys are distinct, dropping the record with a key is erasing its index. -/
theorem filter_key_ne_eq_eraseIdx [DecidableEq β] (hnodup : (l.map key).Nodup)
    (h : l[i]? = some old) : (l.filter fun record => key record ≠ key old) = l.eraseIdx i := by
  induction l generalizing i with
  | nil => cases h
  | cons x xs ih =>
      rw [List.map_cons, List.nodup_cons] at hnodup
      cases i with
      | zero =>
          cases h
          rw [List.filter_cons_of_neg (by simp), List.eraseIdx_cons_zero, List.filter_eq_self]
          intro record hmem
          have hne : key record ≠ key old := fun hsame =>
            hnodup.1 (hsame ▸ List.mem_map_of_mem hmem)
          simpa using hne
      | succ i =>
          have hold : xs[i]? = some old := by simpa using h
          have hne : key x ≠ key old := fun hsame =>
            hnodup.1 (hsame ▸ List.mem_map_of_mem (List.mem_of_getElem? hold))
          rw [List.filter_cons_of_pos (by simpa using hne), List.eraseIdx_cons_succ,
            ih hnodup.2 hold]

end Keys

section Filters

variable {p : α → Bool} {l : List α} {i : ℕ} {old new : α}

/-- Writing a record that the filter drops over another one it drops. -/
theorem filter_set_of_not (h : l[i]? = some old) (hold : ¬p old) (hnew : ¬p new) :
    (l.set i new).filter p = l.filter p := by
  induction l generalizing i with
  | nil => cases h
  | cons x xs ih =>
      cases i with
      | zero =>
          cases h
          rw [List.set_cons_zero, List.filter_cons_of_neg hnew, List.filter_cons_of_neg hold]
      | succ i =>
          have hrest := ih (by simpa using h)
          simp only [List.set_cons_succ, List.filter_cons, hrest]

/-- Taking out a record that the filter drops. -/
theorem filter_eraseIdx_of_not (h : l[i]? = some old) (hold : ¬p old) :
    (l.eraseIdx i).filter p = l.filter p := by
  induction l generalizing i with
  | nil => cases h
  | cons x xs ih =>
      cases i with
      | zero =>
          cases h
          rw [List.eraseIdx_cons_zero, List.filter_cons_of_neg hold]
      | succ i =>
          have hrest := ih (by simpa using h)
          simp only [List.eraseIdx_cons_succ, List.filter_cons, hrest]

end Filters

end TwowCore.Lib
