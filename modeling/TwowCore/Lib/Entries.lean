import Mathlib

/-!
# Maps in key order

A list of entries in the order of their keys, as an ordered map keeps them. The lemmas say what
looking up finds after an entry is set or erased; none needs the order.
-/

namespace TwowCore.Lib

variable {κ β : Type*} [DecidableEq κ] [LT κ] [DecidableLT κ]

/-- Sets the entry of a key. -/
def setEntry (k : κ) (b : β) : List (κ × β) → List (κ × β)
  | [] => [(k, b)]
  | (k', b') :: rest =>
      if k < k' then (k, b) :: (k', b') :: rest
      else if k = k' then (k, b) :: rest
      else (k', b') :: setEntry k b rest

/-- Erases the entry of a key. -/
def eraseEntry (k : κ) (l : List (κ × β)) : List (κ × β) := l.filter fun entry => entry.1 ≠ k

/-- The value of a key. -/
def entryOf (k : κ) (l : List (κ × β)) : Option β := (l.find? fun entry => entry.1 = k).map (·.2)

variable {k : κ} {b : β} {l : List (κ × β)}

omit [LT κ] [DecidableLT κ] in
@[simp] theorem entryOf_nil : entryOf k ([] : List (κ × β)) = none := rfl

omit [LT κ] [DecidableLT κ] in
theorem entryOf_cons (entry : κ × β) :
    entryOf k (entry :: l) = if k = entry.1 then some entry.2 else entryOf k l := by
  unfold entryOf
  by_cases h : k = entry.1
  · rw [List.find?_cons_of_pos (by simpa using h.symm), if_pos h]
    rfl
  · rw [List.find?_cons_of_neg (by simpa [eq_comm] using h), if_neg h]

/-- Looking up after an entry is set. -/
theorem entryOf_setEntry (k' : κ) :
    entryOf k' (setEntry k b l) = if k' = k then some b else entryOf k' l := by
  induction l with
  | nil => exact entryOf_cons _
  | cons entry rest ih =>
      obtain ⟨k₁, b₁⟩ := entry
      unfold setEntry
      by_cases hlt : k < k₁
      · rw [if_pos hlt, entryOf_cons]
      · rw [if_neg hlt]
        by_cases heq : k = k₁
        · subst heq
          rw [if_pos rfl, entryOf_cons, entryOf_cons]
          split_ifs <;> rfl
        · rw [if_neg heq, entryOf_cons, entryOf_cons, ih]
          -- the entry in front is not the one that is set
          by_cases hfront : k' = k₁
          · rw [if_pos hfront, if_neg fun h => heq (h.symm.trans hfront), if_pos hfront]
          · rw [if_neg hfront, if_neg hfront]

/-- What is in the list after an entry is set was there, or is the entry. -/
theorem mem_setEntry {entry : κ × β} (h : entry ∈ setEntry k b l) : entry = (k, b) ∨ entry ∈ l := by
  induction l with
  | nil => exact Or.inl (List.mem_singleton.mp h)
  | cons first rest ih =>
      obtain ⟨k₁, b₁⟩ := first
      unfold setEntry at h
      split_ifs at h
      · exact List.mem_cons.mp h
      · exact (List.mem_cons.mp h).imp_right (List.mem_cons_of_mem _)
      · rcases List.mem_cons.mp h with rfl | hlater
        · exact Or.inr List.mem_cons_self
        · exact (ih hlater).imp_right (List.mem_cons_of_mem _)

/-- A new key is added. -/
theorem perm_setEntry (h : k ∉ l.map Prod.fst) : (setEntry k b l).Perm ((k, b) :: l) := by
  induction l with
  | nil => exact List.Perm.refl _
  | cons first rest ih =>
      obtain ⟨k₁, b₁⟩ := first
      rw [List.map_cons, List.mem_cons, not_or] at h
      unfold setEntry
      rw [if_neg h.1]
      split_ifs
      · exact List.Perm.refl _
      · exact ((ih h.2).cons _).trans (List.Perm.swap _ _ _)

omit [LT κ] [DecidableLT κ] in
/-- Looking up after an entry is erased. -/
theorem entryOf_eraseEntry (k' : κ) :
    entryOf k' (eraseEntry k l) = if k' = k then none else entryOf k' l := by
  unfold entryOf eraseEntry
  rw [List.find?_filter]
  split_ifs with h
  · rw [List.find?_eq_none.mpr fun entry _ => by simp [h]]
    rfl
  · congr 2
    funext entry
    by_cases hentry : entry.1 = k'
    · simp [hentry, h]
    · simp [hentry]

section Sorted

variable {κ β : Type*} [LinearOrder κ] {k : κ} {b : β} {l : List (κ × β)}

/-- The keys are in order. -/
def KeysSorted (l : List (κ × β)) : Prop := l.Pairwise fun a b => a.1 < b.1

theorem KeysSorted.nodup (h : KeysSorted l) : (l.map Prod.fst).Nodup :=
  List.pairwise_map.mpr (h.imp fun hlt => ne_of_lt hlt)

theorem KeysSorted.eraseEntry (h : KeysSorted l) (k : κ) : KeysSorted (eraseEntry k l) :=
  List.Pairwise.sublist List.filter_sublist h

/-- Setting an entry keeps the order. -/
theorem KeysSorted.setEntry (h : KeysSorted l) : KeysSorted (setEntry k b l) := by
  induction l with
  | nil => exact List.pairwise_singleton _ _
  | cons first rest ih =>
      obtain ⟨k₁, b₁⟩ := first
      obtain ⟨hfirst, hrest⟩ := List.pairwise_cons.mp h
      unfold Lib.setEntry
      split_ifs with hlt heq
      · refine List.pairwise_cons.mpr ⟨fun entry hentry => ?_, h⟩
        rcases List.mem_cons.mp hentry with rfl | hlater
        · exact hlt
        · exact lt_trans hlt (hfirst entry hlater)
      · refine List.pairwise_cons.mpr ⟨fun entry hentry => ?_, hrest⟩
        have hnext : k₁ < entry.1 := hfirst entry hentry
        exact heq ▸ hnext
      · refine List.pairwise_cons.mpr ⟨fun entry hentry => ?_, ih hrest⟩
        rcases mem_setEntry hentry with rfl | hlater
        · exact lt_of_le_of_ne (not_lt.mp hlt) fun hsame => heq hsame.symm
        · exact hfirst entry hlater

/-- An entry of an ordered map is what its key finds. -/
theorem KeysSorted.entryOf_eq (h : KeysSorted l) (hmem : (k, b) ∈ l) : entryOf k l = some b := by
  induction l with
  | nil => cases hmem
  | cons first rest ih =>
      obtain ⟨hfirst, hrest⟩ := List.pairwise_cons.mp h
      rw [entryOf_cons]
      rcases List.mem_cons.mp hmem with rfl | hlater
      · rw [if_pos rfl]
      · have hlt : first.1 < k := hfirst (k, b) hlater
        rw [if_neg (ne_of_gt hlt)]
        exact ih hrest hlater

end Sorted

section Found

variable {κ β : Type*} [DecidableEq κ] {k : κ} {b : β} {l : List (κ × β)}

/-- What a key finds is an entry. -/
theorem mem_of_entryOf (h : entryOf k l = some b) : (k, b) ∈ l := by
  obtain ⟨entry, hfind, rfl⟩ := Option.map_eq_some_iff.mp h
  have hkey : entry.1 = k := by simpa using List.find?_some hfind
  rw [← hkey]
  exact List.mem_of_find?_eq_some hfind

/-- A key finds something when it is there. -/
theorem entryOf_eq_none : entryOf k l = none ↔ k ∉ l.map Prod.fst := by
  unfold entryOf
  rw [Option.map_eq_none_iff, List.find?_eq_none, List.mem_map, not_exists]
  simp

section Values

variable {γ : Type*} (f : β → γ)

/-- Looking up after all the values are mapped. -/
theorem entryOf_map : entryOf k (l.map fun entry => (entry.1, f entry.2)) = (entryOf k l).map f := by
  induction l with
  | nil => rfl
  | cons entry rest ih =>
      rw [List.map_cons, entryOf_cons, entryOf_cons, ih]
      split_ifs <;> rfl

omit [DecidableEq κ] in
theorem keys_map : (l.map fun entry => (entry.1, f entry.2)).map Prod.fst = l.map Prod.fst := by
  rw [List.map_map]
  rfl

end Values

end Found

end TwowCore.Lib
