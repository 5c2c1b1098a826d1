import Mathlib

/-!
# First fit

Blocks of guests come one after another. Each guest has a list of the kinds of places that he takes, and
gets the first that is open; a block that cannot be seated as a whole is passed. What can be seated can be
seated when fewer places are taken (`seatBlock_mono`), so a block that has been passed is never seated when
it is tried again.
-/

namespace TwowCore.Lib

variable {ι : Type*} [DecidableEq ι]

/-- The first kind of a list of which a place is open. -/
def firstOpen (cap taken : ι → ℕ) (wishes : List ι) : Option ι :=
  wishes.find? fun kind => taken kind < cap kind

/-- One more place is taken. -/
def takePlace (taken : ι → ℕ) (kind : ι) : ι → ℕ := Function.update taken kind (taken kind + 1)

/-- The guests of a block are seated, if there is a place for each. -/
def seatBlock (cap : ι → ℕ) : (ι → ℕ) → List (List ι) → Option (ι → ℕ)
  | taken, [] => some taken
  | taken, wishes :: rest =>
      match firstOpen cap taken wishes with
      | none => none
      | some kind => seatBlock cap (takePlace taken kind) rest

/-- Blocks are seated as they come, and passed when they do not fit. -/
def firstFit (cap taken : ι → ℕ) (blocks : List (List (List ι))) : ι → ℕ :=
  blocks.foldl (fun taken block => (seatBlock cap taken block).getD taken) taken

variable {cap taken taken' seated seated' : ι → ℕ} {wishes : List ι} {block : List (List ι)} {kind : ι}

theorem firstFit_append (blocks : List (List (List ι))) (block : List (List ι)) :
    firstFit cap taken (blocks ++ [block]) =
      (seatBlock cap (firstFit cap taken blocks) block).getD (firstFit cap taken blocks) := by
  unfold firstFit
  rw [List.foldl_append, List.foldl_cons, List.foldl_nil]

theorem takePlace_apply (taken : ι → ℕ) (kind other : ι) :
    takePlace taken kind other = taken other + if other = kind then 1 else 0 := by
  unfold takePlace
  rw [Function.update_apply]
  split_ifs with hsame
  · rw [hsame]
  · rfl

theorem le_takePlace (taken : ι → ℕ) (kind : ι) : taken ≤ takePlace taken kind := fun other => by
  rw [takePlace_apply]
  exact Nat.le_add_right _ _

omit [DecidableEq ι] in
theorem firstOpen_nil : firstOpen cap taken [] = none := rfl

omit [DecidableEq ι] in
theorem firstOpen_cons : firstOpen cap taken (kind :: wishes) =
    if taken kind < cap kind then some kind else firstOpen cap taken wishes := by
  unfold firstOpen
  split_ifs with hopen
  · exact List.find?_cons_of_pos (by simpa using hopen)
  · exact List.find?_cons_of_neg (by simpa using hopen)

omit [DecidableEq ι] in
/-- A place that is found is on the list and open. -/
theorem firstOpen_some (h : firstOpen cap taken wishes = some kind) :
    kind ∈ wishes ∧ taken kind < cap kind :=
  ⟨List.mem_of_find?_eq_some h, by simpa using List.find?_some h⟩

/-- Who finds a place finds one when fewer are taken, and then no more are taken than otherwise. -/
theorem firstOpen_mono (hle : taken ≤ taken') (h : firstOpen cap taken' wishes = some kind) :
    ∃ other, firstOpen cap taken wishes = some other ∧
      takePlace taken other ≤ takePlace taken' kind := by
  induction wishes with
  | nil => cases h
  | cons first rest ih =>
      rw [firstOpen_cons] at h ⊢
      by_cases hopen' : taken' first < cap first
      · rw [if_pos hopen'] at h
        cases h
        refine ⟨kind, if_pos ((hle kind).trans_lt hopen'), fun other => ?_⟩
        rw [takePlace_apply, takePlace_apply]
        exact Nat.add_le_add_right (hle other) _
      · rw [if_neg hopen'] at h
        by_cases hopen : taken first < cap first
        -- the place he takes is one of those that are taken otherwise
        · refine ⟨first, if_pos hopen, fun other => ?_⟩
          have hkept : taken' other ≤ takePlace taken' kind other := le_takePlace taken' kind other
          rw [takePlace_apply]
          split_ifs with hsame
          · subst hsame
            show taken other + 1 ≤ takePlace taken' kind other
            omega
          · exact (hle other).trans hkept
        · rw [if_neg hopen]
          exact ih h

/-- A block that is seated is seated when fewer places are taken. -/
theorem seatBlock_mono (hle : taken ≤ taken') (h : seatBlock cap taken' block = some seated') :
    ∃ seated, seatBlock cap taken block = some seated ∧ seated ≤ seated' := by
  induction block generalizing taken taken' with
  | nil =>
      cases h
      exact ⟨taken, rfl, hle⟩
  | cons wishes rest ih =>
      unfold seatBlock at h ⊢
      cases hkind : firstOpen cap taken' wishes with
      | none =>
          rw [hkind] at h
          cases h
      | some kind =>
          simp only [hkind] at h
          obtain ⟨other, hother, hmore⟩ := firstOpen_mono hle hkind
          simp only [hother]
          exact ih hmore h

/-- A block that has been passed does not fit later. -/
theorem seatBlock_eq_none_of_le (hle : taken ≤ taken') (h : seatBlock cap taken block = none) :
    seatBlock cap taken' block = none := by
  cases hseat : seatBlock cap taken' block with
  | none => rfl
  | some seated' =>
      obtain ⟨seated, hseated, -⟩ := seatBlock_mono hle hseat
      cases h.symm.trans hseated

/-- No block fits when every place is taken. -/
theorem seatBlock_eq_none_of_full (hfull : cap ≤ taken) (hne : block ≠ []) :
    seatBlock cap taken block = none := by
  cases block with
  | nil => exact absurd rfl hne
  | cons wishes rest =>
      unfold seatBlock
      cases hkind : firstOpen cap taken wishes with
      | none => rfl
      | some kind => exact absurd (firstOpen_some hkind).2 (Nat.not_lt.mpr (hfull kind))

end TwowCore.Lib
