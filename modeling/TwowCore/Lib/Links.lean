import Mathlib

/-!
# Links to a parent

Where every chain of links ends there is no circle, and on a finite type the children of a node are below
it.
-/

namespace TwowCore.Lib

variable {α : Type*} {parent parent' : α → Option α} {child mother : α}

/-- Following the links from here ends. -/
def Ends (parent : α → Option α) : α → Prop := Acc fun mother child => parent child = some mother

theorem ends_of_none (h : parent child = none) : Ends parent child := by
  refine Acc.intro child fun mother hlink => ?_
  rw [h] at hlink
  cases hlink

theorem ends_of_some (h : parent child = some mother) (hends : Ends parent mother) :
    Ends parent child := by
  refine Acc.intro child fun other hlink => ?_
  rw [h] at hlink
  cases hlink
  exact hends

/-- Dropping links keeps this. -/
theorem Ends.mono (hsub : ∀ a b, parent' a = some b → parent a = some b) (h : Ends parent child) :
    Ends parent' child := by
  induction h with
  | intro child _ ih => exact Acc.intro child fun mother hlink => ih mother (hsub child mother hlink)

/-- No chain comes back to where it starts. -/
theorem not_circular (h : ∀ a, Ends parent a) (a : α) :
    ¬Relation.TransGen (fun child mother => parent child = some mother) a a := by
  intro hcircle
  have hwf : WellFounded (Relation.TransGen fun mother child => parent child = some mother) :=
    WellFounded.transGen ⟨h⟩
  exact hwf.irrefl.irrefl a (Relation.transGen_swap.mp hcircle)

/-- Going down ends as well. -/
theorem wellFounded_children [Finite α] (h : ∀ a, Ends parent a) :
    WellFounded fun child mother => parent child = some mother := by
  have hirrefl : Std.Irrefl (Relation.TransGen fun child mother => parent child = some mother) :=
    ⟨not_circular h⟩
  have hwf := Finite.wellFounded_of_trans_of_irrefl
    (Relation.TransGen fun child mother => parent child = some mother)
  refine Subrelation.wf ?_ hwf
  intro a b hlink
  exact Relation.TransGen.single hlink

end TwowCore.Lib
