import Mathlib

/-!
# Groups with owners

Members point to the group they are in, groups list their members, and the groups are stored in lists
at places. `Coherent` says that the three views agree: who points to a group is listed by it, a
group that is stored is stored once, is not empty and is pointed to by all it lists, and every group
that is pointed to is stored. The lemmas say which changes keep this: a member leaves, a group joins,
a group moves to another place, and the groups of a place change their order.
-/

namespace TwowCore.Lib

/-- Who is in which group, what a group lists, and where the groups are. A group has a tag that says
which places it may be stored at. -/
structure Layout (P G S τ : Type*) where
  owner : P → Option G
  group : G → Option (List P × τ)
  stored : S → List G

namespace Layout

variable {P G S τ : Type*} {tag : S → τ} {l l' : Layout P G S τ}

/-- The views of a layout agree. -/
structure Coherent (tag : S → τ) (l : Layout P G S τ) : Prop where
  listed : ∀ {p g}, l.owner p = some g → ∃ members t, l.group g = some (members, t) ∧ p ∈ members
  kept : ∀ {p g}, l.owner p = some g → ∃ s, g ∈ l.stored s
  owned : ∀ {g s}, g ∈ l.stored s → ∃ members, l.group g = some (members, tag s) ∧ members ≠ [] ∧
    ∀ p ∈ members, l.owner p = some g
  nodup : ∀ s, (l.stored s).Nodup
  once : ∀ {g s s'}, g ∈ l.stored s → g ∈ l.stored s' → s = s'

namespace Coherent

/-- Only the order of the stored groups changes. -/
theorem reorder (h : l.Coherent tag) (howner : l'.owner = l.owner) (hgroup : l'.group = l.group)
    (hstored : ∀ s, (l'.stored s).Perm (l.stored s)) : l'.Coherent tag := by
  have hmem : ∀ {g s}, g ∈ l'.stored s ↔ g ∈ l.stored s := fun {g s} => (hstored s).mem_iff
  constructor
  · intro p g hp
    rw [howner] at hp
    rw [hgroup]
    exact h.listed hp
  · intro p g hp
    rw [howner] at hp
    obtain ⟨s, hs⟩ := h.kept hp
    exact ⟨s, hmem.mpr hs⟩
  · intro g s hg
    rw [hgroup, howner]
    exact h.owned (hmem.mp hg)
  · intro s
    exact (hstored s).nodup_iff.mpr (h.nodup s)
  · intro g s s' hs hs'
    exact h.once (hmem.mp hs) (hmem.mp hs')

/-- What is written at a group that is not stored does not matter. -/
theorem write_unstored {g : G} (h : l.Coherent tag) (hfree : ∀ s, g ∉ l.stored s)
    (howner : l'.owner = l.owner) (hgroup : ∀ g', g' ≠ g → l'.group g' = l.group g')
    (hstored : l'.stored = l.stored) : l'.Coherent tag := by
  have hne : ∀ {g' s}, g' ∈ l.stored s → g' ≠ g := by
    rintro g' s hg' rfl
    exact hfree s hg'
  constructor
  · intro p g' hp
    rw [howner] at hp
    obtain ⟨s, hs⟩ := h.kept hp
    rw [hgroup g' (hne hs)]
    exact h.listed hp
  · intro p g' hp
    rw [howner] at hp
    rw [hstored]
    exact h.kept hp
  · intro g' s hg'
    rw [hstored] at hg'
    rw [hgroup g' (hne hg'), howner]
    exact h.owned hg'
  · rw [hstored]
    exact h.nodup
  · rw [hstored]
    exact h.once

section Leave

variable [DecidableEq P] [DecidableEq G] {p : P} {g : G} {members members' : List P} {t : τ}

/-- A member leaves a group that has others. -/
theorem leave (h : l.Coherent tag) (hp : l.owner p = some g) (hg : l.group g = some (members, t))
    (howner : ∀ p', l'.owner p' = if p' = p then none else l.owner p')
    (hgroup : ∀ g', l'.group g' = if g' = g then some (members', t) else l.group g')
    (hmembers : ∀ p', p' ∈ members' ↔ p' ∈ members ∧ p' ≠ p) (hne : members' ≠ [])
    (hstored : l'.stored = l.stored) : l'.Coherent tag := by
  have hold : ∀ {p' g'}, l'.owner p' = some g' → p' ≠ p ∧ l.owner p' = some g' := by
    intro p' g' hp'
    rw [howner] at hp'
    split_ifs at hp' with heq
    exact ⟨heq, hp'⟩
  constructor
  · intro p' g' hp'
    obtain ⟨hother, hp'⟩ := hold hp'
    obtain ⟨ms, t', hg', hmem⟩ := h.listed hp'
    rw [hgroup]
    by_cases heq : g' = g
    · subst heq
      rw [if_pos rfl]
      have hsame : (members, t) = (ms, t') := Option.some.inj (hg.symm.trans hg')
      have hms : members = ms := congrArg Prod.fst hsame
      exact ⟨members', t, rfl, (hmembers p').mpr ⟨hms ▸ hmem, hother⟩⟩
    · rw [if_neg heq]
      exact ⟨ms, t', hg', hmem⟩
  · intro p' g' hp'
    rw [hstored]
    exact h.kept (hold hp').2
  · intro g' s hg'
    rw [hstored] at hg'
    obtain ⟨ms, hms, hms_ne, hall⟩ := h.owned hg'
    rw [hgroup]
    by_cases heq : g' = g
    · subst heq
      rw [if_pos rfl]
      have hsame : (members, t) = (ms, tag s) := Option.some.inj (hg.symm.trans hms)
      obtain ⟨rfl, rfl⟩ := Prod.mk.injEq _ _ _ _ ▸ hsame
      refine ⟨members', rfl, hne, fun p' hp' => ?_⟩
      obtain ⟨hmem, hother⟩ := (hmembers p').mp hp'
      rw [howner, if_neg hother]
      exact hall p' hmem
    · rw [if_neg heq]
      refine ⟨ms, hms, hms_ne, fun p' hp' => ?_⟩
      have hown := hall p' hp'
      rw [howner, if_neg]
      · exact hown
      · rintro rfl
        exact heq (Option.some.inj (hown.symm.trans hp))
  · rw [hstored]
    exact h.nodup
  · rw [hstored]
    exact h.once

/-- The last member leaves, and the group with him. -/
theorem leave_last (h : l.Coherent tag) (place : S) (hp : l.owner p = some g)
    (hg : l.group g = some (members, t)) (hlast : ∀ p' ∈ members, p' = p)
    (hplace : g ∈ l.stored place)
    (howner : ∀ p', l'.owner p' = if p' = p then none else l.owner p')
    (hgroup : ∀ g', g' ≠ g → l'.group g' = l.group g')
    (hhere : l'.stored place = (l.stored place).erase g)
    (helse : ∀ s, s ≠ place → l'.stored s = l.stored s) : l'.Coherent tag := by
  have hmem : ∀ {g' s}, g' ∈ l'.stored s → g' ≠ g ∧ g' ∈ l.stored s := by
    intro g' s hg'
    by_cases heq : s = place
    · subst heq
      rw [hhere, (h.nodup s).mem_erase_iff] at hg'
      exact hg'
    · rw [helse s heq] at hg'
      refine ⟨?_, hg'⟩
      rintro rfl
      exact heq (h.once hg' hplace)
  have hkeep : ∀ {g' s}, g' ≠ g → g' ∈ l.stored s → g' ∈ l'.stored s := by
    intro g' s hne hg'
    by_cases heq : s = place
    · subst heq
      rw [hhere, (h.nodup s).mem_erase_iff]
      exact ⟨hne, hg'⟩
    · rwa [helse s heq]
  have hold : ∀ {p' g'}, l'.owner p' = some g' → g' ≠ g ∧ l.owner p' = some g' := by
    intro p' g' hp'
    rw [howner] at hp'
    split_ifs at hp' with heq
    refine ⟨?_, hp'⟩
    rintro rfl
    obtain ⟨ms, t', hg', hin⟩ := h.listed hp'
    have hsame : (members, t) = (ms, t') := Option.some.inj (hg.symm.trans hg')
    have hms : members = ms := congrArg Prod.fst hsame
    exact heq (hlast p' (hms ▸ hin))
  constructor
  · intro p' g' hp'
    obtain ⟨hne, hp'⟩ := hold hp'
    rw [hgroup g' hne]
    exact h.listed hp'
  · intro p' g' hp'
    obtain ⟨hne, hp'⟩ := hold hp'
    obtain ⟨s, hs⟩ := h.kept hp'
    exact ⟨s, hkeep hne hs⟩
  · intro g' s hg'
    obtain ⟨hne, hg'⟩ := hmem hg'
    obtain ⟨ms, hms, hms_ne, hall⟩ := h.owned hg'
    rw [hgroup g' hne]
    refine ⟨ms, hms, hms_ne, fun p' hp' => ?_⟩
    have hown := hall p' hp'
    rw [howner, if_neg]
    · exact hown
    · rintro rfl
      exact hne (Option.some.inj (hown.symm.trans hp))
  · intro s
    by_cases heq : s = place
    · subst heq
      rw [hhere]
      exact (h.nodup s).erase g
    · rw [helse s heq]
      exact h.nodup s
  · intro g' s s' hs hs'
    exact h.once (hmem hs).2 (hmem hs').2

end Leave

/-- A group that is stored nowhere joins with members who are in no group. -/
theorem join [DecidableEq G] (h : l.Coherent tag) (place : S) (g : G) (members : List P)
    (hfree : ∀ s, g ∉ l.stored s) (hnew : ∀ p ∈ members, l.owner p = none)
    (hne : members ≠ [])
    (hjoin : ∀ p ∈ members, l'.owner p = some g)
    (howner : ∀ p, p ∉ members → l'.owner p = l.owner p)
    (hgroup : ∀ g', l'.group g' = if g' = g then some (members, tag place) else l.group g')
    (hhere : l'.stored place = l.stored place ++ [g])
    (helse : ∀ s, s ≠ place → l'.stored s = l.stored s) : l'.Coherent tag := by
  have hmem : ∀ {g' s}, g' ∈ l'.stored s ↔ g' ∈ l.stored s ∨ (g' = g ∧ s = place) := by
    intro g' s
    by_cases heq : s = place
    · subst heq
      rw [hhere, List.mem_append, List.mem_singleton]
      simp
    · rw [helse s heq]
      simp [heq]
  have hold : ∀ {g' s}, g' ∈ l.stored s → g' ≠ g := by
    rintro g' s hg' rfl
    exact hfree s hg'
  constructor
  · intro p g' hp
    by_cases hin : p ∈ members
    · rw [hjoin p hin] at hp
      obtain rfl := Option.some.inj hp
      rw [hgroup, if_pos rfl]
      exact ⟨members, tag place, rfl, hin⟩
    · rw [howner p hin] at hp
      obtain ⟨s, hs⟩ := h.kept hp
      rw [hgroup, if_neg (hold hs)]
      exact h.listed hp
  · intro p g' hp
    by_cases hin : p ∈ members
    · rw [hjoin p hin] at hp
      obtain rfl := Option.some.inj hp
      exact ⟨place, hmem.mpr (Or.inr ⟨rfl, rfl⟩)⟩
    · rw [howner p hin] at hp
      obtain ⟨s, hs⟩ := h.kept hp
      exact ⟨s, hmem.mpr (Or.inl hs)⟩
  · intro g' s hg'
    rcases hmem.mp hg' with hg' | ⟨rfl, rfl⟩
    · obtain ⟨ms, hms, hms_ne, hall⟩ := h.owned hg'
      rw [hgroup, if_neg (hold hg')]
      refine ⟨ms, hms, hms_ne, fun p hp => ?_⟩
      rw [howner p]
      · exact hall p hp
      · intro hin
        have hnone := hnew p hin
        rw [hall p hp] at hnone
        cases hnone
    · rw [hgroup, if_pos rfl]
      exact ⟨members, rfl, hne, hjoin⟩
  · intro s
    by_cases heq : s = place
    · subst heq
      rw [hhere]
      exact (h.nodup s).append (List.nodup_singleton g)
        (List.disjoint_singleton.mpr (hfree s))
    · rw [helse s heq]
      exact h.nodup s
  · intro g' s s' hs hs'
    rcases hmem.mp hs with hs | ⟨rfl, rfl⟩
    · rcases hmem.mp hs' with hs' | ⟨rfl, rfl⟩
      · exact h.once hs hs'
      · exact absurd hs (hfree s)
    · rcases hmem.mp hs' with hs' | ⟨-, rfl⟩
      · exact absurd hs' (hfree s')
      · rfl

/-- A group moves to another place for groups with its tag. -/
theorem move {g : G} [DecidableEq G] (h : l.Coherent tag) (source target : S)
    (hg : g ∈ l.stored source) (hne : target ≠ source) (htag : tag target = tag source)
    (howner : l'.owner = l.owner) (hgroup : l'.group = l.group)
    (hsource : l'.stored source = (l.stored source).erase g)
    (htarget : l'.stored target = l.stored target ++ [g])
    (helse : ∀ s, s ≠ source → s ≠ target → l'.stored s = l.stored s) : l'.Coherent tag := by
  have hmem : ∀ {g' s}, g' ∈ l'.stored s →
      (g' ≠ g ∧ g' ∈ l.stored s) ∨ (g' = g ∧ s = target) := by
    intro g' s hg'
    by_cases hs : s = source
    · subst hs
      rw [hsource, (h.nodup s).mem_erase_iff] at hg'
      exact Or.inl hg'
    · by_cases ht : s = target
      · subst ht
        rw [htarget, List.mem_append, List.mem_singleton] at hg'
        rcases hg' with hold | rfl
        · refine Or.inl ⟨?_, hold⟩
          rintro rfl
          exact hs (h.once hold hg)
        · exact Or.inr ⟨rfl, rfl⟩
      · rw [helse s hs ht] at hg'
        refine Or.inl ⟨?_, hg'⟩
        rintro rfl
        exact hs (h.once hg' hg)
  have hkeep : ∀ {g' s}, g' ≠ g → g' ∈ l.stored s → g' ∈ l'.stored s := by
    intro g' s hother hg'
    by_cases hs : s = source
    · subst hs
      rw [hsource, (h.nodup s).mem_erase_iff]
      exact ⟨hother, hg'⟩
    · by_cases ht : s = target
      · subst ht
        rw [htarget]
        exact List.mem_append_left _ hg'
      · rwa [helse s hs ht]
  constructor
  · intro p g' hp
    rw [howner] at hp
    rw [hgroup]
    exact h.listed hp
  · intro p g' hp
    rw [howner] at hp
    obtain ⟨s, hs⟩ := h.kept hp
    by_cases heq : g' = g
    · refine ⟨target, ?_⟩
      rw [htarget, heq]
      exact List.mem_append_right _ (List.mem_singleton_self g)
    · exact ⟨s, hkeep heq hs⟩
  · intro g' s hg'
    rw [hgroup, howner]
    rcases hmem hg' with ⟨-, hg'⟩ | ⟨rfl, rfl⟩
    · exact h.owned hg'
    · rw [htag]
      exact h.owned hg
  · intro s
    by_cases hs : s = source
    · subst hs
      rw [hsource]
      exact (h.nodup s).erase g
    · by_cases ht : s = target
      · subst ht
        rw [htarget]
        refine (h.nodup s).append (List.nodup_singleton g) (List.disjoint_singleton.mpr ?_)
        exact fun hin => hs (h.once hin hg)
      · rw [helse s hs ht]
        exact h.nodup s
  · intro g' s s' hs hs'
    rcases hmem hs with ⟨hother, hs⟩ | ⟨rfl, rfl⟩
    · rcases hmem hs' with ⟨-, hs'⟩ | ⟨rfl, -⟩
      · exact h.once hs hs'
      · exact absurd rfl hother
    · rcases hmem hs' with ⟨hother, -⟩ | ⟨-, rfl⟩
      · exact absurd rfl hother
      · rfl

end Coherent

end Layout

end TwowCore.Lib
