import TwowCore.Battlegrounds.Update

/-!
# What the checks put into a selection pool

`Kept` is what the loops of the two checks keep of a pool: its groups are allowed, its count is the
sum of their sizes, and that is not above the maximum. That the groups are distinct is not kept: a
loop that begins with groups in the pool may take one of them again. `NoneTaken` and `NoneCaught`
say that it does not, and `walk_nodup_iff` and `balance_nodup_iff` that this is all that is needed.
-/

namespace TwowCore.Battlegrounds

namespace SelectionPool

variable (infos : GroupPtr → Option GroupQueueInfo) (world : ObjectGuid → Option WorldPlayer)

section AddGroup

variable {infos world} {pool : SelectionPool} {ptr : GroupPtr} {desiredCount : ℕ}
  {bgInstanceId : UInt32}

theorem addGroup_of_takes (h : Takes infos world pool.playerCount ptr desiredCount bgInstanceId) :
    pool.addGroup infos world ptr desiredCount bgInstanceId =
      (true, ⟨pool.selectedGroups ++ [ptr], pool.playerCount + sizeOf infos ptr⟩) :=
  if_pos h

theorem addGroup_of_not_takes
    (h : ¬Takes infos world pool.playerCount ptr desiredCount bgInstanceId) :
    pool.addGroup infos world ptr desiredCount bgInstanceId =
      (decide (pool.playerCount < desiredCount), pool) :=
  if_neg h

/-- A group that is taken waits, and there is room for it. -/
theorem Takes.spec {count : ℕ} (h : Takes infos world count ptr desiredCount bgInstanceId) :
    (∃ g, infos ptr = some g ∧ g.Waits) ∧ count + sizeOf infos ptr ≤ desiredCount := by
  unfold Takes at h
  split at h
  · exact h.elim
  · next g hg =>
    refine ⟨⟨g, hg, h.1⟩, ?_⟩
    unfold sizeOf
    rw [hg]
    exact h.2.2.1

end AddGroup

section Kept

/-- The groups of the pool are allowed, the count is right, and it is not above the maximum. -/
structure Kept (Allowed : GroupPtr → Prop) (maxPlayers : ℕ) (pool : SelectionPool) : Prop where
  allowed : ∀ ptr ∈ pool.selectedGroups, Allowed ptr
  counted : pool.playerCount = (pool.selectedGroups.map (sizeOf infos)).sum
  fits : pool.playerCount ≤ maxPlayers

variable {infos world} {Allowed : GroupPtr → Prop} {maxPlayers : ℕ} {pool : SelectionPool}

theorem Kept.init : Kept infos Allowed maxPlayers SelectionPool.init :=
  ⟨fun _ h => (List.not_mem_nil h).elim, rfl, Nat.zero_le _⟩

theorem Kept.addGroup (h : Kept infos Allowed maxPlayers pool) {ptr : GroupPtr}
    {desiredCount : ℕ} (hdesired : desiredCount ≤ maxPlayers)
    (hallowed : ∀ g, infos ptr = some g → g.Waits → Allowed ptr) :
    Kept infos Allowed maxPlayers (pool.addGroup infos world ptr desiredCount 0).2 := by
  by_cases htakes : Takes infos world pool.playerCount ptr desiredCount 0
  · obtain ⟨⟨g, hg, hwaits⟩, hroom⟩ := htakes.spec
    rw [addGroup_of_takes htakes]
    refine ⟨?_, ?_, Nat.le_trans hroom hdesired⟩
    · intro other hother
      rcases List.mem_append.mp hother with hold | hnew
      · exact h.allowed other hold
      · rw [List.mem_singleton.mp hnew]
        exact hallowed g hg hwaits
    · show pool.playerCount + sizeOf infos ptr = _
      rw [List.map_append, List.sum_append, h.counted]
      simp
  · rw [addGroup_of_not_takes htakes]
    exact h

theorem Kept.walk {eligible : GroupPtr → Bool} {minPlayers : ℕ} {groups : List GroupPtr}
    (h : Kept infos Allowed maxPlayers pool)
    (hallowed : ∀ ptr ∈ groups, ∀ g, infos ptr = some g → g.Waits → Allowed ptr) :
    Kept infos Allowed maxPlayers
      (pool.walk infos world eligible minPlayers maxPlayers groups).1 := by
  induction groups generalizing pool with
  | nil => exact h
  | cons ptr rest ih =>
      have hrest : ∀ other ∈ rest, ∀ g, infos other = some g → g.Waits → Allowed other :=
        fun other hother => hallowed other (List.mem_cons_of_mem _ hother)
      have hadd : Kept infos Allowed maxPlayers
          (pool.addGroup infos world ptr maxPlayers 0).2 :=
        h.addGroup (Nat.le_refl maxPlayers) (hallowed ptr List.mem_cons_self)
      unfold SelectionPool.walk
      split
      · simp only
        split
        · exact hadd
        · exact ih hadd hrest
      · exact ih h hrest

theorem Kept.balance {eligible : GroupPtr → Bool} {desiredCount : ℕ} {groups : List GroupPtr}
    (h : Kept infos Allowed maxPlayers pool) (hdesired : desiredCount ≤ maxPlayers)
    (hallowed : ∀ ptr ∈ groups, ∀ g, infos ptr = some g → g.Waits → Allowed ptr) :
    Kept infos Allowed maxPlayers
      (pool.balance infos world eligible desiredCount groups) := by
  induction groups generalizing pool with
  | nil => exact h
  | cons ptr rest ih =>
      have hrest : ∀ other ∈ rest, ∀ g, infos other = some g → g.Waits → Allowed other :=
        fun other hother => hallowed other (List.mem_cons_of_mem _ hother)
      have hadd : Kept infos Allowed maxPlayers
          (pool.addGroup infos world ptr desiredCount 0).2 :=
        h.addGroup hdesired (hallowed ptr List.mem_cons_self)
      unfold SelectionPool.balance
      split
      · split
        · next pool' heq =>
          rw [heq] at hadd
          exact ih hadd hrest
        · next pool' heq =>
          rw [heq] at hadd
          exact hadd
      · exact ih h hrest

end Kept

section Leftover

variable (eligible : GroupPtr → Bool) (leftover : List GroupPtr)

/-- Going through the list with so many players in the pool, each group that waits and fits before
the minimum is reached is not left over in the pool. -/
def NoneTaken (minPlayers maxPlayers : ℕ) : ℕ → List GroupPtr → Prop
  | _, [] => True
  | count, ptr :: rest =>
      if eligible ptr then
        if Takes infos world count ptr maxPlayers 0 then
          ptr ∉ leftover ∧ (count + sizeOf infos ptr < minPlayers →
            NoneTaken minPlayers maxPlayers (count + sizeOf infos ptr) rest)
        else count < minPlayers → NoneTaken minPlayers maxPlayers count rest
      else NoneTaken minPlayers maxPlayers count rest

/-- Where the loop over the list stops: the players in the pool then, and the list from the group it
has stopped at. -/
def stop (minPlayers maxPlayers : ℕ) : ℕ → List GroupPtr → ℕ × List GroupPtr
  | count, [] => (count, [])
  | count, ptr :: rest =>
      if eligible ptr then
        if Takes infos world count ptr maxPlayers 0 then
          if minPlayers ≤ count + sizeOf infos ptr then (count + sizeOf infos ptr, ptr :: rest)
          else stop minPlayers maxPlayers (count + sizeOf infos ptr) rest
        else
          if minPlayers ≤ count then (count, ptr :: rest)
          else stop minPlayers maxPlayers count rest
      else stop minPlayers maxPlayers count rest

/-- The same for the loop that tries to give both sides the same number of players. -/
def NoneCaught (desiredCount : ℕ) : ℕ → List GroupPtr → Prop
  | _, [] => True
  | count, ptr :: rest =>
      if eligible ptr then
        if Takes infos world count ptr desiredCount 0 then
          ptr ∉ leftover ∧ NoneCaught desiredCount (count + sizeOf infos ptr) rest
        else count < desiredCount → NoneCaught desiredCount count rest
      else NoneCaught desiredCount count rest

variable {infos world eligible leftover} {minPlayers maxPlayers desiredCount count : ℕ}
  {groups : List GroupPtr} {pool : SelectionPool}

/-- Only the groups of the list count among the leftovers. -/
theorem noneTaken_congr {leftover' : List GroupPtr}
    (h : ∀ ptr ∈ groups, ptr ∈ leftover ↔ ptr ∈ leftover') :
    NoneTaken infos world eligible leftover minPlayers maxPlayers count groups ↔
      NoneTaken infos world eligible leftover' minPlayers maxPlayers count groups := by
  induction groups generalizing count with
  | nil => exact Iff.rfl
  | cons ptr rest ih =>
      have hrest : ∀ count, NoneTaken infos world eligible leftover minPlayers maxPlayers count rest ↔
        NoneTaken infos world eligible leftover' minPlayers maxPlayers count rest :=
        fun count => ih fun other hother => h other (List.mem_cons_of_mem _ hother)
      unfold NoneTaken
      simp only [hrest, h ptr List.mem_cons_self]

theorem noneCaught_congr {leftover' : List GroupPtr}
    (h : ∀ ptr ∈ groups, ptr ∈ leftover ↔ ptr ∈ leftover') :
    NoneCaught infos world eligible leftover desiredCount count groups ↔
      NoneCaught infos world eligible leftover' desiredCount count groups := by
  induction groups generalizing count with
  | nil => exact Iff.rfl
  | cons ptr rest ih =>
      have hrest : ∀ count, NoneCaught infos world eligible leftover desiredCount count rest ↔
        NoneCaught infos world eligible leftover' desiredCount count rest :=
        fun count => ih fun other hother => h other (List.mem_cons_of_mem _ hother)
      unfold NoneCaught
      simp only [hrest, h ptr List.mem_cons_self]

/-- Nothing that is left over, nothing of it is taken. -/
theorem noneTaken_nil :
    NoneTaken infos world eligible [] minPlayers maxPlayers count groups := by
  induction groups generalizing count with
  | nil => trivial
  | cons ptr rest ih =>
      unfold NoneTaken
      split
      · split
        · exact ⟨List.not_mem_nil, fun _ => ih⟩
        · exact fun _ => ih
      · exact ih

/-- The loop of the checks stops where `stop` says. -/
theorem walk_stop :
    ((pool.walk infos world eligible minPlayers maxPlayers groups).1.playerCount,
        (pool.walk infos world eligible minPlayers maxPlayers groups).2) =
      stop infos world eligible minPlayers maxPlayers pool.playerCount groups := by
  induction groups generalizing pool with
  | nil => rfl
  | cons ptr rest ih =>
      unfold SelectionPool.walk stop
      by_cases hel : eligible ptr
      · rw [if_pos hel, if_pos hel]
        by_cases htakes : Takes infos world pool.playerCount ptr maxPlayers 0
        · rw [if_pos htakes, addGroup_of_takes htakes]
          simp only
          by_cases hmin : minPlayers ≤ pool.playerCount + sizeOf infos ptr
          · rw [if_pos hmin, if_pos hmin]
          · rw [if_neg hmin, if_neg hmin]
            exact ih
        · rw [if_neg htakes, addGroup_of_not_takes htakes]
          simp only
          by_cases hmin : minPlayers ≤ pool.playerCount
          · rw [if_pos hmin, if_pos hmin]
          · rw [if_neg hmin, if_neg hmin]
            exact ih
      · rw [if_neg hel, if_neg hel]
        exact ih

/-- What is left of a list is the end of it. -/
theorem walk_suffix :
    (pool.walk infos world eligible minPlayers maxPlayers groups).2 <:+ groups := by
  induction groups generalizing pool with
  | nil => exact List.suffix_refl _
  | cons ptr rest ih =>
      unfold SelectionPool.walk
      split
      · simp only
        split
        · exact List.suffix_refl _
        · exact ih.trans (List.suffix_cons ptr rest)
      · exact ih.trans (List.suffix_cons ptr rest)

/-- A group another one is tried before is in the pool after it if it was there before. -/
theorem mem_addGroup_of_ne {ptr other : GroupPtr} (hne : other ≠ ptr) :
    other ∈ (pool.addGroup infos world ptr desiredCount 0).2.selectedGroups ↔
      other ∈ pool.selectedGroups := by
  by_cases htakes : Takes infos world pool.playerCount ptr desiredCount 0
  · rw [addGroup_of_takes htakes]
    show other ∈ pool.selectedGroups ++ [ptr] ↔ _
    rw [List.mem_append, List.mem_singleton, or_iff_left hne]
  · rw [addGroup_of_not_takes htakes]

/-- The groups behind the one the loop has stopped at are in the pool only if they were before. -/
theorem mem_walk_of_tail (hnodup : groups.Nodup) {other : GroupPtr}
    (hother : other ∈ (pool.walk infos world eligible minPlayers maxPlayers groups).2.tail) :
    other ∈ (pool.walk infos world eligible minPlayers maxPlayers groups).1.selectedGroups ↔
      other ∈ pool.selectedGroups := by
  induction groups generalizing pool with
  | nil => exact Iff.rfl
  | cons ptr rest ih =>
      obtain ⟨hnot, hnodup⟩ := List.nodup_cons.mp hnodup
      unfold SelectionPool.walk at hother ⊢
      by_cases hel : eligible ptr
      · simp only [if_pos hel] at hother ⊢
        by_cases hmin : minPlayers ≤ (pool.addGroup infos world ptr maxPlayers 0).2.playerCount
        · rw [if_pos hmin] at hother ⊢
          refine mem_addGroup_of_ne ?_
          rintro rfl
          exact hnot hother
        · rw [if_neg hmin] at hother ⊢
          refine (ih hnodup hother).trans (mem_addGroup_of_ne ?_)
          rintro rfl
          exact hnot (walk_suffix.subset (List.mem_of_mem_tail hother))
      · simp only [if_neg hel] at hother ⊢
        exact ih hnodup hother

/-- Adding a group at the end of a pool keeps it distinct if the group is not there. -/
theorem nodup_concat {ptr : GroupPtr} {selected : List GroupPtr} :
    (selected ++ [ptr]).Nodup ↔ selected.Nodup ∧ ptr ∉ selected := by
  rw [List.nodup_append_comm, List.singleton_append, List.nodup_cons, and_comm]

/-- The groups of a pool are distinct after the loop exactly if they were before it and none that is
left over is taken. -/
theorem walk_nodup_iff (hnodup : groups.Nodup) :
    (pool.walk infos world eligible minPlayers maxPlayers groups).1.selectedGroups.Nodup ↔
      pool.selectedGroups.Nodup ∧ NoneTaken infos world eligible pool.selectedGroups minPlayers
        maxPlayers pool.playerCount groups := by
  induction groups generalizing pool with
  | nil => exact (and_iff_left trivial).symm
  | cons ptr rest ih =>
      obtain ⟨hnot, hnodup⟩ := List.nodup_cons.mp hnodup
      unfold SelectionPool.walk NoneTaken
      by_cases hel : eligible ptr
      · simp only [if_pos hel]
        by_cases htakes : Takes infos world pool.playerCount ptr maxPlayers 0
        · rw [if_pos htakes, addGroup_of_takes htakes]
          have hcongr : ∀ count,
              NoneTaken infos world eligible (pool.selectedGroups ++ [ptr]) minPlayers maxPlayers
                count rest ↔
              NoneTaken infos world eligible pool.selectedGroups minPlayers maxPlayers count
                rest := by
            intro count
            refine noneTaken_congr fun other hother => ?_
            rw [List.mem_append, List.mem_singleton, or_iff_left]
            rintro rfl
            exact hnot hother
          simp only
          by_cases hmin : minPlayers ≤ pool.playerCount + sizeOf infos ptr
          · rw [if_pos hmin]
            simp only [Nat.not_lt.mpr hmin, false_imp_iff, and_true]
            exact nodup_concat
          · rw [if_neg hmin, ih hnodup]
            simp only [hcongr, nodup_concat, Nat.lt_of_not_le hmin, true_imp_iff, and_assoc]
        · rw [if_neg htakes, addGroup_of_not_takes htakes]
          simp only
          by_cases hmin : minPlayers ≤ pool.playerCount
          · rw [if_pos hmin]
            simp only [Nat.not_lt.mpr hmin, false_imp_iff, and_true]
          · rw [if_neg hmin, ih hnodup]
            simp only [Nat.lt_of_not_le hmin, true_imp_iff]
      · simp only [if_neg hel]
        exact ih hnodup

/-- The same for the loop that evens out the two sides. -/
theorem balance_nodup_iff (hnodup : groups.Nodup) :
    (pool.balance infos world eligible desiredCount groups).selectedGroups.Nodup ↔
      pool.selectedGroups.Nodup ∧ NoneCaught infos world eligible pool.selectedGroups desiredCount
        pool.playerCount groups := by
  induction groups generalizing pool with
  | nil => exact (and_iff_left trivial).symm
  | cons ptr rest ih =>
      obtain ⟨hnot, hnodup⟩ := List.nodup_cons.mp hnodup
      unfold SelectionPool.balance NoneCaught
      by_cases hel : eligible ptr
      · simp only [if_pos hel]
        by_cases htakes : Takes infos world pool.playerCount ptr desiredCount 0
        · rw [if_pos htakes, addGroup_of_takes htakes]
          have hcongr : ∀ count,
              NoneCaught infos world eligible (pool.selectedGroups ++ [ptr]) desiredCount count
                rest ↔
              NoneCaught infos world eligible pool.selectedGroups desiredCount count rest := by
            intro count
            refine noneCaught_congr fun other hother => ?_
            rw [List.mem_append, List.mem_singleton, or_iff_left]
            rintro rfl
            exact hnot hother
          simp only
          rw [ih hnodup]
          simp only [hcongr, nodup_concat, and_assoc]
        · rw [if_neg htakes, addGroup_of_not_takes htakes]
          by_cases hless : pool.playerCount < desiredCount
          · rw [decide_eq_true hless]
            simp only [hless, true_imp_iff]
            exact ih hnodup
          · rw [decide_eq_false hless]
            simp only [hless, false_imp_iff, and_true]
      · simp only [if_neg hel]
        exact ih hnodup

end Leftover

end SelectionPool

end TwowCore.Battlegrounds
