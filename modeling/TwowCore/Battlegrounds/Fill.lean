import TwowCore.Battlegrounds.Matches

/-!
# Filling a battleground that is running

`FillPlayersToBG` gives each side groups up to its free slots and then kicks and adds groups until the two
sides are even. `Side` is what the two pools keep of their lists, `weight` is what every turn of the loop
lessens.
-/

namespace TwowCore.Battlegrounds

namespace SelectionPool

variable {infos : GroupPtr → Option GroupQueueInfo} {world : ObjectGuid → Option WorldPlayer}

/-- The pool of a side with so many free slots, and the groups it has still to try. -/
structure Side (infos : GroupPtr → Option GroupQueueInfo) (free : ℕ) (pool : SelectionPool)
    (rest : List GroupPtr) : Prop where
  counted : pool.playerCount = (pool.selectedGroups.map (sizeOf infos)).sum
  fits : pool.playerCount ≤ free
  distinct : (pool.selectedGroups ++ rest).Nodup

/-- What is left to do with a side: a group that is not read can be added and kicked. -/
def weight (pool : SelectionPool) (rest : List GroupPtr) : ℕ :=
  2 * rest.length + pool.selectedGroups.length

variable {free : ℕ} {pool : SelectionPool} {rest : List GroupPtr}

/-- A list of distinct groups beside an empty pool. -/
theorem side_init (h : rest.Nodup) : Side infos free init rest := ⟨rfl, Nat.zero_le _, h⟩

/-- Groups that are read are added or passed over. -/
theorem Side.addWhile (world : ObjectGuid → Option WorldPlayer) (h : Side infos free pool rest)
    {desiredCount : ℕ} (hdesired : desiredCount ≤ free)
    (bgInstanceId : UInt32) :
    Side infos free (pool.addWhile infos world desiredCount bgInstanceId rest).1
        (pool.addWhile infos world desiredCount bgInstanceId rest).2 ∧
      (pool.addWhile infos world desiredCount bgInstanceId rest = (pool, rest) ∨
        weight (pool.addWhile infos world desiredCount bgInstanceId rest).1
          (pool.addWhile infos world desiredCount bgInstanceId rest).2 < weight pool rest) := by
  have hle : ∀ {pool' rest'} {added : SelectionPool × List GroupPtr},
      added = (pool', rest') ∨ weight added.1 added.2 < weight pool' rest' →
        weight added.1 added.2 ≤ weight pool' rest' := by
    rintro pool' rest' added (rfl | hlt)
    · exact le_rfl
    · exact hlt.le
  induction rest generalizing pool with
  | nil => exact ⟨h, Or.inl rfl⟩
  | cons ptr rest ih =>
      unfold SelectionPool.addWhile
      by_cases htakes : Takes infos world pool.playerCount ptr desiredCount bgInstanceId
      · rw [addGroup_of_takes htakes]
        have hadded : Side infos free
            ⟨pool.selectedGroups ++ [ptr], pool.playerCount + sizeOf infos ptr⟩ rest := by
          refine ⟨?_, htakes.spec.2.trans hdesired, ?_⟩
          · show pool.playerCount + sizeOf infos ptr = _
            rw [List.map_append, List.sum_append, h.counted, List.map_singleton, List.sum_singleton]
          · show (pool.selectedGroups ++ [ptr] ++ rest).Nodup
            rw [List.append_assoc]
            exact h.distinct
        obtain ⟨hside, hweight⟩ := ih hadded
        refine ⟨hside, Or.inr (Nat.lt_of_le_of_lt (hle hweight) ?_)⟩
        unfold weight
        rw [List.length_append, List.length_singleton, List.length_cons]
        omega
      · rw [addGroup_of_not_takes htakes]
        cases decide (pool.playerCount < desiredCount) with
        | false => exact ⟨h, Or.inl rfl⟩
        | true =>
            have hpassed : Side infos free pool rest :=
              ⟨h.counted, h.fits,
                h.distinct.sublist (List.Sublist.append_left (List.sublist_cons_self _ _) _)⟩
            obtain ⟨hside, hweight⟩ := ih hpassed
            refine ⟨hside, Or.inr (Nat.lt_of_le_of_lt (hle hweight) ?_)⟩
            unfold weight
            rw [List.length_cons]
            omega

/-- The loop stops at one of the groups it has gone through. -/
theorem kickIndex_lt (infos : GroupPtr → Option GroupQueueInfo) (size : ℕ)
    (groups : List GroupPtr) (index kick kickSize : ℕ) (found : Bool)
    (hkick : kick < index + groups.length) :
    kickIndex infos size groups index kick kickSize found < index + groups.length := by
  induction groups generalizing index kick kickSize found with
  | nil => exact hkick
  | cons ptr rest ih =>
      have hnext : index + (ptr :: rest).length = index + 1 + rest.length := by
        rw [List.length_cons]
        omega
      unfold kickIndex
      rw [hnext] at hkick ⊢
      split_ifs
      · exact ih _ _ _ _ (by omega)
      · exact ih _ _ _ _ (by omega)
      · exact ih _ _ _ _ hkick

/-- One group is kicked, unless nobody is in the pool. -/
theorem Side.kickGroup (h : Side infos free pool rest) (size : ℕ) :
    Side infos free (pool.kickGroup infos size).2 rest ∧
      (pool.playerCount = 0 → pool.kickGroup infos size = (true, pool)) ∧
      (0 < pool.playerCount →
        weight (pool.kickGroup infos size).2 rest < weight pool rest) := by
  unfold SelectionPool.kickGroup
  by_cases hnobody : pool.playerCount = 0
  · rw [if_pos hnobody]
    exact ⟨h, fun _ => rfl, fun hpos => absurd hnobody (Nat.ne_of_gt hpos)⟩
  · rw [if_neg hnobody]
    have hsome : 0 < pool.selectedGroups.length := by
      rcases Nat.eq_zero_or_pos pool.selectedGroups.length with hnil | hpos
      · rw [h.counted, List.length_eq_zero_iff.mp hnil] at hnobody
        exact absurd rfl hnobody
      · exact hpos
    have hindex := kickIndex_lt infos size pool.selectedGroups 0 0
      (sizeOf infos (pool.selectedGroups.headD 0)) false (by omega)
    rw [Nat.zero_add] at hindex
    have hsum := ((List.getElem_cons_eraseIdx_perm hindex).map (sizeOf infos)).sum_eq
    rw [List.map_cons, List.sum_cons] at hsum
    refine ⟨⟨?_, ?_, ?_⟩, fun hzero => absurd hzero hnobody, fun _ => ?_⟩
    · show pool.playerCount - sizeOf infos (pool.selectedGroups.getD _ _) =
        ((pool.selectedGroups.eraseIdx _).map (sizeOf infos)).sum
      rw [List.getD_eq_getElem _ _ hindex, h.counted]
      omega
    · exact (Nat.sub_le _ _).trans h.fits
    · exact h.distinct.sublist (List.Sublist.append_right (List.eraseIdx_sublist _ _) _)
    · unfold weight
      show 2 * rest.length + (pool.selectedGroups.eraseIdx _).length < _
      rw [List.length_eraseIdx_of_lt hindex]
      omega

end SelectionPool

@[simp] theorem Team.other_ne (team : Team) : team.other ≠ team := by
  cases team <;> decide

@[simp] theorem Team.other_other (team : Team) : team.other.other = team := by
  cases team <;> rfl

theorem Team.eq_or_eq_other (team side : Team) : side = team ∨ side = team.other := by
  cases team <;> cases side <;> decide

namespace Filling

variable {infos : GroupPtr → Option GroupQueueInfo} {world : ObjectGuid → Option WorldPlayer}
  {bg : FreeSlotBG} {s s' : Filling}

/-- Both sides are kept. -/
def Sides (infos : GroupPtr → Option GroupQueueInfo) (bg : FreeSlotBG) (s : Filling) : Prop :=
  ∀ team, (s.pool team).Side infos (bg.freeSlots team) (s.rest team)

/-- What is left to do with one side. -/
def weight (s : Filling) (team : Team) : ℕ := (s.pool team).weight (s.rest team)

/-- The slots that are left are those that are free and not selected for. -/
theorem Sides.diff_nonneg (h : s.Sides infos bg) (team : Team) : 0 ≤ s.diff bg team := by
  have hfits := (h team).fits
  unfold diff
  omega

/-- Adding groups to one side does not touch the other. -/
theorem Sides.add (world : ObjectGuid → Option WorldPlayer) (h : s.Sides infos bg) (team : Team) {desiredCount : ℕ}
    (hdesired : desiredCount ≤ bg.freeSlots team) :
    (s.add infos world bg team desiredCount).Sides infos bg ∧
      (s.add infos world bg team desiredCount = s ∨
        (s.add infos world bg team desiredCount).weight team < s.weight team) ∧
      (s.add infos world bg team desiredCount).pool team.other = s.pool team.other ∧
      (s.add infos world bg team desiredCount).rest team.other = s.rest team.other := by
  obtain ⟨hside, hweight⟩ := (h team).addWhile world hdesired bg.clientInstanceId
  have hpool : (s.add infos world bg team desiredCount).pool team =
      ((s.pool team).addWhile infos world desiredCount bg.clientInstanceId (s.rest team)).1 :=
    Function.update_self _ _ _
  have hrest : (s.add infos world bg team desiredCount).rest team =
      ((s.pool team).addWhile infos world desiredCount bg.clientInstanceId (s.rest team)).2 :=
    Function.update_self _ _ _
  have hpool' : (s.add infos world bg team desiredCount).pool team.other = s.pool team.other :=
    Function.update_of_ne team.other_ne _ _
  have hrest' : (s.add infos world bg team desiredCount).rest team.other = s.rest team.other :=
    Function.update_of_ne team.other_ne _ _
  refine ⟨fun side => ?_, ?_, hpool', hrest'⟩
  · rcases team.eq_or_eq_other side with rfl | rfl
    · rw [hpool, hrest]
      exact hside
    · rw [hpool', hrest']
      exact h _
  · rcases hweight with hsame | hlt
    · left
      unfold Filling.add
      dsimp only
      rw [hsame, Function.update_eq_self, Function.update_eq_self]
    · right
      unfold Filling.weight
      rw [hpool, hrest]
      exact hlt

/-- Adding groups leaves no more to do. -/
theorem Sides.add_weight (world : ObjectGuid → Option WorldPlayer) (h : s.Sides infos bg) (team : Team)
    {desiredCount : ℕ} (hdesired : desiredCount ≤ bg.freeSlots team) :
    (s.add infos world bg team desiredCount).weight .alliance +
        (s.add infos world bg team desiredCount).weight .horde ≤
      s.weight .alliance + s.weight .horde := by
  obtain ⟨-, hweight, hpool, hrest⟩ := h.add world team hdesired
  rcases hweight with hsame | hlt
  · rw [hsame]
  · have hother : (s.add infos world bg team desiredCount).weight team.other =
        s.weight team.other := by
      unfold Filling.weight
      rw [hpool, hrest]
    cases team
    · exact Nat.add_le_add hlt.le (le_of_eq hother)
    · exact Nat.add_le_add (le_of_eq hother) hlt.le

/-- Kicking from one side does not touch the other. -/
theorem Sides.kick (h : s.Sides infos bg) (team : Team) (size : ℕ) :
    (s.kick infos team size).2.Sides infos bg ∧
      ((s.pool team).playerCount = 0 → s.kick infos team size = (true, s)) ∧
      (0 < (s.pool team).playerCount → (s.kick infos team size).2.weight team < s.weight team) ∧
      (s.kick infos team size).2.pool team.other = s.pool team.other ∧
      (s.kick infos team size).2.rest = s.rest := by
  obtain ⟨hside, hnobody, hweight⟩ := (h team).kickGroup size
  have hpool : (s.kick infos team size).2.pool team = ((s.pool team).kickGroup infos size).2 :=
    Function.update_self _ _ _
  have hpool' : (s.kick infos team size).2.pool team.other = s.pool team.other :=
    Function.update_of_ne team.other_ne _ _
  refine ⟨fun side => ?_, fun hzero => ?_, fun hpos => ?_, hpool', rfl⟩
  · rcases team.eq_or_eq_other side with rfl | rfl
    · rw [hpool]
      exact hside
    · rw [hpool']
      exact h _
  · unfold Filling.kick
    rw [hnobody hzero]
    dsimp only
    rw [Function.update_eq_self]
  · unfold Filling.weight
    rw [hpool]
    exact hweight hpos

/-- A side is kicked from and perhaps filled up again: somebody was kicked or added, or nothing has changed. -/
theorem Sides.kickAndAdd (world : ObjectGuid → Option WorldPlayer) (h : s.Sides infos bg)
    (team : Team) (size : ℕ) {desired : ℕ} (hdesired : desired ≤ bg.freeSlots team)
    {filled : Filling}
    (hfilled : (if (s.kick infos team size).1 then
      (s.kick infos team size).2.add infos world bg team desired
    else (s.kick infos team size).2) = filled) :
    filled.Sides infos bg ∧ filled.pool team.other = s.pool team.other ∧
      filled.weight team.other = s.weight team.other ∧
      (filled.weight team < s.weight team ∨
        (filled.weight team ≤ s.weight team ∧ (s.pool team).playerCount = 0 ∧
          (filled.pool team).playerCount = 0)) := by
  obtain ⟨hsides, hnobody, hless, hpool, hrest⟩ := h.kick team size
  have hstep : filled.Sides infos bg ∧
      (filled = (s.kick infos team size).2 ∨
        filled.weight team < (s.kick infos team size).2.weight team) ∧
      filled.pool team.other = s.pool team.other ∧ filled.rest team.other = s.rest team.other := by
    rw [← hfilled]
    split_ifs
    · obtain ⟨hadded, hweight, hpoolOther, hrestOther⟩ := hsides.add world team hdesired
      exact ⟨hadded, hweight, hpoolOther.trans hpool,
        hrestOther.trans (congrFun hrest team.other)⟩
    · exact ⟨hsides, Or.inl rfl, hpool, congrFun hrest team.other⟩
  obtain ⟨hfilledSides, hweight, hpoolOther, hrestOther⟩ := hstep
  have hweightOther : filled.weight team.other = s.weight team.other := by
    unfold Filling.weight
    rw [hpoolOther, hrestOther]
  refine ⟨hfilledSides, hpoolOther, hweightOther, ?_⟩
  rcases Nat.eq_zero_or_pos (s.pool team).playerCount with hzero | hpos
  · rw [hnobody hzero] at hweight
    rcases hweight with hfilledSame | hlt
    · rw [hfilledSame]
      exact Or.inr ⟨le_rfl, hzero, hzero⟩
    · exact Or.inl hlt
  · have hkick := hless hpos
    rcases hweight with hfilledSame | hlt
    · rw [hfilledSame]
      exact Or.inl hkick
    · exact Or.inl (hlt.trans hkick)

/-- One turn lessens what is left to do, or the loop is left: then nobody of the side with fewer free slots
is selected, and its slots are at most one more than those left to the other. -/
theorem Sides.evenOut (world : ObjectGuid → Option WorldPlayer) (h : s.Sides infos bg) (team : Team)
    (hsome : 0 < (s.pool team).playerCount ∨ 0 < (s.pool team.other).playerCount) :
    (s.evenOut infos world bg team).2.Sides infos bg ∧
      ((s.evenOut infos world bg team).1 = true →
        (s.evenOut infos world bg team).2.weight team +
          (s.evenOut infos world bg team).2.weight team.other <
            s.weight team + s.weight team.other) ∧
      ((s.evenOut infos world bg team).1 = false →
        ((s.evenOut infos world bg team).2.pool team).playerCount = 0 ∧
          (s.evenOut infos world bg team).2.diff bg team = bg.freeSlots team ∧
          (s.evenOut infos world bg team).2.diff bg team.other = s.diff bg team.other ∧
          (bg.freeSlots team : ℤ) ≤ s.diff bg team.other + 1) := by
  have hother := h.diff_nonneg team.other
  have hdesired : ((bg.freeSlots team : ℤ) - s.diff bg team.other).toNat ≤ bg.freeSlots team := by
    omega
  obtain ⟨filled, hfilled⟩ : ∃ filled,
      (if (s.kick infos team (s.diff bg team.other - s.diff bg team).toNat).1 then
        (s.kick infos team (s.diff bg team.other - s.diff bg team).toNat).2.add infos world bg team
          ((bg.freeSlots team : ℤ) - s.diff bg team.other).toNat
      else (s.kick infos team (s.diff bg team.other - s.diff bg team).toNat).2) = filled := ⟨_, rfl⟩
  obtain ⟨hfilledSides, hpoolOther, hweightOther, hprogress⟩ :=
    h.kickAndAdd world team _ hdesired hfilled
  have hdiffOther : filled.diff bg team.other = s.diff bg team.other := by
    unfold diff
    rw [hpoolOther]
  have heq : s.evenOut infos world bg team =
      if (filled.pool team).playerCount = 0 then
        if (bg.freeSlots team : ℤ) ≤ s.diff bg team.other + 1 then (false, filled)
        else (true, (filled.kick infos team.other
          (s.diff bg team.other - s.diff bg team).toNat).2)
      else (true, filled) := by
    unfold Filling.evenOut
    simp only [hfilled]
  rw [heq]
  split_ifs with hempty hbreak
  · -- nobody is selected for the side, so all its slots are free
    have hdiff : filled.diff bg team = bg.freeSlots team := by
      unfold diff
      rw [hempty]
      omega
    exact ⟨hfilledSides, nofun, fun _ => ⟨hempty, hdiff, hdiffOther, hbreak⟩⟩
  · obtain ⟨hlast, hnobody', hless', hpool', hrest'⟩ :=
      hfilledSides.kick team.other (s.diff bg team.other - s.diff bg team).toNat
    rw [Team.other_other] at hpool'
    have hteam : ((filled.kick infos team.other
        (s.diff bg team.other - s.diff bg team).toNat).2).weight team = filled.weight team := by
      unfold Filling.weight
      rw [hpool', hrest']
    refine ⟨hlast, fun _ => ?_, nofun⟩
    dsimp only
    rw [hteam]
    -- if the other side has nobody to kick, this side has lost one before
    rcases Nat.eq_zero_or_pos (filled.pool team.other).playerCount with hzero | hpos
    · rw [hnobody' hzero, hweightOther]
      rw [hpoolOther] at hzero
      have hpos : (s.pool team).playerCount ≠ 0 := by
        rcases hsome with hpos | hpos
        · exact Nat.ne_of_gt hpos
        · exact absurd hzero (Nat.ne_of_gt hpos)
      rcases hprogress with hlt | ⟨-, hnone, -⟩
      · omega
      · exact absurd hnone hpos
    · have hlt := hless' hpos
      rw [hweightOther] at hlt
      rcases hprogress with hlt' | ⟨hle, -⟩
      · omega
      · omega
  · refine ⟨hfilledSides, fun _ => ?_, nofun⟩
    show filled.weight team + filled.weight team.other < _
    rw [hweightOther]
    rcases hprogress with hlt | ⟨-, -, hnone⟩
    · omega
    · exact absurd hnone hempty

/-- The loop with a bound on its turns that it must not reach. -/
def evenOutRun (infos : GroupPtr → Option GroupQueueInfo) (world : ObjectGuid → Option WorldPlayer)
    (bg : FreeSlotBG) : ℕ → Filling → Option Filling
  | 0, _ => none
  | turns + 1, s =>
      if s.Uneven bg then
        match s.evenOut infos world bg
            (if s.diff bg .alliance < s.diff bg .horde then .alliance else .horde) with
        | (false, s') => some s'
        | (true, s') => evenOutRun infos world bg turns s'
      else some s

/-- The side whose turn it is. -/
def turnOf (bg : FreeSlotBG) (s : Filling) : Team := if s.diff bg .alliance < s.diff bg .horde then .alliance else .horde

/-- Some turn takes the `break` that its `+ 1` adds: nobody is selected for the side whose turn it is, its free slots
are one more than those left to the other side, and for that one somebody is selected. -/
def Slips (infos : GroupPtr → Option GroupQueueInfo) (world : ObjectGuid → Option WorldPlayer) (bg : FreeSlotBG) :
    ℕ → Filling → Prop
  | 0, _ => False
  | turns + 1, s =>
      s.Uneven bg ∧
        ((s.evenOut infos world bg (s.turnOf bg)).1 = true ∧
            Slips infos world bg turns (s.evenOut infos world bg (s.turnOf bg)).2 ∨
          (s.evenOut infos world bg (s.turnOf bg)).1 = false ∧
            (bg.freeSlots (s.turnOf bg) : ℤ) = s.diff bg (s.turnOf bg).other + 1 ∧
              0 < ((s.evenOut infos world bg (s.turnOf bg)).2.pool (s.turnOf bg).other).playerCount)

instance decidableSlips (infos : GroupPtr → Option GroupQueueInfo) (world : ObjectGuid → Option WorldPlayer)
    (bg : FreeSlotBG) : ∀ turns s, Decidable (Slips infos world bg turns s)
  | 0, _ => inferInstanceAs (Decidable False)
  | turns + 1, s =>
      have := decidableSlips infos world bg turns (s.evenOut infos world bg (s.turnOf bg)).2
      inferInstanceAs (Decidable (_ ∧ (_ ∧ _ ∨ _ ∧ _)))

/-- How the loop is left: the sides are even, or nobody is selected for a side that has at most one more free
slot than the other; a slip is when it has one more and the other has players. -/
def Left (bg : FreeSlotBG) (slips : Prop) (s : Filling) : Prop :=
  (¬s.Uneven bg ∧ ¬slips) ∨
    ∃ team, (s.pool team).playerCount = 0 ∧ s.diff bg team ≤ s.diff bg team.other + 1 ∧
      (slips ↔ s.diff bg team = s.diff bg team.other + 1 ∧ 0 < (s.pool team.other).playerCount)

/-- The loop ends with fewer turns than there is left to do. -/
theorem Sides.evenOutRun (world : ObjectGuid → Option WorldPlayer) (h : s.Sides infos bg) {turns : ℕ}
    (hturns : s.weight .alliance + s.weight .horde < turns) :
    ∃ s', evenOutRun infos world bg turns s = some s' ∧ s.evenOutLoop infos world bg turns = s' ∧
      s'.Sides infos bg ∧ s'.Left bg (s.Slips infos world bg turns) := by
  induction turns generalizing s with
  | zero => exact absurd hturns (Nat.not_lt_zero _)
  | succ turns ih =>
      have hslips : s.Slips infos world bg (turns + 1) ↔ s.Uneven bg ∧ _ := Iff.rfl
      unfold Filling.evenOutRun Filling.evenOutLoop
      by_cases huneven : s.Uneven bg
      · rw [if_pos huneven, if_pos huneven]
        obtain ⟨team, hteam⟩ : ∃ team, s.turnOf bg = team := ⟨_, rfl⟩
        rw [hslips, and_iff_right huneven, hteam]
        unfold turnOf at hteam
        rw [hteam]
        have hsome : 0 < (s.pool team).playerCount ∨ 0 < (s.pool team.other).playerCount := by
          cases team
          · exact huneven.2.symm
          · exact huneven.2
        have hboth : ∀ s' : Filling, s'.weight team + s'.weight team.other =
            s'.weight .alliance + s'.weight .horde := by
          intro s'
          cases team
          · rfl
          · exact Nat.add_comm _ _
        obtain ⟨hsides, hless, hbreak⟩ := h.evenOut world team hsome
        cases hstep : s.evenOut infos world bg team with
        | mk goesOn s' =>
            rw [hstep] at hsides hless hbreak
            cases goesOn with
            | false =>
                obtain ⟨hnobody, hdiff, hother, hle⟩ := hbreak rfl
                dsimp only at hnobody hdiff hother
                refine ⟨s', rfl, rfl, hsides, Or.inr ⟨team, hnobody, ?_, ?_⟩⟩
                · rw [hdiff, hother]
                  exact hle
                · rw [hdiff, hother]
                  exact ⟨fun hslip => hslip.elim (fun h => absurd h.1 Bool.false_ne_true) And.right,
                    fun hslip => Or.inr ⟨rfl, hslip⟩⟩
            | true =>
                rw [or_iff_left fun hslip => absurd hslip.1.symm Bool.false_ne_true, and_iff_right rfl]
                have hlt := hless rfl
                rw [hboth, hboth] at hlt
                dsimp only at hlt
                exact ih hsides (by omega)
      · rw [if_neg huneven, if_neg huneven]
        exact ⟨s, rfl, rfl, h, Or.inl ⟨huneven, fun hslip => huneven hslip.1⟩⟩

end Filling

namespace BattleGroundQueue

variable (env : UpdateEnv)

/-- The pools are given groups up to the free slots of each side. -/
def filled (q : BattleGroundQueue) (bg : FreeSlotBG) : Filling :=
  ((⟨q.selectionPools, fun team => q.queuedGroups env.bracketId (.normal team)⟩ : Filling).add
    q.groupInfos env.world bg .alliance (bg.freeSlots .alliance)).add
      q.groupInfos env.world bg .horde (bg.freeSlots .horde)

/-- The turns that the loop has at most. -/
def mostTurns (q : BattleGroundQueue) : ℕ :=
  2 * ((q.queuedGroups env.bracketId (.normal .alliance)).length +
    (q.queuedGroups env.bracketId (.normal .horde)).length) + 1

variable {env} {q : BattleGroundQueue}

theorem filled_spec (bg : FreeSlotBG)
    (hnodup : ∀ team, (q.queuedGroups env.bracketId (.normal team)).Nodup) :
    (q.initPools.filled env bg).Sides q.groupInfos bg ∧
      (q.initPools.filled env bg).weight .alliance + (q.initPools.filled env bg).weight .horde <
        q.mostTurns env := by
  have hstart : (⟨q.initPools.selectionPools,
      fun team => q.queuedGroups env.bracketId (.normal team)⟩ : Filling).Sides q.groupInfos bg :=
    fun team => SelectionPool.side_init (hnodup team)
  have hali := hstart.add env.world .alliance le_rfl
  have hhorde := hali.1.add env.world .horde le_rfl
  have hle := (hali.1.add_weight env.world .horde le_rfl).trans
    (hstart.add_weight env.world .alliance le_rfl)
  refine ⟨hhorde.1, Nat.lt_of_le_of_lt hle ?_⟩
  unfold mostTurns Filling.weight SelectionPool.weight
  show 2 * (q.queuedGroups env.bracketId (.normal .alliance)).length + 0 +
    (2 * (q.queuedGroups env.bracketId (.normal .horde)).length + 0) < _
  omega

/-- The slots that are left to a side. -/
def remaining (q : BattleGroundQueue) (bg : FreeSlotBG) (team : Team) : ℤ :=
  (bg.freeSlots team : ℤ) - (q.selectionPools team).playerCount

/-- What the claim of a fill says of the pools: the loop that evens out the sides ends, and each pool has distinct
groups and the sum of their sizes, which the free slots of its side allow. -/
structure Filled (env : UpdateEnv) (bg : FreeSlotBG) (q q' : BattleGroundQueue) : Prop where
  ends : bg.isArena = false → env.config.invitationType ≠ 0 →
    ∃ s, Filling.evenOutRun q.groupInfos env.world bg (q.mostTurns env) (q.initPools.filled env bg) = some s ∧
      q'.selectionPools = s.pool
  counted : ∀ team, (q'.selectionPools team).playerCount =
    ((q'.selectionPools team).selectedGroups.map (SelectionPool.sizeOf q.groupInfos)).sum
  distinct : ∀ team, (q'.selectionPools team).selectedGroups.Nodup
  fits : ∀ team, (q'.selectionPools team).playerCount ≤ bg.freeSlots team

/-- With an invitation type the sides are even, or the side with fewer slots left has nobody selected, or neither
has. -/
def Even (env : UpdateEnv) (bg : FreeSlotBG) (q' : BattleGroundQueue) : Prop :=
  env.config.invitationType ≠ 0 →
    (q'.remaining bg .alliance - q'.remaining bg .horde).natAbs ≤ (if bg.typeId = battlegroundAV then 3 else 0) ∨
      (∃ team, q'.remaining bg team < q'.remaining bg team.other ∧ (q'.selectionPools team).playerCount = 0) ∨
      ∀ team, (q'.selectionPools team).playerCount = 0

/-- The loop of this fill slips, where that matters: one slot is within the tolerance of Alterac Valley. -/
def Slips (env : UpdateEnv) (bg : FreeSlotBG) (q : BattleGroundQueue) : Prop :=
  bg.isArena = false ∧ env.config.invitationType ≠ 0 ∧ bg.typeId ≠ battlegroundAV ∧
    (q.initPools.filled env bg).Slips q.groupInfos env.world bg (q.mostTurns env)

/-- A loop that is left with one slot more for the side without players has left the sides uneven. -/
theorem even_iff_of_left {bg : FreeSlotBG} {s : Filling} {slips : Prop} (h : s.Left bg slips) :
    ((s.diff bg .alliance - s.diff bg .horde).natAbs ≤ (if bg.typeId = battlegroundAV then 3 else 0) ∨
        (∃ team, s.diff bg team < s.diff bg team.other ∧ (s.pool team).playerCount = 0) ∨
        ∀ team, (s.pool team).playerCount = 0) ↔
      ¬(bg.typeId ≠ battlegroundAV ∧ slips) := by
  rcases h with ⟨heven, hno⟩ | ⟨team, hnobody, hle, hslips⟩
  · refine iff_of_true ?_ fun hslip => hno hslip.2
    rcases not_and_or.mp heven with hdiff | hnone
    · exact Or.inl (Nat.le_of_not_lt hdiff)
    · refine Or.inr (Or.inr fun team => ?_)
      obtain ⟨hhorde, hali⟩ := not_or.mp hnone
      cases team
      · exact Nat.eq_zero_of_not_pos hali
      · exact Nat.eq_zero_of_not_pos hhorde
  · have habs : (s.diff bg .alliance - s.diff bg .horde).natAbs =
        (s.diff bg team - s.diff bg team.other).natAbs := by
      cases team
      · rfl
      · rw [← Int.natAbs_neg, neg_sub]
        rfl
    rw [hslips, habs]
    rcases hle.lt_or_eq with hlt | heq
    · refine iff_of_true ?_ fun hslip => hlt.ne hslip.2.1
      rcases (Int.lt_add_one_iff.mp hlt).lt_or_eq with hless | hsame
      · exact Or.inr (Or.inl ⟨team, hless, hnobody⟩)
      · rw [hsame, sub_self]
        exact Or.inl (Nat.zero_le _)
    · have hone : (s.diff bg team - s.diff bg team.other).natAbs = 1 := by omega
      rw [hone]
      by_cases hav : bg.typeId = battlegroundAV
      · rw [if_pos hav]
        exact iff_of_true (Or.inl (by decide)) fun hslip => hslip.1 hav
      · rw [if_neg hav]
        constructor
        · rintro (hzero | ⟨side, hless, hside⟩ | hall) ⟨-, -, hsome⟩
          · exact absurd hzero (by decide)
          · rcases team.eq_or_eq_other side with rfl | rfl
            · omega
            · exact absurd hside (Nat.ne_of_gt hsome)
          · exact absurd (hall team.other) (Nat.ne_of_gt hsome)
        · intro hno
          refine Or.inr (Or.inr fun side => ?_)
          rcases team.eq_or_eq_other side with rfl | rfl
          · exact hnobody
          · exact Nat.eq_zero_of_not_pos fun hsome => hno ⟨hav, heq, hsome⟩

section Examples

/-- A group of two for the alliance and one player for the horde. -/
def pairAndOne : BattleGroundQueue where
  queuedPlayers := []
  queuedGroups := fun _ index =>
    match index with
    | .normal .alliance => [0]
    | .normal .horde => [1]
    | .premade _ => []
  selectionPools := fun _ => .init
  groupInfos := fun ptr =>
    if ptr = 0 then some ⟨[1, 2], by decide, .alliance, 3, 0, 0, 0, 0, foursEnv.bracketId⟩
    else if ptr = 1 then some ⟨[3], by decide, .horde, 3, 0, 0, 0, 0, foursEnv.bracketId⟩
    else none
  nextPtr := 2

/-- An update with an invitation type. -/
def evenEnv : UpdateEnv where
  bgTypeId := 3
  bracketId := foursEnv.bracketId
  now := 0
  world := fun _ => none
  ended := fun _ _ => false
  config := ⟨false, 1, 2, 0, 0, 0, false⟩
  shuffle := foursEnv.shuffle
  avShuffle := foursEnv.avShuffle
  freeSlotBGs := []
  bgTemplate := none
  createNewBattleGround := fun _ => none
  emptyPastEnd := false

/-- A battleground with three free slots for each side. -/
def threeFree : FreeSlotBG := ⟨1, 1, 3, foursEnv.bracketId, true, false, fun _ => 3⟩

end Examples

end BattleGroundQueue

end TwowCore.Battlegrounds
