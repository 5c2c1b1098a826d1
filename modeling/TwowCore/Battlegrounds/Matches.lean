import TwowCore.Battlegrounds.Pools
import TwowCore.Battlegrounds.Structure

/-!
# Matches of the battleground queue

A match of `CheckPremadeMatch` begins with empty pools and is sound. `CheckNormalMatch` begins with
what a check that failed has left in them, although the comment there says that the pools are not
set, and may take a group again that is in its pool. It then counts the players of that group
twice. `update_match_sound_iff` says when a match that is created is sound.
-/

namespace TwowCore.Battlegrounds

open SelectionPool (Kept NoneTaken NoneCaught)

/-- The players of the groups of a pool. -/
def SelectionPool.players (infos : GroupPtr → Option GroupQueueInfo) (pool : SelectionPool) :
    List ObjectGuid :=
  pool.selectedGroups.flatMap fun ptr => ((infos ptr).map (·.players)).getD []

/-- What a selection pool for a new battleground should be. -/
structure SelectionPool.Fair (q : BattleGroundQueue) (minPlayers maxPlayers : ℕ)
    (pool : SelectionPool) : Prop where
  distinct : pool.selectedGroups.Nodup
  waiting : ∀ ptr ∈ pool.selectedGroups, q.waits ptr
  counted : pool.playerCount = (pool.selectedGroups.map (SelectionPool.sizeOf q.groupInfos)).sum
  enough : minPlayers ≤ pool.playerCount
  fits : pool.playerCount ≤ maxPlayers
  different : minPlayers ≤ (pool.players q.groupInfos).toFinset.card

/-- Both pools of a match are as they should be. -/
def Match.Sound (m : Match) : Prop :=
  ∀ team, (m.selected.selectionPools team).Fair m.selected m.minPlayers m.maxPlayers

namespace BattleGroundQueue

variable (env : UpdateEnv)

/-- A group that waits in one of the lists of the bracket for a side. -/
def WaitsFor (q : BattleGroundQueue) (team : Team) (ptr : GroupPtr) : Prop :=
  q.waits ptr ∧ ∃ index : GroupTypes, index.team = team ∧ ptr ∈ q.queuedGroups env.bracketId index

/-- Where the loop of `CheckNormalMatch` over the list of a side stops. -/
def stops (q : BattleGroundQueue) (minPlayers maxPlayers : ℕ) (team : Team) :
    ℕ × List GroupPtr :=
  SelectionPool.stop q.groupInfos env.world q.waits minPlayers maxPlayers (q.playerCount team)
    (q.queuedGroups env.bracketId (.normal team))

/-- The side that gets more groups after the two loops. -/
def sideBehind (q : BattleGroundQueue) (minPlayers maxPlayers : ℕ) : Team :=
  if (q.stops env minPlayers maxPlayers .horde).1 < (q.stops env minPlayers maxPlayers .alliance).1
  then .horde else .alliance

/-- The groups left over in the pool of a side are distinct, and none of them is met again in the
normal list: none waits and fits before the minimum is reached, nor, when the sides are evened out,
behind that place. -/
def LeftoversKept (q : BattleGroundQueue) (minPlayers maxPlayers : ℕ) (team : Team) : Prop :=
  (q.selectionPools team).selectedGroups.Nodup ∧
    NoneTaken q.groupInfos env.world q.waits (q.selectionPools team).selectedGroups minPlayers
      maxPlayers (q.playerCount team) (q.queuedGroups env.bracketId (.normal team)) ∧
    (env.config.invitationType ≠ 0 → team = q.sideBehind env minPlayers maxPlayers →
      NoneCaught q.groupInfos env.world q.waits (q.selectionPools team).selectedGroups
        (q.stops env minPlayers maxPlayers team.other).1
        (q.stops env minPlayers maxPlayers team).1
        (q.stops env minPlayers maxPlayers team).2.tail)

variable {env} {q q' : BattleGroundQueue} {minPlayers maxPlayers : ℕ}

section Players

/-- Groups that are stored have no player in common. -/
theorem Sound.disjoint_players (h : q.Sound) {ptr other : GroupPtr} {bracket : BattleGroundBracketId}
    {index index' : GroupTypes} (hptr : ptr ∈ q.queuedGroups bracket index)
    (hother : other ∈ q.queuedGroups bracket index') (hne : ptr ≠ other) :
    List.Disjoint (((q.groupInfos ptr).map (·.players)).getD [])
      (((q.groupInfos other).map (·.players)).getD []) := by
  have howner : ∀ {ptr index}, ptr ∈ q.queuedGroups bracket index →
      ∀ p ∈ ((q.groupInfos ptr).map (·.players)).getD [], q.layout.owner p = some ptr := by
    intro ptr index hmem p hp
    obtain ⟨members, hgroup, -, hall⟩ := h.coherent.owned (s := (bracket, index)) hmem
    obtain ⟨g, hg, hpair⟩ := Option.map_eq_some_iff.mp hgroup
    have hplayers : g.players = members := congrArg Prod.fst hpair
    rw [hg] at hp
    refine hall p ?_
    rw [← hplayers]
    exact hp
  intro p hp hp'
  have hfirst := howner hptr p hp
  have hsecond := howner hother p hp'
  exact hne (Option.some.inj (hfirst.symm.trans hsecond))

/-- Distinct groups that wait for a side have as many different players as their sizes say. -/
theorem Sound.card_players (h : q.Sound) {team : Team} {pool : SelectionPool}
    (hallowed : ∀ ptr ∈ pool.selectedGroups, q.WaitsFor env team ptr)
    (hdistinct : pool.selectedGroups.Nodup) :
    (pool.players q.groupInfos).toFinset.card =
      (pool.selectedGroups.map (SelectionPool.sizeOf q.groupInfos)).sum := by
  have hnodup : (pool.players q.groupInfos).Nodup := by
    refine List.nodup_flatMap.mpr ⟨fun ptr _ => ?_, ?_⟩
    · cases q.groupInfos ptr with
      | none => exact List.nodup_nil
      | some g => exact g.distinct
    · refine hdistinct.imp_of_mem fun {ptr other} hptr hother hne => ?_
      obtain ⟨-, index, -, hmem⟩ := hallowed ptr hptr
      obtain ⟨-, index', -, hmem'⟩ := hallowed other hother
      exact h.disjoint_players hmem hmem' hne
  rw [List.toFinset_card_of_nodup hnodup, SelectionPool.players, List.length_flatMap]
  congr 1
  refine List.map_congr_left fun ptr _ => ?_
  unfold SelectionPool.sizeOf
  cases q.groupInfos ptr <;> rfl

/-- A pool the loops have kept, with enough players, is fair exactly if its groups are distinct. -/
theorem Sound.fair_iff (h : q.Sound) {team : Team} {pool : SelectionPool}
    (hkept : Kept q.groupInfos (q.WaitsFor env team) maxPlayers pool)
    (henough : minPlayers ≤ pool.playerCount) :
    pool.Fair q minPlayers maxPlayers ↔ pool.selectedGroups.Nodup := by
  refine ⟨fun hfair => hfair.distinct, fun hdistinct => ?_⟩
  refine ⟨hdistinct, fun ptr hptr => (hkept.allowed ptr hptr).1, hkept.counted, henough,
    hkept.fits, ?_⟩
  rw [h.card_players hkept.allowed hdistinct, ← hkept.counted]
  exact henough

end Players

/-- All pools are kept. -/
def PoolsKept (env : UpdateEnv) (maxPlayers : ℕ) (q : BattleGroundQueue) : Prop :=
  ∀ team, Kept q.groupInfos (q.WaitsFor env team) maxPlayers (q.selectionPools team)

/-- The groups of a list that wait are groups that wait for its side. -/
theorem waitsFor_of_mem (index : GroupTypes) {ptr : GroupPtr}
    (hmem : ptr ∈ q.queuedGroups env.bracketId index) {g : GroupQueueInfo}
    (hg : q.groupInfos ptr = some g) (hwaits : g.Waits) : q.WaitsFor env index.team ptr := by
  refine ⟨?_, index, rfl, hmem⟩
  unfold waits
  rw [hg]
  exact decide_eq_true hwaits

section Premade

/-- The queue after the loops of `CheckPremadeMatch`. -/
def premadeWalked (env : UpdateEnv) (q : BattleGroundQueue) (minPlayers maxPlayers : ℕ) :
    BattleGroundQueue :=
  [GroupTypes.premade .alliance, .premade .horde, .normal .alliance, .normal .horde].foldl
    (walkPremade env minPlayers maxPlayers) q

/-- The pool of a side after them: the premade list comes first, then the normal one. -/
theorem premadeWalked_pool (team : Team) :
    (q.premadeWalked env minPlayers maxPlayers).selectionPools team =
      (((q.selectionPools team).walk q.groupInfos env.world (q.waitsPremade env) minPlayers
        maxPlayers (q.queuedGroups env.bracketId (.premade team))).1.walk q.groupInfos env.world
        (q.waitsPremade env) minPlayers maxPlayers
        (q.queuedGroups env.bracketId (.normal team))).1 := by
  cases team <;> rfl

theorem PoolsKept.premadeWalked (h : q.initPools.PoolsKept env maxPlayers) :
    (q.initPools.premadeWalked env minPlayers maxPlayers).PoolsKept env maxPlayers := by
  intro team
  rw [premadeWalked_pool]
  refine ((h team).walk fun ptr hptr g hg hwaits => ?_).walk fun ptr hptr g hg hwaits => ?_
  · exact waitsFor_of_mem (.premade team) hptr hg hwaits
  · exact waitsFor_of_mem (.normal team) hptr hg hwaits

/-- From empty pools the loops take distinct groups. -/
theorem premadeWalked_nodup (h : q.Sound) (team : Team) :
    ((q.initPools.premadeWalked env minPlayers maxPlayers).selectionPools team).selectedGroups.Nodup
    := by
  have hpremade : (q.initPools.queuedGroups env.bracketId (.premade team)).Nodup :=
    h.coherent.nodup (env.bracketId, .premade team)
  have hnormal : (q.initPools.queuedGroups env.bracketId (.normal team)).Nodup :=
    h.coherent.nodup (env.bracketId, .normal team)
  rw [premadeWalked_pool, SelectionPool.walk_nodup_iff hnormal,
    SelectionPool.walk_nodup_iff hpremade]
  refine ⟨⟨List.nodup_nil, SelectionPool.noneTaken_nil⟩, ?_⟩
  -- what has been taken of the premade list is not in the normal one
  have hfirst : Kept q.groupInfos (· ∈ q.queuedGroups env.bracketId (.premade team)) maxPlayers
      (SelectionPool.init.walk q.groupInfos env.world (q.waitsPremade env) minPlayers maxPlayers
        (q.queuedGroups env.bracketId (.premade team))).1 :=
    Kept.init.walk fun ptr hptr _ _ _ => hptr
  refine (SelectionPool.noneTaken_congr fun ptr hptr => ?_).mpr SelectionPool.noneTaken_nil
  refine iff_of_false (fun hin => ?_) List.not_mem_nil
  have hplace : ((env.bracketId, .normal team) : BattleGroundBracketId × GroupTypes) =
      (env.bracketId, .premade team) := h.coherent.once hptr (hfirst.allowed ptr hin)
  simp at hplace

/-- Moving a group to the normal list keeps what waits for a side. -/
theorem waitsFor_movePremade {team side : Team} {ptr : GroupPtr} (h : q.WaitsFor env team ptr) :
    (q.movePremade env minPlayers side).WaitsFor env team ptr := by
  unfold movePremade
  split
  · exact h
  · next first rest hlist =>
    split
    · obtain ⟨hwaits, index, hteam, hmem⟩ := h
      refine ⟨hwaits, ?_⟩
      have hne : (env.bracketId, GroupTypes.normal side) ≠ (env.bracketId, .premade side) := by
        simp
      by_cases hpremade : index = .premade side
      · subst hpremade
        rw [hlist] at hmem
        rcases List.mem_cons.mp hmem with rfl | hrest
        · -- the group that moves
          refine ⟨.normal side, hteam, ?_⟩
          rw [setGroups_other _ _ hne, setGroups_same]
          exact List.mem_append_right _ (List.mem_singleton_self _)
        · refine ⟨.premade side, hteam, ?_⟩
          rw [setGroups_same]
          exact hrest
      · refine ⟨index, hteam, ?_⟩
        rw [setGroups_other _ _ (by simpa using hpremade)]
        by_cases hnormal : index = .normal side
        · subst hnormal
          rw [setGroups_same]
          exact List.mem_append_left _ hmem
        · rw [setGroups_other _ _ (by simpa using hnormal)]
          exact hmem
    · exact h

/-- Moving a group changes neither the groups nor the pools. -/
theorem movePremade_other (side : Team) :
    (q.movePremade env minPlayers side).groupInfos = q.groupInfos ∧
      (q.movePremade env minPlayers side).selectionPools = q.selectionPools := by
  unfold movePremade
  split
  · exact ⟨rfl, rfl⟩
  · split <;> exact ⟨rfl, rfl⟩

theorem PoolsKept.movePremade (h : q.PoolsKept env maxPlayers) (side : Team) :
    (q.movePremade env minPlayers side).PoolsKept env maxPlayers := by
  intro team
  obtain ⟨hinfos, hpools⟩ : (q.movePremade env minPlayers side).groupInfos = q.groupInfos ∧
      (q.movePremade env minPlayers side).selectionPools = q.selectionPools :=
    movePremade_other side
  rw [hinfos, hpools]
  exact ⟨fun ptr hptr => waitsFor_movePremade ((h team).allowed ptr hptr), (h team).counted,
    (h team).fits⟩

/-- Outside the testing mode both pools have the minimum. -/
theorem enough_of_enoughPlayers (htest : env.config.isTesting = false)
    (henough : q.enoughPlayers env minPlayers = true) (team : Team) :
    minPlayers ≤ (q.selectionPools team).playerCount := by
  unfold enoughPlayers at henough
  rw [htest, Bool.false_and, Bool.false_or, decide_eq_true_eq] at henough
  cases team
  · exact henough.1
  · exact henough.2

/-- What the pools are when `CheckPremadeMatch` has failed. -/
theorem checkPremadeMatch_false
    (hcheck : q.initPools.checkPremadeMatch env minPlayers maxPlayers = (false, q')) :
    q'.PoolsKept env maxPlayers := by
  have hwalked : (q.initPools.premadeWalked env minPlayers maxPlayers).PoolsKept env maxPlayers :=
    PoolsKept.premadeWalked fun _ => Kept.init
  unfold checkPremadeMatch at hcheck
  simp only at hcheck
  split at hcheck
  · cases hcheck
  · cases hcheck
    exact List.foldlRecOn _ _ hwalked fun q₁ h₁ side _ => h₁.movePremade side

/-- A match of `CheckPremadeMatch` is fair. -/
theorem checkPremadeMatch_true (h : q.Sound) (htest : env.config.isTesting = false)
    (hcheck : q.initPools.checkPremadeMatch env minPlayers maxPlayers = (true, q')) (team : Team) :
    (q'.selectionPools team).Fair q' minPlayers maxPlayers := by
  have hkept : (q.initPools.premadeWalked env minPlayers maxPlayers).PoolsKept env maxPlayers :=
    PoolsKept.premadeWalked fun _ => Kept.init
  have hsound := Sound.checkPremadeMatch env (q := q.initPools) (h.setPools _) minPlayers maxPlayers
  rw [hcheck] at hsound
  unfold checkPremadeMatch at hcheck
  simp only at hcheck
  split at hcheck
  · next henough =>
    cases hcheck
    exact (hsound.fair_iff (hkept team) (enough_of_enoughPlayers htest henough team)).mpr
      (premadeWalked_nodup h team)
  · cases hcheck

end Premade

section Normal

/-- The pools after the two loops of `CheckNormalMatch`. -/
theorem PoolsKept.walkBoth (h : q.PoolsKept env maxPlayers) :
    (q.walkBoth env minPlayers maxPlayers).PoolsKept env maxPlayers := by
  intro team
  refine (h team).walk fun ptr hptr g hg hwaits => ?_
  exact waitsFor_of_mem (.normal team) hptr hg hwaits

/-- The counts after the two loops are where they stop. -/
theorem walkNormal_stops (team : Team) :
    ((q.walkBoth env minPlayers maxPlayers).playerCount team,
        (q.walkNormal env minPlayers maxPlayers team).2) = q.stops env minPlayers maxPlayers team :=
  SelectionPool.walk_stop

theorem walkBoth_playerCount (team : Team) :
    (q.walkBoth env minPlayers maxPlayers).playerCount team =
      (q.stops env minPlayers maxPlayers team).1 :=
  congrArg Prod.fst (walkNormal_stops team)

theorem walkBoth_behind :
    (q.walkBoth env minPlayers maxPlayers).behind = q.sideBehind env minPlayers maxPlayers := by
  unfold behind sideBehind
  rw [walkBoth_playerCount, walkBoth_playerCount]

/-- The pools after the side behind has caught up. -/
theorem PoolsKept.catchUp (h : q.PoolsKept env maxPlayers) {rest : List GroupPtr}
    (hrest : rest ⊆ q.queuedGroups env.bracketId (.normal q.behind)) :
    (q.catchUp env rest).PoolsKept env maxPlayers := by
  intro team
  by_cases hteam : team = q.behind
  · subst hteam
    show Kept q.groupInfos (q.WaitsFor env q.behind) maxPlayers
      (Function.update q.selectionPools q.behind _ q.behind)
    rw [Function.update_self]
    refine (h q.behind).balance (h q.behind.other).fits fun ptr hptr g hg hwaits => ?_
    exact waitsFor_of_mem (.normal q.behind) (hrest hptr) hg hwaits
  · show Kept q.groupInfos (q.WaitsFor env team) maxPlayers
      (Function.update q.selectionPools q.behind _ team)
    rw [Function.update_of_ne hteam]
    exact h team

/-- What `CheckNormalMatch` keeps of the pools, whether it finds a match or not. -/
theorem PoolsKept.checkNormalMatch (h : q.PoolsKept env maxPlayers) {found : Bool}
    (hcheck : q.checkNormalMatch env minPlayers maxPlayers = some (found, q')) :
    q'.PoolsKept env maxPlayers := by
  have hwalked : (q.walkBoth env minPlayers maxPlayers).PoolsKept env maxPlayers := h.walkBoth
  unfold BattleGroundQueue.checkNormalMatch at hcheck
  simp only at hcheck
  split at hcheck
  · split at hcheck
    · cases hcheck
    · next first rest hlist =>
      have hsub : rest ⊆ (q.walkBoth env minPlayers maxPlayers).queuedGroups env.bracketId
          (.normal (q.walkBoth env minPlayers maxPlayers).behind) := by
        have hsuffix : (q.walkNormal env minPlayers maxPlayers
            (q.walkBoth env minPlayers maxPlayers).behind).2 <:+ _ := SelectionPool.walk_suffix
        rw [hlist] at hsuffix
        exact fun ptr hptr => hsuffix.subset (List.mem_cons_of_mem _ hptr)
      have hcaught := hwalked.catchUp hsub
      split at hcheck
      · cases hcheck
        exact hcaught
      · cases hcheck
        exact hcaught
  · cases hcheck
    exact hwalked

/-- A match that `CheckNormalMatch` finds has enough players by its counts, and the groups of a
pool are distinct exactly if what was left over is kept. -/
theorem checkNormalMatch_true (h : q.Sound) (htest : env.config.isTesting = false)
    (hcheck : q.checkNormalMatch env minPlayers maxPlayers = some (true, q')) (team : Team) :
    minPlayers ≤ (q'.selectionPools team).playerCount ∧
      ((q'.selectionPools team).selectedGroups.Nodup ↔
        q.LeftoversKept env minPlayers maxPlayers team) := by
  have hnodup := h.coherent.nodup (env.bracketId, .normal team)
  have hwalked : ((q.walkBoth env minPlayers maxPlayers).selectionPools team).selectedGroups.Nodup ↔
      _ := SelectionPool.walk_nodup_iff hnodup
  unfold checkNormalMatch at hcheck
  simp only at hcheck
  split at hcheck
  · next hboth =>
    split at hcheck
    · cases hcheck
    · next first rest hlist =>
      split at hcheck
      · cases hcheck
      · obtain ⟨henough, rfl⟩ := Prod.mk.injEq _ _ _ _ ▸ Option.some.inj hcheck
        refine ⟨enough_of_enoughPlayers htest henough team, ?_⟩
        rw [walkBoth_behind] at hlist
        by_cases hteam : team = q.sideBehind env minPlayers maxPlayers
        · -- this side has caught up: the list goes on behind the place where the loop has stopped
          have hrest : (q.stops env minPlayers maxPlayers team).2.tail = rest := by
            rw [← walkNormal_stops, hteam, hlist]
            rfl
          have hpool : ((q.walkBoth env minPlayers maxPlayers).catchUp env rest).selectionPools
              team = ((q.walkBoth env minPlayers maxPlayers).selectionPools team).balance
                q.groupInfos env.world q.waits
                ((q.walkBoth env minPlayers maxPlayers).playerCount team.other) rest := by
            have hbehind : team = (q.walkBoth env minPlayers maxPlayers).behind := by
              rw [walkBoth_behind]
              exact hteam
            show Function.update _ _ _ team = _
            rw [← hbehind, Function.update_self]
            rfl
          have htail : ∀ ptr ∈ rest,
              ptr ∈ ((q.walkBoth env minPlayers maxPlayers).selectionPools team).selectedGroups ↔
                ptr ∈ (q.selectionPools team).selectedGroups := by
            intro ptr hptr
            refine SelectionPool.mem_walk_of_tail hnodup ?_
            show ptr ∈ (q.walkNormal env minPlayers maxPlayers team).2.tail
            rw [hteam, hlist]
            exact hptr
          have hrestNodup : rest.Nodup := by
            have hsuffix : (q.walkNormal env minPlayers maxPlayers team).2 <:+ _ :=
              SelectionPool.walk_suffix
            rw [hteam, hlist] at hsuffix
            rw [hteam] at hnodup
            exact (List.nodup_cons.mp (hnodup.sublist hsuffix.sublist)).2
          rw [hpool, SelectionPool.balance_nodup_iff hrestNodup, hwalked,
            SelectionPool.noneCaught_congr htail, walkBoth_playerCount]
          unfold LeftoversKept
          rw [hrest, and_assoc]
          refine and_congr_right fun _ => and_congr_right fun _ => ?_
          have hcount : ((q.walkBoth env minPlayers maxPlayers).selectionPools team).playerCount =
              (q.stops env minPlayers maxPlayers team).1 := walkBoth_playerCount team
          rw [hcount]
          exact ⟨fun hnone _ _ => hnone, fun hnone => hnone hboth.1 hteam⟩
        · have hpool : ((q.walkBoth env minPlayers maxPlayers).catchUp env rest).selectionPools
              team = (q.walkBoth env minPlayers maxPlayers).selectionPools team := by
            refine Function.update_of_ne ?_ _ _
            rw [walkBoth_behind]
            exact hteam
          rw [hpool, hwalked]
          unfold LeftoversKept
          refine and_congr_right fun _ => ?_
          exact ⟨fun hnone => ⟨hnone, fun _ hbehind => absurd hbehind hteam⟩, fun hnone => hnone.1⟩
  · next hnot =>
    obtain ⟨henough, rfl⟩ := Prod.mk.injEq _ _ _ _ ▸ Option.some.inj hcheck
    have hmin := enough_of_enoughPlayers htest henough
    refine ⟨hmin team, hwalked.trans ?_⟩
    unfold LeftoversKept
    refine and_congr_right fun _ => ?_
    refine ⟨fun hnone => ⟨hnone, fun htype _ => ?_⟩, fun hnone => hnone.1⟩
    exact absurd ⟨htype, hmin .horde, hmin .alliance⟩ hnot

/-- When a match is as it should be: the premade ones always, the others if what the failed checks
have left in the pools is kept. -/
def MatchCondition (env : UpdateEnv) (m : Match) : Prop :=
  m.premade = true ∨ ∀ team, m.before.LeftoversKept env m.minPlayers m.maxPlayers team

/-- The matches of the attempts. -/
theorem normalMatches_sound_iff (h : q.Sound) (hkept : q.PoolsKept env maxPlayers)
    (htest : env.config.isTesting = false) (attempts call : ℕ) :
    ∀ m ∈ (q.normalMatches env minPlayers maxPlayers attempts call).created,
      m.Sound ↔ MatchCondition env m := by
  induction attempts generalizing q call with
  | zero =>
      intro m hm
      cases hm
  | succ attempts ih =>
      intro m hm
      unfold normalMatches at hm
      split at hm
      · cases hm
      · next q' hcheck =>
        exact ih (h.checkNormalMatch env hcheck) (hkept.checkNormalMatch hcheck) call m hm
      · next q' hcheck =>
        have h' := h.checkNormalMatch env hcheck
        split at hm
        · cases hm
        · next q'' hstart =>
          rcases List.mem_cons.mp hm with rfl | hm
          · -- the match this attempt has found
            have hfair : ∀ team,
                (q'.selectionPools team).Fair q' minPlayers maxPlayers ↔
                  q.LeftoversKept env minPlayers maxPlayers team := by
              intro team
              obtain ⟨henough, hiff⟩ := checkNormalMatch_true h htest hcheck team
              exact (h'.fair_iff (hkept.checkNormalMatch hcheck team) henough).trans hiff
            refine (forall_congr' hfair).trans ?_
            exact ⟨Or.inr, fun hcond => hcond.resolve_left Bool.false_ne_true⟩
          · obtain ⟨bgInstance, -, rfl⟩ := Option.map_eq_some_iff.mp hstart
            exact ih (h'.startMatch env hstart) (fun _ => Kept.init) (call + 1) m hm

/-- The matches of the end of `Update`. -/
theorem createMatches_sound_iff (h : q.Sound) (htest : env.config.isTesting = false)
    (attempts : ℕ) :
    ∀ m ∈ (q.createMatches env minPlayers maxPlayers attempts).created,
      m.Sound ↔ MatchCondition env m := by
  have hsound := Sound.checkPremadeMatch env (q := q.initPools) (h.setPools _) minPlayers maxPlayers
  intro m hm
  unfold createMatches at hm
  split at hm
  · next q' hcheck =>
    rw [hcheck] at hsound
    exact normalMatches_sound_iff hsound (checkPremadeMatch_false hcheck) htest attempts 0 m hm
  · next q' hcheck =>
    rw [hcheck] at hsound
    split at hm
    · cases hm
    · next q'' hstart =>
      rcases List.mem_cons.mp hm with rfl | hm
      · exact iff_of_true (checkPremadeMatch_true h htest hcheck) (Or.inl rfl)
      · have h'' := hsound.startMatch env hstart
        obtain ⟨bgInstance, -, rfl⟩ := Option.map_eq_some_iff.mp hstart
        exact normalMatches_sound_iff h'' (fun _ => Kept.init) htest attempts 1 m hm

/-- The matches of an `Update`. -/
theorem update_sound_iff (h : q.Sound) (htest : env.config.isTesting = false) :
    ∀ m ∈ (q.update env).created, m.Sound ↔ MatchCondition env m := by
  intro m hm
  have hstale := h.removeStale env q.queuedPlayers.length
  have hfill := List.foldlRecOn env.freeSlotBGs (fillOne env) (motive := BattleGroundQueue.Sound)
    (hstale.prepared env) fun q' h' bg _ => h'.fillOne env bg
  unfold update at hm
  simp only at hm
  split at hm
  · cases hm
  · split at hm
    · cases hm
    · exact createMatches_sound_iff (hfill.avQueue env) htest _ m hm

end Normal

end BattleGroundQueue

open BattleGroundQueue (MatchCondition)

section Twos

/-- A group of two joins for each side. -/
def twoPairs : List QueueCall :=
  [.addGroup ⟨1, .alliance⟩ (some ⟨[⟨1, .alliance⟩, ⟨2, .alliance⟩], 2, by decide⟩)
      ⟨3, 0, 0, 0, 40⟩ false [],
    .addGroup ⟨3, .horde⟩ (some ⟨[⟨3, .horde⟩, ⟨4, .horde⟩], 2, by decide⟩) ⟨3, 0, 0, 0, 40⟩
      false []]

/-- A battleground for four or five players a side, and groups of two that count as premade. -/
def foursEnv : UpdateEnv where
  bgTypeId := 3
  bracketId := 0
  now := 0
  world := fun _ => none
  ended := fun _ _ => false
  config := ⟨false, 0, 2, 0, 0, 0, false⟩
  shuffle := fun _ => ⟨id, fun _ => List.Perm.refl _⟩
  avShuffle := fun _ => ⟨id, fun _ => List.Perm.refl _⟩
  freeSlotBGs := []
  bgTemplate := some ⟨4, 5⟩
  createNewBattleGround := fun call => some (UInt32.ofNat (call + 1))
  emptyPastEnd := false

end Twos

end TwowCore.Battlegrounds
