import TwowCore.Lib.Keyed
import TwowCore.Lib.ListUpdate
import TwowCore.Lib.Run

/-!
# Loot rolls

A group keeps its rolls in `RollId`. A vote, a member who leaves and the end of the timer change
the four counters of a roll and its votes one by one; `Roll.Tallied` says that the counters are
the numbers of the votes, and that somebody has still to vote.

Read `countRollVote` first. It counts a vote of a member who has voted before once more, and
`removeRolls`, which calls it for a member whose entry is already gone, never learns that all who
are left have voted. `Orderly` leaves out these two events, and `run_tallied` is the law for the
runs without them.
-/

namespace TwowCore.Groups

/-- A guid of a player or of a looted creature. -/
abbrev ObjectGuid := UInt64

/-- `RollVote`. -/
inductive RollVote where
  | pass
  | need
  | greed
  | notEmitedYet
  | notValid
  deriving DecidableEq, Repr

/-- The vote a client sends; `MAX_ROLL_FROM_CLIENT` is 3. -/
def RollVote.ofClient (rollType : UInt8) : Option RollVote :=
  if rollType = 0 then some .pass
  else if rollType = 1 then some .need
  else if rollType = 2 then some .greed
  else none

/-- A roll; `loot` is the loot it is linked to, as long as that is there. -/
structure Roll where
  lootedTargetGUID : ObjectGuid
  loot : Option ℕ
  playerVote : List (ObjectGuid × RollVote)
  totalPlayersRolling : UInt8
  totalNeed : UInt8
  totalGreed : UInt8
  totalPass : UInt8
  itemSlot : UInt8
  deriving DecidableEq, Repr

/-- The members a roll is started for: those near the corpse, each once, and not more than a raid
has. -/
structure Looters where
  members : List ObjectGuid
  distinct : members.Nodup
  few : members.length ≤ 40

/-- The rolls of a group, and the number of items of each loot. -/
structure Rolls where
  rollId : List Roll
  items : ℕ → ℕ

/-- What `CountRollVote` ends in. -/
inductive Counted where
  /-- The player has no entry. -/
  | notRolling
  /-- The loot has no items. -/
  | noItems
  /-- The vote is counted and the roll goes on. -/
  | counted (roll : Roll)
  /-- The vote is counted and `CountTheRoll` resolves the roll. -/
  | resolved (roll : Roll)
  deriving DecidableEq, Repr

namespace Roll

/-- The entry of a player. -/
def entry (roll : Roll) (guid : ObjectGuid) : Option (ObjectGuid × RollVote) :=
  roll.playerVote.find? fun e => e.1 = guid

/-- Counts a vote and writes it into the entry of the player. -/
def record (roll : Roll) (guid : ObjectGuid) (vote : RollVote) : Roll :=
  let playerVote := Lib.writeKey Prod.fst guid (fun e => (e.1, vote)) roll.playerVote
  match vote with
  | .pass => { roll with totalPass := roll.totalPass + 1, playerVote }
  | .need => { roll with totalNeed := roll.totalNeed + 1, playerVote }
  | .greed => { roll with totalGreed := roll.totalGreed + 1, playerVote }
  | _ => roll

/-- The totals have reached the number of players. -/
def allVoted (roll : Roll) : Bool :=
  roll.totalPlayersRolling.toNat ≤
    roll.totalPass.toNat + roll.totalNeed.toNat + roll.totalGreed.toNat

/-- `Group::CountRollVote` on one roll. -/
def countRollVote (items : ℕ → ℕ) (roll : Roll) (guid : ObjectGuid) (vote : RollVote) : Counted :=
  match roll.entry guid with
  | none => .notRolling
  | some _ =>
      if roll.loot.any fun loot => items loot = 0 then .noItems
      else
        let roll := roll.record guid vote
        if roll.allVoted then .resolved roll else .counted roll

/-- Takes the vote of a player who leaves off the totals, and his entry out. -/
def forget (roll : Roll) (guid : ObjectGuid) (vote : RollVote) : Roll :=
  { roll with
    totalGreed := if vote = .greed then roll.totalGreed - 1 else roll.totalGreed
    totalNeed := if vote = .need then roll.totalNeed - 1 else roll.totalNeed
    totalPass := if vote = .pass then roll.totalPass - 1 else roll.totalPass
    totalPlayersRolling :=
      if vote ≠ .notValid then roll.totalPlayersRolling - 1 else roll.totalPlayersRolling
    playerVote := Lib.eraseKey Prod.fst guid roll.playerVote }

end Roll

/-- `Group::_removeRolls`. -/
def removeRolls (items : ℕ → ℕ) (guid : ObjectGuid) : List Roll → List Roll
  | [] => []
  | roll :: rest =>
      match roll.entry guid with
      | none => roll :: removeRolls items guid rest
      | some (_, vote) =>
          -- the entry is gone when the vote is counted, so the first answer is the one that comes
          match (roll.forget guid vote).countRollVote items guid .notEmitedYet with
          | .notRolling | .noItems => roll.forget guid vote :: removeRolls items guid rest
          | .counted roll => roll :: removeRolls items guid rest
          | .resolved _ => removeRolls items guid rest

/-- What happens to the rolls of a group. -/
inductive RollEvent where
  /-- `StartLootRoll` for an item of a loot. -/
  | start (target : ObjectGuid) (loot : ℕ) (itemSlot : UInt8) (looters : Looters)
  /-- A client's `CMSG_LOOT_ROLL`. -/
  | lootRoll (player : ObjectGuid) (target : ObjectGuid) (itemSlot : UInt32) (rollType : UInt8)
  /-- A member leaves. -/
  | leave (guid : ObjectGuid)
  /-- The timer of a loot runs out. -/
  | endRoll (loot : ℕ)
  /-- `Loot::clear`: the items are gone and the rolls lose their loot. -/
  | clearLoot (loot : ℕ)
  /-- A loot is filled. -/
  | fillLoot (loot : ℕ) (items : ℕ)

namespace Rolls

/-- The first roll for a target and a slot whose loot is there. -/
def findRoll (s : Rolls) (target : ObjectGuid) (itemSlot : UInt32) : Option (ℕ × Roll) :=
  (s.rollId.findIdx? fun roll => roll.loot.isSome && roll.lootedTargetGUID = target &&
    roll.itemSlot.toUInt32 = itemSlot).bind fun idx => s.rollId[idx]?.map fun roll => (idx, roll)

/-- `Group::StartLootRoll`. -/
def startLootRoll (s : Rolls) (target : ObjectGuid) (loot : ℕ) (itemSlot : UInt8)
    (looters : Looters) : Rolls :=
  if s.items loot ≤ itemSlot.toNat then s
  else if 0 < looters.members.length then
    { s with
      rollId := s.rollId ++
        [{ lootedTargetGUID := target, loot := some loot
           playerVote := looters.members.map fun guid => (guid, .notEmitedYet)
           totalPlayersRolling := looters.members.length.toUInt8
           totalNeed := 0, totalGreed := 0, totalPass := 0, itemSlot }] }
  else s

/-- `WorldSession::HandleLootRoll` and the search for the roll. -/
def handleLootRoll (s : Rolls) (player target : ObjectGuid) (itemSlot : UInt32)
    (rollType : UInt8) : Rolls :=
  match RollVote.ofClient rollType with
  | none => s
  | some vote =>
      match s.findRoll target itemSlot with
      | none => s
      | some (idx, roll) =>
          match roll.countRollVote s.items player vote with
          | .notRolling | .noItems => s
          | .counted roll => { s with rollId := s.rollId.set idx roll }
          | .resolved _ => { s with rollId := s.rollId.eraseIdx idx }

end Rolls

/-- One event. -/
def rollStep (s : Rolls) : RollEvent → Rolls
  | .start target loot itemSlot looters => s.startLootRoll target loot itemSlot looters
  | .lootRoll player target itemSlot rollType => s.handleLootRoll player target itemSlot rollType
  | .leave guid => { s with rollId := removeRolls s.items guid s.rollId }
  | .endRoll loot => { s with rollId := s.rollId.filter fun roll => roll.loot ≠ some loot }
  | .clearLoot loot =>
      { rollId := s.rollId.map fun roll =>
          if roll.loot = some loot then { roll with loot := none } else roll
        items := Function.update s.items loot 0 }
  | .fillLoot loot items => { s with items := Function.update s.items loot items }

/-- No rolls. -/
def Rolls.none : Rolls := ⟨[], fun _ => 0⟩

/-- The number of entries with a vote. -/
def Roll.votes (roll : Roll) (vote : RollVote) : ℕ := roll.playerVote.countP fun e => e.2 = vote

/-- The counters of a roll are the numbers of its votes. -/
structure Roll.Counts (roll : Roll) : Prop where
  distinct : (roll.playerVote.map Prod.fst).Nodup
  few : roll.playerVote.length ≤ 40
  need : roll.totalNeed.toNat = roll.votes .need
  greed : roll.totalGreed.toNat = roll.votes .greed
  pass : roll.totalPass.toNat = roll.votes .pass
  rolling : roll.totalPlayersRolling.toNat = roll.playerVote.length
  valid : roll.votes .notValid = 0

/-- The counters are right, and somebody has still to vote. -/
structure Roll.Tallied (roll : Roll) : Prop extends Roll.Counts roll where
  undecided : 0 < roll.votes .notEmitedYet

/-- The events that keep the tally: a vote that is counted is the first of its player, and a
member who leaves a roll leaves somebody who has still to vote. -/
def Orderly (s : Rolls) : RollEvent → Prop
  | .lootRoll player target itemSlot rollType =>
      (RollVote.ofClient rollType).isSome → ∀ idx roll, s.findRoll target itemSlot = some (idx, roll) →
        ∀ e, roll.entry player = some e → e.2 = .notEmitedYet ∨
          roll.loot.any (fun loot => s.items loot = 0) = true
  | .leave guid => ∀ roll ∈ s.rollId, ∀ e, roll.entry guid = some e →
      ∃ other ∈ roll.playerVote, other.1 ≠ guid ∧ other.2 = .notEmitedYet
  | _ => True

/-- A vote that is counted resolves its roll exactly when nobody has still to vote, and a member
who leaves resolves none. -/
def ResolvedExactly (s : Rolls) (event : RollEvent) : Prop :=
  match event with
  | .lootRoll player target itemSlot rollType =>
      ∀ vote idx roll, RollVote.ofClient rollType = some vote →
        s.findRoll target itemSlot = some (idx, roll) → (roll.entry player).isSome →
        roll.loot.any (fun loot => s.items loot = 0) = false →
        (rollStep s event).rollId =
          if (roll.record player vote).votes .notEmitedYet = 0 then s.rollId.eraseIdx idx
          else s.rollId.set idx (roll.record player vote)
  | .leave _ => (rollStep s event).rollId.length = s.rollId.length
  | _ => True

/-- Adding one to a small counter. -/
theorem toNat_succ {n : UInt8} (h : n.toNat < 255) : (n + 1).toNat = n.toNat + 1 := by
  rw [UInt8.toNat_add]
  simp only [UInt8.reduceToNat]
  omega

/-- Taking one off a counter that is not 0. -/
theorem toNat_pred {n : UInt8} (h : 0 < n.toNat) : (n - 1).toNat = n.toNat - 1 := by
  rw [UInt8.toNat_sub_of_le]
  · rfl
  · rw [UInt8.le_iff_toNat_le]
    exact h

namespace Roll

variable {roll : Roll} {guid : ObjectGuid} {old vote : RollVote}

/-- Every entry has one of the votes. -/
theorem votes_sum (roll : Roll) :
    roll.votes .pass + roll.votes .need + roll.votes .greed + roll.votes .notEmitedYet +
      roll.votes .notValid = roll.playerVote.length := by
  unfold votes
  induction roll.playerVote with
  | nil => rfl
  | cons e rest ih =>
      obtain ⟨guid, vote⟩ := e
      simp only [List.countP_cons, List.length_cons]
      cases vote <;> simp <;> omega

/-- The entry of a player is in the map, under his guid. -/
theorem entry_some {e : ObjectGuid × RollVote} (h : roll.entry guid = some e) :
    e ∈ roll.playerVote ∧ e.1 = guid :=
  ⟨List.mem_of_find?_eq_some h, by simpa using List.find?_some h⟩

/-- The votes after a vote is written into an entry. -/
theorem votes_writeKey (hcounts : roll.Counts) (hentry : roll.entry guid = some (guid, old))
    (other : RollVote) :
    (Lib.writeKey Prod.fst guid (fun e => (e.1, vote)) roll.playerVote).countP
        (fun e => e.2 = other) + (if old = other then 1 else 0) =
      roll.votes other + (if vote = other then 1 else 0) := by
  have h := Lib.countP_writeKey (f := fun e : ObjectGuid × RollVote => (e.1, vote))
    (fun e => decide (e.2 = other)) hcounts.distinct (entry_some hentry).1 rfl
  simpa [votes] using h

/-- The counters after a first vote. -/
theorem Counts.record (hcounts : roll.Counts)
    (hentry : roll.entry guid = some (guid, .notEmitedYet))
    (hvote : vote = .pass ∨ vote = .need ∨ vote = .greed) :
    (roll.record guid vote).Counts ∧
      (roll.record guid vote).votes .notEmitedYet + 1 = roll.votes .notEmitedYet := by
  have hvotes : ∀ other,
      (Lib.writeKey Prod.fst guid (fun e => (e.1, vote)) roll.playerVote).countP
          (fun e => e.2 = other) + (if RollVote.notEmitedYet = other then 1 else 0) =
        roll.votes other + (if vote = other then 1 else 0) := votes_writeKey hcounts hentry
  have hkeys : (Lib.writeKey Prod.fst guid (fun e => (e.1, vote)) roll.playerVote).map Prod.fst =
      roll.playerVote.map Prod.fst := Lib.writeKey_keys fun _ _ => rfl
  have hlength : (Lib.writeKey Prod.fst guid (fun e => (e.1, vote)) roll.playerVote).length =
      roll.playerVote.length := Lib.writeKey_length
  have hsum := roll.votes_sum
  have hneed := hvotes .need
  have hgreed := hvotes .greed
  have hpass := hvotes .pass
  have hleft := hvotes .notEmitedYet
  have hvalid := hvotes .notValid
  have hfew := hcounts.few
  rcases hvote with rfl | rfl | rfl
  all_goals
    simp only [reduceCtorEq, if_false, if_true, Nat.add_zero] at hneed hgreed hpass hleft hvalid
    refine ⟨⟨?_, ?_, ?_, ?_, ?_, ?_, ?_⟩, hleft⟩
    · exact hkeys ▸ hcounts.distinct
    · exact hlength.trans_le hfew
  · exact hcounts.need.trans hneed.symm
  · exact hcounts.greed.trans hgreed.symm
  · have hpassed := hcounts.pass
    show (roll.totalPass + 1).toNat = _
    rw [toNat_succ (by omega)]
    exact (congrArg (· + 1) hpassed).trans hpass.symm
  · exact hcounts.rolling.trans hlength.symm
  · exact hvalid.trans hcounts.valid
  · have hneeded := hcounts.need
    show (roll.totalNeed + 1).toNat = _
    rw [toNat_succ (by omega)]
    exact (congrArg (· + 1) hneeded).trans hneed.symm
  · exact hcounts.greed.trans hgreed.symm
  · exact hcounts.pass.trans hpass.symm
  · exact hcounts.rolling.trans hlength.symm
  · exact hvalid.trans hcounts.valid
  · exact hcounts.need.trans hneed.symm
  · have hgreeded := hcounts.greed
    show (roll.totalGreed + 1).toNat = _
    rw [toNat_succ (by omega)]
    exact (congrArg (· + 1) hgreeded).trans hgreed.symm
  · exact hcounts.pass.trans hpass.symm
  · exact hcounts.rolling.trans hlength.symm
  · exact hvalid.trans hcounts.valid

/-- With right counters, the totals reach the players when nobody has still to vote. -/
theorem Counts.allVoted_iff (hcounts : roll.Counts) :
    roll.allVoted = true ↔ roll.votes .notEmitedYet = 0 := by
  have hsum := roll.votes_sum
  unfold allVoted
  rw [decide_eq_true_eq, hcounts.rolling, hcounts.pass, hcounts.need, hcounts.greed]
  have hvalid := hcounts.valid
  omega

/-- The votes after an entry is taken out. -/
theorem votes_forget (hcounts : roll.Counts) (hentry : roll.entry guid = some (guid, old))
    (other : RollVote) :
    (roll.forget guid old).votes other + (if old = other then 1 else 0) = roll.votes other := by
  have h := Lib.countP_eraseKey (fun e : ObjectGuid × RollVote => decide (e.2 = other))
    hcounts.distinct (entry_some hentry).1 rfl
  simpa [votes, forget] using h

/-- The counters after a player has left. -/
theorem Counts.forget (hcounts : roll.Counts) (hentry : roll.entry guid = some (guid, old)) :
    (roll.forget guid old).Counts := by
  have hvotes := votes_forget hcounts hentry
  have hlength : (roll.forget guid old).playerVote.length + 1 = roll.playerVote.length :=
    Lib.length_eraseKey hcounts.distinct (entry_some hentry).1 rfl
  have hneed := hvotes .need
  have hgreed := hvotes .greed
  have hpass := hvotes .pass
  have hvalid := hvotes .notValid
  have hnot : old ≠ .notValid := by
    rintro rfl
    have hzero := hcounts.valid
    simp only [if_true] at hvalid
    omega
  refine ⟨Lib.eraseKey_nodup hcounts.distinct, ?_, ?_, ?_, ?_, ?_, ?_⟩
  · have hfew := hcounts.few
    omega
  · have hold := hcounts.need
    show (if old = .need then roll.totalNeed - 1 else roll.totalNeed).toNat = _
    split_ifs with h
    · rw [if_pos h] at hneed
      rw [toNat_pred (by omega)]
      omega
    · rw [if_neg h] at hneed
      omega
  · have hold := hcounts.greed
    show (if old = .greed then roll.totalGreed - 1 else roll.totalGreed).toNat = _
    split_ifs with h
    · rw [if_pos h] at hgreed
      rw [toNat_pred (by omega)]
      omega
    · rw [if_neg h] at hgreed
      omega
  · have hold := hcounts.pass
    show (if old = .pass then roll.totalPass - 1 else roll.totalPass).toNat = _
    split_ifs with h
    · rw [if_pos h] at hpass
      rw [toNat_pred (by omega)]
      omega
    · rw [if_neg h] at hpass
      omega
  · have hold := hcounts.rolling
    show (if old ≠ .notValid then roll.totalPlayersRolling - 1
      else roll.totalPlayersRolling).toNat = _
    rw [if_pos hnot, toNat_pred (by omega)]
    omega
  · have hzero := hcounts.valid
    omega

/-- A player who has left has no entry. -/
theorem forget_entry : (roll.forget guid old).entry guid = none := by
  refine List.find?_eq_none.mpr fun e he => ?_
  have hne := (Lib.mem_eraseKey.mp he).2
  simpa using hne

end Roll

/-- All rolls are tallied. -/
def AllTallied (s : Rolls) : Prop := ∀ roll ∈ s.rollId, roll.Tallied

section Steps

variable {s : Rolls}

/-- The client sends one of three votes. -/
theorem ofClient_cases {rollType : UInt8} {vote : RollVote}
    (h : RollVote.ofClient rollType = some vote) :
    vote = .pass ∨ vote = .need ∨ vote = .greed := by
  unfold RollVote.ofClient at h
  split_ifs at h
  · exact Or.inl (Option.some.inj h).symm
  · exact Or.inr (Or.inl (Option.some.inj h).symm)
  · exact Or.inr (Or.inr (Option.some.inj h).symm)

/-- The roll that is found stands where it is found. -/
theorem findRoll_some {target : ObjectGuid} {itemSlot : UInt32} {idx : ℕ} {roll : Roll}
    (h : s.findRoll target itemSlot = some (idx, roll)) : s.rollId[idx]? = some roll := by
  obtain ⟨i, -, hmap⟩ := Option.bind_eq_some_iff.mp h
  obtain ⟨found, hget, heq⟩ := Option.map_eq_some_iff.mp hmap
  obtain ⟨rfl, rfl⟩ := Prod.mk.inj heq
  exact hget

/-- A roll that has just started: nobody has voted. -/
theorem started_tallied (target : ObjectGuid) (loot : ℕ) (itemSlot : UInt8) (looters : Looters)
    (hpos : 0 < looters.members.length) :
    Roll.Tallied
      { lootedTargetGUID := target, loot := some loot
        playerVote := looters.members.map fun guid => (guid, .notEmitedYet)
        totalPlayersRolling := looters.members.length.toUInt8
        totalNeed := 0, totalGreed := 0, totalPass := 0, itemSlot } := by
  have hvotes : ∀ vote, (looters.members.map fun guid => (guid, RollVote.notEmitedYet)).countP
      (fun e => e.2 = vote) = if vote = .notEmitedYet then looters.members.length else 0 := by
    intro vote
    rw [List.countP_map]
    by_cases h : vote = .notEmitedYet
    · rw [if_pos h, List.countP_eq_length]
      simp [h]
    · rw [if_neg h, List.countP_eq_zero]
      simpa using fun _ _ => Ne.symm h
  have hfew := looters.few
  refine ⟨⟨?_, ?_, ?_, ?_, ?_, ?_, ?_⟩, ?_⟩
  · simpa [Function.comp_def] using looters.distinct
  · simpa using hfew
  · exact (hvotes .need).symm
  · exact (hvotes .greed).symm
  · exact (hvotes .pass).symm
  · show looters.members.length.toUInt8.toNat = (List.map _ _).length
    rw [List.length_map, Nat.toUInt8, UInt8.toNat_ofNat_of_lt']
    show looters.members.length < 256
    omega
  · exact hvotes .notValid
  · exact hpos.trans_eq (hvotes .notEmitedYet).symm

/-- What a first vote does to the list of rolls. -/
theorem lootRoll_step (h : AllTallied s) {player target : ObjectGuid} {itemSlot : UInt32}
    {rollType : UInt8} (hok : Orderly s (.lootRoll player target itemSlot rollType)) :
    AllTallied (s.handleLootRoll player target itemSlot rollType) ∧
      ResolvedExactly s (.lootRoll player target itemSlot rollType) := by
  simp only [ResolvedExactly, rollStep]
  unfold Rolls.handleLootRoll
  cases hclient : RollVote.ofClient rollType with
  | none => exact ⟨h, by simp⟩
  | some vote =>
      cases hfind : s.findRoll target itemSlot with
      | none => exact ⟨h, by simp⟩
      | some found =>
          obtain ⟨idx, roll⟩ := found
          have hget := findRoll_some hfind
          have hroll := h roll (List.mem_of_getElem? hget)
          have hsome : (RollVote.ofClient rollType).isSome := by simp [hclient]
          simp only [Option.some.injEq, Prod.mk.injEq]
          cases hentry : roll.entry player with
          | none =>
              have hcount : roll.countRollVote s.items player vote = .notRolling := by
                simp [Roll.countRollVote, hentry]
              rw [hcount]
              refine ⟨h, ?_⟩
              rintro _ _ _ rfl ⟨rfl, rfl⟩ hsome'
              simp [hentry] at hsome'
          | some e =>
              obtain ⟨guid, old⟩ := e
              obtain rfl : guid = player := (Roll.entry_some hentry).2
              by_cases hitems : roll.loot.any (fun loot => s.items loot = 0) = true
              · have hcount : roll.countRollVote s.items guid vote = .noItems := by
                  simp only [Roll.countRollVote, hentry, hitems, if_true]
                rw [hcount]
                refine ⟨h, ?_⟩
                rintro _ _ _ rfl ⟨rfl, rfl⟩ - hnot
                exact absurd hitems (by simp [hnot])
              · -- the vote is counted, and it is the first of the player
                have hfirst : old = .notEmitedYet :=
                  (hok hsome idx roll hfind (guid, old) hentry).resolve_right hitems
                rw [hfirst] at hentry
                obtain ⟨hcounts, hleft⟩ :=
                  hroll.toCounts.record hentry (ofClient_cases hclient)
                by_cases hall : (roll.record guid vote).allVoted = true
                · have hcount : roll.countRollVote s.items guid vote =
                      .resolved (roll.record guid vote) := by
                    simp only [Roll.countRollVote, hentry, hitems, hall, if_true]
                    rfl
                  rw [hcount]
                  refine ⟨fun other hmem => h other (List.mem_of_mem_eraseIdx hmem), ?_⟩
                  rintro _ _ _ rfl ⟨rfl, rfl⟩ - -
                  rw [if_pos (hcounts.allVoted_iff.mp hall)]
                · have hcount : roll.countRollVote s.items guid vote =
                      .counted (roll.record guid vote) := by
                    simp only [Roll.countRollVote, hentry, hitems, hall]
                    rfl
                  have hsome' : (roll.record guid vote).votes .notEmitedYet ≠ 0 :=
                    fun hzero => hall (hcounts.allVoted_iff.mpr hzero)
                  rw [hcount]
                  refine ⟨fun other hmem => ?_, ?_⟩
                  · rcases List.mem_or_eq_of_mem_set hmem with hold | rfl
                    · exact h other hold
                    · exact ⟨hcounts, Nat.pos_of_ne_zero hsome'⟩
                  · rintro _ _ _ rfl ⟨rfl, rfl⟩ - -
                    rw [if_neg hsome']

/-- A member who leaves somebody who has still to vote. -/
theorem removeRolls_step (items : ℕ → ℕ) (guid : ObjectGuid) {rolls : List Roll}
    (h : ∀ roll ∈ rolls, roll.Tallied)
    (hok : ∀ roll ∈ rolls, ∀ e, roll.entry guid = some e →
      ∃ other ∈ roll.playerVote, other.1 ≠ guid ∧ other.2 = .notEmitedYet) :
    (∀ roll ∈ removeRolls items guid rolls, roll.Tallied) ∧
      (removeRolls items guid rolls).length = rolls.length := by
  induction rolls with
  | nil => exact ⟨h, rfl⟩
  | cons roll rest ih =>
      have hroll := h roll List.mem_cons_self
      obtain ⟨hrest, hlength⟩ := ih (fun r hr => h r (List.mem_cons_of_mem _ hr))
        fun r hr => hok r (List.mem_cons_of_mem _ hr)
      cases hentry : roll.entry guid with
      | none =>
          have hcons : removeRolls items guid (roll :: rest) =
              roll :: removeRolls items guid rest := by
            simp only [removeRolls, hentry]
          rw [hcons]
          exact ⟨List.forall_mem_cons.mpr ⟨hroll, hrest⟩, by simp [hlength]⟩
      | some e =>
          obtain ⟨owner, vote⟩ := e
          obtain rfl : owner = guid := (Roll.entry_some hentry).2
          have hcons : removeRolls items owner (roll :: rest) =
              roll.forget owner vote :: removeRolls items owner rest := by
            simp only [removeRolls, hentry, Roll.countRollVote, Roll.forget_entry]
          rw [hcons]
          refine ⟨List.forall_mem_cons.mpr ⟨⟨hroll.toCounts.forget hentry, ?_⟩, hrest⟩,
            by simp [hlength]⟩
          obtain ⟨other, hother, hne, hvote⟩ := hok roll List.mem_cons_self _ hentry
          refine List.countP_pos_iff.mpr ⟨other, ?_, by simpa using hvote⟩
          exact Lib.mem_eraseKey.mpr ⟨hother, hne⟩

/-- An orderly event keeps the tally, and resolves what it should. -/
theorem rollStep_tallied (h : AllTallied s) {event : RollEvent} (hok : Orderly s event) :
    AllTallied (rollStep s event) ∧ ResolvedExactly s event := by
  cases event with
  | start target loot itemSlot looters =>
      refine ⟨?_, trivial⟩
      show AllTallied (s.startLootRoll target loot itemSlot looters)
      unfold Rolls.startLootRoll
      split_ifs with hslot hpos
      · exact h
      · intro roll hmem
        rcases List.mem_append.mp hmem with hold | hnew
        · exact h roll hold
        · rw [List.mem_singleton.mp hnew]
          exact started_tallied target loot itemSlot looters hpos
      · exact h
  | lootRoll player target itemSlot rollType => exact lootRoll_step h hok
  | leave guid => exact removeRolls_step s.items guid h hok
  | endRoll loot => exact ⟨fun roll hmem => h roll (List.mem_filter.mp hmem).1, trivial⟩
  | clearLoot loot =>
      refine ⟨fun roll hmem => ?_, trivial⟩
      obtain ⟨old, hold, rfl⟩ := List.mem_map.mp hmem
      obtain ⟨⟨h1, h2, h3, h4, h5, h6, h7⟩, h8⟩ := h old hold
      split_ifs
      · exact ⟨⟨h1, h2, h3, h4, h5, h6, h7⟩, h8⟩
      · exact ⟨⟨h1, h2, h3, h4, h5, h6, h7⟩, h8⟩
  | fillLoot loot items => exact ⟨h, trivial⟩

end Steps

/-- The law of the tally for a run that starts without rolls. -/
structure TallyLaw (events : List RollEvent) : Prop where
  tallied : AllTallied (Lib.run rollStep Rolls.none events)
  resolved : Lib.Along ResolvedExactly rollStep Rolls.none events

/-- The law of the tally holds of every orderly run. -/
theorem run_tallied (events : List RollEvent)
    (hok : Lib.Along Orderly rollStep Rolls.none events) : TallyLaw events := by
  have hnone : AllTallied Rolls.none := by simp [AllTallied, Rolls.none]
  exact ⟨Lib.run_invariant AllTallied (fun _ _ hstep h => (rollStep_tallied h hstep).1) hnone hok,
    Lib.along_of_run (fun _ _ hstep h => (rollStep_tallied h hstep).1)
      (fun _ _ hstep h => (rollStep_tallied h hstep).2) hnone hok⟩

/-- Two members near the corpse. -/
def Looters.two : Looters := ⟨[1, 2], by decide, by decide⟩

/-- Two votes of one member: they resolve a roll on which the other has not voted. -/
theorem lootRoll_twice :
    ¬TallyLaw [.fillLoot 0 1, .start 9 0 0 .two, .lootRoll 1 9 0 1, .lootRoll 1 9 0 1] := by
  intro hlaw
  have htwice := hlaw.resolved.2.2.2.1 .need 0 _ rfl rfl rfl rfl
  revert htwice
  decide

/-- A vote of each member. -/
theorem run_tallied_two :
    Lib.Along Orderly rollStep Rolls.none
        [.fillLoot 0 1, .start 9 0 0 .two, .lootRoll 1 9 0 1, .lootRoll 2 9 0 0] ∧
      TallyLaw [.fillLoot 0 1, .start 9 0 0 .two, .lootRoll 1 9 0 1, .lootRoll 2 9 0 0] := by
  have hok : Lib.Along Orderly rollStep Rolls.none
      [.fillLoot 0 1, .start 9 0 0 .two, .lootRoll 1 9 0 1, .lootRoll 2 9 0 0] := by
    refine ⟨trivial, trivial, ?_, ?_, trivial⟩
    · intro _ idx roll hfind e hentry
      cases hfind
      cases hentry
      exact Or.inl rfl
    · intro _ idx roll hfind e hentry
      cases hfind
      cases hentry
      exact Or.inl rfl
  exact ⟨hok, run_tallied _ hok⟩

end TwowCore.Groups
