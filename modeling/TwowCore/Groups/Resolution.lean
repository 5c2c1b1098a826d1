import TwowCore.Groups.Rolls
import TwowCore.Looting.Loot

/-!
# The end of a loot roll

`CountTheRoll` draws a number for every vote of the kind that counts, need before greed, and gives
the item to the first of the highest numbers. `Wins` says who that is, and `Resolved` what should
have become of the item.

The branches differ for a winner who is not there. The one of need leaves the item blocked and
writes the winner into it, the one of greed leaves it as it is. `countTheRoll_resolves_iff` says that
everything else is right.
-/

namespace TwowCore.Groups

open TwowCore.Looting (Loot LootItem)

/-- A player in the world. `canStoreNewItem` is whether so many of an item fit. -/
structure WorldPlayer where
  session : Bool
  canStoreNewItem : ℕ → UInt8 → Bool

/-- `SendLootRollWon`. -/
structure RollWon where
  guid : ObjectGuid
  number : ℕ
  vote : RollVote
  deriving DecidableEq, Repr

/-- What `CountTheRoll` leaves behind: the rolls, the loot, the winner it names and the player who
has got the item. -/
structure Resolution where
  rollId : List Roll
  loot : Loot
  won : Option RollWon
  stored : Option ObjectGuid

/-- The loop over the votes of a kind, from `maxguid` and `maxresul`. -/
def highest (random : ObjectGuid → ℕ) (vote : RollVote) (votes : List (ObjectGuid × RollVote))
    (maxguid : ObjectGuid) : ObjectGuid × ℕ :=
  votes.foldl (fun best e =>
    if e.2 ≠ vote then best
    else if best.2 < random e.1 then (e.1, random e.1) else best) (maxguid, 0)

/-- Changes the item of a slot. -/
def changeItem (loot : Loot) (slot : ℕ) (f : LootItem → LootItem) : Loot :=
  { loot with items := loot.items.modify slot f }

/-- The item of a roll for a winner who is there. -/
def giveToWinner (loot : Loot) (slot : ℕ) (item : LootItem) (guid : ObjectGuid)
    (player : WorldPlayer) : Loot × Option ObjectGuid :=
  if player.canStoreNewItem item.itemid item.count then
    ({ changeItem loot slot (fun item => { item with isLooted := true }) with
      unlootedCount := loot.unlootedCount - 1 }, some guid)
  else
    (changeItem loot slot (fun item => { item with isBlocked := false, lootOwner := guid.toNat }),
      none)

/-- The winner, when he is in the world and has a session. -/
def onlineWinner (players : ObjectGuid → Option WorldPlayer) (guid : ObjectGuid) :
    Option WorldPlayer :=
  (players guid).filter WorldPlayer.session

/-- A branch of `CountTheRoll` for a kind of votes. `offline` is what it does to the item when the
winner is not there. -/
def wantedBranch (vote : RollVote) (offline : ObjectGuid → LootItem → LootItem)
    (players : ObjectGuid → Option WorldPlayer) (random : ObjectGuid → ℕ) (roll : Roll)
    (loot : Loot) (item : LootItem) : Loot × Option RollWon × Option ObjectGuid :=
  match roll.playerVote with
  | [] => (loot, none, none)
  | first :: _ =>
      let best := highest random vote roll.playerVote first.1
      match onlineWinner players best.1 with
      | some player =>
          let given := giveToWinner loot roll.itemSlot.toNat item best.1 player
          (given.1, some ⟨best.1, best.2, vote⟩, given.2)
      | none =>
          (changeItem loot roll.itemSlot.toNat (offline best.1), some ⟨best.1, best.2, vote⟩, none)

/-- The branch of `totalNeed > 0`: an absent winner becomes `lootOwner`. -/
def needBranch := wantedBranch .need fun guid item => { item with lootOwner := guid.toNat }

/-- The branch of `totalGreed > 0`: nothing happens for an absent winner. -/
def greedBranch := wantedBranch .greed fun _ item => item

/-- `Group::CountTheRoll` of the roll at an index. A slot the loot does not have is `none`. -/
def countTheRoll (players : ObjectGuid → Option WorldPlayer) (random : ObjectGuid → ℕ)
    (rollId : List Roll) (index : ℕ) (roll : Roll) (loot : Loot) : Option Resolution :=
  if roll.loot.isNone then some ⟨rollId.eraseIdx index, loot, none, none⟩
  else
    match loot.items[roll.itemSlot.toNat]? with
    | none => none
    | some item =>
        let out :=
          if 0 < roll.totalNeed then needBranch players random roll loot item
          else if 0 < roll.totalGreed then greedBranch players random roll loot item
          else
            (changeItem loot roll.itemSlot.toNat fun item => { item with isBlocked := false }, none,
              none)
        some ⟨rollId.eraseIdx index, out.1, out.2.1, out.2.2⟩

/-! ## Who wins -/

/-- The first of those with the highest number among the votes of a kind. -/
def Wins (random : ObjectGuid → ℕ) (vote : RollVote) (votes : List (ObjectGuid × RollVote))
    (guid : ObjectGuid) : Prop :=
  ∃ before after, votes = before ++ (guid, vote) :: after ∧
    (∀ e ∈ before, e.2 = vote → random e.1 < random guid) ∧
    ∀ e ∈ after, e.2 = vote → random e.1 ≤ random guid

/-- The kind of votes that counts. -/
def Roll.counting (roll : Roll) : Option RollVote :=
  if 0 < roll.votes .need then some .need
  else if 0 < roll.votes .greed then some .greed
  else none

variable {random : ObjectGuid → ℕ} {vote : RollVote} {votes : List (ObjectGuid × RollVote)}

theorem Wins.mem {guid : ObjectGuid} (h : Wins random vote votes guid) : (guid, vote) ∈ votes := by
  obtain ⟨before, after, rfl, -, -⟩ := h
  exact List.mem_append_right _ List.mem_cons_self

/-- Nobody of that kind has a higher number. -/
theorem Wins.highest {guid : ObjectGuid} (h : Wins random vote votes guid) :
    ∀ e ∈ votes, e.2 = vote → random e.1 ≤ random guid := by
  obtain ⟨before, after, rfl, hbefore, hafter⟩ := h
  intro e he hvote
  rcases List.mem_append.mp he with he | he
  · exact (hbefore e he hvote).le
  · rcases List.mem_cons.mp he with rfl | he
    · exact le_rfl
    · exact hafter e he hvote

/-- A later vote with no higher number changes nothing. -/
theorem Wins.append {guid : ObjectGuid} {e : ObjectGuid × RollVote}
    (h : Wins random vote votes guid) (he : e.2 = vote → random e.1 ≤ random guid) :
    Wins random vote (votes ++ [e]) guid := by
  obtain ⟨before, after, rfl, hbefore, hafter⟩ := h
  refine ⟨before, after ++ [e], by rw [List.append_assoc, List.cons_append], hbefore,
    fun e' he' hkind => ?_⟩
  rcases List.mem_append.mp he' with he' | he'
  · exact hafter e' he' hkind
  · rw [List.mem_singleton.mp he'] at hkind ⊢
    exact he hkind

/-- There is one winner. -/
theorem wins_unique {guid guid' : ObjectGuid} (h : Wins random vote votes guid)
    (h' : Wins random vote votes guid') : guid = guid' := by
  obtain ⟨before, after, hvotes, hbefore, hafter⟩ := h
  obtain ⟨before', after', hvotes', hbefore', hafter'⟩ := h'
  have hle := Wins.highest ⟨before, after, hvotes, hbefore, hafter⟩
  have hle' := Wins.highest ⟨before', after', hvotes', hbefore', hafter'⟩
  have hmem : (guid, vote) ∈ votes := by
    rw [hvotes]
    exact List.mem_append_right _ List.mem_cons_self
  have hmem' : (guid', vote) ∈ votes := by
    rw [hvotes']
    exact List.mem_append_right _ List.mem_cons_self
  have heq : random guid = random guid' := le_antisymm (hle' _ hmem rfl) (hle _ hmem' rfl)
  rw [hvotes] at hvotes'
  -- With equal numbers neither stands before the other.
  rcases List.append_eq_append_iff.mp hvotes' with ⟨middle, hmiddle, hrest⟩ | ⟨middle, hmiddle, hrest⟩
  · cases middle with
    | nil => exact (Prod.mk.inj (List.cons.inj hrest).1).1
    | cons e middle =>
        obtain ⟨rfl, -⟩ := List.cons.inj hrest
        have hlt := hbefore' (guid, vote) (by
          rw [hmiddle]
          exact List.mem_append_right _ List.mem_cons_self) rfl
        change random guid < random guid' at hlt
        omega
  · cases middle with
    | nil => exact ((Prod.mk.inj (List.cons.inj hrest).1).1).symm
    | cons e middle =>
        obtain ⟨rfl, -⟩ := List.cons.inj hrest
        have hlt := hbefore (guid', vote) (by
          rw [hmiddle]
          exact List.mem_append_right _ List.mem_cons_self) rfl
        change random guid' < random guid at hlt
        omega

variable (vote) in
/-- The loop finds the winner, unless nobody has voted that kind. -/
theorem highest_wins (hrandom : ∀ guid, 0 < random guid) (maxguid : ObjectGuid)
    (votes : List (ObjectGuid × RollVote)) :
    ((∀ e ∈ votes, e.2 ≠ vote) ∧ highest random vote votes maxguid = (maxguid, 0)) ∨
      (Wins random vote votes (highest random vote votes maxguid).1 ∧
        (highest random vote votes maxguid).2 = random (highest random vote votes maxguid).1) := by
  induction votes using List.reverseRecOn with
  | nil => exact Or.inl ⟨fun e he => absurd he List.not_mem_nil, rfl⟩
  | append_singleton votes e ih =>
      have hnext : highest random vote (votes ++ [e]) maxguid =
          if e.2 ≠ vote then highest random vote votes maxguid
          else if (highest random vote votes maxguid).2 < random e.1 then (e.1, random e.1)
          else highest random vote votes maxguid := by
        unfold highest
        rw [List.foldl_append]
        rfl
      rw [hnext]
      by_cases hvote : e.2 ≠ vote
      · rw [if_pos hvote]
        refine ih.imp (fun hnone => ⟨fun e' he' => ?_, hnone.2⟩) fun hsome => ⟨?_, hsome.2⟩
        · rcases List.mem_append.mp he' with he' | he'
          · exact hnone.1 e' he'
          · rw [List.mem_singleton.mp he']
            exact hvote
        · exact hsome.1.append fun hkind => absurd hkind hvote
      · rw [if_neg hvote]
        rw [not_not] at hvote
        have he : e = (e.1, vote) := Prod.ext rfl hvote
        right
        by_cases hlt : (highest random vote votes maxguid).2 < random e.1
        · rw [if_pos hlt]
          refine ⟨⟨votes, [], by rw [← he], fun e' he' hkind => ?_,
            fun e' he' => absurd he' List.not_mem_nil⟩, rfl⟩
          rcases ih with ⟨hnone, -⟩ | ⟨hwins, hnumber⟩
          · exact absurd hkind (hnone e' he')
          · have hle := hwins.highest e' he' hkind
            show random e'.1 < random e.1
            omega
        · rw [if_neg hlt]
          rcases ih with ⟨-, heq⟩ | ⟨hwins, hnumber⟩
          · rw [heq] at hlt
            exact absurd (hrandom e.1) hlt
          · exact ⟨hwins.append fun _ => by omega, hnumber⟩

/-! ## What becomes of the item -/

/-- A roll whose loot is there, with right counters, for an item that waits for it. -/
structure ValidRoll (roll : Roll) (loot : Loot) (item : LootItem) : Prop where
  counts : roll.Counts
  linked : roll.loot.isSome
  here : loot.items[roll.itemSlot.toNat]? = some item
  blocked : item.isBlocked = true
  unlooted : item.isLooted = false
  unowned : item.lootOwner = 0

/-- What should have become of a roll. -/
structure Resolved (random : ObjectGuid → ℕ) (roll : Roll) (out : Resolution) : Prop where
  /-- The winner that is named has the highest number of those whose votes count. -/
  named : ∀ vote, roll.counting = some vote → ∃ won, out.won = some won ∧ won.vote = vote ∧
    (won.guid, vote) ∈ roll.playerVote ∧ won.number = random won.guid ∧
    ∀ e ∈ roll.playerVote, e.2 = vote → random e.1 ≤ won.number
  /-- Where all have passed nobody gets the item. -/
  passed : roll.counting = none → out.won = none ∧ out.stored = none
  /-- Then it is free for all. -/
  free : roll.counting = none → ∃ item, out.loot.items[roll.itemSlot.toNat]? = some item ∧
    item.isBlocked = false ∧ item.isLooted = false ∧ item.lootOwner = 0
  /-- Else the winner has it, or it is kept for the winner. -/
  kept : ∀ won, out.won = some won → ∃ item, out.loot.items[roll.itemSlot.toNat]? = some item ∧
    ((item.isLooted = true ∧ out.stored = some won.guid) ∨
      (item.isBlocked = false ∧ item.lootOwner = won.guid.toNat))

/-- Nobody wants the item, or the one who wins it is there. -/
def WinnerOnline (players : ObjectGuid → Option WorldPlayer) (random : ObjectGuid → ℕ)
    (roll : Roll) : Prop :=
  ∀ vote, roll.counting = some vote → ∃ guid, Wins random vote roll.playerVote guid ∧
    (onlineWinner players guid).isSome

variable {players : ObjectGuid → Option WorldPlayer} {roll : Roll} {loot : Loot} {item : LootItem}

theorem getElem?_changeItem {slot : ℕ} (h : loot.items[slot]? = some item) (f : LootItem → LootItem) :
    (changeItem loot slot f).items[slot]? = some (f item) := by
  show (loot.items.modify slot f)[slot]? = some (f item)
  rw [List.getElem?_modify_eq, h]
  rfl

/-- A winner who is there gets the item, or it is kept for him. -/
theorem giveToWinner_spec {slot : ℕ} (h : loot.items[slot]? = some item) (guid : ObjectGuid)
    (player : WorldPlayer) :
    ∃ item', (giveToWinner loot slot item guid player).1.items[slot]? = some item' ∧
      ((item'.isLooted = true ∧ (giveToWinner loot slot item guid player).2 = some guid) ∨
        (item'.isBlocked = false ∧ item'.lootOwner = guid.toNat)) := by
  unfold giveToWinner
  split
  · exact ⟨_, getElem?_changeItem h _, Or.inl ⟨rfl, rfl⟩⟩
  · exact ⟨_, getElem?_changeItem h _, Or.inr ⟨rfl, rfl⟩⟩

variable (players) in
/-- The winner that a branch names, and what it makes of the item. -/
theorem wantedBranch_spec (offline : ObjectGuid → LootItem → LootItem)
    (hslot : loot.items[roll.itemSlot.toNat]? = some item) {guid : ObjectGuid}
    (hrandom : ∀ guid, 0 < random guid) (hwins : Wins random vote roll.playerVote guid)
    (hblocked : (offline guid item).isBlocked = item.isBlocked)
    (hlooted : (offline guid item).isLooted = item.isLooted) :
    (wantedBranch vote offline players random roll loot item).2.1 =
        some ⟨guid, random guid, vote⟩ ∧
      ∃ item', (wantedBranch vote offline players random roll loot item).1.items[roll.itemSlot.toNat]? =
          some item' ∧
        if (onlineWinner players guid).isSome then
          (item'.isLooted = true ∧
              (wantedBranch vote offline players random roll loot item).2.2 = some guid) ∨
            (item'.isBlocked = false ∧ item'.lootOwner = guid.toNat)
        else item'.isLooted = item.isLooted ∧ item'.isBlocked = item.isBlocked := by
  unfold wantedBranch
  cases hvotes : roll.playerVote with
  | nil =>
      have hmem := hwins.mem
      rw [hvotes] at hmem
      exact absurd hmem List.not_mem_nil
  | cons first rest =>
      rw [hvotes] at hwins
      rcases highest_wins vote hrandom first.1 (first :: rest) with ⟨hnone, -⟩ | ⟨hbest, hnumber⟩
      · exact absurd rfl (hnone _ hwins.mem)
      · have heq := wins_unique hbest hwins
        have hpair : highest random vote (first :: rest) first.1 = (guid, random guid) := by
          refine Prod.ext heq ?_
          rw [hnumber, heq]
        simp only [hpair]
        cases honline : onlineWinner players guid with
        | some player =>
            obtain ⟨item', hitem, hout⟩ := giveToWinner_spec hslot guid player
            exact ⟨rfl, item', hitem, hout⟩
        | none => exact ⟨rfl, _, getElem?_changeItem hslot _, hlooted, hblocked⟩

/-- A kind that counts has a winner. -/
theorem exists_wins (hrandom : ∀ guid, 0 < random guid) (h : roll.counting = some vote) :
    ∃ guid, Wins random vote roll.playerVote guid := by
  have hvoter : ∃ e ∈ roll.playerVote, e.2 = vote := by
    have hpos : 0 < roll.votes vote := by
      unfold Roll.counting at h
      split at h
      · next hneed =>
          obtain rfl := Option.some.inj h
          exact hneed
      · split at h
        · next hgreed =>
            obtain rfl := Option.some.inj h
            exact hgreed
        · cases h
    obtain ⟨e, he, hvote⟩ := List.countP_pos_iff.mp hpos
    exact ⟨e, he, of_decide_eq_true hvote⟩
  obtain ⟨e, he, hvote⟩ := hvoter
  rcases highest_wins vote hrandom 0 roll.playerVote with ⟨hnone, -⟩ | ⟨hwins, -⟩
  · exact absurd hvote (hnone e he)
  · exact ⟨_, hwins⟩

/-- The branch for the kind that counts, and the winner. -/
theorem resolved_iff_of_wanted {offline : ObjectGuid → LootItem → LootItem} {out : Resolution}
    (hvalid : ValidRoll roll loot item) (hrandom : ∀ guid, 0 < random guid)
    (hvote : roll.counting = some vote)
    (hblocked : ∀ guid, (offline guid item).isBlocked = item.isBlocked)
    (hlooted : ∀ guid, (offline guid item).isLooted = item.isLooted)
    (hloot : out.loot = (wantedBranch vote offline players random roll loot item).1)
    (hwon : out.won = (wantedBranch vote offline players random roll loot item).2.1)
    (hstored : out.stored = (wantedBranch vote offline players random roll loot item).2.2) :
    Resolved random roll out ↔ WinnerOnline players random roll := by
  obtain ⟨guid, hwins⟩ := exists_wins hrandom hvote
  obtain ⟨hname, item', hitem, hout⟩ := wantedBranch_spec players offline
    hvalid.here hrandom hwins (hblocked guid) (hlooted guid)
  rw [← hwon] at hname
  rw [← hloot] at hitem
  rw [← hstored] at hout
  constructor
  · intro h vote' hvote'
    obtain rfl := Option.some.inj (hvote.symm.trans hvote')
    refine ⟨guid, hwins, ?_⟩
    obtain ⟨item'', hitem'', hkept⟩ := h.kept _ hname
    obtain rfl := Option.some.inj (hitem.symm.trans hitem'')
    by_contra habsent
    rw [if_neg habsent] at hout
    -- An absent winner leaves the item blocked, and nobody has looted it.
    rcases hkept with ⟨htaken, -⟩ | ⟨hfree, -⟩
    · rw [hout.1, hvalid.unlooted] at htaken
      exact Bool.false_ne_true htaken
    · rw [hout.2, hvalid.blocked] at hfree
      exact Bool.false_ne_true hfree.symm
  · intro h
    obtain ⟨guid', hwins', honline⟩ := h vote hvote
    obtain rfl := wins_unique hwins hwins'
    rw [if_pos honline] at hout
    refine ⟨fun vote' hvote' => ?_, fun hnone => ?_, fun hnone => ?_, fun won hwon' => ?_⟩
    · obtain rfl := Option.some.inj (hvote.symm.trans hvote')
      exact ⟨_, hname, rfl, hwins.mem, rfl, hwins.highest⟩
    · rw [hvote] at hnone
      cases hnone
    · rw [hvote] at hnone
      cases hnone
    · obtain rfl := Option.some.inj (hname.symm.trans hwon')
      exact ⟨item', hitem, hout⟩

/-- A roll that is valid is resolved as it should be exactly when nobody wants the item or its winner
is online. -/
theorem countTheRoll_resolves_iff (players : ObjectGuid → Option WorldPlayer) (rollId : List Roll)
    (index : ℕ) (hvalid : ValidRoll roll loot item)
    (hrandom : ∀ guid, 1 ≤ random guid ∧ random guid ≤ 100) :
    ∃ out, countTheRoll players random rollId index roll loot = some out ∧
      out.rollId = rollId.eraseIdx index ∧
      (Resolved random roll out ↔ WinnerOnline players random roll) := by
  have hpositive : ∀ guid, 0 < random guid := fun guid => (hrandom guid).1
  have hneed : 0 < roll.totalNeed ↔ 0 < roll.votes .need := by
    rw [← hvalid.counts.need, UInt8.lt_iff_toNat_lt]
    rfl
  have hgreed : 0 < roll.totalGreed ↔ 0 < roll.votes .greed := by
    rw [← hvalid.counts.greed, UInt8.lt_iff_toNat_lt]
    rfl
  have hlinked : ¬ roll.loot.isNone = true := by
    rw [Option.isNone_iff_eq_none]
    intro hnone
    have hsome := hvalid.linked
    rw [hnone] at hsome
    cases hsome
  unfold countTheRoll
  rw [if_neg hlinked, hvalid.here]
  refine ⟨_, rfl, rfl, ?_⟩
  by_cases hneeded : 0 < roll.votes .need
  · have hvote : roll.counting = some .need := by
      unfold Roll.counting
      rw [if_pos hneeded]
    simp only [if_pos (hneed.mpr hneeded)]
    exact resolved_iff_of_wanted hvalid hpositive hvote (fun _ => rfl) (fun _ => rfl) rfl rfl rfl
  · by_cases hgreeded : 0 < roll.votes .greed
    · have hvote : roll.counting = some .greed := by
        unfold Roll.counting
        rw [if_neg hneeded, if_pos hgreeded]
      simp only [if_neg (fun h => hneeded (hneed.mp h)), if_pos (hgreed.mpr hgreeded)]
      exact resolved_iff_of_wanted hvalid hpositive hvote (fun _ => rfl) (fun _ => rfl) rfl rfl rfl
    · have hvote : roll.counting = none := by
        unfold Roll.counting
        rw [if_neg hneeded, if_neg hgreeded]
      simp only [if_neg (fun h => hneeded (hneed.mp h)), if_neg (fun h => hgreeded (hgreed.mp h))]
      refine ⟨fun _ vote hsome => ?_, fun _ => ?_⟩
      · rw [hvote] at hsome
        cases hsome
      · refine ⟨fun vote hsome => ?_, fun _ => ⟨rfl, rfl⟩, fun _ => ?_, fun won hwon => ?_⟩
        · rw [hvote] at hsome
          cases hsome
        · exact ⟨_, getElem?_changeItem hvalid.here _, rfl, hvalid.unlooted, hvalid.unowned⟩
        · cases hwon

/-! A roll of two players. The first needs the item. -/

/-- An item that waits for its roll. -/
def rolledItem : LootItem := ⟨0, 18203, 0, 1, false, true, false, false, false, false, 0⟩

/-- The loot with this item. -/
def rolledLoot : Loot := ⟨[rolledItem], [], [], 0, 1, [], [], [], [], 1⟩

/-- Player 1 needs, player 2 is greedy. -/
def twoVotes : Roll := ⟨7, some 0, [(1, .need), (2, .greed)], 2, 1, 1, 0, 0⟩

/-- Nobody is online. -/
def nobodyOnline : ObjectGuid → Option WorldPlayer := fun _ => none

theorem twoVotes_valid : ValidRoll twoVotes rolledLoot rolledItem :=
  ⟨⟨by decide, by decide, rfl, rfl, rfl, rfl, rfl⟩, rfl, rfl, rfl, rfl, rfl⟩

/-- Only player 1 is online, and he has room. -/
def firstOnline : ObjectGuid → Option WorldPlayer := fun guid =>
  if guid = 1 then some ⟨true, fun _ _ => true⟩ else none

/-- He wins, and the roll is resolved. -/
theorem countTheRoll_resolves_iff_two :
    ∃ out, countTheRoll firstOnline (fun _ => 50) [twoVotes] 0 twoVotes rolledLoot = some out ∧
      out.rollId = [] ∧ Resolved (fun _ => 50) twoVotes out := by
  have hrandom : ∀ _ : ObjectGuid, 1 ≤ 50 ∧ 50 ≤ 100 := fun _ => by omega
  obtain ⟨out, hout, hclosed, hresolved⟩ :=
    countTheRoll_resolves_iff firstOnline [twoVotes] 0 twoVotes_valid hrandom
  refine ⟨out, hout, hclosed, hresolved.mpr fun vote hvote => ?_⟩
  have hneed : twoVotes.counting = some .need := by decide
  obtain rfl : RollVote.need = vote := Option.some.inj (hneed.symm.trans hvote)
  exact ⟨1, ⟨[], [(2, .greed)], rfl, by decide, by decide⟩, rfl⟩

/-- The winner has logged out. The item stays blocked, and no roll is open. -/
theorem countTheRoll_blocked :
    ∃ out, countTheRoll nobodyOnline (fun _ => 50) [twoVotes] 0 twoVotes rolledLoot = some out ∧
      out.rollId = [] ∧ out.loot.items = [{ rolledItem with lootOwner := 1 }] ∧
      ¬ Resolved (fun _ => 50) twoVotes out := by
  refine ⟨_, rfl, rfl, rfl, fun h => ?_⟩
  obtain ⟨item, hitem, hkept⟩ := h.kept ⟨1, 50, .need⟩ rfl
  obtain rfl : { rolledItem with lootOwner := 1 } = item := Option.some.inj hitem
  rcases hkept with ⟨htaken, -⟩ | ⟨hfree, -⟩
  · exact Bool.false_ne_true htaken
  · exact Bool.false_ne_true hfree.symm

end TwowCore.Groups
