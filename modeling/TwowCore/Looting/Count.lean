import TwowCore.Looting.Lists

/-!
# The count of unlooted items

`Loot.obtainable` counts what is left in a loot: plain items, the conditional ones that have been
counted, the quest items somebody has been shown, and the free-for-all items in the lists of the
players. `Tallied` says that `unlootedCount` is this number, and `run_count` says it of every run
whose steps are `Careful`.

`HandleAutostoreLootItemOpcode` and `HandleLootMasterGiveOpcode` count down for whatever they hand
out. So an item that was never counted, or not for this player, must not be handed out, and no item
twice; and as the count is a byte, no more than 255 items may be left at a time.
-/

namespace TwowCore.Looting

/-- The item is left: it is not free-for-all, not looted, and plain or counted. -/
def LootItem.waits (item : LootItem) : Bool :=
  !item.freeforall && !item.isLooted && (item.conditionId == 0 || item.isCounted)

/-- The quest item is left: it is not free-for-all, somebody has been shown it, and it is not
looted. -/
def LootItem.shown (item : LootItem) : Bool :=
  !item.freeforall && item.isBlocked && !item.isLooted

/-- The entry of a quest list is a free-for-all item not looted. -/
def Loot.freeQuest (loot : Loot) (q : QuestItem) : Bool :=
  !q.isLooted && loot.questItems[q.index]?.any LootItem.freeforall

/-- The number of items that are left. -/
def Loot.obtainable (loot : Loot) : ℕ :=
  loot.items.countP LootItem.waits + loot.overflowItems.countP LootItem.waits +
    loot.questItems.countP LootItem.shown +
    loot.playerFFAItems.count (fun q => !q.isLooted) +
    loot.playerQuestItems.count loot.freeQuest

/-- What holds of the count and of the lists. -/
structure Tallied (loot : Loot) : Prop where
  count : loot.unlootedCount.toNat = loot.obtainable
  ffa : loot.playerFFAItems.Ok
  quest : loot.playerQuestItems.Ok
  listed : ∀ e ∈ loot.playerQuestItems, ∀ q ∈ e.2,
    ∃ item, loot.questItems[q.index]? = some item ∧ item.isBlocked = true

namespace Loot

/-- What `FillNotNormalLootFor` adds to the quest items that are left. -/
def newQuest (c : Catalogue) (loot : Loot) (player : Looter) : ℕ :=
  if loot.playerQuestItems.find player.guid ≠ none ∨ player.inWorld = false ∨
      maxNrLootClientSlots ≤ loot.items.length then 0
  else (loot.questFor c player).countP loot.countsQuest

/-- What `FillNotNormalLootFor` adds to the free-for-all items that are left. -/
def newFFA (c : Catalogue) (loot : Loot) (player : Looter) : ℕ :=
  if loot.playerFFAItems.find player.guid ≠ none ∨ player.inWorld = false then 0
  else (loot.ffaFor c player).length

/-- What `FillNotNormalLootFor` adds to the conditional items that are left. -/
def newConditional (c : Catalogue) (loot : Loot) (player : Looter) : ℕ :=
  if loot.playerNonQuestNonFFAConditionalItems.find player.guid ≠ none ∨
      player.inWorld = false then 0
  else (loot.conditionalFor c player).countP loot.countsConditional

end Loot

/-- What is handed out has been counted, for the player who gets it, and the count stays a byte. -/
def Careful (c : Catalogue) (s : Corpse) : LootEvent → Prop
  | .addItem item =>
      item.needsQuest = false → s.loot.items.length < c.maxNrLootItems →
        (s.loot.newItem c item).plain = true → s.loot.obtainable < 255
  | .fillNotNormalLootFor player =>
      s.loot.obtainable + s.loot.newQuest c player + s.loot.newFFA c player +
        s.loot.newConditional c player < 256
  | .autostore player lootSlot isCreature canStore =>
      ∀ item found, s.loot.lootItemInSlot lootSlot player.guid = some (item, found) →
        Corpse.mayAutostore c player item found isCreature canStore = true →
        found.isQuest = true ∨ found = .ffa ∨ item.waits = true
  | .masterGive slotid target canStore =>
      ∀ item, s.loot.items[slotid]? = some item → target ∈ s.loot.allowedLooters →
        canStore = true → item.waits = true
  | .countTheRoll k (.won _ true) =>
      ∀ roll item, s.rolls[k]? = some roll → s.loot.items[roll.itemSlot]? = some item →
        item.waits = true
  | _ => True

/-- Counting up within a byte. -/
theorem toNat_add_ofNat {count : UInt8} {n : ℕ} (h : count.toNat + n < 256) :
    (count + UInt8.ofNat n).toNat = count.toNat + n := by
  rw [UInt8.toNat_add, UInt8.toNat_ofNat']
  omega

/-- Counting down something that is there. -/
theorem toNat_sub_one {count : UInt8} {n : ℕ} (h : count.toNat = n + 1) :
    (count - 1).toNat = n := by
  have hone : (1 : UInt8) ≤ count := by
    rw [UInt8.le_iff_toNat_le, h]
    exact Nat.le_add_left 1 n
  rw [UInt8.toNat_sub_of_le _ _ hone, h]
  rfl

namespace Tallied

variable {c : Catalogue} {loot : Loot} {player : Looter}

/-- An item is written that is left as much as before. -/
theorem setItem (h : Tallied loot) {i : ℕ} {old : LootItem} (hold : loot.items[i]? = some old)
    {new : LootItem} (hwaits : new.waits = old.waits) :
    Tallied { loot with items := loot.items.set i new } :=
  { h with
    count := by
      have hset := Loot.countP_set LootItem.waits hold new
      rw [hwaits] at hset
      have hsame : (loot.items.set i new).countP LootItem.waits =
          loot.items.countP LootItem.waits := by omega
      have hcount := h.count
      unfold Loot.obtainable at hcount ⊢
      dsimp only
      rw [hsame]
      exact hcount }

/-- An item that was left is handed out. -/
theorem takeItem (h : Tallied loot) {i : ℕ} {old : LootItem} (hold : loot.items[i]? = some old)
    (hwaits : old.waits = true) {new : LootItem} (hnew : new.isLooted = true) :
    Tallied ({ loot with items := loot.items.set i new }.countDown) :=
  { h with
    count := by
      have hset := Loot.countP_set LootItem.waits hold new
      have hgone : new.waits = false := by simp [LootItem.waits, hnew]
      rw [hwaits, hgone] at hset
      simp only [Bool.false_eq_true, if_false, if_true, Nat.add_zero] at hset
      have hcount := h.count
      show (loot.unlootedCount - 1).toNat = _
      unfold Loot.obtainable at hcount
      refine toNat_sub_one (hcount.trans ?_)
      show _ = (loot.items.set i new).countP LootItem.waits +
        loot.overflowItems.countP LootItem.waits + loot.questItems.countP LootItem.shown +
        loot.playerFFAItems.count (fun q => !q.isLooted) +
        loot.playerQuestItems.count loot.freeQuest + 1
      omega }

/-- The lists of conditional items do not matter. -/
theorem setConditional (h : Tallied loot) (m : QuestItemMap) :
    Tallied { loot with playerNonQuestNonFFAConditionalItems := m } := { h with }

/-- Who may loot does not matter. -/
theorem allowLooter (h : Tallied loot) (player : Looter) : Tallied (loot.allowLooter player) := by
  unfold Loot.allowLooter
  split
  · exact { h with }
  · exact h

/-- An item is added. -/
theorem addItem (h : Tallied loot) {item : LootStoreItem}
    (hroom : item.needsQuest = false → loot.items.length < c.maxNrLootItems →
      (loot.newItem c item).plain = true → loot.obtainable < 255) :
    Tallied (loot.addItem c item) := by
  have hcount := h.count
  unfold Loot.obtainable at hcount
  unfold Loot.addItem
  split
  · split
    · -- the entries of the lists are of items that were there before
      have hold : ∀ e ∈ loot.playerQuestItems, ∀ q ∈ e.2,
          (loot.questItems ++ [loot.newItem c item])[q.index]? = loot.questItems[q.index]? := by
        intro e he q hq
        obtain ⟨old, hold, -⟩ := h.listed e he q hq
        exact List.getElem?_append_left (List.getElem?_eq_some_iff.mp hold).1
      refine { h with count := ?_, listed := ?_ }
      · show loot.unlootedCount.toNat = _
        unfold Loot.obtainable
        have hfree : loot.playerQuestItems.count (Loot.freeQuest { loot with
            questItems := loot.questItems ++ [loot.newItem c item]
            nextNumber := loot.nextNumber + 1 }) =
            loot.playerQuestItems.count loot.freeQuest := by
          refine QuestItemMap.count_congr fun e he q hq => ?_
          unfold Loot.freeQuest
          dsimp only
          rw [hold e he q hq]
        rw [hfree]
        dsimp only
        have hshown : (loot.newItem c item).shown = false := by simp [LootItem.shown, Loot.newItem]
        rw [List.countP_append, List.countP_singleton, hshown]
        exact hcount
      · intro e he q hq
        obtain ⟨old, hq', hblocked⟩ := h.listed e he q hq
        exact ⟨old, (hold e he q hq).trans hq', hblocked⟩
    · exact h
  · next hquest =>
    split
    · next hlength =>
      have hwaits : (loot.newItem c item).waits = (loot.newItem c item).plain := by
        simp [LootItem.waits, LootItem.plain, Loot.newItem]
      refine { h with count := ?_ }
      show (if (loot.newItem c item).plain then loot.unlootedCount + 1
        else loot.unlootedCount).toNat = _
      unfold Loot.obtainable
      dsimp only
      rw [List.countP_append, List.countP_singleton, hwaits]
      have hfree : loot.playerQuestItems.count (Loot.freeQuest { loot with
          items := loot.items ++ [loot.newItem c item]
          unlootedCount := if (loot.newItem c item).plain then loot.unlootedCount + 1
            else loot.unlootedCount
          nextNumber := loot.nextNumber + 1 }) =
          loot.playerQuestItems.count loot.freeQuest := rfl
      rw [hfree]
      split
      · next hplain =>
        have hroom := hroom (Bool.eq_false_iff.mpr hquest) hlength hplain
        unfold Loot.obtainable at hroom
        have hadd : (loot.unlootedCount + UInt8.ofNat 1).toNat = loot.unlootedCount.toNat + 1 :=
          toNat_add_ofNat (by omega)
        have hone : UInt8.ofNat 1 = 1 := rfl
        rw [hone] at hadd
        rw [hadd]
        omega
      · omega
    · exact h

/-- A player is shown his free-for-all items. -/
theorem fillFFA (h : Tallied loot) (hroom : loot.obtainable + loot.newFFA c player < 256) :
    Tallied (loot.fillFFA c player) ∧
      (loot.fillFFA c player).obtainable = loot.obtainable + loot.newFFA c player := by
  unfold Loot.fillFFA
  by_cases hnone : loot.playerFFAItems.find player.guid = none
  · rw [if_pos hnone]
    unfold Loot.fillFFALoot
    split
    · next hempty =>
      refine ⟨h, ?_⟩
      unfold Loot.newFFA
      split
      · rfl
      · next hthere =>
        have hworld := (not_or.mp hthere).2
        rw [hempty.resolve_left hworld]
        rfl
    · next hthere =>
      have hnew : loot.newFFA c player = (loot.ffaFor c player).length := by
        unfold Loot.newFFA
        rw [if_neg]
        exact fun hor => hor.elim (fun hne => hne hnone) fun hworld => hthere (Or.inl hworld)
      have hobtain : Loot.obtainable { loot with
          unlootedCount := loot.unlootedCount + UInt8.ofNat (loot.ffaFor c player).length
          playerFFAItems := loot.playerFFAItems ++
            [(player.guid, Loot.marks (loot.ffaFor c player))] } =
          loot.obtainable + loot.newFFA c player := by
        unfold Loot.obtainable
        dsimp only
        rw [QuestItemMap.count_concat, hnew]
        have hall : (loot.ffaFor c player).countP (fun i => !(⟨i, false⟩ : QuestItem).isLooted) =
            (loot.ffaFor c player).length := List.countP_eq_length.mpr fun _ _ => rfl
        have hfree : loot.playerQuestItems.count (Loot.freeQuest { loot with
            unlootedCount := loot.unlootedCount + UInt8.ofNat (loot.ffaFor c player).length
            playerFFAItems := loot.playerFFAItems ++
              [(player.guid, Loot.marks (loot.ffaFor c player))] }) =
            loot.playerQuestItems.count loot.freeQuest := rfl
        rw [hall, hfree]
        omega
      refine ⟨{ h with count := ?_, ffa := ?_ }, hobtain⟩
      · rw [hobtain]
        show (loot.unlootedCount + UInt8.ofNat (loot.ffaFor c player).length).toNat = _
        rw [hnew] at hroom ⊢
        rw [toNat_add_ofNat (by rw [h.count]; exact hroom), h.count]
      · exact h.ffa.concat hnone (Loot.indices_nodup _ _)
  · rw [if_neg hnone]
    refine ⟨h, ?_⟩
    unfold Loot.newFFA
    rw [if_pos (Or.inl hnone)]
    rfl

/-- A player is shown his conditional items. -/
theorem fillConditional (h : Tallied loot)
    (hroom : loot.obtainable + loot.newConditional c player < 256) :
    Tallied (loot.fillConditional c player) := by
  unfold Loot.fillConditional
  by_cases hnone : loot.playerNonQuestNonFFAConditionalItems.find player.guid = none
  · rw [if_pos hnone]
    unfold Loot.fillNonQuestNonFFAConditionalLoot
    split
    · exact h
    · next hthere =>
      have hnew : loot.newConditional c player =
          (loot.conditionalFor c player).countP loot.countsConditional := by
        unfold Loot.newConditional
        rw [if_neg]
        exact fun hor => hor.elim (fun hne => hne hnone) fun hworld => hthere (Or.inl hworld)
      have hnodup : (loot.conditionalFor c player).Nodup := Loot.indices_nodup _ _
      have hmodify := Loot.countP_modifyAt LootItem.waits
        (f := fun item => { item with isCounted := true }) hnodup loot.items
      -- what was not counted is counted now, and was not left before
      have hbalance : (loot.conditionalFor c player).countP
            (fun i => loot.items[i]?.any LootItem.waits) +
          (loot.conditionalFor c player).countP loot.countsConditional =
          (loot.conditionalFor c player).countP (fun i => loot.items[i]?.any fun item =>
            LootItem.waits { item with isCounted := true }) +
          (loot.conditionalFor c player).countP fun _ => false := by
        refine countP_balance fun i hi => ?_
        obtain ⟨item, hitem, htest⟩ := Loot.mem_indices.mp hi
        simp only [Bool.and_eq_true, Bool.not_eq_true', bne_iff_ne] at htest
        obtain ⟨⟨⟨hlooted, hffa⟩, hcondition⟩, -⟩ := htest
        unfold Loot.countsConditional
        cases hcounted : item.isCounted <;>
          simp [hitem, LootItem.waits, hlooted, hffa, hcondition, hcounted]
      have hnone' : (loot.conditionalFor c player).countP (fun _ => false) = 0 :=
        List.countP_eq_zero.mpr fun _ _ => Bool.false_ne_true
      refine { h with count := ?_ }
      show (loot.unlootedCount + UInt8.ofNat _).toNat = _
      rw [hnew] at hroom
      rw [toNat_add_ofNat (by rw [h.count]; exact hroom), h.count]
      show _ = (Loot.modifyAt _ _ loot.items).countP LootItem.waits +
        loot.overflowItems.countP LootItem.waits + loot.questItems.countP LootItem.shown +
        loot.playerFFAItems.count (fun q => !q.isLooted) +
        loot.playerQuestItems.count loot.freeQuest
      unfold Loot.obtainable
      omega
  · rw [if_neg hnone]
    exact h

theorem questFor_nodup (loot : Loot) (c : Catalogue) (player : Looter) : (loot.questFor c player).Nodup :=
  (Loot.indices_nodup _ _).sublist (List.take_sublist _ _)

theorem questFor_unlooted {i : ℕ} (hi : i ∈ loot.questFor c player) :
    ∃ item, loot.questItems[i]? = some item ∧ item.isLooted = false := by
  obtain ⟨item, hitem, htest⟩ := Loot.mem_indices.mp (List.mem_of_mem_take hi)
  simp only [Bool.and_eq_true, Bool.not_eq_true'] at htest
  exact ⟨item, hitem, htest.1⟩

/-- What can be obtained when the quest items of a player have been listed and blocked. -/
theorem obtainable_blockQuest (loot : Loot) (c : Catalogue) (player : Looter) (count : UInt8) :
    Loot.obtainable { loot with
      questItems := Loot.modifyAt (fun item => { item with isBlocked := true })
        (loot.questFor c player) loot.questItems
      unlootedCount := count
      playerQuestItems := loot.playerQuestItems ++
        [(player.guid, Loot.marks (loot.questFor c player))] } =
      loot.obtainable + (loot.questFor c player).countP loot.countsQuest := by
  have hnodup := questFor_nodup loot c player
  have hget := Loot.getElem?_modifyAt (f := fun item => { item with isBlocked := true })
    hnodup loot.questItems
  have hmodify := Loot.countP_modifyAt LootItem.shown
    (f := fun item => { item with isBlocked := true }) hnodup loot.questItems
  -- a free-for-all item is counted in the list, another one when it is blocked now
  have hbalance : (loot.questFor c player).countP
        (fun i => loot.questItems[i]?.any LootItem.shown) +
      (loot.questFor c player).countP loot.countsQuest =
      (loot.questFor c player).countP (fun i => loot.questItems[i]?.any fun item =>
        LootItem.shown { item with isBlocked := true }) +
      (loot.questFor c player).countP fun i =>
        loot.questItems[i]?.any LootItem.freeforall := by
    refine countP_balance fun i hi => ?_
    obtain ⟨item, hitem, hlooted⟩ := questFor_unlooted hi
    unfold Loot.countsQuest
    cases hffa : item.freeforall <;> cases hblocked : item.isBlocked <;>
      simp [hitem, LootItem.shown, hlooted, hffa, hblocked]
  -- being free-for-all does not change
  have hfree : ∀ m, Loot.freeQuest { loot with
      questItems := Loot.modifyAt (fun item => { item with isBlocked := true })
        (loot.questFor c player) loot.questItems
      unlootedCount := count
      playerQuestItems := m } = loot.freeQuest := by
    intro m
    funext q
    unfold Loot.freeQuest
    dsimp only
    rw [hget]
    split_ifs
    · cases loot.questItems[q.index]? <;> rfl
    · rfl
  have hfor : (loot.questFor c player).countP (fun i => loot.freeQuest ⟨i, false⟩) =
      (loot.questFor c player).countP fun i => loot.questItems[i]?.any LootItem.freeforall :=
    List.countP_congr fun i _ => by simp [Loot.freeQuest]
  unfold Loot.obtainable
  dsimp only
  rw [hfree, QuestItemMap.count_concat, hfor]
  omega

/-- A player is shown his quest items. -/
theorem fillQuest (h : Tallied loot) (hroom : loot.obtainable + loot.newQuest c player < 256) :
    Tallied (loot.fillQuest c player) ∧
      (loot.fillQuest c player).obtainable = loot.obtainable + loot.newQuest c player := by
  unfold Loot.fillQuest
  by_cases hnone : loot.playerQuestItems.find player.guid = none
  · rw [if_pos hnone]
    unfold Loot.fillQuestLoot
    split
    · next hempty =>
      refine ⟨h, ?_⟩
      unfold Loot.newQuest
      split
      · rfl
      · next hthere =>
        obtain ⟨-, hworld, hslots⟩ := not_or.mp hthere |>.imp_right not_or.mp
        rw [(hempty.resolve_left hworld).resolve_left hslots]
        rfl
    · next hthere =>
      have hnew : loot.newQuest c player = (loot.questFor c player).countP loot.countsQuest := by
        unfold Loot.newQuest
        rw [if_neg]
        rintro (hne | hworld | hslots)
        · exact hne hnone
        · exact hthere (Or.inl hworld)
        · exact hthere (Or.inr (Or.inl hslots))
      have hnodup := questFor_nodup loot c player
      have hget := Loot.getElem?_modifyAt (f := fun item => { item with isBlocked := true })
        hnodup loot.questItems
      have hobtain := (obtainable_blockQuest loot c player
        (loot.unlootedCount + UInt8.ofNat ((loot.questFor c player).countP loot.countsQuest))).trans
        (congrArg _ hnew.symm)
      refine ⟨{ h with count := ?_, quest := ?_, listed := ?_ }, hobtain⟩
      · rw [hobtain]
        show (loot.unlootedCount + UInt8.ofNat _).toNat = _
        rw [hnew] at hroom ⊢
        rw [toNat_add_ofNat (by rw [h.count]; exact hroom), h.count]
      · exact h.quest.concat hnone hnodup
      · intro e he q hq
        show ∃ item, (Loot.modifyAt _ (loot.questFor c player) loot.questItems)[q.index]? =
          some item ∧ _
        rw [hget]
        rcases List.mem_append.mp he with hold | hadded
        · obtain ⟨item, hitem, hblocked⟩ := h.listed e hold q hq
          rw [hitem]
          split_ifs
          · exact ⟨_, rfl, rfl⟩
          · exact ⟨item, rfl, hblocked⟩
        · rw [List.mem_singleton.mp hadded] at hq
          obtain ⟨i, hi, rfl⟩ := List.mem_map.mp hq
          obtain ⟨item, hitem, -⟩ := questFor_unlooted hi
          rw [if_pos hi, hitem]
          exact ⟨_, rfl, rfl⟩
  · rw [if_neg hnone]
    refine ⟨h, ?_⟩
    unfold Loot.newQuest
    rw [if_pos (Or.inl hnone)]
    rfl

end Tallied

namespace Loot

variable {c : Catalogue} {loot loot' : Loot} {player : Looter}

/-- What `FillQuestLoot` leaves alone. -/
theorem fillQuest_frame (c : Catalogue) (player : Looter) (loot : Loot) :
    (loot.fillQuest c player).items = loot.items ∧
      (loot.fillQuest c player).playerFFAItems = loot.playerFFAItems ∧
      (loot.fillQuest c player).playerNonQuestNonFFAConditionalItems =
        loot.playerNonQuestNonFFAConditionalItems := by
  unfold fillQuest fillQuestLoot
  split_ifs
  · exact ⟨rfl, rfl, rfl⟩
  · exact ⟨rfl, rfl, rfl⟩
  · exact ⟨rfl, rfl, rfl⟩

/-- What `FillFFALoot` leaves alone. -/
theorem fillFFA_frame (c : Catalogue) (player : Looter) (loot : Loot) :
    (loot.fillFFA c player).items = loot.items ∧
      (loot.fillFFA c player).questItems = loot.questItems ∧
      (loot.fillFFA c player).playerQuestItems = loot.playerQuestItems ∧
      (loot.fillFFA c player).playerNonQuestNonFFAConditionalItems =
        loot.playerNonQuestNonFFAConditionalItems := by
  unfold fillFFA fillFFALoot
  split_ifs
  · exact ⟨rfl, rfl, rfl, rfl⟩
  · exact ⟨rfl, rfl, rfl, rfl⟩
  · exact ⟨rfl, rfl, rfl, rfl⟩

/-- What is new depends on the items and on the lists. -/
theorem newFFA_congr (hitems : loot'.items = loot.items)
    (hlists : loot'.playerFFAItems = loot.playerFFAItems) :
    loot'.newFFA c player = loot.newFFA c player := by
  unfold newFFA ffaFor
  rw [hitems, hlists]

theorem newConditional_congr (hitems : loot'.items = loot.items)
    (hlists : loot'.playerNonQuestNonFFAConditionalItems =
      loot.playerNonQuestNonFFAConditionalItems) :
    loot'.newConditional c player = loot.newConditional c player := by
  unfold newConditional conditionalFor countsConditional
  rw [hitems, hlists]

end Loot

namespace Tallied

variable {c : Catalogue} {loot : Loot} {player : Looter}

/-- A player is shown the loot. -/
theorem fillNotNormalLootFor (h : Tallied loot)
    (hroom : loot.obtainable + loot.newQuest c player + loot.newFFA c player +
      loot.newConditional c player < 256) :
    Tallied (loot.fillNotNormalLootFor c player) := by
  have hallowed := h.allowLooter player
  have hsame : (loot.allowLooter player).obtainable = loot.obtainable ∧
      (loot.allowLooter player).newQuest c player = loot.newQuest c player ∧
      (loot.allowLooter player).items = loot.items ∧
      (loot.allowLooter player).playerFFAItems = loot.playerFFAItems ∧
      (loot.allowLooter player).playerNonQuestNonFFAConditionalItems =
        loot.playerNonQuestNonFFAConditionalItems := by
    unfold Loot.allowLooter
    split_ifs <;> exact ⟨rfl, rfl, rfl, rfl, rfl⟩
  obtain ⟨hobtain, hnewQuest, hitems, hffaLists, hconditional⟩ := hsame
  have hroomQuest : (loot.allowLooter player).obtainable +
      (loot.allowLooter player).newQuest c player < 256 := by omega
  obtain ⟨hquest, hquestCount⟩ := hallowed.fillQuest hroomQuest
  obtain ⟨hqItems, hqFFA, hqConditional⟩ :=
    Loot.fillQuest_frame c player (loot.allowLooter player)
  have hnewFFA : ((loot.allowLooter player).fillQuest c player).newFFA c player =
      loot.newFFA c player := Loot.newFFA_congr (hqItems.trans hitems) (hqFFA.trans hffaLists)
  have hroomFFA : ((loot.allowLooter player).fillQuest c player).obtainable +
      ((loot.allowLooter player).fillQuest c player).newFFA c player < 256 := by omega
  obtain ⟨hffa, hffaCount⟩ := hquest.fillFFA hroomFFA
  obtain ⟨hfItems, -, -, hfConditional⟩ :=
    Loot.fillFFA_frame c player ((loot.allowLooter player).fillQuest c player)
  have hnewConditional : (((loot.allowLooter player).fillQuest c player).fillFFA c
      player).newConditional c player = loot.newConditional c player :=
    Loot.newConditional_congr (hfItems.trans (hqItems.trans hitems))
      (hfConditional.trans (hqConditional.trans hconditional))
  exact hffa.fillConditional (by omega)

/-- A free-for-all item is taken by a player who has it in his list. -/
theorem takeFFA (h : Tallied loot) {lootSlot : ℕ} {item : LootItem}
    (hfound : loot.FoundAt lootSlot player.guid item .ffa) :
    Tallied (loot.markLooted lootSlot player.guid item .ffa).countDown := by
  obtain ⟨hitem, hffa, ql, q, hql, hq, rfl, hlooted⟩ := hfound
  have hwaits : LootItem.waits { item with isLooted := item.isLooted || !item.freeforall } =
      item.waits := by simp [LootItem.waits, hffa]
  have hset := h.setItem hitem hwaits
  have hmark := QuestItemMap.count_setLooted (fun q => !q.isLooted) h.ffa hql hq rfl
  simp only [hlooted, Bool.not_false, if_true] at hmark
  have hcount := hset.count
  unfold Loot.obtainable at hcount
  refine { hset with count := ?_, ffa := h.ffa.setLooted player.guid q.index }
  show (loot.unlootedCount - 1).toNat = _
  refine toNat_sub_one (hcount.trans ?_)
  show _ = (loot.items.set q.index _).countP LootItem.waits +
    loot.overflowItems.countP LootItem.waits + loot.questItems.countP LootItem.shown +
    (loot.playerFFAItems.setLooted player.guid q.index).count (fun q => !q.isLooted) +
    loot.playerQuestItems.count loot.freeQuest + 1
  dsimp only
  have hfree : Loot.freeQuest { loot with
      items := loot.items.set q.index
        { item with isLooted := item.isLooted || !item.freeforall } } = loot.freeQuest := rfl
  rw [hfree]
  omega

/-- A quest item is taken by a player who has been shown it. -/
theorem takeQuest (h : Tallied loot) {lootSlot index : ℕ} {item : LootItem}
    (hfound : loot.FoundAt lootSlot player.guid item (.quest index)) :
    Tallied (loot.markLooted lootSlot player.guid item (.quest index)).countDown := by
  obtain ⟨hitem, hitemLooted, ql, q, hql, hq, rfl, hlooted⟩ := hfound
  obtain ⟨listed, hlisted, hblocked⟩ := h.listed _ hql q hq
  have hsame : listed = item := Option.some.inj (hlisted.symm.trans hitem)
  subst hsame
  have hget : ∀ j : ℕ, ((loot.questItems.set q.index { listed with
      isLooted := listed.isLooted || !listed.freeforall })[j]?).any LootItem.freeforall =
      loot.questItems[j]?.any LootItem.freeforall := by
    intro j
    by_cases hj : q.index = j
    · subst hj
      rw [List.getElem?_set_self (List.getElem?_eq_some_iff.mp hitem).1, hitem]
      rfl
    · rw [List.getElem?_set_ne hj]
  have hfree : ∀ count m, Loot.freeQuest { loot with
      questItems := loot.questItems.set q.index { listed with
        isLooted := listed.isLooted || !listed.freeforall }
      unlootedCount := count
      playerQuestItems := m } = loot.freeQuest := by
    intro count m
    funext q'
    unfold Loot.freeQuest
    dsimp only
    rw [hget]
  have hset := Loot.countP_set LootItem.shown hitem
    { listed with isLooted := listed.isLooted || !listed.freeforall }
  have hmark := QuestItemMap.count_setLooted loot.freeQuest h.quest hql hq
    (by simp [Loot.freeQuest])
  have htest : loot.freeQuest q = listed.freeforall := by
    simp [Loot.freeQuest, hlooted, hitem]
  have hold : listed.shown = !listed.freeforall := by
    simp [LootItem.shown, hblocked, hitemLooted]
  have hnew : LootItem.shown { listed with isLooted := listed.isLooted || !listed.freeforall } =
      false := by
    simp [LootItem.shown, hblocked, hitemLooted]
  rw [htest] at hmark
  rw [hold, hnew] at hset
  have hcount := h.count
  unfold Loot.obtainable at hcount
  refine { h with count := ?_, quest := h.quest.setLooted player.guid q.index, listed := ?_ }
  · show (loot.unlootedCount - 1).toNat = _
    refine toNat_sub_one (hcount.trans ?_)
    unfold Loot.obtainable
    dsimp only [Loot.markLooted, Loot.countDown]
    rw [hfree]
    cases hffa : listed.freeforall <;> simp only [hffa, Bool.not_true, Bool.not_false,
      Bool.false_eq_true, if_true, if_false, Nat.add_zero] at hset hmark ⊢ <;> omega
  · intro e he q' hq'
    obtain ⟨old, hold, -, q'', hq'', hindex, -⟩ := QuestItemMap.mem_setLooted he hq'
    obtain ⟨oldItem, holdItem, holdBlocked⟩ := h.listed old hold q'' hq''
    rw [hindex] at holdItem
    show ∃ item, (loot.questItems.set q.index _)[q'.index]? = some item ∧ _
    by_cases hj : q.index = q'.index
    · rw [← hj, List.getElem?_set_self (List.getElem?_eq_some_iff.mp hitem).1]
      exact ⟨_, rfl, hblocked⟩
    · rw [List.getElem?_set_ne hj]
      exact ⟨oldItem, holdItem, holdBlocked⟩

/-- An item is handed out that is left for the player. -/
theorem markLooted (h : Tallied loot) {lootSlot : ℕ} {item : LootItem} {found : Loot.Found}
    (hfound : loot.FoundAt lootSlot player.guid item found)
    (hcareful : found.isQuest = true ∨ found = .ffa ∨ item.waits = true) :
    Tallied (loot.markLooted lootSlot player.guid item found).countDown := by
  cases found with
  | quest index => exact h.takeQuest hfound
  | ffa => exact h.takeFFA hfound
  | conditional =>
      have hwaits : item.waits = true := by simpa [Loot.Found.isQuest] using hcareful
      have hffa : item.freeforall = false := hfound.2.2
      have hlists := h.setConditional
        (loot.playerNonQuestNonFFAConditionalItems.setLooted player.guid lootSlot)
      refine hlists.takeItem hfound.1 hwaits ?_
      show (item.isLooted || !item.freeforall) = true
      simp [hffa]
  | plain =>
      have hwaits : item.waits = true := by simpa [Loot.Found.isQuest] using hcareful
      have hffa : item.freeforall = false := by
        unfold LootItem.waits at hwaits
        simp only [Bool.and_eq_true, Bool.not_eq_true'] at hwaits
        exact hwaits.1.1
      refine h.takeItem hfound.1 hwaits ?_
      show (item.isLooted || !item.freeforall) = true
      simp [hffa]

/-- The looted slots are refilled. -/
theorem refillFromOverflow (h : Tallied loot) : Tallied loot.refillFromOverflow :=
  { h with
    count := by
      have hrefill := Loot.countP_refillSlots LootItem.waits
        (fun item hlooted => by simp [LootItem.waits, hlooted]) loot.items loot.overflowItems
      have hcount := h.count
      unfold Loot.obtainable at hcount
      show loot.unlootedCount.toNat =
        (Loot.refillSlots loot.items loot.overflowItems).1.countP LootItem.waits +
        (Loot.refillSlots loot.items loot.overflowItems).2.countP LootItem.waits +
        loot.questItems.countP LootItem.shown +
        loot.playerFFAItems.count (fun q => !q.isLooted) +
        loot.playerQuestItems.count loot.freeQuest
      omega }

end Tallied

namespace Corpse

variable {c : Catalogue} {s : Corpse}

@[simp] theorem store_loot (s : Corpse) (item : LootItem) (player : ℕ) :
    (s.store item player).loot = s.loot := by
  unfold store
  split <;> rfl

/-- A careful event keeps the count. -/
theorem tallied_lootStep (h : Tallied s.loot) {event : LootEvent} (hcareful : Careful c s event) :
    Tallied (lootStep c s event).loot := by
  cases event with
  | addItem item => exact h.addItem hcareful
  | fillNotNormalLootFor player => exact h.fillNotNormalLootFor hcareful
  | autostore player lootSlot isCreature canStore =>
      show Tallied (s.handleAutostoreLootItem c player lootSlot isCreature canStore).loot
      unfold handleAutostoreLootItem
      split
      · exact h
      · next item found hfound =>
        split
        · next hmay =>
          show Tallied ((s.store item player.guid).loot.markLooted lootSlot player.guid item
            found).countDown
          rw [store_loot]
          exact h.markLooted (Loot.lootItemInSlot_some hfound) (hcareful item found hfound hmay)
        · exact h
  | masterGive slotid target canStore =>
      show Tallied (s.handleLootMasterGive slotid target canStore).loot
      unfold handleLootMasterGive
      split
      · exact h
      · next item hitem =>
        by_cases htarget : target ∈ s.loot.allowedLooters
        · rw [if_neg (not_not.mpr htarget)]
          cases canStore with
          | false => exact h
          | true =>
              have hwaits := hcareful item hitem htarget rfl
              show Tallied (Loot.countDown { (s.store item target).loot with
                items := (s.store item target).loot.items.set slotid _ })
              rw [store_loot]
              exact h.takeItem hitem hwaits rfl
        · rw [if_pos htarget]
          exact h
  | startRoll itemSlot =>
      show Tallied (s.startLootRoll itemSlot).loot
      unfold startLootRoll
      split
      · exact h
      · next item hitem =>
        split
        · exact h
        · exact h.setItem hitem rfl
  | countTheRoll k outcome =>
      show Tallied (s.countTheRoll k outcome).loot
      unfold countTheRoll
      split
      · exact h
      · next roll hroll =>
        dsimp only
        split
        · exact h
        · next item hitem =>
          cases outcome with
          | won winner canStore =>
              cases canStore with
              | true =>
                  show Tallied (Loot.countDown { (Corpse.store _ _ winner).loot with
                    items := (Corpse.store _ _ winner).loot.items.set roll.itemSlot _ })
                  rw [store_loot]
                  exact h.takeItem hitem (hcareful roll item hroll hitem) rfl
              | false => exact h.setItem hitem rfl
          | wonByNeedOffline winner => exact h.setItem hitem rfl
          | wonByGreedOffline winner => exact h
          | allPassed => exact h.setItem hitem rfl
  | setUnderthreshold slot =>
      show Tallied (s.setUnderthreshold slot).loot
      unfold setUnderthreshold
      split
      · exact h
      · next item hitem => exact h.setItem hitem rfl
  | refill => exact h.refillFromOverflow

end Corpse

namespace Loot

variable {c : Catalogue} {loot : Loot}

/-- A loot while its items are drawn. -/
structure Drawn (loot : Loot) : Prop where
  items : ∀ item ∈ loot.items, item.isLooted = false ∧ item.isCounted = false
  overflow : loot.overflowItems = []
  quest : ∀ item ∈ loot.questItems, item.isBlocked = false
  ffaLists : loot.playerFFAItems = []
  questLists : loot.playerQuestItems = []
  length : loot.items.length ≤ maxNrLootItemsHard
  count : loot.unlootedCount.toNat = loot.items.countP LootItem.plain

/-- An item is drawn. -/
theorem Drawn.addItem (h : Drawn loot) (item : LootStoreItem) : Drawn (loot.addItem c item) := by
  unfold Loot.addItem
  split
  · split
    · refine { h with quest := fun other hother => ?_ }
      rcases List.mem_append.mp hother with hold | hnew
      · exact h.quest other hold
      · rw [List.mem_singleton.mp hnew]
        rfl
    · exact h
  · split
    · next hlength =>
      have hmax := c.maxNrLootItems_le
      refine { h with items := fun other hother => ?_, length := ?_, count := ?_ }
      · rcases List.mem_append.mp hother with hold | hnew
        · exact h.items other hold
        · rw [List.mem_singleton.mp hnew]
          exact ⟨rfl, rfl⟩
      · show (loot.items ++ [_]).length ≤ _
        rw [List.length_append, List.length_singleton]
        omega
      · show (if (loot.newItem c item).plain then loot.unlootedCount + 1
          else loot.unlootedCount).toNat = (loot.items ++ [_]).countP LootItem.plain
        rw [List.countP_append, List.countP_singleton]
        have hle : loot.items.countP LootItem.plain ≤ loot.items.length :=
          List.countP_le_length
        have hcount := h.count
        have hhard : maxNrLootItemsHard = 32 := rfl
        split
        · have hadd : (loot.unlootedCount + UInt8.ofNat 1).toNat =
              loot.unlootedCount.toNat + 1 := toNat_add_ofNat (by omega)
          have hone : UInt8.ofNat 1 = 1 := rfl
          rw [hone] at hadd
          omega
        · omega
    · exact h

/-- An item is trimmed. -/
theorem Drawn.trim (h : Drawn loot) (i : ℕ) : Drawn (loot.trim i) := by
  unfold Loot.trim
  split
  · exact h
  · next item hitem =>
    split
    · exact h
    · next hffa =>
      refine { h with items := fun other hother => ?_, length := ?_, count := ?_ }
      · exact h.items other (List.mem_of_mem_eraseIdx hother)
      · exact Nat.le_trans (List.length_eraseIdx_le _ _) h.length
      · have hcount := h.count
        have hsum := Lib.sum_map_eraseIdx (fun item : LootItem => if item.plain then 1 else 0) hitem
        have hcountP : ∀ l : List LootItem,
            (l.map fun item => if item.plain then 1 else 0).sum = l.countP LootItem.plain := by
          intro l
          induction l with
          | nil => rfl
          | cons x rest ih =>
              rw [List.map_cons, List.sum_cons, ih, List.countP_cons]
              omega
        rw [hcountP, hcountP] at hsum
        show (if item.conditionId = 0 ∧ loot.unlootedCount ≠ 0 then loot.unlootedCount - 1
          else loot.unlootedCount).toNat = (loot.items.eraseIdx i).countP LootItem.plain
        have hplain : item.plain = decide (item.conditionId = 0) := by
          simp [LootItem.plain, Bool.eq_false_iff.mpr hffa, beq_eq_decide]
        by_cases hcondition : item.conditionId = 0
        · simp only [hplain, hcondition, decide_true, if_true] at hsum
          have hpos : loot.unlootedCount ≠ 0 := by
            intro hzero
            rw [hzero] at hcount
            simp only [UInt8.reduceToNat] at hcount
            omega
          rw [if_pos ⟨hcondition, hpos⟩]
          exact toNat_sub_one (by omega)
        · simp only [hplain, hcondition, decide_false, Bool.false_eq_true, if_false] at hsum
          rw [if_neg fun h => hcondition h.1]
          omega

/-- When the items are drawn, the count is right. -/
theorem Drawn.tallied (h : Drawn loot) : Tallied loot.moveExcessToOverflow := by
  have hwaits : ∀ l : List LootItem, (∀ item ∈ l, item ∈ loot.items) →
      l.countP LootItem.waits = l.countP LootItem.plain := by
    intro l hl
    refine List.countP_congr fun item hitem => ?_
    obtain ⟨hlooted, hcounted⟩ := h.items item (hl item hitem)
    simp [LootItem.waits, LootItem.plain, hlooted, hcounted]
  have hshown : loot.questItems.countP LootItem.shown = 0 :=
    List.countP_eq_zero.mpr fun item hitem => by simp [LootItem.shown, h.quest item hitem]
  have hcount := h.count
  have hempty : ∀ m : QuestItemMap, m = [] → m.Ok ∧ ∀ test, m.count test = 0 := by
    rintro m rfl
    exact ⟨⟨List.nodup_nil, fun e he => absurd he List.not_mem_nil⟩, fun _ => rfl⟩
  obtain ⟨hffaOk, hffaCount⟩ := hempty _ h.ffaLists
  obtain ⟨hquestOk, hquestCount⟩ := hempty _ h.questLists
  have hlisted : ∀ e ∈ loot.playerQuestItems, ∀ q ∈ e.2,
      ∃ item, loot.questItems[q.index]? = some item ∧ item.isBlocked = true := by
    rw [h.questLists]
    exact fun e he => absurd he List.not_mem_nil
  unfold moveExcessToOverflow
  dsimp only
  split
  · refine ⟨?_, hffaOk, hquestOk, hlisted⟩
    unfold obtainable
    rw [hffaCount, hquestCount, hshown, hwaits _ fun _ hitem => hitem, h.overflow]
    simpa using hcount
  · refine ⟨?_, hffaOk, hquestOk, hlisted⟩
    have hperm := splitExcess_perm
      (maxNrLootClientSlots - min loot.questItems.length maxNrLootClientSlots) loot.items
    have hsplit := hperm.countP_eq LootItem.plain
    rw [List.countP_append] at hsplit
    show loot.unlootedCount.toNat = (splitExcess _ loot.items).1.countP LootItem.waits +
      (loot.overflowItems ++ (splitExcess _ loot.items).2).countP LootItem.waits +
      loot.questItems.countP LootItem.shown +
      loot.playerFFAItems.count (fun q => !q.isLooted) +
      loot.playerQuestItems.count loot.freeQuest
    rw [hffaCount, hquestCount, hshown, h.overflow, List.nil_append,
      hwaits _ fun item hitem => hperm.subset (List.mem_append_left _ hitem),
      hwaits _ fun item hitem => hperm.subset (List.mem_append_right _ hitem)]
    omega

/-- A loot whose items have been drawn, and some of them trimmed. -/
theorem drawn_trimmed (c : Catalogue) (gold : ℕ) (drawn : List LootStoreItem) (trimmed : List ℕ) :
    Drawn (trimmed.foldl trim (drawn.foldl (addItem c) (empty gold))) := by
  have hdrawn : ∀ loot, Drawn loot → Drawn (drawn.foldl (addItem c) loot) := by
    induction drawn with
    | nil => exact fun _ h => h
    | cons item rest ih => exact fun loot h => ih _ (h.addItem item)
  have htrimmed : ∀ loot, Drawn loot → Drawn (trimmed.foldl trim loot) := by
    induction trimmed with
    | nil => exact fun _ h => h
    | cons i rest ih => exact fun loot h => ih _ (h.trim i)
  have hempty : Drawn (empty gold) :=
    ⟨fun item hitem => absurd hitem List.not_mem_nil, rfl,
      fun item hitem => absurd hitem List.not_mem_nil, rfl, rfl, Nat.zero_le _, rfl⟩
  exact htrimmed _ (hdrawn _ hempty)

/-- The count is right when a loot has been filled. -/
theorem tallied_fillLoot (c : Catalogue) (gold : ℕ) (drawn : List LootStoreItem)
    (trimmed : List ℕ) : Tallied (fillLoot c gold drawn trimmed) :=
  (drawn_trimmed c gold drawn trimmed).tallied

end Loot

/-- The count is the number of items that are left, and the loot is looted when there is no gold and
nothing is left. -/
structure CountLaw (loot : Loot) : Prop where
  count : loot.unlootedCount.toNat = loot.obtainable
  looted : loot.isLooted = true ↔ loot.gold = 0 ∧ loot.obtainable = 0

theorem Tallied.law {loot : Loot} (h : Tallied loot) : CountLaw loot where
  count := h.count
  looted := by
    have hzero : loot.unlootedCount = 0 ↔ loot.obtainable = 0 := by
      rw [← h.count, ← UInt8.toNat_inj]
      rfl
    unfold Loot.isLooted
    rw [Bool.and_eq_true, beq_iff_eq, beq_iff_eq, hzero]

/-- In every state of a careful run the count is right. -/
theorem run_count (c : Catalogue) (gold : ℕ) (drawn : List LootStoreItem) (trimmed : List ℕ)
    {events : List LootEvent}
    (hcareful : Lib.Along (Careful c) (lootStep c) (Corpse.filled c gold drawn trimmed) events) :
    CountLaw (afterLoot c gold drawn trimmed events).loot :=
  (Lib.run_invariant (fun s : Corpse => Tallied s.loot)
    (fun _ _ hok h => Corpse.tallied_lootStep h hok) (Loot.tallied_fillLoot c gold drawn trimmed)
    hcareful).law

/-- Two players are shown a plain and a free-for-all item, and the first takes the latter. -/
def sharedEvents : List LootEvent :=
  [.fillNotNormalLootFor (looter 1), .fillNotNormalLootFor (looter 2),
    .autostore (looter 1) 1 true true]

theorem run_count_shared :
    (afterLoot catalogue 0 [⟨1, 0, 1, false⟩, ⟨2, 0, 1, false⟩] [] sharedEvents).loot.unlootedCount
        = 2 ∧
      CountLaw (afterLoot catalogue 0 [⟨1, 0, 1, false⟩, ⟨2, 0, 1, false⟩] [] sharedEvents).loot := by
  refine ⟨by decide +kernel, run_count catalogue 0 _ [] ⟨?_, ?_, ?_, trivial⟩⟩
  · show _ < 256
    decide +kernel
  · show _ < 256
    decide +kernel
  · intro item found hfound _
    have hffa : (Loot.lootItemInSlot (Lib.run (lootStep catalogue)
        (Corpse.filled catalogue 0 [⟨1, 0, 1, false⟩, ⟨2, 0, 1, false⟩] [])
        (sharedEvents.take 2)).loot 1 1).map Prod.snd = some .ffa := by decide +kernel
    refine Or.inr (Or.inl ?_)
    have hsome : (Loot.lootItemInSlot (Lib.run (lootStep catalogue)
        (Corpse.filled catalogue 0 [⟨1, 0, 1, false⟩, ⟨2, 0, 1, false⟩] [])
        (sharedEvents.take 2)).loot 1 1) = some (item, found) := hfound
    rw [hsome] at hffa
    exact Option.some.inj hffa

/-- The master looter gives the only item twice, and the count goes from 1 over 0 to 255. -/
theorem masterGive_count :
    ¬CountLaw (afterLoot catalogue 0 [⟨1, 0, 1, false⟩] []
      [.fillNotNormalLootFor (looter 1), .masterGive 0 1 true, .masterGive 0 1 true]).loot := by
  intro h
  have hcount := h.count
  revert hcount
  decide +kernel

end TwowCore.Looting
