import TwowCore.GuildBank.Conservation

/-!
# Stack bounds

`WellStacked` says that every stack of the bank has at least one unit and at most the stack size of
its entry. The item calls are gone through one by one: each keeps the bounds of the bank and of the
acting player, if what it writes meets `StackOk`. `StackOk` fails in three ways only: a deposit of no
units or of more units than the bag stack has, a withdrawal that a full bank stack makes of a
deposit and that overfills the bag stack, and a split of no units into a free slot.
-/

namespace TwowCore

/-- The stack is within its bounds. -/
structure BankItem.WellStacked (T : ItemTable) (item : BankItem) : Prop where
  size : item.maxStackSize = T.stackSize item.itemTemplate
  pos : 1 ≤ item.count
  le : item.count ≤ item.maxStackSize

/-- Every stack of the bank is within its bounds. -/
def GuildBank.WellStacked (T : ItemTable) (bank : GuildBank) : Prop :=
  ∀ item ∈ bank.items, item.WellStacked T

namespace BankItem.WellStacked

variable {T : ItemTable} {item : BankItem}

/-- The state does not matter. -/
theorem setState (h : item.WellStacked T) (state : ItemUpdateState) :
    (item.setState state).WellStacked T := ⟨h.size, h.pos, h.le⟩

/-- Neither does the slot. -/
theorem setSlot (h : item.WellStacked T) (slot : UInt32) : (item.setSlot slot).WellStacked T :=
  ⟨h.size, h.pos, h.le⟩

/-- Another count within the bounds. -/
theorem setCount (h : item.WellStacked T) {count : UInt32} (hpos : 1 ≤ count)
    (hle : count ≤ item.maxStackSize) : (item.setCount count).WellStacked T := ⟨h.size, hpos, hle⟩

/-- No stack has more than 255 units. -/
theorem small (h : item.WellStacked T) :
    item.count.toNat ≤ item.maxStackSize.toNat ∧ item.maxStackSize.toNat ≤ 255 ∧
      1 ≤ item.count.toNat := by
  have hpos := h.pos
  have hle := h.le
  have hsize : item.maxStackSize ≤ 255 := by
    rw [h.size, ItemTable.stackSize]
    split
    · rename_i proto hfind
      exact T.stackable_le hfind
    · decide
  rw [UInt32.le_iff_toNat_le] at hpos hle hsize
  exact ⟨hle, hsize, hpos⟩

/-- What a deposit writes has the bounds of the player's item. -/
theorem cloneFrom {bItem : BankItem} {pItem : Item T} (hcount : pItem.Holds bItem.count)
    (infernoBank : Bool) : (bItem.cloneFrom infernoBank pItem).WellStacked T := by
  refine ⟨?_, hcount.1, hcount.2⟩
  show pItem.proto.getMaxStackSize = T.stackSize pItem.entry
  simp [ItemTable.stackSize, Item.entry, pItem.listed]

end BankItem.WellStacked

namespace GuildBank.WellStacked

variable {T : ItemTable} {bank : GuildBank}

/-- The stack sizes are those of the entries. -/
theorem stackSized (h : bank.WellStacked T) : bank.StackSized T := fun item hmem => (h item hmem).size

/-- Everything that leaves the items alone, and saving, keep the bounds. -/
theorem kept (T : ItemTable) : Kept fun bank _ => bank.WellStacked T where
  same := fun hsame h item hmem => h item (hsame.items ▸ hmem)
  save := fun h => GuildBank.forall_saved (fun _ state hitem => hitem.setState state) h

/-- The end of a call keeps the bounds. -/
theorem rests {w w' : World T} (h : w.bank.WellStacked T) (hrests : w.Rests w') :
    w'.bank.WellStacked T :=
  hrests.invariant (fun s => s.1.WellStacked T) (fun _ _ => (kept T).rest) h

theorem changeItem (h : bank.WellStacked T) (idx : ℕ) {item : BankItem}
    (hitem : item.WellStacked T) : (bank.changeItem idx item).WellStacked T := by
  intro other hmem
  rcases List.mem_or_eq_of_mem_set hmem with hold | rfl
  · exact h other hold
  · exact hitem.setState _

theorem insertItem (h : bank.WellStacked T) {item : BankItem} (hitem : item.WellStacked T) :
    (bank.insertItem item).WellStacked T := by
  intro other hmem
  rcases List.mem_append.mp hmem with hold | hnew
  · exact h other hold
  · rw [List.mem_singleton.mp hnew]
    exact hitem.setState _

theorem removeItem (h : bank.WellStacked T) (idx : ℕ) (item : BankItem) :
    (bank.removeItem idx item).WellStacked T :=
  fun other hmem => h other (List.mem_of_mem_eraseIdx hmem)

/-- The bank side of a withdrawal. -/
theorem takeOut (h : bank.WellStacked T) (idx : Option ℕ) {bItem : BankItem}
    (hitem : bItem.WellStacked T) {all : Bool} {left : UInt32}
    (hleft : all = false → 1 ≤ left ∧ left ≤ bItem.maxStackSize) :
    (bank.takeOut idx bItem all left).WellStacked T := by
  cases idx with
  | none =>
      simp only [GuildBank.takeOut]
      split_ifs <;> exact h
  | some idx =>
      simp only [GuildBank.takeOut]
      split_ifs with hall
      · exact h.removeItem idx bItem
      · obtain ⟨hpos, hle⟩ := hleft (by simpa using hall)
        exact h.changeItem idx (hitem.setCount hpos hle)

end GuildBank.WellStacked

namespace World

variable {T : ItemTable} {w : World T}

/-- Bank and acting player have stacks within their bounds. -/
structure WellStacked (w : World T) : Prop where
  bank : w.bank.WellStacked T
  player : w.player.Bounded

/-- The end of a call that leaves the player alone keeps the bounds. -/
theorem WellStacked.rests (h : w.WellStacked) {w' : World T} (hrests : w.Rests w')
    (hplayer : w'.player = w.player) : w'.WellStacked :=
  ⟨h.bank.rests hrests, by rw [hplayer]; exact h.player⟩

/-- Saving keeps the bounds. -/
theorem WellStacked.saveToDB (h : w.WellStacked) : w.saveToDB.WellStacked :=
  h.rests (saveToDB_rests w) (saveToDB_player w)

/-- A number that is not 0 and not above another one. -/
theorem one_le_left {count taken : UInt32} (hle : taken ≤ count) (hne : count - taken ≠ 0) :
    1 ≤ count - taken ∧ count - taken ≤ count := by
  refine ⟨one_le_of_ne_zero hne, ?_⟩
  rw [UInt32.le_iff_toNat_le, UInt32.toNat_sub_of_le _ _ hle]
  omega

/-- The stack size of a bank item is that of a player's item of the entry. -/
theorem stackCount_eq {bank : GuildBank} (h : bank.WellStacked T) {item : BankItem}
    (hmem : item ∈ bank.items) {pItem : Item T} (hentry : item.itemTemplate = pItem.entry) :
    item.maxStackSize = pItem.getMaxStackCount :=
  h.stackSized.eq_stackable hmem hentry

section Deposits

variable {pos : ItemPos} {pItem : Item T}

/-- The counts a deposit may leave in the bank. -/
def DepositHolds (w : World T) (bankTab bankSlot : UInt32) (pItem : Item T) (count : UInt32)
    (isNew stack : Bool) : Prop :=
  if isNew then pItem.Holds count
  else
    ∀ idx dItem, w.bank.findItem bankTab bankSlot = some (idx, dItem) →
      pItem.Holds (if stack then dItem.count + count else count)

/-- The bank item of a deposit is within the bounds. -/
theorem placeDeposit_wellStacked {bankTab bankSlot count : UInt32} {isNew stack : Bool}
    {w' : World T} {idx : ℕ} (h : w.WellStacked)
    (hcount : w.DepositHolds bankTab bankSlot pItem count isNew stack)
    (hplace : w.placeDeposit bankTab bankSlot pItem count isNew stack = some (w', idx)) :
    w'.WellStacked := by
  unfold placeDeposit at hplace
  unfold DepositHolds at hcount
  cases isNew with
  | true =>
      simp only [if_true, Option.some.injEq, Prod.mk.injEq] at hplace hcount
      obtain ⟨rfl, rfl⟩ := hplace
      exact ⟨h.bank.insertItem (.cloneFrom hcount _), h.player⟩
  | false =>
      simp only [Bool.false_eq_true, if_false] at hplace hcount
      split at hplace
      · cases hplace
      · rename_i idx' dItem hfound
        simp only [Option.some.injEq, Prod.mk.injEq] at hplace
        obtain ⟨rfl, rfl⟩ := hplace
        exact ⟨h.bank.changeItem _ (.cloneFrom (hcount _ _ hfound) _), h.player⟩

/-- Taking units from a bag stack that has them leaves a stack, or nothing. -/
theorem takeDeposit_wellStacked (h : w.WellStacked)
    (hitem : w.player.getItemByPos pos = some pItem) {count : UInt32} (hcount : count ≤ pItem.count) :
    (w.takeDeposit pos pItem count).WellStacked := by
  unfold takeDeposit
  split_ifs with hall
  · exact ⟨h.bank, h.player.destroyItem pos⟩
  · obtain ⟨-, hmax⟩ := h.player pos pItem (Player.items_of_getItemByPos hitem)
    have hne : pItem.count - count ≠ 0 := by
      intro hzero
      apply hall
      have heq := UInt32.sub_add_cancel pItem.count count
      rw [hzero, UInt32.zero_add] at heq
      exact heq
    obtain ⟨hpos, hle⟩ := one_le_left hcount hne
    exact ⟨h.bank, h.player.setItem pos _ ⟨hpos, UInt32.le_trans hle hmax⟩⟩

/-- A deposit of units the bag stack has, onto a slot that holds them. -/
theorem depositItemInSlot_wellStacked (se : Session) {bankTab bankSlot count : UInt32}
    {isNew stack : Bool} (h : w.WellStacked) (hitem : w.player.getItemByPos pos = some pItem)
    (hcount : count ≤ pItem.count)
    (hholds : w.DepositHolds bankTab bankSlot pItem count isNew stack) :
    (w.depositItemInSlot se bankTab bankSlot pos pItem count isNew stack).WellStacked := by
  unfold depositItemInSlot
  split
  · exact ⟨h.bank, h.player⟩
  · rename_i w' idx hplace
    have hitem' : w'.player.getItemByPos pos = some pItem := by
      rw [(placeDeposit_units hplace).1]
      exact hitem
    exact (takeDeposit_wellStacked (placeDeposit_wellStacked h hholds hplace) hitem' hcount).rests
      (depositDone_rests se _ idx count) (depositDone_player se _ idx count)

/-- Depositing a stack into free slots fills stacks of the item and makes a new one of the rest. -/
theorem depositItemInFreeSlot_wellStacked (se : Session) (bankTab : UInt32) (rounds : ℕ)
    (h : w.WellStacked) (hitem : w.player.getItemByPos pos = some pItem) :
    (depositItemInFreeSlot se bankTab pos rounds w pItem).WellStacked := by
  induction rounds generalizing w pItem with
  | zero => exact h
  | succ rounds ih =>
      have hholds := h.player pos pItem (Player.items_of_getItemByPos hitem)
      unfold depositItemInFreeSlot
      simp only
      split
      · rename_i slot idx bItem hstack
        rw [Option.ite_none_right_eq_some] at hstack
        obtain ⟨-, -, hfound, hentry, hless⟩ := GuildBank.unfilledStack_some hstack.2
        have hmem := List.mem_of_getElem? (GuildBank.findItem_some hfound).1
        have hmax := stackCount_eq h.bank hmem hentry
        have hsmall := (h.bank bItem hmem).small
        have hheld : pItem.count.toNat ≤ bItem.maxStackSize.toNat ∧ 1 ≤ pItem.count.toNat := by
          have hpos := hholds.1
          have hle := hholds.2
          rw [← hmax, UInt32.le_iff_toNat_le] at hle
          rw [UInt32.le_iff_toNat_le] at hpos
          exact ⟨hle, hpos⟩
        rw [UInt32.lt_iff_toNat_lt] at hless
        split
        · rename_i hroom
          refine depositItemInSlot_wellStacked se h hitem (UInt32.le_refl _) ?_
          intro idx' dItem hother
          rw [hfound] at hother
          cases hother
          rw [UInt32.le_iff_toNat_le, UInt32.toNat_add] at hroom
          simp only [if_true, Item.Holds, ← hmax, UInt32.le_iff_toNat_le, UInt32.toNat_add,
            UInt32.reduceToNat]
          omega
        · rename_i hroom
          rw [UInt32.le_iff_toNat_le, UInt32.toNat_add] at hroom
          have hcount : (bItem.maxStackSize - bItem.count).toNat =
              bItem.maxStackSize.toNat - bItem.count.toNat :=
            UInt32.toNat_sub_of_le _ _ (h.bank bItem hmem).le
          split
          · exact ⟨h.bank, h.player⟩
          · rename_i w' idx' hplace
            have hplaced : w'.WellStacked := by
              refine placeDeposit_wellStacked h ?_ hplace
              intro idx'' dItem hother
              rw [hfound] at hother
              cases hother
              simp only [if_true, Item.Holds, ← hmax, UInt32.le_iff_toNat_le, UInt32.toNat_add,
                UInt32.reduceToNat, hcount]
              omega
            have hshown : w'.player.getItemByPos pos = some pItem := by
              rw [(placeDeposit_units hplace).1]
              exact hitem
            -- the rest of the bag stack goes into the next round
            have hrest : (pItem.setCount (pItem.count - (bItem.maxStackSize - bItem.count))).Holds
                (pItem.count - (bItem.maxStackSize - bItem.count)) := by
              have hleft : (bItem.maxStackSize - bItem.count) ≤ pItem.count := by
                rw [UInt32.le_iff_toNat_le, hcount]
                omega
              have hmax' : (pItem.setCount
                  (pItem.count - (bItem.maxStackSize - bItem.count))).getMaxStackCount =
                    bItem.maxStackSize := hmax.symm
              simp only [Item.Holds, hmax', UInt32.le_iff_toNat_le, UInt32.reduceToNat,
                UInt32.toNat_sub_of_le _ _ hleft, hcount]
              omega
            have hnext := ih (w := w'.setItemCount pos pItem
                (pItem.count - (bItem.maxStackSize - bItem.count)))
              ⟨hplaced.bank, hplaced.player.setItem pos _ hrest⟩
              (Player.getItemByPos_setItem_self hshown _)
            exact hnext.rests (depositDone_rests se _ idx' _) (depositDone_player se _ idx' _)
      · split
        · exact depositItemInSlot_wellStacked se h hitem (UInt32.le_refl _) hholds
        · exact ⟨h.bank, h.player⟩

end Deposits

section Withdrawals

variable {bankTab bankSlot count playerBag playerSlot remainer : UInt32} {idx : Option ℕ}
  {bItem : BankItem}

/-- What a withdrawal leaves in the bank. -/
theorem takeOut_wellStacked (idx : Option ℕ) (h : w.WellStacked) (hitem : bItem.WellStacked T)
    (hcount : count ≤ bItem.count) (hremainer : remainer = bItem.count - count) :
    (w.bank.takeOut idx bItem (decide (remainer = 0)) remainer).WellStacked T := by
  refine h.bank.takeOut idx hitem fun hsome => ?_
  have hne : remainer ≠ 0 := of_decide_eq_false hsome
  rw [hremainer] at hne ⊢
  obtain ⟨hpos, hle⟩ := one_le_left hcount hne
  exact ⟨hpos, UInt32.le_trans hle hitem.le⟩

/-- A withdrawal onto a bag stack that holds the units. -/
theorem withdrawItemTo_onto_wellStacked (se : Session) (h : w.WellStacked)
    (hitem : bItem.WellStacked T) (hcount : count ≤ bItem.count)
    (hremainer : remainer = bItem.count - count) {pos : ItemPos} {pItem : Item T}
    (hroom : (w.player.canStoreNewItem playerBag.toUInt8 playerSlot.toUInt8 bItem.itemTemplate
      count).result = .ok → pItem.Holds (pItem.count + count)) (swap : Bool) :
    (w.withdrawItemTo se bankTab bankSlot count playerBag playerSlot idx bItem
      (some (pos, pItem)) remainer swap).WellStacked := by
  unfold withdrawItemTo
  simp only
  split
  · exact ⟨h.bank, h.player⟩
  · rename_i hok
    rw [not_not] at hok
    unfold withdrawOntoItem
    have htaken := takeOut_wellStacked idx h hitem hcount hremainer
    rw [hremainer] at htaken ⊢
    refine WellStacked.rests ⟨?_, ?_⟩ (withdrawDone_rests se _ _ _ _) (withdrawDone_player _ _ _ _ _)
    · simpa using htaken
    · simpa [setItemCount] using h.player.setItem pos _ (hroom hok)

/-- A withdrawal into slots of the bags. -/
theorem withdrawItemTo_new_wellStacked (se : Session) (h : w.WellStacked)
    (hitem : bItem.WellStacked T) (hcount : count ≤ bItem.count)
    (hremainer : remainer = bItem.count - count) (swap : Bool) :
    (w.withdrawItemTo se bankTab bankSlot count playerBag playerSlot idx bItem none remainer
      swap).WellStacked := by
  unfold withdrawItemTo
  simp only
  split
  · exact ⟨h.bank, h.player⟩
  · rename_i hok
    rw [not_not] at hok
    have hstored := h.player.storeNewItem (se.generatedRandomPropertyId bItem.itemTemplate) hok
    unfold withdrawAsNew
    simp only
    split
    · have hplayer : (w.setPlayer (w.player.storeNewItem (w.player.canStoreNewItem
          playerBag.toUInt8 playerSlot.toUInt8 bItem.itemTemplate count).dest bItem.itemTemplate
            (se.generatedRandomPropertyId bItem.itemTemplate)).1).WellStacked := ⟨h.bank, hstored⟩
      exact hplayer.saveToDB
    · rename_i pos item hlast
      have htaken := takeOut_wellStacked idx h hitem hcount hremainer
      refine WellStacked.rests ⟨?_, ?_⟩ (withdrawDone_rests se _ _ _ _)
        (withdrawDone_player _ _ _ _ _)
      · simpa using htaken
      · obtain ⟨last, -, hfound⟩ := Option.bind_eq_some_iff.mp hlast
        obtain ⟨found, hthere, heq⟩ := Option.map_eq_some_iff.mp hfound
        cases heq
        have hholds := hstored _ _ hthere
        simpa using hstored.setItem pos (bItem.cloneInto w.player.guid item) hholds

end Withdrawals

section Moves

variable {sIdx : ℕ} {sItem : BankItem}

/-- Two stacks of an entry that are put together: the destination holds all units, or it is filled
and the source keeps the rest. -/
theorem stack_wellStacked {dItem : BankItem} (hs : sItem.WellStacked T) (hd : dItem.WellStacked T)
    (hstack : sItem.Stacks dItem) :
    (sItem.count + dItem.count ≤ sItem.maxStackSize →
        (dItem.setCount (sItem.count + dItem.count)).WellStacked T) ∧
      (¬sItem.count + dItem.count ≤ sItem.maxStackSize →
        (sItem.setCount (sItem.count - (sItem.maxStackSize - dItem.count))).WellStacked T ∧
          (dItem.setCount dItem.maxStackSize).WellStacked T) := by
  obtain ⟨hentry, hnotFull⟩ := hstack
  have hsize : dItem.maxStackSize = sItem.maxStackSize := by rw [hs.size, hd.size, hentry]
  obtain ⟨hsle, hmax, hspos⟩ := hs.small
  obtain ⟨hdle, -, hdpos⟩ := hd.small
  rw [hsize] at hdle
  have hfree : (sItem.maxStackSize - dItem.count).toNat =
      sItem.maxStackSize.toNat - dItem.count.toNat :=
    UInt32.toNat_sub_of_le _ _ (hsize ▸ hd.le)
  have hne : dItem.count.toNat ≠ sItem.maxStackSize.toNat := fun hsame =>
    hnotFull (Or.inr (UInt32.toNat.inj (by rw [hsame, hsize])))
  rw [UInt32.le_iff_toNat_le, UInt32.toNat_add]
  refine ⟨fun hall => hd.setCount ?_ ?_, fun hsome => ⟨?_, hd.setCount ?_ (UInt32.le_refl _)⟩⟩
  · rw [UInt32.le_iff_toNat_le, UInt32.toNat_add]
    simp only [UInt32.reduceToNat]
    omega
  · rw [UInt32.le_iff_toNat_le, UInt32.toNat_add, hsize]
    exact hall
  · have hless : sItem.maxStackSize - dItem.count ≤ sItem.count := by
      rw [UInt32.le_iff_toNat_le, hfree]
      omega
    have hleft := UInt32.toNat_sub_of_le _ _ hless
    refine hs.setCount ?_ ?_
    · rw [UInt32.le_iff_toNat_le, hleft, hfree]
      simp only [UInt32.reduceToNat]
      omega
    · rw [UInt32.le_iff_toNat_le, hleft]
      omega
  · rw [UInt32.le_iff_toNat_le, hsize]
    simp only [UInt32.reduceToNat]
    omega

/-- A move. -/
theorem moveItemTo_wellStacked {dest : Option (ℕ × BankItem)} {bankTab fromSlot toSlot : UInt8}
    (h : w.WellStacked) (hs : sItem.WellStacked T)
    (hdest : ∀ dIdx dItem, dest = some (dIdx, dItem) → dItem.WellStacked T) :
    (w.moveItemTo sIdx sItem dest bankTab fromSlot toSlot).WellStacked := by
  unfold moveItemTo
  cases dest with
  | none => exact ⟨h.bank.changeItem sIdx (hs.setSlot _), h.player⟩
  | some found =>
      obtain ⟨dIdx, dItem⟩ := found
      have hd := hdest dIdx dItem rfl
      simp only
      split_ifs with hstack hall
      · have hboth := (stack_wellStacked hs hd hstack).1 hall
        exact ⟨(h.bank.changeItem dIdx hboth).removeItem sIdx sItem, h.player⟩
      · obtain ⟨hleft, hfull⟩ := (stack_wellStacked hs hd hstack).2 hall
        exact ⟨(h.bank.changeItem sIdx hleft).changeItem dIdx hfull, h.player⟩
      · have hmoved := (h.bank.changeItem sIdx (hs.setSlot toSlot.toUInt32)).changeItem dIdx
          (hd.setSlot fromSlot.toUInt32)
        exact WellStacked.saveToDB ⟨hmoved, h.player⟩

/-- A split, of at least one unit where it makes a new stack. -/
theorem splitItemTo_wellStacked {dest : Option (ℕ × BankItem)} {toSlot split : UInt8}
    (h : w.WellStacked) (hs : sItem.WellStacked T)
    (hdest : ∀ dIdx dItem, dest = some (dIdx, dItem) → dItem.WellStacked T)
    (hsplit : dest = none → split ≠ 0) :
    (w.splitItemTo sIdx sItem dest toSlot split).WellStacked := by
  unfold splitItemTo
  cases dest with
  | none =>
      simp only
      split_ifs with hmax hrest
      · exact ⟨h.bank, h.player⟩
      · exact ⟨h.bank, h.player⟩
      · have hhas : split.toUInt32 ≤ sItem.count :=
          le_of_signed_rest (by simpa using split.toNat_lt) hrest
        have hsub : (sItem.count.toInt32 - split.toUInt32.toInt32).toUInt32 =
            sItem.count - split.toUInt32 := by
          simp
        have hne : sItem.count - split.toUInt32 ≠ 0 := by
          intro hzero
          apply hrest
          rw [← UInt32.toInt32_sub, hzero]
          decide
        obtain ⟨hpos, hle⟩ := one_le_left hhas hne
        rw [hsub]
        have hleft := hs.setCount hpos (UInt32.le_trans hle hs.le)
        have hnew : (sItem.setCount split.toUInt32).WellStacked T :=
          hs.setCount (one_le_of_ne_zero (toUInt32_ne_zero (hsplit rfl)))
            (UInt32.le_of_lt (UInt32.not_le.mp hmax))
        exact WellStacked.saveToDB ⟨(h.bank.changeItem sIdx hleft).insertItem
          ⟨hnew.size, hnew.pos, hnew.le⟩, h.player⟩
  | some found =>
      obtain ⟨dIdx, dItem⟩ := found
      have hd := hdest dIdx dItem rfl
      simp only
      split_ifs with hentry hroom hzero hsource hzero' hfull
      all_goals first
        | exact ⟨h.bank, h.player⟩
        | skip
      -- the checks on the two new counts are the bounds
      refine ⟨(h.bank.changeItem sIdx (hs.setCount (one_le_of_ne_zero hzero)
        (UInt32.not_lt.mp hsource))).changeItem dIdx (hd.setCount (one_le_of_ne_zero hzero')
          hroom), h.player⟩

end Moves

/-- A swap. -/
theorem swapItems_wellStacked (se : Session) {pos : ItemPos} {bagItem : Item T}
    {bankItem : BankItem} (h : w.WellStacked) (hitem : w.player.getItemByPos pos = some bagItem)
    (hbank : bankItem.WellStacked T) : (w.swapItems se pos bagItem bankItem).WellStacked := by
  unfold swapItems
  simp only
  split
  · exact ⟨h.bank, h.player⟩
  · have hholds := h.player pos bagItem (Player.items_of_getItemByPos hitem)
    have hdeposit : (w.depositItemInSlot se bankItem.tab bankItem.slot pos bagItem bagItem.count
        false false).WellStacked :=
      depositItemInSlot_wellStacked se h hitem (UInt32.le_refl _) fun _ _ _ => hholds
    exact withdrawItemTo_new_wellStacked se hdeposit hbank (UInt32.le_refl _)
      (UInt32.sub_self _).symm true

/-- What keeps the bounds: a deposit moves units that the bag stack has, and at least one into a
free slot; a withdrawal does not overfill the bag stack; a split makes no empty stack. -/
def StackOk (w : World T) : ItemCall T → Prop
  | .depositInSlot _ _ _ pItem count isNew _ => count ≤ pItem.count ∧ (isNew = true → count ≠ 0)
  | .withdraw _ _ count playerBag playerSlot _ bItem (some (_, pItem)) _ =>
      (w.player.canStoreNewItem playerBag.toUInt8 playerSlot.toUInt8 bItem.itemTemplate
          count).result = .ok →
        pItem.count.toNat + count.toNat ≤ pItem.getMaxStackCount.toNat
  | .split _ _ none _ split => split ≠ 0
  | _ => True

instance (w : World T) (call : ItemCall T) : Decidable (w.StackOk call) := by
  unfold StackOk
  split <;> infer_instance

/-- A player's stack has 1 to 255 units. -/
theorem small_of_holds {pItem : Item T} (h : pItem.Holds pItem.count) :
    1 ≤ pItem.count.toNat ∧ pItem.count.toNat ≤ pItem.getMaxStackCount.toNat ∧
      pItem.getMaxStackCount.toNat ≤ 255 := by
  have hmax : pItem.getMaxStackCount ≤ 255 := T.stackable_le pItem.listed
  have hpos := h.1
  have hle := h.2
  rw [UInt32.le_iff_toNat_le] at hmax hpos hle
  exact ⟨hpos, hle, hmax⟩

/-- A sum that fits is a stack. -/
theorem holds_add {pItem : Item T} {left right : UInt32} (hpos : 1 ≤ left.toNat)
    (hle : left.toNat + right.toNat ≤ pItem.getMaxStackCount.toNat) : pItem.Holds (left + right) := by
  have hmax := pItem.getMaxStackCount.toNat_lt
  unfold Item.Holds
  rw [UInt32.le_iff_toNat_le, UInt32.le_iff_toNat_le, UInt32.toNat_add]
  simp only [UInt32.reduceToNat]
  omega

/-- Every call of an item message that meets `StackOk` keeps the bounds. -/
theorem perform_wellStacked (se : Session) {call : ItemCall T} (hasked : Asked w call)
    (h : w.WellStacked) (hok : w.StackOk call) : (w.perform se call).WellStacked := by
  have hfind : ∀ {tab slot : UInt32} {idx : ℕ} {item : BankItem},
      w.bank.findItem tab slot = some (idx, item) → item.WellStacked T := fun hfound =>
    h.bank _ (List.mem_of_getElem? (GuildBank.findItem_some hfound).1)
  cases hasked with
  | refuse answers => exact ⟨h.bank, h.player⟩
  | depositInFreeSlot htab hitem =>
      exact depositItemInFreeSlot_wellStacked se _ _ h hitem
  | @depositNew bankTab bankSlot count pos pItem htab hslot hitem hcount hfree =>
      have hholds : w.DepositHolds bankTab bankSlot pItem count true false :=
        ⟨one_le_of_ne_zero (hok.2 rfl), hcount⟩
      exact depositItemInSlot_wellStacked se h hitem hok.1 hholds
  | @depositAll bankTab bankSlot count pos pItem idx dItem htab hitem hcount hfound hentry hmany
      hroom =>
      refine depositItemInSlot_wellStacked se h hitem hok.1 fun idx' dItem' hother => ?_
      rw [hfound] at hother
      cases hother
      have hmax := stackCount_eq h.bank
        (List.mem_of_getElem? (GuildBank.findItem_some hfound).1) hentry
      have hsmall := (hfind hfound).small
      have hheld := small_of_holds (h.player pos pItem (Player.items_of_getItemByPos hitem))
      rw [UInt32.le_iff_toNat_le] at hcount
      rw [hmax, UInt32.le_iff_toNat_le, UInt32.toNat_add] at hroom
      exact holds_add hsmall.2.2 (by omega)
  | @depositFew bankTab bankSlot count pos pItem idx dItem htab hitem hcount hfound hentry hmany
      hroom hnotFull =>
      refine depositItemInSlot_wellStacked se h hitem hok.1 fun idx' dItem' hother => ?_
      rw [hfound] at hother
      cases hother
      have hmax := stackCount_eq h.bank
        (List.mem_of_getElem? (GuildBank.findItem_some hfound).1) hentry
      have hsmall := (hfind hfound).small
      have hfree := UInt32.toNat_sub_of_le _ _ (hfind hfound).le
      refine holds_add hsmall.2.2 ?_
      rw [hfree, ← hmax]
      omega
  | @refill bankTab bankSlot count remainer pos pItem idx dItem htab hitem hcount hfound hentry
      hmany hless hfull hremainer =>
      have hheld := small_of_holds (h.player pos pItem (Player.items_of_getItemByPos hitem))
      refine withdrawItemTo_onto_wellStacked se h (hfind hfound) ?_ hremainer
        (fun hstore => holds_add hheld.1 (hok hstore)) false
      rw [hfull, UInt32.le_iff_toNat_le, UInt32.toNat_sub_of_le]
      · omega
      · rw [← hfull]
        exact UInt32.le_of_lt hless
  | @withdrawOnto bankTab bankSlot asked count playerBag playerSlot pItem idx bItem htab hitem
      hfound hentry hmany hasked hcount =>
      have hheld := small_of_holds (h.player _ pItem (Player.items_of_getItemByPos hitem))
      have hsmall := (hfind hfound).small
      have hfree : (pItem.proto.getMaxStackSize - pItem.count).toNat =
          pItem.getMaxStackCount.toNat - pItem.count.toNat :=
        UInt32.toNat_sub_of_le _ _
          (h.player _ pItem (Player.items_of_getItemByPos hitem)).2
      have hasked' := hasked
      rw [UInt32.le_iff_toNat_le] at hasked'
      -- the count asked for, or the room there is if that is less
      have hboth : count ≤ bItem.count ∧
          pItem.count.toNat + count.toNat ≤ pItem.getMaxStackCount.toNat := by
        rw [hcount]
        split_ifs with hover
        · rw [UInt32.lt_iff_toNat_lt, UInt32.toNat_add] at hover
          rw [UInt32.le_iff_toNat_le, hfree]
          omega
        · rw [UInt32.lt_iff_toNat_lt, UInt32.toNat_add] at hover
          exact ⟨hasked, by omega⟩
      exact withdrawItemTo_onto_wellStacked se h (hfind hfound) hboth.1 rfl
        (fun _ => holds_add hheld.1 hboth.2) false
  | withdrawNew htab hfound hcount hremainer =>
      exact withdrawItemTo_new_wellStacked se h (hfind hfound) hcount hremainer false
  | swap htab hitem hfound => exact swapItems_wellStacked se h hitem (hfind hfound)
  | move htab hfrom hto hne hfound =>
      exact moveItemTo_wellStacked h (hfind hfound) fun dIdx dItem hdest => hfind hdest
  | @split sIdx sItem bankTab fromSlot toSlot amount htab hto hne hfound =>
      refine splitItemTo_wellStacked h (hfind hfound) (fun dIdx dItem hdest => hfind hdest)
        fun hnone => ?_
      rw [hnone] at hok
      exact hok

end World

variable {T : ItemTable}

/-- The player comes with stacks within their bounds, and the call keeps them. -/
structure KeepsStacks (state : GuildBank × Database) (request : ItemRequest T) : Prop where
  bags : request.player.Bounded
  call : (request.world state).StackOk (request.call state)

/-- One item message keeps the bounds, in the bank and in the bags. -/
theorem receiveItem_wellStacked {state : GuildBank × Database} {request : ItemRequest T}
    (hok : KeepsStacks state request) (h : state.1.WellStacked T) :
    ((request.world state).handleItem request.se request.op request.msg).WellStacked :=
  World.perform_wellStacked request.se
    (World.asked request.se (request.world state) request.op request.msg) ⟨h, hok.bags⟩ hok.call

/-- A stack of 1 to 20 Linen Cloth is within its bounds. -/
theorem linenPlayer_bounded {count : UInt32} (hpos : 1 ≤ count) (hle : count ≤ 20) :
    (linenPlayer count).Bounded := by
  intro pos item hitem
  simp only [linenPlayer, Option.ite_none_right_eq_some, Option.some.injEq] at hitem
  rw [← hitem.2]
  exact ⟨hpos, hle⟩

/-- A deposit of no units leaves a stack of none in the bank. -/
theorem depositItem_no_units :
    Reachable ItemTable.cloth (linenState []) ∧
      (∀ item ∈ (linenState []).1.items, 1 ≤ item.count ∧ item.count ≤ item.maxStackSize) ∧
      (linenItemRequest 5 .deposit "DepositItem:0:1:1:1:0").player.Bounded ∧
      ¬∀ item ∈ (Lib.run receiveItem (linenState [])
          [linenItemRequest 5 .deposit "DepositItem:0:1:1:1:0"]).1.items,
        1 ≤ item.count ∧ item.count ≤ item.maxStackSize :=
  ⟨World.linenWorld_reachable [] 5, by decide, linenPlayer_bounded (by decide) (by decide),
    by decide⟩

/-- In every run of item messages from a reachable bank whose stacks are within their bounds, all
of whose messages meet `KeepsStacks`, the stacks of the bank are within their bounds in every state,
and so are those of the acting player after each message. -/
theorem run_stacks (start : GuildBank × Database) (requests : List (ItemRequest T))
    (hreach : Reachable T start)
    (hstart : ∀ item ∈ start.1.items, 1 ≤ item.count ∧ item.count ≤ item.maxStackSize)
    (hok : Lib.Along KeepsStacks receiveItem start requests) :
    (∀ item ∈ (Lib.run receiveItem start requests).1.items,
        1 ≤ item.count ∧ item.count ≤ item.maxStackSize) ∧
      Lib.Along (fun state request => ((request.world state).handleItem request.se request.op
        request.msg).player.Bounded) receiveItem start requests := by
  have hsizes := World.stackSized_of_reachable hreach
  have hfirst : start.1.WellStacked T := fun item hmem =>
    ⟨hsizes item hmem, (hstart item hmem).1, (hstart item hmem).2⟩
  have hstep : ∀ (state : GuildBank × Database) (request : ItemRequest T),
      KeepsStacks state request → state.1.WellStacked T →
        (receiveItem state request).1.WellStacked T :=
    fun _ _ hkeeps hstate => (receiveItem_wellStacked hkeeps hstate).bank
  constructor
  · have hlast := Lib.run_invariant (fun state : GuildBank × Database => state.1.WellStacked T)
      hstep hfirst hok
    exact fun item hmem => ⟨(hlast item hmem).pos, (hlast item hmem).le⟩
  · exact Lib.along_of_run hstep (fun _ _ hkeeps hstate =>
      (receiveItem_wellStacked hkeeps hstate).player) hfirst hok

/-- Depositing three of five units and taking one back keeps the bounds. -/
theorem run_stacks_deposit :
    let requests := [linenItemRequest 5 .deposit "DepositItem:0:1:1:1:3",
      linenItemRequest 2 .withdraw "WithdrawItem:1:1:0:1:1"]
    (∀ item ∈ (Lib.run receiveItem (linenState []) requests).1.items,
        1 ≤ item.count ∧ item.count ≤ item.maxStackSize) ∧
      Lib.Along (fun state request => ((request.world state).handleItem request.se request.op
        request.msg).player.Bounded) receiveItem (linenState []) requests := by
  refine run_stacks (linenState []) _ (World.linenWorld_reachable [] 5) (by decide) ?_
  exact ⟨⟨linenPlayer_bounded (by decide) (by decide), by decide⟩,
    ⟨linenPlayer_bounded (by decide) (by decide), by decide⟩, trivial⟩

end TwowCore
