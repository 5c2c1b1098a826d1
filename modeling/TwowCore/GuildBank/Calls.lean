import TwowCore.GuildBank.Effects

/-!
# What an item message ends in

`Asked` lists every call an item message can end in, with the checks that stand behind it. Read
`asked` first: it is the only place where the four handlers are taken apart, and every later
argument about an item message goes by cases on `Asked`.
-/

namespace TwowCore

/-- The tab is one of the bank's five. -/
def ValidTab (tab : UInt32) : Prop := 1 ≤ tab ∧ tab ≤ maxTabs

/-- The slot is one of a tab's 98. -/
def ValidSlot (slot : UInt32) : Prop := 1 ≤ slot ∧ slot ≤ bankTabSize

instance (tab : UInt32) : Decidable (ValidTab tab) := inferInstanceAs (Decidable (_ ∧ _))

instance (slot : UInt32) : Decidable (ValidSlot slot) := inferInstanceAs (Decidable (_ ∧ _))

/-- The calls an item message can end in, with what was checked on the way. -/
inductive Asked {T : ItemTable} (w : World T) : ItemCall T → Prop
  | refuse (answers : List Out) : Asked w (.refuse answers)
  | depositInFreeSlot {bankTab : UInt32} {pos : ItemPos} {pItem : Item T}
      (htab : ValidTab bankTab) (hitem : w.player.getItemByPos pos = some pItem) :
      Asked w (.depositInFreeSlot bankTab pos pItem)
  | depositNew {bankTab bankSlot count : UInt32} {pos : ItemPos} {pItem : Item T}
      (htab : ValidTab bankTab) (hslot : ValidSlot bankSlot)
      (hitem : w.player.getItemByPos pos = some pItem) (hcount : count ≤ pItem.getMaxStackCount)
      (hfree : w.bank.findItem bankTab bankSlot = none) :
      Asked w (.depositInSlot bankTab bankSlot pos pItem count true false)
  | depositAll {bankTab bankSlot count : UInt32} {pos : ItemPos} {pItem : Item T} {idx : ℕ}
      {dItem : BankItem} (htab : ValidTab bankTab)
      (hitem : w.player.getItemByPos pos = some pItem) (hcount : count ≤ pItem.getMaxStackCount)
      (hfound : w.bank.findItem bankTab bankSlot = some (idx, dItem))
      (hentry : dItem.itemTemplate = pItem.entry) (hmany : 1 < dItem.maxStackSize)
      (hroom : dItem.count + count ≤ dItem.maxStackSize) :
      Asked w (.depositInSlot bankTab bankSlot pos pItem count false true)
  | depositFew {bankTab bankSlot count : UInt32} {pos : ItemPos} {pItem : Item T} {idx : ℕ}
      {dItem : BankItem} (htab : ValidTab bankTab)
      (hitem : w.player.getItemByPos pos = some pItem) (hcount : count ≤ pItem.getMaxStackCount)
      (hfound : w.bank.findItem bankTab bankSlot = some (idx, dItem))
      (hentry : dItem.itemTemplate = pItem.entry) (hmany : 1 < dItem.maxStackSize)
      (hroom : ¬dItem.count + count ≤ dItem.maxStackSize)
      (hnotFull : ¬(count < dItem.count ∧ dItem.count = dItem.maxStackSize)) :
      Asked w (.depositInSlot bankTab bankSlot pos pItem (dItem.maxStackSize - dItem.count) false
        true)
  | refill {bankTab bankSlot count remainer : UInt32} {pos : ItemPos} {pItem : Item T} {idx : ℕ}
      {dItem : BankItem} (htab : ValidTab bankTab)
      (hitem : w.player.getItemByPos pos = some pItem) (hcount : count ≤ pItem.getMaxStackCount)
      (hfound : w.bank.findItem bankTab bankSlot = some (idx, dItem))
      (hentry : dItem.itemTemplate = pItem.entry) (hmany : 1 < dItem.maxStackSize)
      (hless : count < dItem.count) (hfull : dItem.count = dItem.maxStackSize)
      (hremainer : remainer = dItem.count - (dItem.maxStackSize - count)) :
      Asked w (.withdraw bankTab bankSlot (dItem.maxStackSize - count) pos.bag.toUInt32
        pos.slot.toUInt32 idx dItem (some (pos, pItem)) remainer)
  | withdrawOnto {bankTab bankSlot asked count playerBag playerSlot : UInt32} {pItem : Item T}
      {idx : ℕ} {bItem : BankItem} (htab : ValidTab bankTab)
      (hitem : w.player.getItemByPos ⟨playerBag.toUInt8, playerSlot.toUInt8⟩ = some pItem)
      (hfound : w.bank.findItem bankTab bankSlot = some (idx, bItem))
      (hentry : bItem.itemTemplate = pItem.entry) (hmany : 1 < bItem.maxStackSize)
      (hasked : asked ≤ bItem.count)
      (hcount : count = if pItem.getMaxStackCount < asked + pItem.count then
        pItem.proto.getMaxStackSize - pItem.count else asked) :
      Asked w (.withdraw bankTab bankSlot count playerBag playerSlot idx bItem
        (some (⟨playerBag.toUInt8, playerSlot.toUInt8⟩, pItem)) (bItem.count - count))
  | withdrawNew {bankTab bankSlot count playerBag playerSlot remainer : UInt32} {idx : ℕ}
      {bItem : BankItem} (htab : ValidTab bankTab)
      (hfound : w.bank.findItem bankTab bankSlot = some (idx, bItem))
      (hcount : count ≤ bItem.count) (hremainer : remainer = bItem.count - count) :
      Asked w (.withdraw bankTab bankSlot count playerBag playerSlot idx bItem none remainer)
  | swap {pos : ItemPos} {bagItem : Item T} {idx : ℕ} {bankItem : BankItem}
      (htab : ValidTab bankItem.tab) (hitem : w.player.getItemByPos pos = some bagItem)
      (hfound : w.bank.findItem bankItem.tab bankItem.slot = some (idx, bankItem)) :
      Asked w (.swap pos bagItem bankItem)
  | move {sIdx : ℕ} {sItem : BankItem} {bankTab fromSlot toSlot : UInt8}
      (htab : ValidTab bankTab.toUInt32) (hfrom : ValidSlot fromSlot.toUInt32)
      (hto : ValidSlot toSlot.toUInt32) (hne : fromSlot ≠ toSlot)
      (hfound : w.bank.findItem bankTab.toUInt32 fromSlot.toUInt32 = some (sIdx, sItem)) :
      Asked w (.move sIdx sItem (w.bank.findItem bankTab.toUInt32 toSlot.toUInt32) bankTab
        fromSlot toSlot)
  | split {sIdx : ℕ} {sItem : BankItem} {bankTab fromSlot toSlot split : UInt8}
      (htab : ValidTab bankTab.toUInt32) (hto : ValidSlot toSlot.toUInt32)
      (hne : fromSlot ≠ toSlot)
      (hfound : w.bank.findItem bankTab.toUInt32 fromSlot.toUInt32 = some (sIdx, sItem)) :
      Asked w (.split sIdx sItem (w.bank.findItem bankTab.toUInt32 toSlot.toUInt32) toSlot split)

namespace World

variable {T : ItemTable} {w : World T} {se : Session}

/-- A number that is not 0 is at least 1. -/
theorem one_le_of_ne_zero {n : UInt32} (h : n ≠ 0) : 1 ≤ n := by
  rw [UInt32.le_iff_toNat_le]
  have hne : n.toNat ≠ 0 := fun hzero => h (UInt32.toNat.inj hzero)
  simp only [UInt32.reduceToNat]
  omega

theorem toUInt32_ne_zero {n : UInt8} (h : n ≠ 0) : n.toUInt32 ≠ 0 := by
  intro hzero
  apply h
  apply UInt8.toNat.inj
  rw [← UInt8.toNat_toUInt32, hzero]
  rfl

/-- A deposit onto a taken slot. -/
theorem depositOnto_asked {bankTab bankSlot count : UInt32} {pos : ItemPos} {pItem : Item T}
    {idx : ℕ} {dItem : BankItem} (htab : ValidTab bankTab)
    (hitem : w.player.getItemByPos pos = some pItem) (hcount : count ≤ pItem.getMaxStackCount)
    (hfound : w.bank.findItem bankTab bankSlot = some (idx, dItem)) :
    Asked w (depositOnto bankTab bankSlot pos pItem count idx dItem) := by
  obtain ⟨-, rfl, rfl⟩ := GuildBank.findItem_some hfound
  unfold depositOnto
  split_ifs with hsame hstack hroom hfull
  · exact .refuse _
  · exact .depositAll htab hitem hcount hfound hstack.1 hstack.2 hroom
  · exact .refill htab hitem hcount hfound hstack.1 hstack.2 hfull.1 hfull.2 (by rw [hfull.2])
  · exact .depositFew htab hitem hcount hfound hstack.1 hstack.2 hroom hfull
  · exact .swap htab hitem hfound

/-- What `DepositItem` ends in. -/
theorem depositCall_asked (msg : List Char) : Asked w (w.depositCall se msg) := by
  unfold depositCall
  split
  · simp only
    split
    · exact .refuse _
    · rename_i hrange
      simp only [not_or, UInt32.not_lt] at hrange
      obtain ⟨hzero, hmaxTab, hmaxSlot⟩ := hrange
      have htab := And.intro (one_le_of_ne_zero (toUInt32_ne_zero hzero)) hmaxTab
      split
      · exact .refuse _
      · split
        · exact .refuse _
        · rename_i pItem hitem
          split
          · exact .refuse _
          · split
            · exact .refuse _
            · rename_i hcount
              rw [UInt32.not_lt] at hcount
              split
              · exact .depositInFreeSlot htab hitem
              · rename_i hslot
                split
                · rename_i idx dItem hfound
                  exact depositOnto_asked htab hitem hcount hfound
                · rename_i hfree
                  exact .depositNew htab
                    ⟨one_le_of_ne_zero (toUInt32_ne_zero hslot), hmaxSlot⟩ hitem hcount hfree
  · exact .refuse _

/-- A withdrawal onto a taken slot of the bags. -/
theorem withdrawOnto_asked {bankTab bankSlot asked playerBag playerSlot : UInt32}
    {pItem : Item T} {idx : ℕ} {bItem : BankItem} (htab : ValidTab bankTab)
    (hitem : w.player.getItemByPos ⟨playerBag.toUInt8, playerSlot.toUInt8⟩ = some pItem)
    (hfound : w.bank.findItem bankTab bankSlot = some (idx, bItem))
    (hasked : asked ≤ bItem.count) :
    Asked w (withdrawOnto bankTab bankSlot asked playerBag playerSlot idx bItem
      ⟨playerBag.toUInt8, playerSlot.toUInt8⟩ pItem) := by
  obtain ⟨-, rfl, rfl⟩ := GuildBank.findItem_some hfound
  unfold withdrawOnto
  split
  · exact .refuse _
  · split
    · rename_i hstack
      exact .withdrawOnto htab hitem hfound hstack.1.symm hstack.2 hasked rfl
    · exact .swap htab hitem hfound

/-- What `WithdrawItem` ends in. -/
theorem withdrawCall_asked (msg : List Char) : Asked w (w.withdrawCall se msg) := by
  unfold withdrawCall
  split
  · simp only
    split
    · exact .refuse _
    · rename_i hrange
      simp only [not_or, UInt32.not_lt] at hrange
      have htab := And.intro (one_le_of_ne_zero hrange.1) hrange.2.1
      split
      · exact .refuse _
      · split
        · exact .refuse _
        · rename_i idx bItem hfound
          split
          · exact .refuse _
          · rename_i hcount
            rw [UInt32.not_lt] at hcount
            split
            · split
              · exact .withdrawNew htab hfound (UInt32.le_refl _) (UInt32.sub_self _).symm
              · exact .refuse _
            · split
              · rename_i pItem hitem
                exact withdrawOnto_asked htab hitem hfound hcount
              · exact .withdrawNew htab hfound hcount rfl
  · exact .refuse _

/-- The slots of a move or a split that is not refused are valid. -/
theorem valid_of_inRange {bankTab fromSlot toSlot : UInt8}
    (h : ¬slotsOutOfRange bankTab fromSlot toSlot) :
    ValidTab bankTab.toUInt32 ∧ ValidSlot fromSlot.toUInt32 ∧ ValidSlot toSlot.toUInt32 := by
  simp only [slotsOutOfRange, not_or, UInt32.not_lt] at h
  obtain ⟨htab, hmaxTab, hfrom, hmaxFrom, hto, hmaxTo⟩ := h
  exact ⟨⟨one_le_of_ne_zero (toUInt32_ne_zero htab), hmaxTab⟩,
    ⟨one_le_of_ne_zero (toUInt32_ne_zero hfrom), hmaxFrom⟩,
    ⟨one_le_of_ne_zero (toUInt32_ne_zero hto), hmaxTo⟩⟩

/-- What `MoveItem` ends in. -/
theorem moveCall_asked (msg : List Char) : Asked w (w.moveCall se msg) := by
  unfold moveCall
  split
  · simp only
    split_ifs with haccess hsame hrange
    · exact .refuse _
    · exact .refuse _
    · exact .refuse _
    · obtain ⟨htab, hfrom, hto⟩ := valid_of_inRange hrange
      split
      · exact .refuse _
      · rename_i sIdx sItem hfound
        exact .move htab hfrom hto hsame hfound
  · exact .refuse _

/-- What `SplitItem` ends in. -/
theorem splitCall_asked (msg : List Char) : Asked w (w.splitCall se msg) := by
  unfold splitCall
  split
  · simp only
    split_ifs with haccess hsame hrange
    · exact .refuse _
    · exact .refuse _
    · exact .refuse _
    · obtain ⟨htab, -, hto⟩ := valid_of_inRange hrange
      split
      · exact .refuse _
      · rename_i sIdx sItem hfound
        exact .split htab hto hsame hfound
  · exact .refuse _

/-- Every item message ends in one of the listed calls. -/
theorem asked (se : Session) (w : World T) (op : ItemOp) (msg : List Char) :
    Asked w (w.itemCall se op msg) := by
  cases op with
  | deposit => exact depositCall_asked msg
  | withdraw => exact withdrawCall_asked msg
  | move => exact moveCall_asked msg
  | split => exact splitCall_asked msg

end World

end TwowCore
