import TwowCore.GuildBank.Requests
import TwowCore.Lib.ListUpdate

/-!
# What the item handlers change

Frame and effect lemmas of the functions in `GuildBank.Items`: sending and logging change neither
the items nor the player, the three steps on the bank change the items in one place, and
`SaveToDB` changes nothing of an item but its state. Later modules only use these.
-/

namespace TwowCore

namespace GuildBank

/-- An item found at a tab and slot lies there, at the index returned. -/
theorem findItem_some {bank : GuildBank} {tab slot : UInt32} {idx : ℕ} {item : BankItem}
    (h : bank.findItem tab slot = some (idx, item)) :
    bank.items[idx]? = some item ∧ item.tab = tab ∧ item.slot = slot := by
  obtain ⟨found, hfound, hitem⟩ := Option.bind_eq_some_iff.mp h
  obtain ⟨item', hitem', heq⟩ := Option.map_eq_some_iff.mp hitem
  cases heq
  refine ⟨hitem', ?_⟩
  obtain ⟨hlt, hplace, -⟩ := List.findIdx?_eq_some_iff_getElem.mp hfound
  rw [List.getElem?_eq_getElem hlt] at hitem'
  rw [Option.some.inj hitem'] at hplace
  simpa using hplace

/-- No item lies at a tab and slot where none is found. -/
theorem findItem_none {bank : GuildBank} {tab slot : UInt32} :
    bank.findItem tab slot = none ↔ ∀ item ∈ bank.items, ¬(item.tab = tab ∧ item.slot = slot) := by
  have hget : bank.findItem tab slot = none ↔ bank.getItem tab slot = none := by
    cases hfound : bank.getItem tab slot with
    | none => simp [findItem, hfound]
    | some idx =>
        obtain ⟨hlt, -⟩ := List.findIdx?_eq_some_iff_getElem.mp hfound
        simp [findItem, hfound, List.getElem?_eq_getElem hlt]
  rw [hget, getItem, List.findIdx?_eq_none_iff]
  simp

@[simp] theorem changeItem_items (bank : GuildBank) (idx : ℕ) (item : BankItem) :
    (bank.changeItem idx item).items =
      bank.items.set idx (item.setState .changed) := rfl

@[simp] theorem insertItem_items (bank : GuildBank) (item : BankItem) :
    (bank.insertItem item).items =
      bank.items ++ [item.setState .new] := rfl

@[simp] theorem removeItem_items (bank : GuildBank) (idx : ℕ) (item : BankItem) :
    (bank.removeItem idx item).items = bank.items.eraseIdx idx := rfl

@[simp] theorem queue_items (bank : GuildBank) (item : BankItem) :
    (bank.queue item).items = bank.items := rfl

/-- A saved bank has the items it had, but for their state. -/
theorem saved_items_map {β : Type*} (f : BankItem → β)
    (hf : ∀ item state, f (item.setState state) = f item) (bank : GuildBank) :
    bank.saved.items.map f = bank.items.map f := by
  simp only [saved]
  split
  · rfl
  · simp [Function.comp_def, hf]

/-- What holds of every item, whatever its state, holds of the items of a saved bank. -/
theorem forall_saved {P : BankItem → Prop}
    (hP : ∀ item state, P item → P (item.setState state)) {bank : GuildBank}
    (h : ∀ item ∈ bank.items, P item) : ∀ item ∈ bank.saved.items, P item := by
  intro item hmem
  simp only [saved] at hmem
  split at hmem
  · exact h item hmem
  · obtain ⟨old, hold, rfl⟩ := List.mem_map.mp hmem
    exact hP old _ (h old hold)

/-- The slots of a tab are numbered from 1 to `BANK_TAB_SIZE`. -/
theorem slot_bounds {slot : ℕ} (h : slot ∈ List.range' 1 bankTabSize.toNat) :
    1 ≤ slot.toUInt32 ∧ slot.toUInt32 ≤ bankTabSize := by
  rw [List.mem_range'_1] at h
  have hsize : bankTabSize.toNat = 98 := rfl
  rw [UInt32.le_iff_toNat_le, UInt32.le_iff_toNat_le]
  have hnat : slot.toUInt32.toNat = slot := by
    simp only [UInt32.toNat_ofNat']
    omega
  rw [hnat]
  simp only [UInt32.reduceToNat]
  omega

/-- What the search for a stack that is not full finds. -/
theorem unfilledStack_some {bank : GuildBank} {tab entry slot : UInt32} {idx : ℕ} {item : BankItem}
    (h : bank.unfilledStack tab entry = some (slot, idx, item)) :
    1 ≤ slot ∧ slot ≤ bankTabSize ∧ bank.findItem tab slot = some (idx, item) ∧
      item.itemTemplate = entry ∧ item.count < item.maxStackSize := by
  obtain ⟨nat, hmem, hfound⟩ := List.exists_of_findSome?_eq_some h
  have hbounds := slot_bounds hmem
  split at hfound
  · cases hfound
  · rename_i idx' item' hitem
    simp only [Option.ite_none_right_eq_some, Option.some.injEq, Prod.mk.injEq] at hfound
    obtain ⟨⟨hentry, hcount⟩, rfl, rfl, rfl⟩ := hfound
    exact ⟨hbounds.1, hbounds.2, hitem, hentry, hcount⟩

/-- What the search for a free slot finds. -/
theorem freeSlot_some {bank : GuildBank} {tab slot : UInt32} (h : bank.freeSlot tab = some slot) :
    1 ≤ slot ∧ slot ≤ bankTabSize ∧ bank.findItem tab slot = none := by
  obtain ⟨nat, hfound, rfl⟩ := Option.map_eq_some_iff.mp h
  have hbounds := slot_bounds (List.mem_of_find?_eq_some hfound)
  have hnone := List.find?_some hfound
  refine ⟨hbounds.1, hbounds.2, ?_⟩
  simp only [decide_eq_true_eq] at hnone
  simp [findItem, hnone]

end GuildBank

namespace World

variable {T : ItemTable}

/-- What a sent message does not change. -/
structure SameState (w w' : World T) : Prop where
  bank : w'.bank = w.bank
  db : w'.db = w.db
  player : w'.player = w.player

@[simp] theorem logAction_items (se : Session) (w : World T) (action : BankAction)
    (tab itemID count : UInt32) (bItem : Option BankItem) :
    (w.logAction se action tab itemID count bItem).bank.items = w.bank.items := by
  rw [(w.logAction_frame se action tab itemID count bItem).2.2]

/-- Answering with the withdrawals left changes nothing. -/
theorem sendWithdrawalsLeft_same (se : Session) (w : World T) (tab : UInt8) :
    w.SameState (w.sendWithdrawalsLeft se tab) := by
  unfold sendWithdrawalsLeft
  simp only
  split_ifs <;> exact ⟨rfl, rfl, rfl⟩

/-- Showing a withdrawal to the guild changes nothing. -/
theorem sendWithdrawn_same (w : World T) (bankTab bankSlot : UInt32) (bItem : BankItem)
    (all swap : Bool) : w.SameState (w.sendWithdrawn bankTab bankSlot bItem all swap) := by
  unfold sendWithdrawn
  split_ifs <;> exact ⟨rfl, rfl, rfl⟩

@[simp] theorem sendWithdrawalsLeft_bank (se : Session) (w : World T) (tab : UInt8) :
    (w.sendWithdrawalsLeft se tab).bank = w.bank := (w.sendWithdrawalsLeft_same se tab).bank

@[simp] theorem sendWithdrawalsLeft_db (se : Session) (w : World T) (tab : UInt8) :
    (w.sendWithdrawalsLeft se tab).db = w.db := (w.sendWithdrawalsLeft_same se tab).db

@[simp] theorem sendWithdrawalsLeft_player (se : Session) (w : World T) (tab : UInt8) :
    (w.sendWithdrawalsLeft se tab).player = w.player := (w.sendWithdrawalsLeft_same se tab).player

@[simp] theorem sendWithdrawn_bank (w : World T) (bankTab bankSlot : UInt32) (bItem : BankItem)
    (all swap : Bool) : (w.sendWithdrawn bankTab bankSlot bItem all swap).bank = w.bank :=
  (w.sendWithdrawn_same bankTab bankSlot bItem all swap).bank

@[simp] theorem sendWithdrawn_db (w : World T) (bankTab bankSlot : UInt32) (bItem : BankItem)
    (all swap : Bool) : (w.sendWithdrawn bankTab bankSlot bItem all swap).db = w.db :=
  (w.sendWithdrawn_same bankTab bankSlot bItem all swap).db

@[simp] theorem sendWithdrawn_player (w : World T) (bankTab bankSlot : UInt32) (bItem : BankItem)
    (all swap : Bool) : (w.sendWithdrawn bankTab bankSlot bItem all swap).player = w.player :=
  (w.sendWithdrawn_same bankTab bankSlot bItem all swap).player

@[simp] theorem sendSplit_bank (w : World T) (sItem dItem : BankItem) :
    (w.sendSplit sItem dItem).bank = w.bank := rfl

@[simp] theorem sendSplit_player (w : World T) (sItem dItem : BankItem) :
    (w.sendSplit sItem dItem).player = w.player := rfl

@[simp] theorem setItemCount_bank (w : World T) (pos : ItemPos) (pItem : Item T)
    (count : UInt32) : (w.setItemCount pos pItem count).bank = w.bank := rfl

@[simp] theorem setItemCount_db (w : World T) (pos : ItemPos) (pItem : Item T)
    (count : UInt32) : (w.setItemCount pos pItem count).db = w.db := rfl

theorem setItemCount_player (w : World T) (pos : ItemPos) (pItem : Item T) (count : UInt32) :
    (w.setItemCount pos pItem count).player =
      w.player.setItem pos (some (pItem.setCount count)) := rfl

@[simp] theorem takeDeposit_bank (w : World T) (pos : ItemPos) (pItem : Item T) (count : UInt32) :
    (w.takeDeposit pos pItem count).bank = w.bank := by
  unfold takeDeposit
  split_ifs <;> rfl

@[simp] theorem takeDeposit_db (w : World T) (pos : ItemPos) (pItem : Item T) (count : UInt32) :
    (w.takeDeposit pos pItem count).db = w.db := by
  unfold takeDeposit
  split_ifs <;> rfl

@[simp] theorem depositDone_player (se : Session) (w : World T) (idx : ℕ) (count : UInt32) :
    (w.depositDone se idx count).player = w.player := by
  unfold depositDone
  split <;> simp

@[simp] theorem withdrawDone_player (se : Session) (w : World T) (bankTab count : UInt32)
    (bItem : BankItem) : (w.withdrawDone se bankTab count bItem).player = w.player := by
  simp [withdrawDone]

/-- Saving changes nothing of the items but their state. -/
theorem saveToDB_items_map {β : Type*} (f : BankItem → β)
    (hf : ∀ item state, f (item.setState state) = f item) (w : World T) :
    w.saveToDB.bank.items.map f = w.bank.items.map f := by
  unfold saveToDB
  split_ifs
  · rfl
  · rfl
  · exact GuildBank.saved_items_map f hf w.bank

/-- The end of a withdrawal changes nothing of the items but their state. -/
theorem withdrawDone_items_map {β : Type*} (f : BankItem → β)
    (hf : ∀ item state, f (item.setState state) = f item) (se : Session) (w : World T)
    (bankTab count : UInt32) (bItem : BankItem) :
    (w.withdrawDone se bankTab count bItem).bank.items.map f = w.bank.items.map f := by
  unfold withdrawDone
  rw [saveToDB_items_map f hf]
  simp

/-- Logging and saving at the end of a deposit change nothing of the items but their state. -/
theorem depositDone_items_map {β : Type*} (f : BankItem → β)
    (hf : ∀ item state, f (item.setState state) = f item) (se : Session) (w : World T) (idx : ℕ)
    (count : UInt32) :
    (w.depositDone se idx count).bank.items.map f = w.bank.items.map f := by
  unfold depositDone
  split
  · rfl
  · rw [saveToDB_items_map f hf]
    simp

end World

end TwowCore
