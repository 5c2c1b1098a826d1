import Mathlib.Algebra.Order.BigOperators.Group.List
import Mathlib.Algebra.Order.Group.Nat
import TwowCore.GuildBank.Calls

/-!
# The rounds of a deposit into free slots

`DepositItemInFreeSlot` and `DepositItemInSlot` call each other until nothing is left to deposit.
Every round fills a stack of the tab, or makes it take over the stack size of the deposited item,
so `roundsLeft` decreases and `depositRounds` rounds are enough: `depositItemInFreeSlot_enough`
says that allowing more of them changes nothing.
-/

namespace TwowCore

namespace GuildBank

/-- Where an item lies. -/
def place (item : BankItem) : UInt32 × UInt32 := (item.tab, item.slot)

/-- What `GetItem` finds depends on the places only. -/
theorem getItem_eq_of_places {bank bank' : GuildBank}
    (h : bank'.items.map place = bank.items.map place) (tab slot : UInt32) :
    bank'.getItem tab slot = bank.getItem tab slot := by
  have hplaces : ∀ items : List BankItem,
      (items.findIdx? fun item => item.tab = tab && item.slot = slot) =
        (items.map place).findIdx? fun found => found.1 = tab && found.2 = slot := by
    intro items
    rw [List.findIdx?_map]
    rfl
  rw [getItem, getItem, hplaces, hplaces, h]

/-- Changing an item that stays where it is keeps all places. -/
theorem places_changeItem {bank : GuildBank} {idx : ℕ} {old new : BankItem}
    (hold : bank.items[idx]? = some old) (hplace : place new = place old) :
    (bank.changeItem idx new).items.map place = bank.items.map place :=
  Lib.map_set_same place hold hplace

/-- What lies at the place of a changed item, and elsewhere. -/
theorem findItem_changeItem {bank : GuildBank} {idx : ℕ} {old new : BankItem}
    (hold : bank.items[idx]? = some old) (hplace : place new = place old) (tab slot : UInt32) :
    (bank.changeItem idx new).findItem tab slot =
      (bank.findItem tab slot).map fun found =>
        if found.1 = idx then (idx, new.setState .changed) else found := by
  unfold findItem
  rw [getItem_eq_of_places (places_changeItem hold hplace)]
  cases hget : bank.getItem tab slot with
  | none => rfl
  | some found =>
      rw [changeItem_items]
      obtain ⟨hlt, -⟩ := List.getElem?_eq_some_iff.mp hold
      by_cases hfound : found = idx
      · rw [hfound]
        simp [List.getElem?_set_self hlt, hold]
      · have hne : idx ≠ found := fun heq => hfound heq.symm
        simp only [Option.bind_some, List.getElem?_set_ne hne]
        cases bank.items[found]? with
        | none => rfl
        | some item => simp [hfound]

/-- The rounds a slot of the tab can still take: one to be filled, and one more if its stack size
is not the one of the deposited item. -/
def slotRounds (bank : GuildBank) (tab entry size slot : UInt32) : ℕ :=
  match bank.findItem tab slot with
  | none => 0
  | some (_, item) =>
      if item.itemTemplate = entry ∧ item.count < item.maxStackSize then
        if item.maxStackSize = size then 1 else 2
      else 0

/-- The rounds all slots of the tab can still take. -/
def roundsLeft (bank : GuildBank) (tab entry size : UInt32) : ℕ :=
  ((List.range' 1 bankTabSize.toNat).map fun slot =>
    bank.slotRounds tab entry size slot.toUInt32).sum

/-- A slot takes at most two rounds. -/
theorem slotRounds_le (bank : GuildBank) (tab entry size slot : UInt32) :
    bank.slotRounds tab entry size slot ≤ 2 := by
  unfold slotRounds
  split
  · omega
  · split_ifs <;> omega

/-- There are always rounds enough. -/
theorem roundsLeft_lt (bank : GuildBank) (tab entry size : UInt32) :
    bank.roundsLeft tab entry size < World.depositRounds := by
  have hsum : bank.roundsLeft tab entry size ≤ (List.range' 1 bankTabSize.toNat).length * 2 := by
    unfold roundsLeft
    refine (List.sum_le_card_nsmul _ 2 ?_).trans (by simp)
    intro rounds hmem
    obtain ⟨slot, -, rfl⟩ := List.mem_map.mp hmem
    exact slotRounds_le bank tab entry size _
  unfold World.depositRounds
  rw [List.length_range'] at hsum
  omega

/-- Filling a stack leaves fewer rounds. -/
theorem roundsLeft_fill {bank : GuildBank} {tab entry size slot : UInt32} {idx : ℕ}
    {dItem : BankItem} (new : BankItem) (hfound : bank.unfilledStack tab entry = some (slot, idx, dItem))
    (hplace : place new = place dItem) (hcount : new.count = dItem.maxStackSize)
    (hsize : new.maxStackSize = size) :
    (bank.changeItem idx new).roundsLeft tab entry size < bank.roundsLeft tab entry size := by
  obtain ⟨hpos, hmax, hitem, hentry, hless⟩ := unfilledStack_some hfound
  obtain ⟨hold, htab, hslot⟩ := findItem_some hitem
  have hmem : slot.toNat ∈ List.range' 1 bankTabSize.toNat := by
    rw [List.mem_range'_1]
    rw [UInt32.le_iff_toNat_le] at hpos hmax
    exact ⟨hpos, by omega⟩
  have hself : slot.toNat.toUInt32 = slot := by simp
  refine List.sum_lt_sum _ _ (fun other _ => ?_) ⟨slot.toNat, hmem, ?_⟩
  · unfold slotRounds
    rw [findItem_changeItem hold hplace]
    cases hother : bank.findItem tab other.toUInt32 with
    | none => exact Nat.le_refl _
    | some found =>
        obtain ⟨found, item⟩ := found
        by_cases hidx : found = idx
        · have hsame : item = dItem := by
            have hget := (findItem_some hother).1
            rw [hidx, hold] at hget
            exact (Option.some.inj hget).symm
          simp only [Option.map_some, hidx, if_true, hsame, hentry, hless, and_self,
            BankItem.setState, hcount, hsize]
          split_ifs <;> simp_all
        · simp [hidx]
  · unfold slotRounds
    rw [findItem_changeItem hold hplace, hself, hitem]
    simp only [Option.map_some, if_true, hentry, hless, and_self, BankItem.setState, hcount, hsize]
    split_ifs <;> simp_all

end GuildBank

namespace World

variable {T : ItemTable}

/-- Beyond the rounds left, more rounds change nothing. -/
theorem depositItemInFreeSlot_stable (se : Session) (bankTab : UInt32) (pos : ItemPos)
    {rounds more : ℕ} {w : World T} {pItem : Item T}
    (hleft : w.bank.roundsLeft bankTab pItem.entry pItem.proto.stackable < rounds)
    (hmore : rounds ≤ more) :
    depositItemInFreeSlot se bankTab pos rounds w pItem =
      depositItemInFreeSlot se bankTab pos more w pItem := by
  induction rounds generalizing more w pItem with
  | zero => omega
  | succ rounds ih =>
      obtain ⟨more, rfl⟩ : ∃ n, more = n + 1 := ⟨more - 1, by omega⟩
      simp only [depositItemInFreeSlot]
      split
      · rename_i slot idx dItem hstack
        simp only [Option.ite_none_right_eq_some] at hstack
        obtain ⟨-, -, hitem, -, -⟩ := GuildBank.unfilledStack_some hstack.2
        split
        · rfl
        · obtain ⟨new, hnew⟩ : ∃ new, new = (dItem.setCount (dItem.count +
              (dItem.maxStackSize - dItem.count))).cloneFrom w.bank.infernoBank pItem := ⟨_, rfl⟩
          have hplace : w.placeDeposit bankTab slot pItem (dItem.maxStackSize - dItem.count) false
              true = some (w.setBank (w.bank.changeItem idx new), idx) := by
            simp [placeDeposit, hitem, hnew]
          have hfewer : (w.bank.changeItem idx new).roundsLeft bankTab pItem.entry
              pItem.proto.stackable < w.bank.roundsLeft bankTab pItem.entry
                pItem.proto.stackable := by
            refine GuildBank.roundsLeft_fill new hstack.2 ?_ ?_ ?_
            · rw [hnew]
              rfl
            · simp [hnew, BankItem.cloneFrom, BankItem.setCount]
            · rw [hnew]
              rfl
          rw [hplace]
          exact congrArg (fun w => depositDone se w idx (dItem.maxStackSize - dItem.count))
            (ih (lt_of_lt_of_le hfewer (by omega)) (by omega))
      · rfl

/-- `depositRounds` rounds are enough for every deposit into free slots. -/
theorem depositItemInFreeSlot_enough (se : Session) (w : World T) (bankTab : UInt32)
    (pos : ItemPos) (pItem : Item T) {more : ℕ} (hmore : depositRounds ≤ more) :
    depositItemInFreeSlot se bankTab pos more w pItem =
      depositItemInFreeSlot se bankTab pos depositRounds w pItem :=
  (depositItemInFreeSlot_stable se bankTab pos (GuildBank.roundsLeft_lt _ _ _ _) hmore).symm

end World

end TwowCore
