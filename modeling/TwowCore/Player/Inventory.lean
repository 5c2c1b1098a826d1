import Mathlib
import TwowCore.Item.Item

/-!
# The inventory of a player

`Player` keeps the items a character owns by position. A position is the pair of bytes the source
packs into one `uint16`: `⟨255, slot⟩` is `m_items[slot]` and `⟨bag, slot⟩` is slot `slot` of the
bag that lies in `m_items[bag]`. A bag that is not equipped can have contents too; they are in
`items`, and `getItemByPos` does not show them.

`units` counts what a player owns of one entry over all positions. It is the quantity every
conservation result of the development is about.
-/

namespace TwowCore

/-- A position in the inventory: the two bytes of the source's `uint16 pos`. -/
structure ItemPos where
  bag : UInt8
  slot : UInt8
  deriving DecidableEq, Repr, Fintype

/-- `NULL_BAG`. -/
def nullBag : UInt8 := 0

/-- `NULL_SLOT`. -/
def nullSlot : UInt8 := 255

/-- `INVENTORY_SLOT_BAG_0`, the bag number of `m_items` itself. -/
def inventorySlotBag0 : UInt8 := 255

/-- `INVENTORY_SLOT_BAG_START`. -/
def inventorySlotBagStart : UInt8 := 19

/-- `INVENTORY_SLOT_BAG_END`. -/
def inventorySlotBagEnd : UInt8 := 23

/-- `INVENTORY_SLOT_ITEM_START`, the first slot of the backpack. -/
def inventorySlotItemStart : UInt8 := 23

/-- `INVENTORY_SLOT_ITEM_END`. -/
def inventorySlotItemEnd : UInt8 := 39

/-- `BANK_SLOT_ITEM_START`. -/
def bankSlotItemStart : UInt8 := 39

/-- `BANK_SLOT_BAG_START`. -/
def bankSlotBagStart : UInt8 := 63

/-- `BANK_SLOT_BAG_END`. -/
def bankSlotBagEnd : UInt8 := 69

/-- `BUYBACK_SLOT_START`. -/
def buybackSlotStart : UInt8 := 69

/-- `BUYBACK_SLOT_END`. -/
def buybackSlotEnd : UInt8 := 81

/-- `KEYRING_SLOT_START`. -/
def keyringSlotStart : UInt8 := 81

/-- `KEYRING_SLOT_END`. -/
def keyringSlotEnd : UInt8 := 113

/-- `PLAYER_SLOT_END`. -/
def playerSlotEnd : UInt8 := 118

/-- The slots of one bag number from `first` on, `last` excluded. -/
def slotRange (bag first last : UInt8) : List ItemPos :=
  (List.range' first.toNat (last.toNat - first.toNat)).map fun slot => ⟨bag, slot.toUInt8⟩

theorem mem_slotRange {bag first last : UInt8} {pos : ItemPos} :
    pos ∈ slotRange bag first last ↔ pos.bag = bag ∧ first.toNat ≤ pos.slot.toNat ∧ pos.slot.toNat < last.toNat := by
  unfold slotRange
  rw [List.mem_map]
  constructor
  · rintro ⟨slot, hslot, rfl⟩
    have hrange := List.mem_range'_1.mp hslot
    have hbyte : slot.toUInt8.toNat = slot := by
      rw [Nat.toUInt8, UInt8.toNat_ofNat']
      exact Nat.mod_eq_of_lt (by have hlast := last.toNat_lt; omega)
    exact ⟨rfl, by rw [hbyte]; omega, by rw [hbyte]; omega⟩
  · rintro ⟨hbag, hfirst, hlast⟩
    refine ⟨pos.slot.toNat, List.mem_range'_1.mpr ⟨hfirst, by omega⟩, ?_⟩
    rw [Nat.toUInt8, UInt8.ofNat_toNat, ← hbag]

/-- The bag slots a character carries, `INVENTORY_SLOT_BAG_START` to `INVENTORY_SLOT_BAG_END`. -/
def inventoryBags : List UInt8 := [19, 20, 21, 22]

/-- The bag slots of the character's bank. -/
def bankBags : List UInt8 := [63, 64, 65, 66, 67, 68]

/-- The slot holds a bag whose contents `GetItemByPos` shows. -/
def isBagSlot (slot : UInt8) : Bool :=
  (inventorySlotBagStart ≤ slot && slot < inventorySlotBagEnd) ||
    (bankSlotBagStart ≤ slot && slot < bankSlotBagEnd)

/-- `Player::IsBagPos`. -/
def isBagPos (pos : ItemPos) : Bool :=
  pos.bag == inventorySlotBag0 && isBagSlot pos.slot

/-- The slots of `m_items` that `GetItemByPos` reads: everything but buyback. -/
def isDirectSlot (slot : UInt8) : Bool :=
  slot < bankSlotBagEnd || (keyringSlotStart ≤ slot && slot < keyringSlotEnd)

/-- Bags lie in slots that `GetItemByPos` reads. -/
theorem isDirectSlot_of_isBagSlot {slot : UInt8} (h : isBagSlot slot = true) :
    isDirectSlot slot = true := by
  simp only [isBagSlot, isDirectSlot, inventorySlotBagStart, inventorySlotBagEnd,
    bankSlotBagStart, bankSlotBagEnd, keyringSlotStart, keyringSlotEnd, Bool.or_eq_true,
    Bool.and_eq_true, decide_eq_true_eq, UInt8.lt_iff_toNat_lt, UInt8.le_iff_toNat_le,
    UInt8.reduceToNat] at h ⊢
  omega

/-- A player, as far as storage, money and trade see one. `nextItemGuid` is the next value of the
item guid generator. -/
structure Player (T : ItemTable) where
  guid : UInt32
  items : ItemPos → Option (Item T)
  money : UInt32
  nextItemGuid : UInt32

namespace Player

variable {T : ItemTable}

/-- `Player::GetItemByPos`. -/
def getItemByPos (p : Player T) (pos : ItemPos) : Option (Item T) :=
  if pos.bag = inventorySlotBag0 ∧ isDirectSlot pos.slot = true then p.items pos
  else if isBagSlot pos.bag = true then
    match p.items ⟨inventorySlotBag0, pos.bag⟩ with
    | some bag => if pos.slot.toUInt32 < bag.bagSize then p.items pos else none
    | none => none
  else none

/-- The slots of the bag lying in `m_items[bag]`, `Bag::GetBagSize` of them. -/
def bagPositions (p : Player T) (bag : UInt8) : List ItemPos :=
  match p.getItemByPos ⟨inventorySlotBag0, bag⟩ with
  | some item => (List.range item.bagSize.toNat).map fun slot => ⟨bag, slot.toUInt8⟩
  | none => []

/-- The positions `ApplyForAllItems` visits: equipment, carried bags and backpack, the keyring,
the contents of the carried bags, the bank and the contents of its bags. -/
def allPositions (p : Player T) (inBank : Bool) : List ItemPos :=
  slotRange inventorySlotBag0 0 inventorySlotItemEnd ++
    slotRange inventorySlotBag0 keyringSlotStart keyringSlotEnd ++
    inventoryBags.flatMap p.bagPositions ++
    if inBank then
      slotRange inventorySlotBag0 bankSlotItemStart bankSlotBagEnd ++
        bankBags.flatMap p.bagPositions
    else []

/-- The units of an entry at a position, the position of the skipped item apart. -/
def countAt (p : Player T) (entry : UInt32) (skipItem : Option ItemPos) (pos : ItemPos) :
    UInt32 :=
  match p.getItemByPos pos with
  | some item => if skipItem ≠ some pos ∧ item.entry = entry then item.count else 0
  | none => 0

/-- `Player::GetItemCount`. The skipped item is given by its position in this inventory, and one
that is not in it skips nothing. -/
def getItemCount (p : Player T) (entry : UInt32) (inBankAlso : Bool)
    (skipItem : Option ItemPos) : UInt32 :=
  ((p.allPositions inBankAlso).map (p.countAt entry skipItem)).sum

/-- Writes one position. -/
def setItem (p : Player T) (pos : ItemPos) (item : Option (Item T)) : Player T :=
  { p with items := Function.update p.items pos item }

/-- Sets the next value of the item guid generator. -/
def setNextItemGuid (p : Player T) (nextItemGuid : UInt32) : Player T := { p with nextItemGuid }

/-- The bag in slot `slot` of `m_items` has nothing in it. -/
def EmptyBag (p : Player T) (slot : UInt8) : Prop :=
  ∀ inner, p.items ⟨slot, inner⟩ = none

/-- Takes the item at a position out of the inventory. What lies in a bag goes with it. -/
def takeOut (p : Player T) (pos : ItemPos) : Player T :=
  { p with
    items := fun other =>
      if other = pos then none
      else if pos.bag = inventorySlotBag0 ∧ other.bag = pos.slot then none
      else p.items other }

/-- `Player::DestroyItem`. -/
def destroyItem (p : Player T) (pos : ItemPos) : Player T :=
  match p.getItemByPos pos with
  | some _ => p.takeOut pos
  | none => p

/-- `Player::RemoveItem`, which `MoveItemFromInventory` adds nothing to here. -/
def moveItemFromInventory (p : Player T) (pos : ItemPos) : Player T := p.destroyItem pos

/-- The slots of a bag are positions in it. -/
theorem bag_of_bagPositions {p : Player T} {bag : UInt8} {pos : ItemPos} (h : pos ∈ p.bagPositions bag) :
    pos.bag = bag := by
  unfold bagPositions at h
  split at h
  · obtain ⟨slot, -, rfl⟩ := List.mem_map.mp h
    rfl
  · cases h

@[simp] theorem setItem_guid (p : Player T) (pos : ItemPos) (item : Option (Item T)) :
    (p.setItem pos item).guid = p.guid := rfl

@[simp] theorem setItem_money (p : Player T) (pos : ItemPos) (item : Option (Item T)) :
    (p.setItem pos item).money = p.money := rfl

@[simp] theorem setItem_items (p : Player T) (pos : ItemPos) (item : Option (Item T)) :
    (p.setItem pos item).items = Function.update p.items pos item := rfl

@[simp] theorem setNextItemGuid_guid (p : Player T) (nextItemGuid : UInt32) :
    (p.setNextItemGuid nextItemGuid).guid = p.guid := rfl

@[simp] theorem setNextItemGuid_money (p : Player T) (nextItemGuid : UInt32) :
    (p.setNextItemGuid nextItemGuid).money = p.money := rfl

@[simp] theorem setNextItemGuid_items (p : Player T) (nextItemGuid : UInt32) :
    (p.setNextItemGuid nextItemGuid).items = p.items := rfl

@[simp] theorem destroyItem_money (p : Player T) (pos : ItemPos) :
    (p.destroyItem pos).money = p.money := by
  unfold destroyItem
  split <;> rfl

/-- An item that `GetItemByPos` shows lies at the position. -/
theorem items_of_getItemByPos {p : Player T} {pos : ItemPos} {item : Item T}
    (h : p.getItemByPos pos = some item) : p.items pos = some item := by
  unfold getItemByPos at h
  split at h
  · exact h
  · split at h
    · split at h
      · split at h
        · exact h
        · cases h
      · cases h
    · cases h

/-- Items in `m_items` are shown as they lie there. -/
theorem getItemByPos_direct (p : Player T) {slot : UInt8} (h : isDirectSlot slot = true) :
    p.getItemByPos ⟨inventorySlotBag0, slot⟩ = p.items ⟨inventorySlotBag0, slot⟩ := by
  simp [getItemByPos, h]

/-- A slot of `m_items` that shows an item is one that `GetItemByPos` reads. -/
theorem isDirectSlot_of_shown {p : Player T} {slot : UInt8} {item : Item T}
    (h : p.getItemByPos ⟨inventorySlotBag0, slot⟩ = some item) : isDirectSlot slot = true := by
  unfold getItemByPos at h
  split at h
  · rename_i hdirect
    exact hdirect.2
  · simp [isBagSlot, inventorySlotBag0, inventorySlotBagStart, inventorySlotBagEnd,
      bankSlotBagStart, bankSlotBagEnd] at h

/-- What a position shows depends on the item there and on the prototype of the bag it is in. -/
theorem getItemByPos_congr {p p' : Player T} {pos : ItemPos} (hitem : p'.items pos = p.items pos)
    (hbag : isBagSlot pos.bag = true →
      (p'.items ⟨inventorySlotBag0, pos.bag⟩).map Item.proto =
        (p.items ⟨inventorySlotBag0, pos.bag⟩).map Item.proto) :
    p'.getItemByPos pos = p.getItemByPos pos := by
  unfold getItemByPos
  rw [hitem]
  split
  · rfl
  · split
    · rename_i hslot
      have hproto := hbag hslot
      cases hold : p.items ⟨inventorySlotBag0, pos.bag⟩ with
      | none =>
          rw [hold] at hproto
          simp [Option.map_eq_none_iff.mp hproto]
      | some bag =>
          rw [hold] at hproto
          obtain ⟨bag', hbag', hsame⟩ := Option.map_eq_some_iff.mp hproto
          have hsize : bag'.bagSize = bag.bagSize := by
            unfold Item.bagSize Item.isBag
            rw [hsame]
          simp [hbag', hsize]
    · rfl

/-- A shown position shows what is written there. -/
theorem getItemByPos_setItem_self {p : Player T} {pos : ItemPos} {old : Item T}
    (h : p.getItemByPos pos = some old) (item : Item T) :
    (p.setItem pos (some item)).getItemByPos pos = some item := by
  unfold getItemByPos at h ⊢
  simp only [setItem_items, Function.update_self]
  split at h
  · rename_i hdirect
    rw [if_pos hdirect]
  · rename_i hdirect
    rw [if_neg hdirect]
    split at h
    · rename_i hslot
      have hne : (⟨inventorySlotBag0, pos.bag⟩ : ItemPos) ≠ pos := by
        intro heq
        have hbag : pos.bag = inventorySlotBag0 := by rw [← heq]
        rw [hbag] at hslot
        simp [isBagSlot, inventorySlotBag0, inventorySlotBagStart, inventorySlotBagEnd,
          bankSlotBagStart, bankSlotBagEnd] at hslot
      rw [if_pos hslot, Function.update_of_ne hne]
      split at h
      · split at h
        · rename_i hsize
          simp [hsize]
        · cases h
      · cases h
    · cases h

/-- What an occupied position adds to the units of an entry. -/
def unitsOf (entry : UInt32) : Option (Item T) → ℕ
  | some item => if item.entry = entry then item.count.toNat else 0
  | none => 0

/-- All positions there are. -/
noncomputable def everywhere : Finset ItemPos := (Set.finite_univ (α := ItemPos)).toFinset

theorem mem_everywhere (pos : ItemPos) : pos ∈ everywhere := by simp [everywhere]

/-- The units of an entry a player owns, over all positions. -/
noncomputable def units (p : Player T) (entry : UInt32) : ℕ :=
  ∑ pos ∈ everywhere, unitsOf entry (p.items pos)

@[simp] theorem unitsOf_none (entry : UInt32) : unitsOf entry (none : Option (Item T)) = 0 := rfl

/-- The units depend on the items only. -/
theorem units_congr {p p' : Player T} (h : p'.items = p.items) (entry : UInt32) :
    p'.units entry = p.units entry := by
  unfold units
  rw [h]

/-- Writing one position changes the units by the difference there. -/
theorem units_setItem (p : Player T) (pos : ItemPos) (item : Option (Item T)) (entry : UInt32) :
    (p.setItem pos item).units entry + unitsOf entry (p.items pos) =
      p.units entry + unitsOf entry item := by
  unfold units
  rw [← Finset.add_sum_erase _ _ (mem_everywhere pos),
    ← Finset.add_sum_erase everywhere (fun other => unitsOf entry (p.items other))
      (mem_everywhere pos)]
  have hrest : ∑ other ∈ everywhere.erase pos,
        unitsOf entry ((p.setItem pos item).items other) =
      ∑ other ∈ everywhere.erase pos, unitsOf entry (p.items other) := by
    refine Finset.sum_congr rfl fun other hother => ?_
    rw [setItem_items, Function.update_of_ne (Finset.ne_of_mem_erase hother)]
  rw [hrest]
  simp only [setItem_items, Function.update_self]
  omega

/-- Taking out an item that is not a filled bag is clearing its position. -/
theorem takeOut_of_empty {p : Player T} {pos : ItemPos}
    (hempty : pos.bag = inventorySlotBag0 → p.EmptyBag pos.slot) :
    p.takeOut pos = p.setItem pos none := by
  unfold takeOut setItem
  congr 1
  funext other
  by_cases hother : other = pos
  · simp [hother]
  · rw [if_neg hother, Function.update_of_ne hother]
    split
    · rename_i hinside
      have hnone := hempty hinside.1 other.slot
      rw [← hinside.2] at hnone
      exact hnone.symm
    · rfl

end Player

end TwowCore
