import TwowCore.Player.Guids

/-!
# Destroying so many units

`DestroyItemCount` searches the backpack, the keyring, the carried bags, the equipment with the slots the bags are
in, and the bank with its bags if asked to. All six searches are one loop with one counter. It takes whole stacks
as long as they are no larger than what is still missing, and what is missing from the first that is larger.

The search through the equipment passes over bags with something in them and, if asked to, over what cannot be
taken off. It asks that for whole stacks only.
-/

namespace TwowCore

/-- `ItemPrototype::CanChangeEquipStateInCombat`: relics, shields, what is held in the off hand, weapons and
projectiles. -/
def ItemPrototype.canChangeEquipStateInCombat (proto : ItemPrototype) : Bool :=
  [28, 14, 23].contains proto.inventoryType || [2, 6].contains proto.itemClass

/-- `EQUIPMENT_SLOT_START`. -/
def equipmentSlotStart : UInt8 := 0

/-- `EQUIPMENT_SLOT_END`. -/
def equipmentSlotEnd : UInt8 := 19

/-- `BANK_SLOT_ITEM_END`. -/
def bankSlotItemEnd : UInt8 := 63

/-- `Player::IsEquipmentPos`. -/
def isEquipmentPos (pos : ItemPos) : Bool :=
  pos.bag == inventorySlotBag0 &&
    (pos.slot < equipmentSlotEnd || (inventorySlotBagStart ≤ pos.slot && pos.slot < inventorySlotBagEnd))

namespace Player

variable {T : ItemTable}

/-- What can keep a player from taking off anything: `IsInCombat` and `isLogingOut` of his session. -/
structure Restraint where
  inCombat : Bool
  logingOut : Bool
  deriving DecidableEq, Repr

/-- `Bag::IsEmpty` of the bag at a position. There is nothing in a bag within a bag. -/
def bagIsEmpty (p : Player T) (pos : ItemPos) : Bool :=
  pos.bag != inventorySlotBag0 || (p.bagPositions pos.slot).all fun inner => (p.getItemByPos inner).isNone

/-- `Player::CanUnequipItem`. -/
def canUnequipItem (p : Player T) (restraint : Restraint) (pos : ItemPos) (swap : Bool) : InventoryResult :=
  if !isEquipmentPos pos && !isBagPos pos then .ok
  else
    match p.getItemByPos pos with
    | none => .ok
    | some item =>
        if item.hasTemporaryLoot then .alreadyLooted
        else if !item.proto.canChangeEquipStateInCombat && restraint.inCombat then .notInCombat
        else if restraint.logingOut then .youAreStunned
        else if !swap && item.isBag && !p.bagIsEmpty pos then .canOnlyDoWithEmptyBags
        else .ok

/-- A search: `DestroyItemCount` has returned, or goes on with `remcount` units gone. -/
inductive Scan (T : ItemTable) where
  | returned (p : Player T)
  | going (p : Player T) (remcount : UInt32)

namespace Scan

/-- Goes on with the next search unless the last has returned. -/
def andThen (s : Scan T) (next : Player T → UInt32 → Scan T) : Scan T :=
  match s with
  | returned p => returned p
  | going p remcount => next p remcount

/-- The player at the end. -/
def player : Scan T → Player T
  | returned p => p
  | going p _ => p

end Scan

/-- The body of the loops of `DestroyItemCount`; `equipment` says that it is the loop over the equipment. -/
def destroySlot (restraint : Restraint) (entry count : UInt32) (unequipCheck equipment : Bool) (pos : ItemPos)
    (p : Player T) (remcount : UInt32) : Scan T :=
  match p.getItemByPos pos with
  | none => .going p remcount
  | some item =>
      if item.entry ≠ entry ∨ item.inTrade = true then .going p remcount
      else if equipment = true ∧ item.isBag = true ∧ p.bagIsEmpty pos = false then .going p remcount
      else if item.count + remcount ≤ count then
        if equipment = true ∧ unequipCheck = true ∧ p.canUnequipItem restraint pos false ≠ .ok then
          .going p remcount
        else if count ≤ remcount + item.count then .returned (p.destroyItem pos)
        else .going (p.destroyItem pos) (remcount + item.count)
      else .returned (p.setItem pos (some (item.setCount (item.count - count + remcount))))

/-- The loop over some slots. -/
def scanSlots (body : ItemPos → Player T → UInt32 → Scan T) : List ItemPos → Player T → UInt32 → Scan T
  | [], p, remcount => .going p remcount
  | pos :: rest, p, remcount => (body pos p remcount).andThen (scanSlots body rest)

/-- The loop over some bags, with the loop over the slots of each. -/
def scanBags (body : ItemPos → Player T → UInt32 → Scan T) : List UInt8 → Player T → UInt32 → Scan T
  | [], p, remcount => .going p remcount
  | bag :: rest, p, remcount => (scanSlots body (p.bagPositions bag) p remcount).andThen (scanBags body rest)

/-- `DestroyItemCount` up to the bank. -/
def destroyCarried (p : Player T) (restraint : Restraint) (entry count : UInt32) (unequipCheck : Bool) : Scan T :=
  let body := destroySlot restraint entry count unequipCheck
  (((scanSlots (body false) (slotRange inventorySlotBag0 inventorySlotItemStart inventorySlotItemEnd) p 0).andThen
    (scanSlots (body false) (slotRange inventorySlotBag0 keyringSlotStart keyringSlotEnd))).andThen
    (scanBags (body false) inventoryBags)).andThen
    (scanSlots (body true) (slotRange inventorySlotBag0 equipmentSlotStart inventorySlotBagEnd))

/-- `Player::DestroyItemCount`. -/
def destroyItemCount (p : Player T) (restraint : Restraint) (entry count : UInt32)
    (unequipCheck checkBank : Bool) : Player T :=
  let body := destroySlot restraint entry count unequipCheck
  let carried := p.destroyCarried restraint entry count unequipCheck
  if checkBank then
    ((carried.andThen (scanSlots (body false) (slotRange inventorySlotBag0 bankSlotItemStart bankSlotItemEnd))).andThen
      (scanBags (body false) bankBags)).player
  else carried.player

/-! ## What there is to destroy -/

/-- The bag at a position is empty once the units of the entry in it are gone. -/
def bagEmptied (p : Player T) (entry : UInt32) (pos : ItemPos) : Bool :=
  pos.bag != inventorySlotBag0 || (p.bagPositions pos.slot).all fun inner =>
    (p.getItemByPos inner).all fun item => item.entry == entry && !item.inTrade

section Destroyable

variable (p : Player T) (restraint : Restraint) (entry : UInt32) (unequipCheck : Bool)

/-- The units of the entry at a position, outside trade and not in the shape of a bag with other things in it. -/
def stackAt (pos : ItemPos) : ℕ :=
  match p.getItemByPos pos with
  | some item =>
      if item.entry = entry ∧ item.inTrade = false ∧ (item.isBag = true → p.bagEmptied entry pos = true) then
        item.count.toNat
      else 0
  | none => 0

/-- What is at a position cannot be taken off, whatever may be in it, and that matters. -/
def isHeld (pos : ItemPos) : Bool := unequipCheck && p.canUnequipItem restraint pos true != .ok

/-- The units at a position that may be destroyed. -/
def destroyableAt (pos : ItemPos) : ℕ := if p.isHeld restraint unequipCheck pos then 0 else p.stackAt entry pos

/-- The units at a position that may not be, since they cannot be taken off. -/
def heldAt (pos : ItemPos) : ℕ := if p.isHeld restraint unequipCheck pos then p.stackAt entry pos else 0

/-- The units at some positions that may be destroyed. -/
def destroyableIn (positions : List ItemPos) : ℕ :=
  (positions.map (p.destroyableAt restraint entry unequipCheck)).sum

/-- The positions of what is carried, in the order they are searched in. -/
def scannedCarried : List ItemPos :=
  slotRange inventorySlotBag0 inventorySlotItemStart inventorySlotItemEnd ++
    slotRange inventorySlotBag0 keyringSlotStart keyringSlotEnd ++ inventoryBags.flatMap p.bagPositions ++
    slotRange inventorySlotBag0 equipmentSlotStart inventorySlotBagEnd

/-- The positions in the order they are searched in. -/
def scanned (checkBank : Bool) : List ItemPos :=
  p.scannedCarried ++
    if checkBank then slotRange inventorySlotBag0 bankSlotItemStart bankSlotItemEnd ++ bankBags.flatMap p.bagPositions
    else []

/-- The slots of the bank's own bags. -/
def bankBagSlots (checkBank : Bool) : List ItemPos :=
  if checkBank then slotRange inventorySlotBag0 bankSlotBagStart bankSlotBagEnd else []

/-- So many units are gone, from stacks at these positions that may be destroyed, and nothing else is different. -/
structure Loses (positions : List ItemPos) (k : ℕ) (p' : Player T) : Prop where
  units : p'.units entry + k = p.units entry
  piles : ∀ pos item, p.items pos = some item →
    p'.items pos = none ∨ ∃ n, n ≤ item.count ∧ p'.items pos = some (item.setCount n)
  others : ∀ pos, ¬(pos ∈ positions ∧ 0 < p.destroyableAt restraint entry unequipCheck pos) →
    p'.items pos = p.items pos

/-- Of the units that may be destroyed, wherever `GetItemCount` counts them, exactly `count` are gone, or all if
there are fewer. -/
def LosesExactly (count : UInt32) (checkBank : Bool) (p' : Player T) : Prop :=
  p.Loses restraint entry unequipCheck (p.allPositions checkBank)
    (min count.toNat (p.destroyableIn restraint entry unequipCheck (p.allPositions checkBank))) p'

/-- No stack that cannot be taken off is larger than what is missing when it is reached. -/
def Spares (count : UInt32) (positions : List ItemPos) : Prop :=
  ∀ before pos after, positions = before ++ pos :: after →
    count.toNat ≤ p.destroyableIn restraint entry unequipCheck before ∨
      p.destroyableIn restraint entry unequipCheck before + p.heldAt restraint entry unequipCheck pos ≤ count.toNat

/-- Stacks within their bounds, and nothing in a bag that is not in one of the slots for bags. -/
structure Kept : Prop where
  bounded : p.Bounded
  shown : ∀ pos, pos.bag ≠ inventorySlotBag0 → p.getItemByPos pos = p.items pos

end Destroyable

/-! ## The order of the search -/

section Order

/-- What is searched before a position is neither that position nor the bag it is in. -/
def Precedes (pos other : ItemPos) : Prop := pos ≠ other ∧ pos ≠ ⟨inventorySlotBag0, other.bag⟩

theorem precedes_iff {pos other : ItemPos} : Precedes pos other ↔
    (pos.bag.toNat = other.bag.toNat → pos.slot.toNat ≠ other.slot.toNat) ∧
      (pos.bag.toNat = 255 → pos.slot.toNat ≠ other.bag.toNat) := by
  have hmain : inventorySlotBag0.toNat = 255 := rfl
  obtain ⟨bag, slot⟩ := pos
  obtain ⟨bag', slot'⟩ := other
  simp only [Precedes, ne_eq, ItemPos.mk.injEq, ← UInt8.toNat_inj, hmain, not_and]

/-- A range of slots in two parts. -/
theorem slotRange_append (bag : UInt8) {first mid last : UInt8} (hfirst : first.toNat ≤ mid.toNat)
    (hlast : mid.toNat ≤ last.toNat) : slotRange bag first last = slotRange bag first mid ++ slotRange bag mid last := by
  obtain ⟨before, hbefore⟩ := Nat.exists_eq_add_of_le hfirst
  obtain ⟨after, hafter⟩ := Nat.exists_eq_add_of_le hlast
  unfold slotRange
  rw [← List.map_append, hafter, hbefore, Nat.add_sub_cancel_left, Nat.add_sub_cancel_left, List.range'_append_1,
    Nat.add_assoc, Nat.add_sub_cancel_left]

theorem nodup_slotRange (bag first last : UInt8) : (slotRange bag first last).Nodup := by
  refine (List.nodup_range' (h := Nat.one_pos)).map_on fun slot hslot slot' hslot' heq => ?_
  have hword := last.toNat_lt
  rw [List.mem_range'_1] at hslot hslot'
  have hbyte := congrArg UInt8.toNat (ItemPos.mk.inj heq).2
  simp only [Nat.toUInt8, UInt8.toNat_ofNat'] at hbyte
  omega

variable (p : Player T)

theorem bagSize_le (item : Item T) : item.bagSize.toNat ≤ 36 := by
  unfold Item.bagSize
  split
  · exact UInt32.le_iff_toNat_le.mp (T.containerSlots_le item.listed)
  · exact Nat.zero_le _

theorem nodup_bagPositions (bag : UInt8) : (p.bagPositions bag).Nodup := by
  unfold bagPositions
  split
  · next item hitem =>
      refine List.nodup_range.map_on fun slot hslot slot' hslot' heq => ?_
      have hsize := bagSize_le item
      rw [List.mem_range] at hslot hslot'
      have hbyte := congrArg UInt8.toNat (ItemPos.mk.inj heq).2
      simp only [Nat.toUInt8, UInt8.toNat_ofNat'] at hbyte
      omega
  · exact List.nodup_nil

theorem length_bagPositions_le (bag : UInt8) : (p.bagPositions bag).length ≤ 36 := by
  unfold bagPositions
  split
  · next item hitem =>
      rw [List.length_map, List.length_range]
      exact bagSize_le item
  · exact Nat.zero_le _

theorem pairwise_slotRange {first last : UInt8} :
    (slotRange inventorySlotBag0 first last).Pairwise Precedes := by
  refine (nodup_slotRange _ _ _).imp_of_mem fun {pos other} hpos hother hne => ⟨hne, fun heq => ?_⟩
  have hword := last.toNat_lt
  have hmain : inventorySlotBag0.toNat = 255 := rfl
  have hslot := (mem_slotRange.mp hpos).2.2
  rw [heq, (mem_slotRange.mp hother).1, hmain] at hslot
  omega

theorem pairwise_bags {bags : List UInt8} (hnodup : bags.Nodup) (hmain : inventorySlotBag0 ∉ bags) :
    (bags.flatMap p.bagPositions).Pairwise Precedes := by
  have hbag : ∀ bag ∈ bags, ∀ pos ∈ p.bagPositions bag, ∀ other, pos ≠ ⟨inventorySlotBag0, other⟩ := by
    intro bag hbag pos hpos other heq
    have hsame := bag_of_bagPositions hpos
    rw [heq] at hsame
    obtain rfl : inventorySlotBag0 = bag := hsame
    exact hmain hbag
  rw [List.pairwise_flatMap]
  constructor
  · intro bag hmem
    exact (nodup_bagPositions p bag).imp_of_mem fun {pos other} hpos hother hne => ⟨hne, hbag bag hmem pos hpos _⟩
  · refine hnodup.imp_of_mem fun {bag bag'} hmem hmem' hne pos hpos other hother => ⟨?_, ?_⟩
    · rintro rfl
      exact hne ((bag_of_bagPositions hpos).symm.trans (bag_of_bagPositions hother))
    · exact hbag bag hmem pos hpos _

theorem inventoryBags_of_mem {pos : ItemPos} (h : pos ∈ inventoryBags.flatMap p.bagPositions) :
    19 ≤ pos.bag.toNat ∧ pos.bag.toNat < 23 := by
  obtain ⟨bag, hbag, hpos⟩ := List.mem_flatMap.mp h
  rw [bag_of_bagPositions hpos]
  simp only [inventoryBags, List.mem_cons, List.not_mem_nil, or_false] at hbag
  rcases hbag with rfl | rfl | rfl | rfl <;> decide

theorem bankBags_of_mem {pos : ItemPos} (h : pos ∈ bankBags.flatMap p.bagPositions) :
    63 ≤ pos.bag.toNat ∧ pos.bag.toNat < 69 := by
  obtain ⟨bag, hbag, hpos⟩ := List.mem_flatMap.mp h
  rw [bag_of_bagPositions hpos]
  simp only [bankBags, List.mem_cons, List.not_mem_nil, or_false] at hbag
  rcases hbag with rfl | rfl | rfl | rfl | rfl | rfl <;> decide

theorem slots_of_mem {first last : UInt8} {pos : ItemPos} (h : pos ∈ slotRange inventorySlotBag0 first last) :
    pos.bag.toNat = 255 ∧ first.toNat ≤ pos.slot.toNat ∧ pos.slot.toNat < last.toNat := by
  obtain ⟨hbag, hfirst, hlast⟩ := mem_slotRange.mp h
  exact ⟨by rw [hbag]; rfl, hfirst, hlast⟩

/-- The numbers the searches begin and end at. -/
theorem slot_numbers : inventorySlotItemStart.toNat = 23 ∧ inventorySlotItemEnd.toNat = 39 ∧
    keyringSlotStart.toNat = 81 ∧ keyringSlotEnd.toNat = 113 ∧ equipmentSlotStart.toNat = 0 ∧
    inventorySlotBagEnd.toNat = 23 ∧ bankSlotItemStart.toNat = 39 ∧ bankSlotItemEnd.toNat = 63 := by decide

/-- Bags are searched through before they are come across themselves. -/
theorem pairwise_scanned (checkBank : Bool) : (p.scanned checkBank).Pairwise Precedes := by
  obtain ⟨hitemStart, hitemEnd, hkeyStart, hkeyEnd, hequipStart, hbagEnd, hbankStart, hbankEnd⟩ := slot_numbers
  have hbags : (inventoryBags.flatMap p.bagPositions).Pairwise Precedes := pairwise_bags p (by decide) (by decide)
  unfold scanned
  refine List.pairwise_append.mpr ⟨List.pairwise_append.mpr ⟨List.pairwise_append.mpr
    ⟨List.pairwise_append.mpr ⟨pairwise_slotRange, pairwise_slotRange, ?_⟩, hbags, ?_⟩, pairwise_slotRange, ?_⟩, ?_, ?_⟩
  · intro pos hpos other hother
    have h := slots_of_mem hpos
    have h' := slots_of_mem hother
    exact precedes_iff.mpr ⟨fun _ => by omega, fun _ => by omega⟩
  · intro pos hpos other hother
    have h' := inventoryBags_of_mem p hother
    rcases List.mem_append.mp hpos with hpos | hpos <;> have h := slots_of_mem hpos <;>
      exact precedes_iff.mpr ⟨fun _ => by omega, fun _ => by omega⟩
  · intro pos hpos other hother
    have h' := slots_of_mem hother
    rcases List.mem_append.mp hpos with hpos | hpos
    · rcases List.mem_append.mp hpos with hpos | hpos <;> have h := slots_of_mem hpos <;>
        exact precedes_iff.mpr ⟨fun _ => by omega, fun _ => by omega⟩
    · have h := inventoryBags_of_mem p hpos
      exact precedes_iff.mpr ⟨fun _ => by omega, fun _ => by omega⟩
  · cases checkBank with
    | false => exact List.Pairwise.nil
    | true =>
        refine List.pairwise_append.mpr ⟨pairwise_slotRange, pairwise_bags p (by decide) (by decide), ?_⟩
        intro pos hpos other hother
        have h := slots_of_mem hpos
        have h' := bankBags_of_mem p hother
        exact precedes_iff.mpr ⟨fun _ => by omega, fun _ => by omega⟩
  · intro pos hpos other hother
    cases checkBank with
    | false => cases hother
    | true =>
        have h' : (other.bag.toNat = 255 ∧ 39 ≤ other.slot.toNat ∧ other.slot.toNat < 63) ∨
            (63 ≤ other.bag.toNat ∧ other.bag.toNat < 69) := by
          rcases List.mem_append.mp hother with hother | hother
          · have h := slots_of_mem hother
            exact Or.inl (by omega)
          · exact Or.inr (bankBags_of_mem p hother)
        rcases List.mem_append.mp hpos with hpos | hpos
        · rcases List.mem_append.mp hpos with hpos | hpos
          · rcases List.mem_append.mp hpos with hpos | hpos <;> have h := slots_of_mem hpos <;>
              exact precedes_iff.mpr ⟨fun _ => by omega, fun _ => by omega⟩
          · have h := inventoryBags_of_mem p hpos
            exact precedes_iff.mpr ⟨fun _ => by omega, fun _ => by omega⟩
        · have h := slots_of_mem hpos
          exact precedes_iff.mpr ⟨fun _ => by omega, fun _ => by omega⟩

/-- A position is reached for the first time, before the bag it is in and after all that is in the bag it holds. -/
structure InTurn (before : List ItemPos) (pos : ItemPos) : Prop where
  fresh : pos ∉ before
  bag : (⟨inventorySlotBag0, pos.bag⟩ : ItemPos) ∉ before
  inside : pos.bag = inventorySlotBag0 → ∀ inner, inner.bag = pos.slot → p.getItemByPos inner ≠ none →
    inner ∈ before

/-- What is shown outside `m_items` lies in a bag. -/
theorem bagPositions_of_shown {inner : ItemPos} (hne : inner.bag ≠ inventorySlotBag0)
    (hshown : p.getItemByPos inner ≠ none) : isBagSlot inner.bag = true ∧ inner ∈ p.bagPositions inner.bag := by
  unfold getItemByPos at hshown
  rw [if_neg fun h => hne h.1] at hshown
  split at hshown
  · next hslot =>
      refine ⟨hslot, ?_⟩
      split at hshown
      · next bag hbag =>
          have hsize : inner.slot.toUInt32 < bag.bagSize := by
            by_contra hout
            rw [if_neg hout] at hshown
            exact hshown rfl
          unfold bagPositions
          rw [getItemByPos_direct p (isDirectSlot_of_isBagSlot hslot), hbag]
          refine List.mem_map.mpr ⟨inner.slot.toNat, List.mem_range.mpr ?_, ?_⟩
          · rw [UInt32.lt_iff_toNat_lt, UInt8.toNat_toUInt32] at hsize
            exact hsize
          · rw [Nat.toUInt8, UInt8.ofNat_toNat]
      · exact absurd rfl hshown
  · exact absurd rfl hshown

theorem isBagSlot_iff {slot : UInt8} : isBagSlot slot = true ↔
    (19 ≤ slot.toNat ∧ slot.toNat < 23) ∨ (63 ≤ slot.toNat ∧ slot.toNat < 69) := by
  simp only [isBagSlot, inventorySlotBagStart, inventorySlotBagEnd, bankSlotBagStart, bankSlotBagEnd, Bool.or_eq_true,
    Bool.and_eq_true, decide_eq_true_eq, UInt8.lt_iff_toNat_lt, UInt8.le_iff_toNat_le, UInt8.reduceToNat]

/-- The slots of `m_items` that are searched. -/
theorem slot_of_scanned {checkBank : Bool} {pos : ItemPos} (h : pos ∈ p.scanned checkBank)
    (hbag : pos.bag = inventorySlotBag0) : pos.slot.toNat < 63 ∨ (81 ≤ pos.slot.toNat ∧ pos.slot.toNat < 113) := by
  obtain ⟨hitemStart, hitemEnd, hkeyStart, hkeyEnd, hequipStart, hbagEnd, hbankStart, hbankEnd⟩ := slot_numbers
  have hmain : pos.bag.toNat = 255 := by rw [hbag]; rfl
  rcases List.mem_append.mp h with h | h
  · rcases List.mem_append.mp h with h | h
    · rcases List.mem_append.mp h with h | h
      · rcases List.mem_append.mp h with h | h <;> have hslot := slots_of_mem h <;> omega
      · have hslot := inventoryBags_of_mem p h
        omega
    · have hslot := slots_of_mem h
      omega
  · cases checkBank with
    | false => cases h
    | true =>
        rcases List.mem_append.mp h with h | h
        · have hslot := slots_of_mem h
          omega
        · have hslot := bankBags_of_mem p h
          omega

theorem inTurn_of_scanned {checkBank : Bool} {before after : List ItemPos} {pos : ItemPos}
    (h : p.scanned checkBank = before ++ pos :: after) : p.InTurn before pos := by
  have hpairwise := pairwise_scanned p checkBank
  rw [h, List.pairwise_append] at hpairwise
  obtain ⟨-, hafter, hcross⟩ := hpairwise
  refine ⟨fun hmem => (hcross _ hmem pos List.mem_cons_self).1 rfl,
    fun hmem => (hcross _ hmem pos List.mem_cons_self).2 rfl, fun hbag inner hinner hshown => ?_⟩
  have hpos : pos ∈ p.scanned checkBank := by
    rw [h]
    exact List.mem_append_right _ List.mem_cons_self
  have hslot := slot_of_scanned p hpos hbag
  have hne : inner.bag ≠ inventorySlotBag0 := by
    rw [hinner]
    intro heq
    rw [heq] at hslot
    exact absurd hslot (by decide)
  obtain ⟨hbagSlot, hmem⟩ := bagPositions_of_shown p hne hshown
  -- the bag is a carried one, which is searched through
  have hcarried : inner.bag ∈ inventoryBags := by
    rw [isBagSlot_iff, hinner] at hbagSlot
    have hrange : 19 ≤ pos.slot.toNat ∧ pos.slot.toNat < 23 := by omega
    rw [hinner, ← UInt8.ofNat_toNat (x := pos.slot)]
    revert hrange
    generalize pos.slot.toNat = slot
    rintro ⟨hfirst, hlast⟩
    interval_cases slot <;> decide
  have hscanned : inner ∈ p.scanned checkBank := by
    unfold scanned
    exact List.mem_append_left _ (List.mem_append_left _ (List.mem_append_right _
      (List.mem_flatMap.mpr ⟨inner.bag, hcarried, hmem⟩)))
  rw [h] at hscanned
  rcases List.mem_append.mp hscanned with hin | hin
  · exact hin
  · rcases List.mem_cons.mp hin with heq | hlater
    · rw [heq] at hne
      exact absurd hbag hne
    · exact absurd (by rw [hinner, ← hbag]) ((List.pairwise_cons.mp hafter).1 inner hlater).2

end Order

/-! ## One slot -/

section Slot

variable {p : Player T} {restraint : Restraint} {entry count : UInt32} {unequipCheck : Bool} {pos : ItemPos}

/-- Only equipment and bags in their slots cannot be taken off. -/
theorem canUnequipItem_plain (hequipment : isEquipmentPos pos = false) (hbag : isBagPos pos = false) (swap : Bool) :
    p.canUnequipItem restraint pos swap = .ok := by
  simp [canUnequipItem, hequipment, hbag]

theorem isDirectSlot_of_bagPositions {bag : UInt8} (h : pos ∈ p.bagPositions bag) : isDirectSlot bag = true := by
  unfold bagPositions at h
  split at h
  · next item hitem => exact isDirectSlot_of_shown hitem
  · cases h

theorem ne_main_of_isDirectSlot {slot : UInt8} (h : isDirectSlot slot = true) : slot ≠ inventorySlotBag0 := by
  rintro rfl
  exact absurd h (by decide)

/-- A bag that is not in one of the slots for bags has nothing in it. -/
theorem bagEmptied_plain (hbag : isBagPos pos = false) : p.bagEmptied entry pos = true := by
  by_cases hmain : pos.bag = inventorySlotBag0
  · unfold bagEmptied
    rw [Bool.or_eq_true, List.all_eq_true]
    refine Or.inr fun inner hinner => ?_
    have hdirect := isDirectSlot_of_bagPositions hinner
    have hsame := bag_of_bagPositions hinner
    have hnone : p.getItemByPos inner = none := by
      by_contra hshown
      have hslot := (bagPositions_of_shown p (hsame ▸ ne_main_of_isDirectSlot hdirect) hshown).1
      rw [hsame] at hslot
      simp [isBagPos, hmain, hslot] at hbag
    rw [hnone]
    rfl
  · simp [bagEmptied, hmain]

theorem stackAt_eq {item : Item T} (hitem : p.getItemByPos pos = some item) :
    p.stackAt entry pos = if item.entry = entry ∧ item.inTrade = false ∧
      (item.isBag = true → p.bagEmptied entry pos = true) then item.count.toNat else 0 := by
  unfold stackAt
  rw [hitem]

/-- What is in a bag can be taken out. -/
theorem destroyableAt_inside (hkept : p.Kept) (hbag : pos.bag ≠ inventorySlotBag0) {item : Item T}
    (hitem : p.getItemByPos pos = some item) :
    0 < p.destroyableAt restraint entry unequipCheck pos ↔ item.entry = entry ∧ item.inTrade = false := by
  have hplain : isEquipmentPos pos = false ∧ isBagPos pos = false := by simp [isEquipmentPos, isBagPos, hbag]
  have hcount := (hkept.bounded pos item (items_of_getItemByPos hitem)).1
  have hpositive : 0 < item.count.toNat := UInt32.le_iff_toNat_le.mp hcount
  unfold destroyableAt isHeld
  rw [canUnequipItem_plain hplain.1 hplain.2, stackAt_eq hitem, bagEmptied_plain hplain.2]
  simp only [bne_self_eq_false, Bool.and_false, Bool.false_eq_true, if_false, implies_true, and_true]
  split
  · next h => exact ⟨fun _ => h, fun _ => hpositive⟩
  · next h => exact ⟨fun hlt => absurd hlt (Nat.lt_irrefl 0), fun h' => absurd h' h⟩

variable (p restraint entry unequipCheck) in
/-- Everything at some positions that may be destroyed is gone, `k` units of it, and nothing else. -/
structure Gone (before : List ItemPos) (k : ℕ) (p' : Player T) : Prop where
  items : ∀ pos, p'.items pos =
    if pos ∈ before ∧ 0 < p.destroyableAt restraint entry unequipCheck pos then none else p.items pos
  units : p'.units entry + k = p.units entry
  sum : k = p.destroyableIn restraint entry unequipCheck before

variable (p restraint entry count unequipCheck) in
/-- The search has gone through some positions, and more is missing or nothing has been found. -/
structure Searched (before : List ItemPos) (p' : Player T) (remcount : UInt32) : Prop
    extends p.Gone restraint entry unequipCheck before remcount.toNat p' where
  missing : remcount.toNat < count.toNat ∨ remcount.toNat = 0

variable {before : List ItemPos} {p' : Player T} {remcount : UInt32}
  (hsearched : p.Searched restraint entry count unequipCheck before p' remcount) (hturn : p.InTurn before pos)

include hsearched hturn

theorem Searched.items_fresh : p'.items pos = p.items pos := by
  rw [hsearched.items, if_neg fun h => hturn.fresh h.1]

/-- A position whose turn it is shows what it has shown before the search. -/
theorem Searched.shown : p'.getItemByPos pos = p.getItemByPos pos :=
  getItemByPos_congr (hsearched.items_fresh hturn) fun _ => by rw [hsearched.items, if_neg fun h => hturn.bag h.1]

/-- What is left in a bag whose turn it is: everything but the units of the entry. -/
theorem Searched.inside (hkept : p.Kept) (hmain : pos.bag = inventorySlotBag0) {inner : ItemPos}
    (hinner : inner.bag = pos.slot) (hslot : pos.slot ≠ inventorySlotBag0) {item : Item T}
    (hitem : p.getItemByPos inner = some item) :
    p'.items inner = if item.entry = entry ∧ item.inTrade = false then none else p.items inner := by
  have hin : inner ∈ before := hturn.inside hmain inner hinner (by rw [hitem]; exact Option.some_ne_none item)
  rw [hsearched.items]
  refine if_congr ?_ rfl rfl
  rw [destroyableAt_inside hkept (hinner ▸ hslot) hitem]
  exact and_iff_right hin

/-- When its turn comes a bag is empty if there was nothing else in it. -/
theorem Searched.bagIsEmpty (hkept : p.Kept) : p'.bagIsEmpty pos = p.bagEmptied entry pos := by
  unfold Player.bagIsEmpty bagEmptied
  by_cases hmain : pos.bag = inventorySlotBag0
  · have hbag : (⟨inventorySlotBag0, pos.slot⟩ : ItemPos) = pos := by rw [← hmain]
    -- the bag itself has not been touched, so it has the slots it had
    have hpositions : p'.bagPositions pos.slot = p.bagPositions pos.slot := by
      unfold bagPositions
      rw [hbag, hsearched.shown hturn]
    have hsame : ∀ inner ∈ p.bagPositions pos.slot, p'.items inner = p.items inner →
        p'.getItemByPos inner = p.getItemByPos inner := by
      intro inner hinner hitems
      refine getItemByPos_congr hitems fun _ => ?_
      rw [bag_of_bagPositions hinner, hbag, hsearched.items_fresh hturn]
    rw [hpositions]
    congr 1
    rw [Bool.eq_iff_iff, List.all_eq_true, List.all_eq_true]
    refine forall₂_congr fun inner hinner => ?_
    have hslot := ne_main_of_isDirectSlot (isDirectSlot_of_bagPositions hinner)
    cases hitem : p.getItemByPos inner with
    | none =>
        have hnone : p'.getItemByPos inner = none := by
          by_contra hshown
          obtain ⟨item, hitem'⟩ := Option.ne_none_iff_exists'.mp hshown
          have hlies := items_of_getItemByPos hitem'
          have hitems : p'.items inner = p.items inner := by
            have hcases := hsearched.items inner
            split at hcases
            · rw [hcases] at hlies
              cases hlies
            · exact hcases
          rw [hsame inner hinner hitems, hitem] at hitem'
          cases hitem'
        rw [hnone]
        exact iff_of_true rfl rfl
    | some item =>
        have hinside := hsearched.inside hturn hkept hmain (bag_of_bagPositions hinner) hslot hitem
        by_cases hentry : item.entry = entry ∧ item.inTrade = false
        · rw [if_pos hentry] at hinside
          have hnone : p'.getItemByPos inner = none := by
            by_contra hshown
            obtain ⟨item', hitem'⟩ := Option.ne_none_iff_exists'.mp hshown
            rw [items_of_getItemByPos hitem'] at hinside
            cases hinside
          rw [hnone]
          exact iff_of_true rfl (by simp [hentry])
        · rw [if_neg hentry] at hinside
          rw [hsame inner hinner hinside, hitem]
          simpa using hentry
  · rw [bne_iff_ne.mpr hmain, Bool.true_or, Bool.true_or]

/-- When its turn comes nothing is left in a bag that may be destroyed. -/
theorem Searched.emptyBag (hkept : p.Kept) {item : Item T} (hitem : p.getItemByPos pos = some item)
    (hempty : item.isBag = true → p.bagEmptied entry pos = true) (hmain : pos.bag = inventorySlotBag0) :
    p'.EmptyBag pos.slot := by
  have hbag : (⟨inventorySlotBag0, pos.slot⟩ : ItemPos) = pos := by rw [← hmain]
  have hslot : pos.slot ≠ inventorySlotBag0 := ne_main_of_isDirectSlot (isDirectSlot_of_shown (hbag ▸ hitem))
  intro inner
  by_contra hleft
  have hlay : p.items ⟨pos.slot, inner⟩ ≠ none := by
    rw [hsearched.items] at hleft
    split at hleft
    · exact absurd rfl hleft
    · exact hleft
  obtain ⟨other, hother⟩ := Option.ne_none_iff_exists'.mp hlay
  have hshown : p.getItemByPos ⟨pos.slot, inner⟩ = some other := (hkept.shown _ hslot).trans hother
  have hmem := (bagPositions_of_shown p hslot (by rw [hshown]; exact Option.some_ne_none other)).2
  -- something lies in it, so it is a bag, and must have been emptied
  have hisBag : item.isBag = true := by
    by_contra hnot
    unfold bagPositions at hmem
    rw [hbag, hitem] at hmem
    simp [Item.bagSize, hnot] at hmem
  have hall := hempty hisBag
  unfold bagEmptied at hall
  rw [hmain, bne_self_eq_false, Bool.false_or, List.all_eq_true] at hall
  have hentry := hall _ hmem
  rw [hshown, Option.all_some, Bool.and_eq_true, beq_iff_eq, Bool.not_eq_true'] at hentry
  have hinside := hsearched.inside hturn hkept hmain rfl hslot hshown
  rw [if_pos hentry] at hinside
  exact hleft hinside

/-- A bag without anything in it can be taken off if it could be for all that is in it. -/
theorem Searched.canUnequipItem {item : Item T} (hitem : p.getItemByPos pos = some item)
    (hempty : item.isBag = true → p'.bagIsEmpty pos = true) :
    p'.canUnequipItem restraint pos false = p.canUnequipItem restraint pos true := by
  have hopen : (item.isBag && !p'.bagIsEmpty pos) = false := by
    cases hbag : item.isBag with
    | false => rfl
    | true => rw [hempty hbag]; rfl
  unfold Player.canUnequipItem
  rw [hsearched.shown hturn, hitem]
  simp only [Bool.not_false, Bool.true_and, Bool.not_true, Bool.false_and, hopen]

/-- What the loop does at a position whose turn it is. -/
theorem Searched.destroySlot_cases (hkept : p.Kept) {equipment : Bool}
    (hplain : equipment = false → isEquipmentPos pos = false ∧ isBagPos pos = false) :
    (p.stackAt entry pos = 0 ∧
      destroySlot restraint entry count unequipCheck equipment pos p' remcount = .going p' remcount) ∨
    ∃ item, p.getItemByPos pos = some item ∧ item.entry = entry ∧ p.stackAt entry pos = item.count.toNat ∧
      destroySlot restraint entry count unequipCheck equipment pos p' remcount =
        if item.count + remcount ≤ count then
          if p.isHeld restraint unequipCheck pos = true then .going p' remcount
          else if count ≤ remcount + item.count then .returned (p'.setItem pos none)
          else .going (p'.setItem pos none) (remcount + item.count)
        else .returned (p'.setItem pos (some (item.setCount (item.count - count + remcount)))) := by
  have hshown := hsearched.shown hturn
  unfold destroySlot
  rw [hshown]
  cases hitem : p.getItemByPos pos with
  | none => exact Or.inl ⟨by rw [stackAt, hitem], rfl⟩
  | some item =>
      simp only
      by_cases hother : item.entry ≠ entry ∨ item.inTrade = true
      · refine Or.inl ⟨?_, if_pos hother⟩
        rw [stackAt_eq hitem, if_neg]
        rintro ⟨hentry, htrade, -⟩
        rcases hother with hother | hother
        · exact hother hentry
        · rw [htrade] at hother
          cases hother
      -- a stack of the entry: what counts is whether it is a bag with other things in it
      · rw [if_neg hother]
        simp only [not_or, not_not, Bool.not_eq_true] at hother
        by_cases hempty : item.isBag = true → p.bagEmptied entry pos = true
        · have hopen : item.isBag = true → p'.bagIsEmpty pos = true := fun hbag => by
            rw [hsearched.bagIsEmpty hturn hkept, hempty hbag]
          have hdestroy : p'.destroyItem pos = p'.setItem pos none := by
            unfold destroyItem
            rw [hshown, hitem]
            exact takeOut_of_empty (hsearched.emptyBag hturn hkept hitem hempty)
          have hheld : (equipment = true ∧ unequipCheck = true ∧ p'.canUnequipItem restraint pos false ≠ .ok) ↔
              p.isHeld restraint unequipCheck pos = true := by
            rw [hsearched.canUnequipItem hturn hitem hopen, isHeld, Bool.and_eq_true, bne_iff_ne]
            refine ⟨fun h => h.2, fun h => ⟨?_, h⟩⟩
            by_contra hequipment
            obtain ⟨hplace, hbag⟩ := hplain (Bool.not_eq_true _ ▸ hequipment)
            exact h.2 (canUnequipItem_plain hplace hbag true)
          refine Or.inr ⟨item, rfl, hother.1, ?_, ?_⟩
          · rw [stackAt_eq hitem, if_pos ⟨hother.1, hother.2, hempty⟩]
          · rw [if_neg fun h => by rw [hopen h.2.1] at h; exact absurd h.2.2 (by decide), hdestroy]
            simp only [hheld]
        · refine Or.inl ⟨?_, ?_⟩
          · rw [stackAt_eq hitem, if_neg fun h => hempty h.2.2]
          · obtain ⟨hbag, hfull⟩ := Classical.not_imp.mp hempty
            have hequipment : equipment = true := by
              by_contra hnot
              exact hfull (bagEmptied_plain (hplain (Bool.not_eq_true _ ▸ hnot)).2)
            refine if_pos ⟨hequipment, hbag, ?_⟩
            rw [hsearched.bagIsEmpty hturn hkept]
            exact Bool.not_eq_true _ ▸ hfull

end Slot

/-! ## The whole search -/

section Run

variable {p : Player T} {restraint : Restraint} {entry count : UInt32} {unequipCheck : Bool} {pos : ItemPos}
  {before : List ItemPos} {p' : Player T} {k : ℕ} {item : Item T}

theorem destroyableIn_append (first second : List ItemPos) :
    p.destroyableIn restraint entry unequipCheck (first ++ second) =
      p.destroyableIn restraint entry unequipCheck first + p.destroyableIn restraint entry unequipCheck second := by
  rw [destroyableIn, List.map_append, List.sum_append, destroyableIn, destroyableIn]

theorem destroyableIn_concat (before : List ItemPos) (pos : ItemPos) :
    p.destroyableIn restraint entry unequipCheck (before ++ [pos]) =
      p.destroyableIn restraint entry unequipCheck before + p.destroyableAt restraint entry unequipCheck pos := by
  rw [destroyableIn_append]
  simp [destroyableIn]

theorem stackAt_le (hkept : p.Kept) (pos : ItemPos) : p.stackAt entry pos ≤ 255 := by
  cases hitem : p.getItemByPos pos with
  | none => simp [stackAt, hitem]
  | some item =>
      have hcount := (hkept.bounded pos item (items_of_getItemByPos hitem)).2
      have hstack : item.getMaxStackCount ≤ 255 := T.stackable_le item.listed
      rw [stackAt_eq hitem]
      split
      · exact UInt32.le_iff_toNat_le.mp (UInt32.le_trans hcount hstack)
      · exact Nat.zero_le _

theorem destroyableIn_le (hkept : p.Kept) (positions : List ItemPos) :
    p.destroyableIn restraint entry unequipCheck positions ≤ 255 * positions.length := by
  have hsum := List.sum_le_card_nsmul (positions.map (p.destroyableAt restraint entry unequipCheck)) 255 fun n hn => by
    obtain ⟨pos, -, rfl⟩ := List.mem_map.mp hn
    unfold destroyableAt
    split
    · exact Nat.zero_le _
    · exact stackAt_le hkept pos
  rw [List.length_map, smul_eq_mul, Nat.mul_comm] at hsum
  exact hsum

theorem length_bags_le (p : Player T) (bags : List UInt8) :
    (bags.flatMap p.bagPositions).length ≤ 36 * bags.length := by
  induction bags with
  | nil => exact Nat.zero_le _
  | cons bag bags ih =>
      have hbag := length_bagPositions_le p bag
      rw [List.flatMap_cons, List.length_append, List.length_cons]
      omega

theorem length_scanned_le (p : Player T) (checkBank : Bool) : (p.scanned checkBank).length ≤ 455 := by
  have hcarried : (inventoryBags.flatMap p.bagPositions).length ≤ 36 * 4 := length_bags_le p _
  have hbanked : (bankBags.flatMap p.bagPositions).length ≤ 36 * 6 := length_bags_le p _
  -- 16 + 32 + 4 * 36 + 23 slots are carried, 24 + 6 * 36 are in the bank
  have hrange : ∀ first last, (slotRange inventorySlotBag0 first last).length = last.toNat - first.toNat := by
    intro first last
    rw [slotRange, List.length_map, List.length_range']
  obtain ⟨hitemStart, hitemEnd, hkeyStart, hkeyEnd, hequipStart, hbagEnd, hbankStart, hbankEnd⟩ := slot_numbers
  unfold scanned scannedCarried
  cases checkBank <;>
    simp only [List.length_append, hrange, hitemStart, hitemEnd, hkeyStart, hkeyEnd, hequipStart, hbagEnd, hbankStart,
      hbankEnd, List.length_nil, if_true, Bool.false_eq_true, if_false] <;>
    omega

theorem Loses.mono {positions positions' : List ItemPos} (h : p.Loses restraint entry unequipCheck positions k p')
    (hsub : positions ⊆ positions') : p.Loses restraint entry unequipCheck positions' k p' where
  units := h.units
  piles := h.piles
  others pos hpos := h.others pos fun h' => hpos ⟨hsub h'.1, h'.2⟩

theorem Gone.loses (h : p.Gone restraint entry unequipCheck before k p') :
    p.Loses restraint entry unequipCheck before k p' where
  units := h.units
  piles pos item hitem := by
    rw [h.items]
    split
    · exact Or.inl rfl
    · exact Or.inr ⟨item.count, UInt32.le_refl _, hitem⟩
  others pos hpos := by rw [h.items, if_neg hpos]

/-- Nothing at the position may be destroyed. -/
theorem Gone.skip (h : p.Gone restraint entry unequipCheck before k p')
    (hnone : p.destroyableAt restraint entry unequipCheck pos = 0) :
    p.Gone restraint entry unequipCheck (before ++ [pos]) k p' where
  items other := by
    rw [h.items]
    refine if_congr ?_ rfl rfl
    rw [List.mem_append, List.mem_singleton, or_and_right]
    refine ⟨Or.inl, fun hor => hor.resolve_right ?_⟩
    rintro ⟨rfl, hpositive⟩
    omega
  units := h.units
  sum := by rw [destroyableIn_concat, hnone, Nat.add_zero, h.sum]

/-- The stack at the position is taken. -/
theorem Gone.take (h : p.Gone restraint entry unequipCheck before k p') (hfresh : pos ∉ before)
    (hitem : p.items pos = some item) (hentry : item.entry = entry) (hpositive : 0 < item.count.toNat)
    (hstack : p.destroyableAt restraint entry unequipCheck pos = item.count.toNat) :
    p.Gone restraint entry unequipCheck (before ++ [pos]) (k + item.count.toNat) (p'.setItem pos none) where
  items other := by
    rw [setItem_items]
    by_cases hother : other = pos
    · rw [hother, Function.update_self, if_pos]
      exact ⟨List.mem_append_right _ List.mem_cons_self, by omega⟩
    · rw [Function.update_of_ne hother, h.items]
      simp [hother]
  units := by
    have hunits := p'.units_setItem pos none entry
    have hlay : p'.items pos = some item := by rw [h.items, if_neg fun h' => hfresh h'.1, hitem]
    rw [hlay, unitsOf, if_pos hentry, unitsOf_none, Nat.add_zero] at hunits
    have hbefore := h.units
    omega
  sum := by rw [destroyableIn_concat, hstack, h.sum]

/-- A part of the stack at the position is taken. -/
theorem Gone.part (h : p.Gone restraint entry unequipCheck before k p') (hfresh : pos ∉ before)
    (hitem : p.items pos = some item) (hentry : item.entry = entry) {n : UInt32} {part : ℕ}
    (hpart : n.toNat + part = item.count.toNat)
    (hstack : 0 < p.destroyableAt restraint entry unequipCheck pos ∨ part = 0) :
    p.Loses restraint entry unequipCheck (before ++ [pos]) (k + part)
      (p'.setItem pos (some (item.setCount n))) where
  units := by
    have hunits := p'.units_setItem pos (some (item.setCount n)) entry
    have hlay : p'.items pos = some item := by rw [h.items, if_neg fun h' => hfresh h'.1, hitem]
    have hentry' : (item.setCount n).entry = entry := hentry
    rw [hlay, unitsOf, if_pos hentry, unitsOf, if_pos hentry', Item.setCount_count] at hunits
    have hbefore := h.units
    omega
  piles other item' hitem' := by
    rw [setItem_items]
    by_cases hother : other = pos
    · rw [hother, Function.update_self]
      rw [hother, hitem] at hitem'
      cases hitem'
      exact Or.inr ⟨n, UInt32.le_iff_toNat_le.mpr (by omega), rfl⟩
    · rw [Function.update_of_ne hother]
      exact h.loses.piles other item' hitem'
  others other hother := by
    rw [setItem_items]
    by_cases hsame : other = pos
    · -- nothing is taken here, and the stack is as it was
      have hnone : part = 0 := hstack.resolve_left fun hpositive =>
        hother ⟨List.mem_append_right _ (hsame ▸ List.mem_cons_self), hsame ▸ hpositive⟩
      have hn : n = item.count := UInt32.toNat_inj.mp (by omega)
      rw [hsame, Function.update_self, hitem, hn]
      rfl
    · rw [Function.update_of_ne hsame]
      exact h.loses.others other fun h' => hother ⟨List.mem_append_left _ h'.1, h'.2⟩

theorem spares_concat : p.Spares restraint entry unequipCheck count (before ++ [pos]) ↔
    p.Spares restraint entry unequipCheck count before ∧
      (count.toNat ≤ p.destroyableIn restraint entry unequipCheck before ∨
        p.destroyableIn restraint entry unequipCheck before + p.heldAt restraint entry unequipCheck pos ≤
          count.toNat) := by
  constructor
  · intro h
    refine ⟨fun first other rest heq => h first other (rest ++ [pos]) (by rw [heq]; simp), ?_⟩
    exact h before pos [] rfl
  · rintro ⟨hbefore, hpos⟩ first other rest heq
    rcases List.eq_nil_or_concat rest with rfl | ⟨rest', last, rfl⟩
    · obtain ⟨rfl, hsame⟩ := List.append_inj' heq rfl
      rw [← List.singleton_inj.mp hsame]
      exact hpos
    · have hcut : before ++ [pos] = (first ++ other :: rest') ++ [last] := by simpa using heq
      exact hbefore first other rest' (List.append_inj' hcut rfl).1

end Run

section Outcome

variable {p : Player T} {restraint : Restraint} {entry count : UInt32} {unequipCheck : Bool}

variable (p restraint entry count unequipCheck) in
/-- What can have become of the search through some positions. -/
inductive Outcome (searched : List ItemPos) : Scan T → Prop where
  | going {p' : Player T} {remcount : UInt32}
      (h : p.Searched restraint entry count unequipCheck searched p' remcount)
      (hspares : p.Spares restraint entry unequipCheck count searched) : Outcome searched (.going p' remcount)
  | enough {p' : Player T} (h : p.Loses restraint entry unequipCheck searched count.toNat p')
      (hcount : count.toNat ≤ p.destroyableIn restraint entry unequipCheck searched)
      (hspares : p.Spares restraint entry unequipCheck count searched) : Outcome searched (.returned p')
  | overdrawn {p' : Player T} (hspares : ¬p.Spares restraint entry unequipCheck count searched)
      (hdiffers : ∃ pos, p.destroyableAt restraint entry unequipCheck pos = 0 ∧ p'.items pos ≠ p.items pos) :
      Outcome searched (.returned p')

variable {before : List ItemPos} {pos : ItemPos}

/-- Once it has returned no position matters any more. -/
theorem Outcome.concat {p' : Player T} (h : p.Outcome restraint entry count unequipCheck before (.returned p'))
    (pos : ItemPos) : p.Outcome restraint entry count unequipCheck (before ++ [pos]) (.returned p') := by
  cases h with
  | enough h hcount hspares =>
      refine .enough (h.mono (List.subset_append_left _ _)) ?_ (spares_concat.mpr ⟨hspares, Or.inl hcount⟩)
      rw [destroyableIn_concat]
      omega
  | overdrawn hspares hdiffers => exact .overdrawn (fun h => hspares (spares_concat.mp h).1) hdiffers

theorem Outcome.append {p' : Player T} (h : p.Outcome restraint entry count unequipCheck before (.returned p'))
    (rest : List ItemPos) : p.Outcome restraint entry count unequipCheck (before ++ rest) (.returned p') := by
  induction rest generalizing before with
  | nil => rw [List.append_nil]; exact h
  | cons pos rest ih =>
      have hmore := ih (h.concat pos)
      rwa [List.append_assoc] at hmore

/-- The search ends at a stack that is larger than what is missing. -/
theorem Searched.outcome_part {p' : Player T} {remcount n : UInt32} {item : Item T}
    (h : p.Searched restraint entry count unequipCheck before p' remcount)
    (hspares : p.Spares restraint entry unequipCheck count before) (hturn : p.InTurn before pos)
    (hitem : p.items pos = some item) (hentry : item.entry = entry)
    (hstack : p.stackAt entry pos = item.count.toNat) (hlarge : count.toNat < remcount.toNat + item.count.toNat)
    (hleft : n.toNat + (count.toNat - remcount.toNat) = item.count.toNat) :
    p.Outcome restraint entry count unequipCheck (before ++ [pos])
      (.returned (p'.setItem pos (some (item.setCount n)))) := by
  have hmissing := h.missing
  have hsum := h.sum
  have hexact : remcount.toNat + (count.toNat - remcount.toNat) = count.toNat := by omega
  have hpart := fun hany => h.toGone.part hturn.fresh hitem hentry hleft hany
  rw [hexact] at hpart
  by_cases hheld : p.isHeld restraint unequipCheck pos = true
  · have hnone : p.destroyableAt restraint entry unequipCheck pos = 0 := if_pos hheld
    by_cases hlow : remcount.toNat < count.toNat
    · -- what cannot be taken off is cut all the same
      refine .overdrawn (fun hall => ?_) ⟨pos, hnone, fun heq => ?_⟩
      · have hreached := (spares_concat.mp hall).2
        rw [heldAt, if_pos hheld, hstack] at hreached
        omega
      · rw [setItem_items, Function.update_self, hitem] at heq
        have hsame := congrArg Item.count (Option.some.inj heq)
        rw [Item.setCount_count] at hsame
        rw [hsame] at hleft
        omega
    · -- no units are asked for, and the stack is left with all it had
      refine .enough (hpart (Or.inr (by omega))) ?_ (spares_concat.mpr ⟨hspares, Or.inl (by omega)⟩)
      rw [destroyableIn_concat]
      omega
  · have hfree : p.destroyableAt restraint entry unequipCheck pos = item.count.toNat := by
      rw [destroyableAt, if_neg hheld, hstack]
    refine .enough (hpart (Or.inl (by omega))) ?_ (spares_concat.mpr ⟨hspares, Or.inr ?_⟩)
    · rw [destroyableIn_concat]
      omega
    · rw [heldAt, if_neg hheld]
      omega

/-- The loop body at a position whose turn it is. -/
theorem Searched.outcome {p' : Player T} {remcount : UInt32}
    (h : p.Searched restraint entry count unequipCheck before p' remcount)
    (hspares : p.Spares restraint entry unequipCheck count before) (hkept : p.Kept) (hturn : p.InTurn before pos)
    (hlength : before.length ≤ 455) {equipment : Bool}
    (hplain : equipment = false → isEquipmentPos pos = false ∧ isBagPos pos = false) :
    p.Outcome restraint entry count unequipCheck (before ++ [pos])
      (destroySlot restraint entry count unequipCheck equipment pos p' remcount) := by
  have hmissing := h.missing
  have hsum := h.sum
  have hle : p.destroyableIn restraint entry unequipCheck before ≤ 255 * before.length := destroyableIn_le hkept before
  -- nothing is taken from a position with nothing that may be destroyed
  have hskip : p.destroyableAt restraint entry unequipCheck pos = 0 →
      remcount.toNat + p.heldAt restraint entry unequipCheck pos ≤ count.toNat →
      p.Outcome restraint entry count unequipCheck (before ++ [pos]) (.going p' remcount) := fun hnone hheld =>
    .going ⟨h.toGone.skip hnone, hmissing⟩ (spares_concat.mpr ⟨hspares, Or.inr (hsum ▸ hheld)⟩)
  rcases h.destroySlot_cases hturn hkept hplain with ⟨hstack, hresult⟩ | ⟨item, hitem, hentry, hstack, hresult⟩
  · rw [hresult]
    refine hskip ?_ ?_
    · rw [destroyableAt, hstack, ite_self]
    · rw [heldAt, hstack, ite_self]
      omega
  · have hlies := items_of_getItemByPos hitem
    have hpositive : 0 < item.count.toNat := UInt32.le_iff_toNat_le.mp (hkept.bounded pos item hlies).1
    have hstackLe : p.stackAt entry pos ≤ 255 := stackAt_le hkept pos
    -- 455 stacks of at most 255 units are far below the word size
    have hbefore : (item.count + remcount).toNat = item.count.toNat + remcount.toNat := by
      rw [UInt32.toNat_add]
      exact Nat.mod_eq_of_lt (by omega)
    have hafter : (remcount + item.count).toNat = remcount.toNat + item.count.toNat := by
      rw [UInt32.toNat_add]
      exact Nat.mod_eq_of_lt (by omega)
    rw [hresult]
    by_cases hwhole : item.count + remcount ≤ count
    · rw [if_pos hwhole]
      rw [UInt32.le_iff_toNat_le, hbefore] at hwhole
      by_cases hheld : p.isHeld restraint unequipCheck pos = true
      · rw [if_pos hheld]
        refine hskip (if_pos hheld) ?_
        rw [heldAt, if_pos hheld, hstack]
        omega
      · rw [if_neg hheld]
        have hfree : p.destroyableAt restraint entry unequipCheck pos = item.count.toNat := by
          rw [destroyableAt, if_neg hheld, hstack]
        have hheldAt : p.heldAt restraint entry unequipCheck pos = 0 := if_neg hheld
        have hspares' : p.Spares restraint entry unequipCheck count (before ++ [pos]) :=
          spares_concat.mpr ⟨hspares, Or.inr (by omega)⟩
        have htaken := h.toGone.take hturn.fresh hlies hentry hpositive hfree
        by_cases hdone : count ≤ remcount + item.count
        · rw [if_pos hdone]
          rw [UInt32.le_iff_toNat_le, hafter] at hdone
          have hexact : remcount.toNat + item.count.toNat = count.toNat := by omega
          rw [hexact] at htaken
          exact .enough htaken.loses htaken.sum.le hspares'
        · rw [if_neg hdone]
          rw [UInt32.le_iff_toNat_le, hafter] at hdone
          rw [← hafter] at htaken
          exact .going ⟨htaken, Or.inl (by omega)⟩ hspares'
    · rw [if_neg hwhole]
      rw [UInt32.le_iff_toNat_le, hbefore] at hwhole
      have hcount := count.toNat_lt
      have hleft : (item.count - count + remcount).toNat + (count.toNat - remcount.toNat) = item.count.toNat := by
        rw [UInt32.toNat_add, UInt32.toNat_sub]
        omega
      exact h.outcome_part hspares hturn hlies hentry hstack (by omega) hleft

theorem andThen_going (s : Scan T) : s.andThen .going = s := by
  cases s <;> rfl

theorem going_andThen (p : Player T) (remcount : UInt32) (next : Player T → UInt32 → Scan T) :
    (Scan.going p remcount).andThen next = next p remcount := rfl

theorem andThen_assoc (s : Scan T) (first second : Player T → UInt32 → Scan T) :
    (s.andThen first).andThen second = s.andThen fun p remcount => (first p remcount).andThen second := by
  cases s <;> rfl

variable {s : Scan T} {checkBank : Bool}

/-- The loop over some slots, after what has been searched before. -/
theorem Outcome.slots (h : p.Outcome restraint entry count unequipCheck before s) (hkept : p.Kept)
    {equipment : Bool} {rest : List ItemPos} (hscanned : before ++ rest <+: p.scanned checkBank)
    (hplain : ∀ pos ∈ rest, equipment = false → isEquipmentPos pos = false ∧ isBagPos pos = false) :
    p.Outcome restraint entry count unequipCheck (before ++ rest)
      (s.andThen (scanSlots (destroySlot restraint entry count unequipCheck equipment) rest)) := by
  induction rest generalizing before s with
  | nil =>
      rw [List.append_nil]
      exact (andThen_going s).symm ▸ h
  | cons pos rest ih =>
      obtain ⟨after, hafter⟩ := hscanned
      have hcut : p.scanned checkBank = before ++ pos :: (rest ++ after) := by rw [← hafter]; simp
      have hlength : before.length ≤ 455 := by
        have hall := length_scanned_le p checkBank
        rw [hcut, List.length_append] at hall
        omega
      have hslot : p.Outcome restraint entry count unequipCheck (before ++ [pos])
          (s.andThen (destroySlot restraint entry count unequipCheck equipment pos)) := by
        cases h with
        | going h hspares =>
            exact h.outcome hspares hkept (inTurn_of_scanned p hcut) hlength (hplain pos List.mem_cons_self)
        | enough h hcount hspares => exact (Outcome.enough h hcount hspares).concat pos
        | overdrawn hspares hdiffers => exact (Outcome.overdrawn hspares hdiffers).concat pos
      have hrest := ih hslot ⟨after, by rw [hcut]; simp⟩ fun other hother =>
        hplain other (List.mem_cons_of_mem _ hother)
      rw [List.append_assoc, List.singleton_append, andThen_assoc] at hrest
      exact hrest

/-- The loop over some bags, none of which has been searched itself. -/
theorem Outcome.bags (h : p.Outcome restraint entry count unequipCheck before s) (hkept : p.Kept)
    {bags : List UInt8} (hscanned : before ++ bags.flatMap p.bagPositions <+: p.scanned checkBank)
    (hbags : ∀ bag ∈ bags, (⟨inventorySlotBag0, bag⟩ : ItemPos) ∉ before ++ bags.flatMap p.bagPositions)
    (hmain : inventorySlotBag0 ∉ bags) :
    p.Outcome restraint entry count unequipCheck (before ++ bags.flatMap p.bagPositions)
      (s.andThen (scanBags (destroySlot restraint entry count unequipCheck false) bags)) := by
  induction bags generalizing before s with
  | nil =>
      rw [List.flatMap_nil, List.append_nil]
      exact (andThen_going s).symm ▸ h
  | cons bag bags ih =>
      rw [List.flatMap_cons, ← List.append_assoc] at hscanned hbags ⊢
      have hplain : ∀ pos ∈ p.bagPositions bag, false = false → isEquipmentPos pos = false ∧ isBagPos pos = false := by
        intro pos hpos _
        have hne : pos.bag ≠ inventorySlotBag0 := by
          rw [bag_of_bagPositions hpos]
          rintro rfl
          exact hmain List.mem_cons_self
        simp [isEquipmentPos, isBagPos, hne]
      have hbag := h.slots hkept ((List.prefix_append _ _).trans hscanned) hplain
      have hrest := ih hbag hscanned (fun other hother => hbags other (List.mem_cons_of_mem _ hother))
        fun hmem => hmain (List.mem_cons_of_mem _ hmem)
      rw [andThen_assoc] at hrest
      cases h with
      | enough h hcount hspares => exact hrest
      | overdrawn hspares hdiffers => exact hrest
      | going h hspares =>
          rename_i p' remcount
          -- the bag is as it was when the search began
          have hsame : p'.bagPositions bag = p.bagPositions bag := by
            have hitems : p'.items ⟨inventorySlotBag0, bag⟩ = p.items ⟨inventorySlotBag0, bag⟩ := by
              rw [h.items, if_neg fun h' => hbags bag List.mem_cons_self
                (List.mem_append_left _ (List.mem_append_left _ h'.1))]
            unfold bagPositions
            rw [getItemByPos_congr hitems fun hslot : isBagSlot inventorySlotBag0 = true => absurd hslot (by decide)]
          rw [going_andThen, scanBags, hsame]
          exact hrest

end Outcome

section Exact

variable {p : Player T} {restraint : Restraint} {entry count : UInt32} {unequipCheck checkBank : Bool}

/-- The slots that are neither equipment nor hold bags. -/
theorem plain_of_slots {first last : UInt8} (hrange : 23 ≤ first.toNat ∧ (last.toNat ≤ 63 ∨ 69 ≤ first.toNat)) :
    ∀ pos ∈ slotRange inventorySlotBag0 first last, false = false →
      isEquipmentPos pos = false ∧ isBagPos pos = false := by
  intro pos hpos _
  obtain ⟨-, hfirst, hlast⟩ := mem_slotRange.mp hpos
  have hbag : isBagSlot pos.slot = false := by
    rw [Bool.eq_false_iff, ne_eq, isBagSlot_iff]
    omega
  refine ⟨?_, by rw [isBagPos, hbag, Bool.and_false]⟩
  rw [Bool.eq_false_iff]
  simp only [isEquipmentPos, equipmentSlotEnd, inventorySlotBagStart, inventorySlotBagEnd, ne_eq, Bool.and_eq_true,
    Bool.or_eq_true, beq_iff_eq, decide_eq_true_eq, UInt8.lt_iff_toNat_lt, UInt8.le_iff_toNat_le, UInt8.reduceToNat]
  omega

/-- A bag that is carried is not among the slots before the equipment. -/
theorem bag_not_searched {bag : UInt8} (hbag : 19 ≤ bag.toNat ∧ bag.toNat < 23) :
    (⟨inventorySlotBag0, bag⟩ : ItemPos) ∉
      slotRange inventorySlotBag0 inventorySlotItemStart inventorySlotItemEnd ++
        slotRange inventorySlotBag0 keyringSlotStart keyringSlotEnd ++ inventoryBags.flatMap p.bagPositions := by
  obtain ⟨hitemStart, hitemEnd, hkeyStart, hkeyEnd, -⟩ := slot_numbers
  have hmain : inventorySlotBag0.toNat = 255 := rfl
  intro hmem
  rcases List.mem_append.mp hmem with hmem | hmem
  · rcases List.mem_append.mp hmem with hmem | hmem <;> have hslot := (slots_of_mem hmem).2 <;>
      simp only at hslot <;> omega
  · have hinside : 19 ≤ inventorySlotBag0.toNat ∧ inventorySlotBag0.toNat < 23 := inventoryBags_of_mem p hmem
    omega

variable (restraint entry count unequipCheck) in
/-- What becomes of the search through all that is carried. -/
theorem outcome_carried (hkept : p.Kept) (checkBank : Bool) :
    p.Outcome restraint entry count unequipCheck p.scannedCarried
      (p.destroyCarried restraint entry count unequipCheck) := by
  have hstart : p.Outcome restraint entry count unequipCheck [] (.going p 0) :=
    .going ⟨⟨by simp, by simp, rfl⟩, Or.inr rfl⟩ fun before pos after heq => by simp at heq
  have hcarried : ∀ bag ∈ inventoryBags, 19 ≤ bag.toNat ∧ bag.toNat < 23 := by decide +kernel
  -- what is searched at each point begins what is searched in all
  have hbegins4 : p.scannedCarried <+: p.scanned checkBank := List.prefix_append _ _
  have hbegins3 := (List.prefix_append _ _).trans hbegins4
  have hbegins2 := (List.prefix_append _ _).trans hbegins3
  have hbegins1 := (List.prefix_append _ _).trans hbegins2
  rw [← List.nil_append (slotRange _ inventorySlotItemStart _)] at hbegins1
  have hbackpack := hstart.slots hkept hbegins1 (plain_of_slots (by decide))
  rw [List.nil_append, going_andThen] at hbackpack
  have hkeyring := hbackpack.slots hkept hbegins2 (plain_of_slots (by decide))
  have hbags := hkeyring.bags hkept hbegins3 (fun bag hbag => bag_not_searched (hcarried bag hbag)) (by decide)
  exact hbags.slots hkept hbegins4 fun pos hpos hfalse => absurd hfalse (by decide)

variable (restraint entry count unequipCheck checkBank) in
/-- What becomes of the whole search. -/
theorem destroyItemCount_outcome (hkept : p.Kept) :
    ∃ s : Scan T, p.destroyItemCount restraint entry count unequipCheck checkBank = s.player ∧
      p.Outcome restraint entry count unequipCheck (p.scanned checkBank) s := by
  have hcarried := outcome_carried restraint entry count unequipCheck hkept checkBank
  cases checkBank with
  | false =>
      refine ⟨_, rfl, ?_⟩
      rw [scanned, if_neg Bool.false_ne_true, List.append_nil]
      exact hcarried
  | true =>
      have hbanked : ∀ bag ∈ bankBags, 63 ≤ bag.toNat ∧ bag.toNat < 69 := by decide +kernel
      have hscanned : p.scanned true = p.scannedCarried ++
          slotRange inventorySlotBag0 bankSlotItemStart bankSlotItemEnd ++ bankBags.flatMap p.bagPositions :=
        (List.append_assoc _ _ _).symm
      have hbegins2 : p.scannedCarried ++ slotRange inventorySlotBag0 bankSlotItemStart bankSlotItemEnd ++
          bankBags.flatMap p.bagPositions <+:
          p.scanned true := by rw [hscanned]
      have hbegins1 := (List.prefix_append _ _).trans hbegins2
      have hbank := hcarried.slots hkept hbegins1 (plain_of_slots (by decide))
      have hbags := hbank.bags hkept hbegins2 (fun bag hbag hmem => by
        have hslot := slot_of_scanned p (hscanned ▸ hmem) rfl
        have hrange := hbanked bag hbag
        simp only at hslot
        omega) (by decide)
      refine ⟨_, rfl, ?_⟩
      rw [hscanned]
      exact hbags

variable (restraint entry count unequipCheck checkBank) in
/-- What the search takes: what it should of the positions it goes through, or, where it has come to a stack that
cannot be taken off and is larger than what is missing, something else. -/
theorem destroyItemCount_cases (hkept : p.Kept) :
    (p.Spares restraint entry unequipCheck count (p.scanned checkBank) ∧
      p.Loses restraint entry unequipCheck (p.scanned checkBank)
        (min count.toNat (p.destroyableIn restraint entry unequipCheck (p.scanned checkBank)))
        (p.destroyItemCount restraint entry count unequipCheck checkBank)) ∨
    (¬p.Spares restraint entry unequipCheck count (p.scanned checkBank) ∧
      ∃ pos, p.destroyableAt restraint entry unequipCheck pos = 0 ∧
        (p.destroyItemCount restraint entry count unequipCheck checkBank).items pos ≠ p.items pos) := by
  obtain ⟨s, hplayer, houtcome⟩ :=
    destroyItemCount_outcome restraint entry count unequipCheck checkBank hkept
  rw [hplayer]
  cases houtcome with
  | going h hspares =>
      have hmissing := h.missing
      have hsum := h.sum
      refine Or.inl ⟨hspares, ?_⟩
      rw [min_eq_right (by omega), ← hsum]
      exact h.toGone.loses
  | enough h hcount hspares =>
      refine Or.inl ⟨hspares, ?_⟩
      rw [min_eq_left hcount]
      exact h
  | overdrawn hspares hdiffers => exact Or.inr ⟨hspares, hdiffers⟩

/-- Only the slots of the bank's own bags are not searched. -/
theorem allPositions_perm (p : Player T) (checkBank : Bool) :
    (p.allPositions checkBank).Perm (p.scanned checkBank ++ bankBagSlots checkBank) := by
  have hcarried : slotRange inventorySlotBag0 0 inventorySlotItemEnd =
      slotRange inventorySlotBag0 equipmentSlotStart inventorySlotBagEnd ++
        slotRange inventorySlotBag0 inventorySlotItemStart inventorySlotItemEnd :=
    slotRange_append _ (by decide) (by decide)
  have hbanked : slotRange inventorySlotBag0 bankSlotItemStart bankSlotBagEnd =
      slotRange inventorySlotBag0 bankSlotItemStart bankSlotItemEnd ++
        slotRange inventorySlotBag0 bankSlotBagStart bankSlotBagEnd :=
    slotRange_append _ (by decide) (by decide)
  refine List.perm_iff_count.mpr fun pos => ?_
  unfold allPositions scanned scannedCarried bankBagSlots
  rw [hcarried, hbanked]
  cases checkBank <;> simp only [List.count_append, List.count_nil, if_true, Bool.false_eq_true, if_false] <;> omega

/-- Where stacks are within their bounds and nothing lies in a bag that is in none of the slots for bags, exactly
`count` units are destroyed, or all if there are fewer, if and only if no stack that cannot be taken off is larger
than what is missing when it is reached, and the bank's own bag slots either hold nothing to destroy or are not
needed. -/
theorem destroyItemCount_exact_iff (p : Player T) (restraint : Restraint) (entry count : UInt32)
    (unequipCheck checkBank : Bool) (hkept : p.Kept) :
    p.LosesExactly restraint entry unequipCheck count checkBank
        (p.destroyItemCount restraint entry count unequipCheck checkBank) ↔
      p.Spares restraint entry unequipCheck count (p.scanned checkBank) ∧
        (count.toNat ≤ p.destroyableIn restraint entry unequipCheck (p.scanned checkBank) ∨
          p.destroyableIn restraint entry unequipCheck (bankBagSlots checkBank) = 0) := by
  have hperm := allPositions_perm p checkBank
  have hall : p.destroyableIn restraint entry unequipCheck (p.allPositions checkBank) =
      p.destroyableIn restraint entry unequipCheck (p.scanned checkBank) +
        p.destroyableIn restraint entry unequipCheck (bankBagSlots checkBank) := by
    rw [← destroyableIn_append]
    exact (hperm.map _).sum_eq
  have hsub : p.scanned checkBank ⊆ p.allPositions checkBank := fun pos hpos =>
    hperm.symm.subset (List.mem_append_left _ hpos)
  -- the searches take what is right for the positions they go through, so only the other positions matter
  unfold LosesExactly
  rcases destroyItemCount_cases restraint entry count unequipCheck checkBank hkept with
    ⟨hspares, hloses⟩ | ⟨hspares, pos, hnone, hdiffers⟩
  · have hunits := hloses.units
    rw [hall]
    constructor
    · intro h
      have hclaimed := h.units
      exact ⟨hspares, by omega⟩
    · rintro ⟨-, hreached⟩
      have hsame : min count.toNat (p.destroyableIn restraint entry unequipCheck (p.scanned checkBank) +
          p.destroyableIn restraint entry unequipCheck (bankBagSlots checkBank)) =
          min count.toNat (p.destroyableIn restraint entry unequipCheck (p.scanned checkBank)) := by omega
      rw [hsame]
      exact hloses.mono hsub
  · refine iff_of_false (fun h => hdiffers ?_) fun h => hspares h.1
    exact h.others pos fun hpos => by omega

end Exact

/-! ## A stack of throwing axes -/

section Example

/-- Crude Throwing Axes, which are thrown and stack to 200. -/
def throwingAxe : ItemPrototype :=
  { itemId := 3111, itemClass := 2, subClass := 16, name := "Crude Throwing Axe", quality := 1, flags := 0
    inventoryType := 25, maxCount := 0, stackable := 200, containerSlots := 0, spellCharges := []
    bonding := 0, maxDurability := 0, duration := 0, bagFamily := 0 }

/-- The table of these. -/
def ItemTable.thrown : ItemTable := .ofList [throwingAxe] (by decide)

/-- A hundred of them. -/
def axes : Item ItemTable.thrown :=
  { guid := 500, proto := throwingAxe, listed := rfl, count := 100, ownerGuid := 7, creator := 0, giftCreator := 0
    duration := 0, spellCharges := [], flags := 0, enchantments := [], randomPropertyId := 0
    transmogrifyId := 0, durability := 0, itemTextId := 0, generatedLoot := false
    hasGeneratedLoot := false, hasTemporaryLoot := false, tradeAllowed := false, inTrade := false }

/-- A character who has them and nothing else, in one slot. -/
def thrower (slot : UInt8) : Player ItemTable.thrown :=
  ⟨7, fun pos => if pos = ⟨255, slot⟩ then some axes else none, 0, 1000⟩

theorem items_thrower {slot : UInt8} {pos : ItemPos} (h : pos ≠ ⟨255, slot⟩) : (thrower slot).items pos = none :=
  if_neg h

theorem thrower_kept (slot : UInt8) : (thrower slot).Kept where
  bounded pos item hitem := by
    by_cases hpos : pos = ⟨255, slot⟩
    · rw [thrower, hpos] at hitem
      simp only [if_true] at hitem
      obtain rfl := Option.some.inj hitem
      decide
    · rw [items_thrower hpos] at hitem
      cases hitem
  shown pos hpos := by
    have hnone : (thrower slot).items pos = none := items_thrower fun heq => hpos (by rw [heq]; rfl)
    rw [hnone]
    cases hshown : (thrower slot).getItemByPos pos with
    | none => rfl
    | some item =>
        rw [items_of_getItemByPos hshown] at hnone
        cases hnone

theorem stackAt_thrower {slot : UInt8} {pos : ItemPos} (h : pos ≠ ⟨255, slot⟩) :
    (thrower slot).stackAt 3111 pos = 0 := by
  cases hshown : (thrower slot).getItemByPos pos with
  | none => rw [stackAt, hshown]
  | some item =>
      have hlies := items_of_getItemByPos hshown
      rw [items_thrower h] at hlies
      cases hlies

/-- Of a hundred axes in the backpack five are destroyed. -/
theorem destroyItemCount_exact_backpack :
    (thrower 23).LosesExactly ⟨false, true⟩ 3111 true 5 false
      ((thrower 23).destroyItemCount ⟨false, true⟩ 3111 5 true false) := by
  refine (destroyItemCount_exact_iff (thrower 23) ⟨false, true⟩ 3111 5 true false (thrower_kept 23)).mpr
    ⟨fun before pos after _ => ?_, Or.inr rfl⟩
  have hheld : (thrower 23).heldAt ⟨false, true⟩ 3111 true pos = 0 := by
    by_cases hpos : pos = ⟨255, 23⟩
    · subst hpos
      decide
    · rw [heldAt, stackAt_thrower hpos, ite_self]
  rw [hheld]
  exact Nat.le_total _ _

/-- Axes in hand cannot be taken off while the player logs out, and there are no others, but five of them are
destroyed. -/
theorem destroys_held :
    ¬ ∀ (T : ItemTable) (p : Player T) (restraint : Restraint) (entry count : UInt32) (unequipCheck checkBank : Bool),
      p.Kept → p.LosesExactly restraint entry unequipCheck count checkBank
        (p.destroyItemCount restraint entry count unequipCheck checkBank) := by
  intro hall
  have hexact := hall _ (thrower 17) ⟨false, true⟩ 3111 5 true false (thrower_kept 17)
  have hnone : ∀ pos, (thrower 17).destroyableAt ⟨false, true⟩ 3111 true pos = 0 := by
    intro pos
    by_cases hpos : pos = ⟨255, 17⟩
    · subst hpos
      decide
    · rw [destroyableAt, stackAt_thrower hpos, ite_self]
  rcases destroyItemCount_cases ⟨false, true⟩ 3111 5 true false (thrower_kept 17) with
    ⟨hspares, -⟩ | ⟨-, pos, -, hdiffers⟩
  · have hmem : (⟨255, 17⟩ : ItemPos) ∈ (thrower 17).scanned false := by
      refine List.mem_append_left _ (List.mem_append_right _ (mem_slotRange.mpr ?_))
      decide
    obtain ⟨before, after, hsplit⟩ := List.append_of_mem hmem
    have hbefore : (thrower 17).destroyableIn ⟨false, true⟩ 3111 true before = 0 :=
      List.sum_eq_zero fun n hn => by
        obtain ⟨pos, -, rfl⟩ := List.mem_map.mp hn
        exact hnone pos
    have hheld : (thrower 17).heldAt ⟨false, true⟩ 3111 true ⟨255, 17⟩ = 100 := by decide
    have hcount : (5 : UInt32).toNat = 5 := rfl
    have hreached := hspares before ⟨255, 17⟩ after hsplit
    rw [hbefore, hheld, hcount] at hreached
    omega
  · exact hdiffers (hexact.others pos fun hpos => by rw [hnone pos] at hpos; omega)

end Example

end Player

end TwowCore
