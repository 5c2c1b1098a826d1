import TwowCore.Item.Prototype

/-!
# Items

`Item` is the part of the `Item` object that storage, the guild bank, trading and auctions
read or write. An item always has a prototype: `listed` says that the prototype is the one
`ObjectMgr` returns for its entry, so `GetProto` never fails here.
-/

namespace TwowCore

/-- `InventoryResult`, restricted to the answers the modelled functions give. -/
inductive InventoryResult where
  | ok
  | itemDoesntGoToSlot
  | nonemptyBagOverOtherBag
  | itemDoesntGoIntoBag
  | cantCarryMoreOfThis
  | itemCantStack
  | itemsCantBeSwapped
  | itemNotFound
  | triedToSplitMoreThanCount
  | couldntSplitItems
  | canOnlyDoWithEmptyBags
  | dontOwnThatItem
  | alreadyLooted
  | inventoryFull
  | notInCombat
  | youAreStunned
  deriving DecidableEq, Repr

/-- `ItemUpdateState`. -/
inductive ItemUpdateState where
  | unchanged
  | changed
  | new
  | removed
  deriving DecidableEq, Repr

/-- One enchantment slot of an item. -/
structure Enchantment where
  id : UInt32
  duration : UInt32
  charges : UInt32
  deriving DecidableEq, Repr

/-- An item object. `tradeAllowed` is `CanBeTradedEvenIfSoulBound` at the current game time;
`hasGeneratedLoot` and `hasTemporaryLoot` are the two tests on the item's loot of those
names. -/
structure Item (T : ItemTable) where
  guid : UInt32
  proto : ItemPrototype
  listed : T.find proto.itemId = some proto
  count : UInt32
  ownerGuid : UInt32
  creator : UInt32
  giftCreator : UInt32
  duration : UInt32
  spellCharges : List Int32
  flags : UInt32
  enchantments : List Enchantment
  randomPropertyId : Int32
  transmogrifyId : UInt32
  durability : UInt32
  itemTextId : UInt32
  generatedLoot : Bool
  hasGeneratedLoot : Bool
  hasTemporaryLoot : Bool
  tradeAllowed : Bool
  inTrade : Bool

namespace Item

variable {T : ItemTable}

/-- `ITEM_DYNFLAG_BINDED`. -/
def dynflagBinded : UInt32 := 0x1

/-- `ITEM_DYNFLAG_BOA`. -/
def dynflagBoa : UInt32 := 0x40000

/-- `BIND_WHEN_PICKED_UP`. -/
def bindWhenPickedUp : UInt32 := 1

/-- `BIND_WHEN_EQUIPPED`. -/
def bindWhenEquipped : UInt32 := 2

/-- `BIND_QUEST_ITEM`. -/
def bindQuestItem : UInt32 := 4

/-- `BIND_ACCOUNT`. -/
def bindAccount : UInt32 := 6

/-- `Item::GetEntry`. -/
def entry (item : Item T) : UInt32 := item.proto.itemId

/-- `Item::GetMaxStackCount`. -/
def getMaxStackCount (item : Item T) : UInt32 := item.proto.getMaxStackSize

/-- The item can be a stack of `count` units. -/
def Holds (item : Item T) (count : UInt32) : Prop := 1 ≤ count ∧ count ≤ item.getMaxStackCount

instance (item : Item T) (count : UInt32) : Decidable (item.Holds count) :=
  inferInstanceAs (Decidable (_ ∧ _))

/-- `Item::IsSoulBound`. -/
def isSoulBound (item : Item T) : Bool :=
  item.flags &&& dynflagBinded != 0 || item.flags &&& dynflagBoa != 0

/-- `Item::IsBindedNotWith`. -/
def isBindedNotWith (item : Item T) (playerGuid : UInt32) : Bool :=
  if item.ownerGuid = playerGuid then false
  else if item.hasGeneratedLoot then true
  else if !item.isSoulBound || item.tradeAllowed then false
  else true

/-- `Item::IsBag`. -/
def isBag (item : Item T) : Bool := item.proto.isBag

/-- `Bag::GetBagSize`; an item that is not a bag has no slots. -/
def bagSize (item : Item T) : UInt32 :=
  if item.isBag then item.proto.containerSlots else 0

/-- `Item::CanBeMergedPartlyWith`. -/
def canBeMergedPartlyWith (item : Item T) (proto : ItemPrototype) : InventoryResult :=
  if item.entry ≠ proto.itemId then .itemCantStack
  else if proto.getMaxStackSize ≤ item.count then .itemCantStack
  else if item.hasGeneratedLoot then .alreadyLooted
  else .ok

/-- `Item::SetCount`. -/
def setCount (item : Item T) (count : UInt32) : Item T := { item with count }

/-- `Item::SetOwnerGuid`. -/
def setOwnerGuid (item : Item T) (ownerGuid : UInt32) : Item T := { item with ownerGuid }

/-- The binding `_StoreItem` applies to an item put at a position; `bagPos` says that the
position is an equipped bag's. -/
def bindOnStore (item : Item T) (bagPos : Bool) : Item T :=
  let bonding := item.proto.bonding
  let flags :=
    if bonding = bindWhenPickedUp ∨ bonding = bindQuestItem ∨
        (bonding = bindWhenEquipped ∧ bagPos = true) then
      item.flags ||| dynflagBinded
    else item.flags
  { item with flags := if bonding = bindAccount then flags ||| dynflagBoa else flags }

/-- `Item::SetItemRandomProperties`. -/
def setItemRandomProperties (item : Item T) (randomPropId : Int32) : Item T :=
  if 0 < randomPropId then
    match T.randomProperties randomPropId.toUInt32 with
    | none => item
    | some entry =>
        { item with
          randomPropertyId := entry.id.toInt32
          enchantments := item.enchantments.take 3 ++
            entry.enchantId.map (⟨·, 0, 0⟩) ++ item.enchantments.drop 6 }
  else item

/-- `Item::CreateItem` with `Item::Create`: no item of zero units or of an unknown entry is
made, and the count is cut to one stack. -/
def createItem (T : ItemTable) (guid : UInt32) (entry count ownerGuid : UInt32) :
    Option (Item T) :=
  if count < 1 then none
  else
    match h : T.find entry with
    | none => none
    | some proto =>
        some
          { guid
            proto
            listed := by rw [T.itemId_eq h, h]
            count := if proto.getMaxStackSize < count then proto.getMaxStackSize else count
            ownerGuid
            creator := 0
            giftCreator := 0
            duration := proto.duration
            spellCharges := proto.spellCharges
            flags := if proto.bonding = bindAccount then dynflagBoa else 0
            enchantments := List.replicate maxEnchantmentSlot ⟨0, 0, 0⟩
            randomPropertyId := 0
            transmogrifyId := 0
            durability := proto.maxDurability
            itemTextId := 0
            generatedLoot := false
            hasGeneratedLoot := false
            hasTemporaryLoot := false
            tradeAllowed := false
            inTrade := false }

/-- `Item::CloneItem`. -/
def cloneItem (item : Item T) (guid count ownerGuid : UInt32) : Option (Item T) :=
  (createItem T guid item.entry count ownerGuid).map fun created =>
    { created with
      creator := item.creator
      giftCreator := item.giftCreator
      flags := item.flags
      duration := item.duration
      generatedLoot := item.generatedLoot }
    |>.setItemRandomProperties item.randomPropertyId

@[simp] theorem setCount_count (item : Item T) (count : UInt32) :
    (item.setCount count).count = count := rfl

@[simp] theorem setCount_proto (item : Item T) (count : UInt32) :
    (item.setCount count).proto = item.proto := rfl

@[simp] theorem setOwnerGuid_count (item : Item T) (ownerGuid : UInt32) :
    (item.setOwnerGuid ownerGuid).count = item.count := rfl

@[simp] theorem setOwnerGuid_proto (item : Item T) (ownerGuid : UInt32) :
    (item.setOwnerGuid ownerGuid).proto = item.proto := rfl

@[simp] theorem bindOnStore_count (item : Item T) (bagPos : Bool) :
    (item.bindOnStore bagPos).count = item.count := rfl

@[simp] theorem bindOnStore_proto (item : Item T) (bagPos : Bool) :
    (item.bindOnStore bagPos).proto = item.proto := rfl

@[simp] theorem setItemRandomProperties_count (item : Item T) (randomPropId : Int32) :
    (item.setItemRandomProperties randomPropId).count = item.count := by
  unfold setItemRandomProperties
  split
  · split <;> rfl
  · rfl

@[simp] theorem setItemRandomProperties_proto (item : Item T) (randomPropId : Int32) :
    (item.setItemRandomProperties randomPropId).proto = item.proto := by
  unfold setItemRandomProperties
  split
  · split <;> rfl
  · rfl

@[simp] theorem setItemRandomProperties_guid (item : Item T) (randomPropId : Int32) :
    (item.setItemRandomProperties randomPropId).guid = item.guid := by
  unfold setItemRandomProperties
  split
  · split <;> rfl
  · rfl

/-- An item's prototype is the one listed for its entry. -/
theorem find_entry (item : Item T) : T.find item.entry = some item.proto := item.listed

/-- Items of one entry share their prototype. -/
theorem proto_eq_of_entry {left right : Item T} (h : left.entry = right.entry) :
    left.proto = right.proto := by
  have hleft := left.listed
  rw [show left.proto.itemId = right.proto.itemId from h, right.listed] at hleft
  exact (Option.some.inj hleft).symm

/-- Exactly the stacks of the prototype's entry with room left and no open loot can be merged
into. -/
theorem canBeMergedPartlyWith_ok {item : Item T} {proto : ItemPrototype} :
    item.canBeMergedPartlyWith proto = .ok ↔
      item.entry = proto.itemId ∧ item.count < proto.stackable ∧
        item.hasGeneratedLoot = false := by
  unfold canBeMergedPartlyWith ItemPrototype.getMaxStackSize
  split_ifs with hentry hfull hloot
  · simp [hentry]
  · simp only [false_iff]
    rintro ⟨-, hlt, -⟩
    exact absurd hlt (UInt32.not_lt.mpr hfull)
  · simp [hloot]
  · simp only [not_not] at hentry
    simp [hentry, UInt32.not_le.mp hfull, hloot]

/-- Whatever is created has the asked entry and one stack at most. -/
theorem createItem_some {guid entry count ownerGuid : UInt32} {item : Item T}
    (h : createItem T guid entry count ownerGuid = some item) :
    item.entry = entry ∧ 1 ≤ count ∧ item.guid = guid ∧
      item.count = if item.proto.stackable < count then item.proto.stackable else count := by
  unfold createItem at h
  split at h
  · cases h
  · rename_i hcount
    split at h
    · cases h
    · rename_i proto hfind
      cases h
      exact ⟨T.itemId_eq hfind, by simpa using UInt32.not_lt.mp hcount, rfl, rfl⟩

/-- Creation succeeds for a listed entry and at least one unit. -/
theorem createItem_isSome {entry count : UInt32} {proto : ItemPrototype} (guid ownerGuid : UInt32)
    (hfind : T.find entry = some proto) (hcount : 1 ≤ count) :
    ∃ item, createItem T guid entry count ownerGuid = some item := by
  unfold createItem
  rw [if_neg (UInt32.not_lt.mpr hcount)]
  split
  · rename_i hnone
    rw [hfind] at hnone
    cases hnone
  · exact ⟨_, rfl⟩

/-- A clone has the entry of its source and the asked guid, cut to one stack. -/
theorem cloneItem_some {item clone : Item T} {guid count ownerGuid : UInt32}
    (h : item.cloneItem guid count ownerGuid = some clone) :
    clone.proto = item.proto ∧ 1 ≤ count ∧ clone.guid = guid ∧
      clone.count = if item.proto.stackable < count then item.proto.stackable else count := by
  unfold cloneItem at h
  obtain ⟨created, hcreated, rfl⟩ := Option.map_eq_some_iff.mp h
  obtain ⟨hentry, hcount, hguid, hcreatedCount⟩ := createItem_some hcreated
  have hproto : created.proto = item.proto := proto_eq_of_entry hentry
  refine ⟨by simpa using hproto, hcount, by simpa using hguid, ?_⟩
  simpa [hproto] using hcreatedCount

/-- A stack of Linen Cloth. -/
def linen (guid count : UInt32) : Item ItemTable.cloth :=
  { guid, proto := linenCloth, listed := rfl, count, ownerGuid := 7, creator := 0, giftCreator := 0
    duration := 0, spellCharges := [], flags := 0, enchantments := [], randomPropertyId := 0
    transmogrifyId := 0, durability := 0, itemTextId := 0, generatedLoot := false
    hasGeneratedLoot := false, hasTemporaryLoot := false, tradeAllowed := false, inTrade := false }

/-- Cloning at least one unit succeeds. -/
theorem cloneItem_isSome (item : Item T) {count : UInt32} (guid ownerGuid : UInt32)
    (hcount : 1 ≤ count) :
    ∃ clone, item.cloneItem guid count ownerGuid = some clone := by
  obtain ⟨created, hcreated⟩ := createItem_isSome guid ownerGuid item.find_entry hcount
  exact ⟨_, by rw [cloneItem, hcreated]; rfl⟩

end Item

end TwowCore
