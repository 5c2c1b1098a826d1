import Mathlib.Data.UInt

/-!
# Item prototypes

The part of `ItemPrototype` (`item_template`) that storage, the guild bank and trading read, the
table `ObjectMgr` keeps of them, and the two pure predicates on prototypes: which bags an item
goes into (`ItemCanGoIntoBag`) and which prototypes are bags at all.

`ItemTable` carries what `ObjectMgr::LoadItemPrototypes` establishes while loading: the entry of
a row is its key, a stack holds 1 to 255 units and a container has at most `MAX_BAG_SIZE` slots.
-/

namespace TwowCore

/-- `MAX_BAG_SIZE`, the number of slots a bag can have. -/
def maxBagSize : UInt32 := 36

/-- `MAX_ITEM_PROTO_SPELLS`. -/
def maxItemProtoSpells : Nat := 5

/-- `MAX_ENCHANTMENT_SLOT`. -/
def maxEnchantmentSlot : Nat := 7

/-- The fields of `ItemPrototype` read by the modelled functions. Class, subclass, inventory
type and bag family are the numbers of the source's enumerations. -/
structure ItemPrototype where
  itemId : UInt32
  itemClass : UInt32
  subClass : UInt32
  name : String
  quality : UInt32
  flags : UInt32
  inventoryType : UInt32
  maxCount : UInt32
  stackable : UInt32
  containerSlots : UInt32
  spellCharges : List Int32
  bonding : UInt32
  maxDurability : UInt32
  duration : UInt32
  bagFamily : UInt32
  deriving DecidableEq, Repr

namespace ItemPrototype

/-- `ITEM_CLASS_CONSUMABLE`. -/
def classConsumable : UInt32 := 0

/-- `ITEM_CLASS_CONTAINER`. -/
def classContainer : UInt32 := 1

/-- `ITEM_CLASS_QUIVER`. -/
def classQuiver : UInt32 := 11

/-- `INVTYPE_BAG`. -/
def invtypeBag : UInt32 := 18

/-- `ITEM_FLAG_CONJURED`. -/
def flagConjured : UInt32 := 0x2

/-- `BAG_FAMILY_KEYS`. -/
def bagFamilyKeys : UInt32 := 9

/-- `ItemPrototype::GetMaxStackSize`. -/
def getMaxStackSize (proto : ItemPrototype) : UInt32 := proto.stackable

/-- `ItemPrototype::IsConjuredConsumable`. -/
def isConjuredConsumable (proto : ItemPrototype) : Bool :=
  proto.itemClass == classConsumable && proto.flags &&& flagConjured != 0

/-- The test of `Item::IsBag`. -/
def isBag (proto : ItemPrototype) : Bool := proto.inventoryType == invtypeBag

/-- A plain container, as opposed to a bag reserved for one family of items. -/
def isPlainContainer (proto : ItemPrototype) : Bool :=
  proto.itemClass == classContainer && proto.subClass == 0

/-- The family of items a special bag is reserved for: soul bags, herb bags, enchanting and
engineering bags, quivers and ammo pouches. -/
def reservedFamily (bag : ItemPrototype) : Option UInt32 :=
  if bag.itemClass = classContainer then
    if bag.subClass = 1 then some 3
    else if bag.subClass = 2 then some 6
    else if bag.subClass = 3 then some 7
    else if bag.subClass = 4 then some 8
    else none
  else if bag.itemClass = classQuiver then
    if bag.subClass = 2 then some 1
    else if bag.subClass = 3 then some 2
    else none
  else none

/-- `ItemCanGoIntoBag`: anything goes into a plain container, and a special bag takes the
family it is reserved for. -/
def canGoIntoBag (proto bag : ItemPrototype) : Bool :=
  bag.isPlainContainer || bag.reservedFamily == some proto.bagFamily

end ItemPrototype

/-- A row of `ItemRandomProperties.dbc`. -/
structure ItemRandomProperties where
  id : UInt32
  enchantId : List UInt32
  nameSuffix : String
  deriving DecidableEq, Repr

/-- The prototypes known to `ObjectMgr`, with what loading them has checked, and the random
property store. -/
structure ItemTable where
  find : UInt32 → Option ItemPrototype
  randomProperties : UInt32 → Option ItemRandomProperties
  itemId_eq : ∀ {entry proto}, find entry = some proto → proto.itemId = entry
  stackable_pos : ∀ {entry proto}, find entry = some proto → 1 ≤ proto.stackable
  stackable_le : ∀ {entry proto}, find entry = some proto → proto.stackable ≤ 255
  containerSlots_le : ∀ {entry proto}, find entry = some proto → proto.containerSlots ≤ maxBagSize

/-- The table of these prototypes, each of which passes the checks of loading. -/
def ItemTable.ofList (protos : List ItemPrototype) (h : ∀ proto ∈ protos, 1 ≤ proto.stackable ∧
    proto.stackable ≤ 255 ∧ proto.containerSlots ≤ maxBagSize) : ItemTable where
  find := fun entry => protos.find? fun proto => proto.itemId = entry
  randomProperties := fun _ => none
  itemId_eq := fun hfind => by simpa using List.find?_some hfind
  stackable_pos := fun hfind => (h _ (List.mem_of_find?_eq_some hfind)).1
  stackable_le := fun hfind => (h _ (List.mem_of_find?_eq_some hfind)).2.1
  containerSlots_le := fun hfind => (h _ (List.mem_of_find?_eq_some hfind)).2.2

/-- A table without prototypes. -/
def ItemTable.empty : ItemTable := .ofList [] nofun

/-- Linen Cloth, which stacks to 20. -/
def linenCloth : ItemPrototype :=
  { itemId := 2589, itemClass := 7, subClass := 0, name := "Linen Cloth", quality := 1, flags := 0
    inventoryType := 0, maxCount := 0, stackable := 20, containerSlots := 0, spellCharges := []
    bonding := 0, maxDurability := 0, duration := 0, bagFamily := 0 }

/-- Wool Cloth, which stacks to 20 too. -/
def woolCloth : ItemPrototype := { linenCloth with itemId := 2592, name := "Wool Cloth" }

/-- The table of these two. -/
def ItemTable.cloth : ItemTable := .ofList [linenCloth, woolCloth] (by decide)

end TwowCore
