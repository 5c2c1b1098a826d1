import TwowCore.Looting.Loot
import TwowCore.Looting.SetPieces

/-!
# The loot plan of a raid

The raid half of `ProcessRules482`: what the normal roll brought is counted, `Trim` cuts the plan to
`Loot.MaxItems`, `TrimNormal482` takes normal items out of the loot, and what is kept of the plan is drawn
and added.

Trim works on six counters, and the loot can only lose normal items that are not free-for-all. So the plan
may be for more than there is room for, and then `AddItem` drops what comes last. The weights are rationals
here, and a draw is a part of their sum.
-/

namespace TwowCore.Looting

/-- `SetMode`. -/
inductive SetMode where
  | none
  | mix
  | tokens
  deriving DecidableEq, Repr

/-- `RaidProfile`. -/
structure RaidProfile where
  setMode : SetMode
  setMax : ℕ
  tokenMin : ℕ
  tokenMax : ℕ
  ownMin : ℕ
  ownMax : ℕ
  deriving DecidableEq, Repr

/-- `ItemPrototype`, as far as the rules look at it. -/
structure ItemPrototype where
  itemId : ℕ
  itemClass : ℕ
  quality : ℕ
  itemSet : ℕ
  itemLevel : ℕ
  startQuest : ℕ
  lockID : ℕ
  maxCount : ℕ
  uniqueEquipped : Bool
  allowableClass : BitVec 32
  allowableRace : BitVec 32
  deriving DecidableEq, Repr

/-- The prototypes themselves. -/
structure RaidCatalogue extends Catalogue where
  proto : ℕ → Option ItemPrototype
  proto_isSome : ∀ id, (proto id).isSome = known id
  proto_itemId : ∀ id p, proto id = some p → p.itemId = id

/-- `LootCategory482`. -/
inductive LootCategory where
  | mandatory
  | set
  | own
  | normal
  deriving DecidableEq, Repr

/-- `ITEM_QUALITY_EPIC`. -/
def qualityEpic : ℕ := 4

namespace ItemPrototype

/-- `ITEM_CLASS_WEAPON` or `ITEM_CLASS_ARMOR`. -/
def isEquipment (p : ItemPrototype) : Bool := p.itemClass == 2 || p.itemClass == 4

/-- `IsFunserverNormalRaidLoot`. -/
def isFunserverNormalRaidLoot (p : ItemPrototype) : Bool := p.itemSet == 0 && p.isEquipment

/-- `IsRaidOwnItem482`. -/
def isRaidOwnItem (p : ItemPrototype) : Bool :=
  decide (qualityEpic ≤ p.quality) && p.isFunserverNormalRaidLoot

/-- `GetUnitLootMaxCopies`, 0 being no limit. -/
def maxCopies (p : ItemPrototype) : ℕ := if p.maxCount ≠ 0 ∨ p.uniqueEquipped then 1 else 0

/-- `SingleClassOf482`, 0 when it is not exactly one class. -/
def singleClassOf (p : ItemPrototype) : ℕ :=
  ((List.range' 1 12).find? fun cls => p.allowableClass == 1#32 <<< (cls - 1)).getD 0

end ItemPrototype

/-- `Classify482`. -/
def classify (mode : SetMode) (tokens : Option (List ℕ)) : Option ItemPrototype → LootCategory
  | none => .normal
  | some p =>
      if mode = .tokens ∧ tokens.any (fun ids => ids.contains p.itemId) then .set
      else if p.startQuest ≠ 0 ∨ p.itemClass = 12 then .mandatory
      else if qualityEpic ≤ p.quality ∧ p.isEquipment = false then .mandatory
      else if mode = .mix ∧ p.itemSet ≠ 0 then .set
      else if p.isRaidOwnItem then .own
      else .normal

/-- An equipped item. -/
structure WornItem where
  itemLevel : ℕ
  itemSet : ℕ

/-- A member of the group, or the owner of the loot. `atRewardDistance` also stands where nothing is
looted, and `findEquipSlot` is none for `NULL_SLOT`. -/
structure Member where
  classId : ℕ
  raceMask : BitVec 32
  inWorld : Bool
  atRewardDistance : Bool
  findEquipSlot : ItemPrototype → Option ℕ
  equipped : ℕ → Option WornItem

/-- The mask of a class. -/
def classMask (classId : ℕ) : BitVec 32 := if classId = 0 then 0 else 1#32 <<< (classId - 1)

/-- `IsSetUpgrade`. -/
def isSetUpgrade (setItemLevel equippedItemLevel setPiecesWorn : ℕ) : Bool :=
  decide (equippedItemLevel < setItemLevel + if 2 ≤ setPiecesWorn then 5 else 0)

namespace Member

/-- The pieces of a set that are worn, in the slots up to `EQUIPMENT_SLOT_END`. -/
def worn (m : Member) (itemSet : ℕ) : ℕ :=
  (List.range 19).countP fun slot => (m.equipped slot).any fun item => item.itemSet == itemSet

/-- `IsSetUpgradeFor482`. -/
def isSetUpgradeFor (m : Member) (p : ItemPrototype) : Bool :=
  if p.allowableClass &&& classMask m.classId = 0 ∨ p.allowableRace &&& m.raceMask = 0 then false
  else
    match m.findEquipSlot p with
    | none => false
    | some slot =>
        isSetUpgrade p.itemLevel ((m.equipped slot).elim 0 WornItem.itemLevel) (m.worn p.itemSet)

end Member

/-- `FunserverUnitCandidate`, with what `IsUnitLootItemAllowed` asks of its item. -/
structure UnitCandidate where
  item : LootStoreItem
  baseChance : ℚ
  mincountOrRef : ℤ
  allowedForTeam : Bool

/-- The random numbers of one draw: the part of the sum of the weights, and the count of the item. -/
structure Draw where
  roll : ℚ
  count : UInt8

/-- `MAX_RAID_SIZE`. -/
def maxRaidSize : ℕ := 40

/-- A kill in a raid: what `ProcessRules482` is called with, and its random numbers. -/
structure RaidKill where
  profile : RaidProfile
  tokens : Option (List ℕ)
  raw : List UnitCandidate
  lootOwner : Member
  group : Option (List Member)
  qualityWeight : ℕ → ℚ
  tokenRoll : ℕ → ℚ
  ownRoll : ℕ → ℚ
  draw : ℕ → Draw
  group_le : ∀ members ∈ group, members.length ≤ maxRaidSize

/-- `LootCounts`. -/
structure LootCounts where
  mandatory : ℕ
  fixedSet : ℕ
  ownMin : ℕ
  set : ℕ
  ownExtra : ℕ
  normal : ℕ
  deriving DecidableEq, Repr

/-- `Total`. -/
def LootCounts.total (counts : LootCounts) : ℕ :=
  counts.mandatory + counts.fixedSet + counts.ownMin + counts.set + counts.ownExtra + counts.normal

/-- `cut`, what is left of a part. -/
def cutPart (total limit part floor : ℕ) : ℕ :=
  if total ≤ limit ∨ part ≤ floor then part else part - min (total - limit) (part - floor)

/-- `Trim`. -/
def trimCounts (counts : LootCounts) (limit setNeed : ℕ) : LootCounts :=
  let counts := { counts with normal := cutPart counts.total limit counts.normal 0 }
  let counts := { counts with set := cutPart counts.total limit counts.set (min setNeed counts.set) }
  { counts with ownExtra := cutPart counts.total limit counts.ownExtra 0 }

/-- `RollCount`. -/
def rollCount (least most : ℕ) (chance : ℚ) (roll : ℕ → ℚ) : ℕ :=
  min least most + (List.range (most - min least most)).countP fun slot => decide (roll slot < chance)

/-- `EXTRA_CHANCE`. -/
def extraChance : ℚ := 33 / 100

/-- `DUPLICATE_FACTOR`. -/
def duplicateFactor : ℚ := 1 / 4

/-- `FunserverLootQualityIndex`. -/
def qualityIndex (quality : ℕ) : ℕ := if quality < 6 then quality else 5

/-- `FunserverUnitWeightCapped`. -/
def unitWeightCapped (baseChance qualityWeight : ℚ) (copiesSelected : ℕ) (decay : ℚ) (maxCopies : ℕ) : ℚ :=
  if maxCopies ≠ 0 ∧ maxCopies ≤ copiesSelected then 0
  else if baseChance ≤ 0 ∨ qualityWeight ≤ 0 then 0
  else baseChance * qualityWeight * decay ^ copiesSelected

/-- The first loop of `PickWeighted482`. -/
def pickDown : ℚ → List ℚ → Option ℕ
  | _, [] => none
  | roll, weight :: rest =>
      if roll - weight < 0 ∧ 0 < weight then some 0
      else (pickDown (roll - weight) rest).map (· + 1)

/-- `PickWeighted482`. -/
def pickWeighted (roll : ℚ) (weights : List ℚ) : ℕ :=
  if weights.sum ≤ 0 then weights.length
  else
    match pickDown (roll * weights.sum) weights with
    | some pick => pick
    | none =>
        -- A roll on the boundary goes to the last entry that can be drawn.
        ((List.range weights.length).reverse.find? fun i => decide (0 < weights.getD i 0)).getD
          weights.length

/-- What the draws change: the loot, the copies selected of every item, how many draws there were, and the
items `AddItem` was called with. -/
structure Rolling where
  loot : Loot
  selected : ℕ → ℕ
  rolled : ℕ
  asked : List LootStoreItem

/-- A loop that draws an item and adds it, so often, as long as some item has a weight. -/
def drawLoop {α : Type} (c : Catalogue) (draw : ℕ → Draw) (weight : α → ℕ → ℚ) (item : α → LootStoreItem)
    (pool : List α) : ℕ → Rolling → Rolling
  | 0, st => st
  | n + 1, st =>
      let weights := pool.map fun a => weight a (st.selected (item a).itemid)
      match pool[pickWeighted (draw st.rolled).roll weights]? with
      | none => st
      | some a =>
          let chosen := { item a with count := (draw st.rolled).count }
          drawLoop c draw weight item pool n
            { loot := st.loot.addItem c chosen
              selected := Function.update st.selected chosen.itemid (st.selected chosen.itemid + 1)
              rolled := st.rolled + 1
              asked := st.asked ++ [chosen] }

/-- The weight of a set piece or token. -/
def setWeight (copies : ℕ) : ℚ := unitWeightCapped 1 1 copies duplicateFactor 0

/-- One piece for every class first, as long as some are left. -/
def firstPieces : List ℕ → ℕ → List ℕ × ℕ
  | [], left => ([], left)
  | extra :: rest, left =>
      if extra ≠ 0 ∧ left ≠ 0 then
        let (given, left) := firstPieces rest (left - 1)
        (1 :: given, left)
      else
        let (given, left) := firstPieces rest left
        (0 :: given, left)

/-- Then more, up to the pieces of every class. -/
def morePieces : List ℕ → List ℕ → ℕ → List ℕ
  | extra :: rest, given :: more, left =>
      (given + min (extra - given) left) :: morePieces rest more (left - min (extra - given) left)
  | _, _, _ => []

namespace RaidKill

variable (kill : RaidKill) (c : RaidCatalogue) (loot : Loot)

/-- The category of an item. -/
def category (id : ℕ) : LootCategory := classify kill.profile.setMode kill.tokens (c.proto id)

/-- How many items of a category the loot has. -/
def count (cat : LootCategory) : ℕ :=
  loot.items.countP fun item => decide (kill.category c item.itemid = cat)

/-- A normal item that `TrimNormal482` takes out. -/
def removable (item : LootItem) : Bool :=
  decide (kill.category c item.itemid = .normal) && !item.freeforall

/-- `fixedPerClass`. -/
def fixedPerClass (cls : ℕ) : ℕ :=
  if cls = 0 then 0
  else loot.items.countP fun item => decide (kill.category c item.itemid = .set) &&
    (c.proto item.itemid).any fun p => p.singleClassOf == cls

/-- `ownTarget`. -/
def ownTarget : ℕ :=
  max (rollCount kill.profile.ownMin kill.profile.ownMax extraChance kill.ownRoll) (kill.count c loot .own)

/-- `IsUnitLootItemAllowed`. -/
def isUnitLootItemAllowed (candidate : UnitCandidate) : Bool :=
  if candidate.mincountOrRef ≤ 0 ∨ candidate.item.needsQuest ∨ candidate.item.conditionId ≠ 0 ∨
      candidate.allowedForTeam = false then false
  else (c.proto candidate.item.itemid).any fun p =>
    p.startQuest == 0 && p.itemClass != 13 && p.itemClass != 9 && p.lockID == 0

/-- The loop that collects the set pieces or tokens of the table, every one once. -/
def setItemsOf : List ℕ → List UnitCandidate → List LootStoreItem
  | _, [] => []
  | seen, candidate :: rest =>
      if isUnitLootItemAllowed c candidate = false ∨ candidate.item.itemid ∈ seen then setItemsOf seen rest
      else if kill.category c candidate.item.itemid = .set then
        candidate.item :: setItemsOf (candidate.item.itemid :: seen) rest
      else setItemsOf (candidate.item.itemid :: seen) rest

/-- `setItems`. -/
def setItems : List LootStoreItem := kill.setItemsOf c [] kill.raw

/-- `mapTokens`. -/
def mapTokens : List LootStoreItem :=
  if kill.profile.setMode = .tokens ∧ kill.setItems c = [] then
    ((kill.tokens.getD []).filter fun id => (c.proto id).isSome).map fun id => ⟨id, 0, 1, false⟩
  else []

/-- `pool`, what the tokens are drawn from. -/
def tokenPool : List LootStoreItem := kill.setItems c ++ kill.mapTokens c

/-- `present`. -/
def present : List Member :=
  match kill.group with
  | some members => members.filter fun m => m.inWorld && m.atRewardDistance
  | none => [kill.lootOwner]

/-- Some set piece of the table is an upgrade for the member. -/
def isUpgrader (m : Member) : Bool :=
  (kill.setItems c).any fun item => (c.proto item.itemid).any m.isSetUpgradeFor

/-- The classes that are present, in order. -/
def classes : List ℕ := ((kill.present.map Member.classId).dedup).insertionSort (· ≤ ·)

/-- `needs`. -/
def needs : List ClassNeed := kill.classes.map fun cls =>
  { classId := cls
    members := kill.present.countP fun m => m.classId == cls
    upgraders := kill.present.countP fun m => m.classId == cls && kill.isUpgrader c m
    fixedDrops := kill.fixedPerClass c loot cls }

/-- `mixExtra`. -/
def mixExtra : List ℕ := List.ofFn (allocateMix (kill.needs c loot).get kill.profile.setMax)

/-- `setPlanned`. -/
def setPlanned : ℕ :=
  match kill.profile.setMode with
  | .mix => (kill.mixExtra c loot).sum
  | .tokens =>
      rollCount kill.profile.tokenMin kill.profile.tokenMax extraChance kill.tokenRoll -
        kill.count c loot .set
  | .none => 0

/-- `setNeed`. -/
def setNeed : ℕ :=
  match kill.profile.setMode with
  | .mix => (kill.needs c loot).countP fun need => decide (need.fixedDrops < need.upgraders)
  | .tokens => min (kill.setPlanned c loot)
      (if kill.setItems c = [] then (kill.mapTokens c).length else (kill.setItems c).length)
  | .none => 0

/-- `counts`. -/
def counts : LootCounts where
  mandatory := kill.count c loot .mandatory
  fixedSet := kill.count c loot .set
  ownMin := min kill.profile.ownMin (kill.ownTarget c loot)
  set := kill.setPlanned c loot
  ownExtra := kill.ownTarget c loot - min kill.profile.ownMin (kill.ownTarget c loot)
  normal := kill.count c loot .normal

/-- `kept`. -/
def kept : LootCounts := trimCounts (kill.counts c loot) c.maxNrLootItems (kill.setNeed c loot)

/-- `TrimNormal482`, from this index down. -/
def trimNormal : ℕ → ℕ → Loot → Loot
  | 0, _, loot => loot
  | i + 1, count, loot =>
      if count = 0 then loot
      else if loot.items[i]?.any (kill.removable c) then trimNormal i (count - 1) (loot.trim i)
      else trimNormal i count loot

/-- The loot without the normal items that are cut. -/
def trimmed : Loot :=
  kill.trimNormal c loot.items.length ((kill.counts c loot).normal - (kill.kept c loot).normal) loot

/-- `perClass`. -/
def perClass : List ℕ :=
  if (kill.kept c loot).set < kill.setPlanned c loot then
    let (given, left) := firstPieces (kill.mixExtra c loot) (kill.kept c loot).set
    morePieces (kill.mixExtra c loot) given left
  else kill.mixExtra c loot

/-- A set piece is an upgrade for a member of the class. -/
def isUpgradeOf (cls : ℕ) (item : LootStoreItem) : Bool :=
  kill.present.any fun m => m.classId == cls && (c.proto item.itemid).any m.isSetUpgradeFor

/-- `pieces`, the set pieces of a class, upgrades first. -/
def pieces (cls : ℕ) : List LootStoreItem :=
  let own := (kill.setItems c).filter fun item =>
    (c.proto item.itemid).any fun p => decide (p.allowableClass &&& 1#32 <<< (cls - 1) ≠ 0)
  own.filter (kill.isUpgradeOf c cls) ++ own.filter fun item => !kill.isUpgradeOf c cls item

/-- The loop over the classes. -/
def addPieces : List (ClassNeed × ℕ) → Rolling → Rolling
  | [], st => st
  | (need, n) :: rest, st =>
      addPieces rest
        (drawLoop c.toCatalogue kill.draw (fun _ => setWeight) id (kill.pieces c need.classId) n st)

/-- Set pieces or tokens are added. -/
def addSet (st : Rolling) : Rolling :=
  match kill.profile.setMode with
  | .mix => kill.addPieces c ((kill.needs c loot).zip (kill.perClass c loot)) st
  | .tokens => drawLoop c.toCatalogue kill.draw (fun _ => setWeight) id (kill.tokenPool c)
      (kill.kept c loot).set st
  | .none => st

/-- `own`, the candidates for own items. -/
def ownPool : List UnitCandidate :=
  kill.raw.filter fun candidate => decide (0 < candidate.baseChance) &&
    isUnitLootItemAllowed c candidate &&
    (c.proto candidate.item.itemid).any ItemPrototype.isRaidOwnItem

/-- The weight of an own item. -/
def ownWeight (candidate : UnitCandidate) (copies : ℕ) : ℚ :=
  (c.proto candidate.item.itemid).elim 0 fun p =>
    unitWeightCapped candidate.baseChance (kill.qualityWeight (qualityIndex p.quality)) copies
      duplicateFactor p.maxCopies

/-- `ownToAdd`. -/
def ownToAdd : ℕ :=
  (kill.kept c loot).ownMin + (kill.kept c loot).ownExtra - kill.count c loot .own

/-- The loot before the draws. -/
def start : Rolling where
  loot := kill.trimmed c loot
  selected := fun id => loot.items.countP fun item => item.itemid == id
  rolled := 0
  asked := []

/-- `ProcessRules482`, for a raid. -/
def processRules : Rolling :=
  drawLoop c.toCatalogue kill.draw (kill.ownWeight c) UnitCandidate.item (kill.ownPool c)
    (kill.ownToAdd c loot) (kill.addSet c loot (kill.start c loot))

end RaidKill

end TwowCore.Looting
