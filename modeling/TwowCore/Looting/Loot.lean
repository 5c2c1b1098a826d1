import TwowCore.Lib.Keyed
import TwowCore.Lib.Run

/-!
# Loot

`Loot` with the items of a corpse or chest, its per-player lists and its counter of unlooted items,
and what fills it and hands it out: `FillLoot`, `FillNotNormalLootFor`, `LootItemInSlot`,
`HandleAutostoreLootItemOpcode`, `HandleLootMasterGiveOpcode`, the rolls and the refill from the
overflow.

Whether an item has been taken stands in `is_looted` of the item, in the lists of the players and in
the count of the item, and each path asks another of them. `stored` keeps what went into an
inventory. Every item has the number under which it was added, so that it is still known after it
has moved to another slot.
-/

namespace TwowCore.Looting

/-- `MAX_NR_LOOT_CLIENT_SLOTS`. -/
def maxNrLootClientSlots : ℕ := 16

/-- `MAX_NR_QUEST_ITEMS`. -/
def maxNrQuestItems : ℕ := 32

/-- `MAX_NR_LOOT_ITEMS_HARD`. -/
def maxNrLootItemsHard : ℕ := 32

/-- What the prototypes and the configuration say: which entries have a prototype, which of them are
`ITEM_FLAG_PARTY_LOOT`, and `MAX_NR_LOOT_ITEMS`. -/
structure Catalogue where
  known : ℕ → Bool
  partyLoot : ℕ → Bool
  maxNrLootItems : ℕ
  maxNrLootItems_le : maxNrLootItems ≤ maxNrLootItemsHard

/-- `LootStoreItem`, when its count is drawn. -/
structure LootStoreItem where
  itemid : ℕ
  conditionId : ℕ
  count : UInt8
  needsQuest : Bool
  deriving DecidableEq, Repr

/-- `LootItem`. The roll winner whose inventory was full is `lootOwner`, 0 being none. -/
structure LootItem where
  number : ℕ
  itemid : ℕ
  conditionId : ℕ
  count : UInt8
  isLooted : Bool
  isBlocked : Bool
  freeforall : Bool
  isUnderthreshold : Bool
  isCounted : Bool
  needsQuest : Bool
  lootOwner : ℕ
  deriving DecidableEq, Repr

/-- `QuestItem`. -/
structure QuestItem where
  index : ℕ
  isLooted : Bool
  deriving DecidableEq, Repr

/-- `QuestItemMap`: the lists of the players. -/
abbrev QuestItemMap := List (ℕ × List QuestItem)

/-- `Loot`. -/
structure Loot where
  items : List LootItem
  overflowItems : List LootItem
  questItems : List LootItem
  gold : ℕ
  unlootedCount : UInt8
  playerQuestItems : QuestItemMap
  playerFFAItems : QuestItemMap
  playerNonQuestNonFFAConditionalItems : QuestItemMap
  allowedLooters : List ℕ
  nextNumber : ℕ
  deriving DecidableEq, Repr

/-- The player who loots, as far as it matters: the conditions he meets, the items he has a quest
for, the items that start a quest he has had, and whether his group loots by `MASTER_LOOT`. -/
structure Looter where
  guid : ℕ
  inWorld : Bool
  conditionSatisfied : ℕ → Bool
  hasQuestForItem : ℕ → Bool
  hadStartQuest : ℕ → Bool
  masterLoot : Bool

/-- `Roll`, as far as its item goes. -/
structure Roll where
  itemSlot : ℕ
  itemid : ℕ
  number : ℕ
  deriving DecidableEq, Repr

/-- An item that went into an inventory. -/
structure Award where
  number : ℕ
  freeforall : Bool
  player : ℕ
  deriving DecidableEq, Repr

/-- A loot, the rolls for its items and what has been handed out of it. -/
structure Corpse where
  loot : Loot
  rolls : List Roll
  stored : List Award
  deriving DecidableEq, Repr

namespace QuestItemMap

/-- The list of a player. -/
def find (m : QuestItemMap) (guid : ℕ) : Option (List QuestItem) :=
  (List.find? (fun e => e.1 = guid) m).map Prod.snd

/-- Marks an item as looted in the list of a player, where an item stands once. -/
def setLooted (m : QuestItemMap) (guid index : ℕ) : QuestItemMap :=
  Lib.writeKey Prod.fst guid (fun e =>
    (e.1, Lib.writeKey QuestItem.index index (fun q => { q with isLooted := true }) e.2)) m

/-- The item of an index in the list of a player. -/
def findItem (m : QuestItemMap) (guid index : ℕ) : Option QuestItem :=
  (m.find guid).bind fun ql => ql.find? fun q => q.index = index

end QuestItemMap

namespace LootItem

/-- `AllowedForPlayer`. -/
def allowedForPlayer (c : Catalogue) (item : LootItem) (player : Looter) : Bool :=
  if item.conditionId ≠ 0 ∧ player.conditionSatisfied item.conditionId = false then false
  else if c.known item.itemid = false then false
  else if item.needsQuest = true ∧ player.hasQuestForItem item.itemid = false then false
  else if item.needsQuest = false ∧ player.hadStartQuest item.itemid = true then false
  else if item.lootOwner ≠ 0 then player.guid = item.lootOwner
  else true

/-- The item is neither free-for-all nor conditional. -/
def plain (item : LootItem) : Bool := !item.freeforall && item.conditionId == 0

end LootItem

namespace Loot

/-- `LootItem::LootItem`. -/
def newItem (c : Catalogue) (loot : Loot) (item : LootStoreItem) : LootItem where
  number := loot.nextNumber
  itemid := item.itemid
  conditionId := item.conditionId
  count := item.count
  isLooted := false
  isBlocked := false
  freeforall := c.known item.itemid && c.partyLoot item.itemid
  isUnderthreshold := false
  isCounted := false
  needsQuest := item.needsQuest
  lootOwner := 0

/-- `AddItem`. -/
def addItem (c : Catalogue) (loot : Loot) (item : LootStoreItem) : Loot :=
  if item.needsQuest then
    if loot.questItems.length < maxNrQuestItems then
      { loot with
        questItems := loot.questItems ++ [loot.newItem c item]
        nextNumber := loot.nextNumber + 1 }
    else loot
  else if loot.items.length < c.maxNrLootItems then
    { loot with
      items := loot.items ++ [loot.newItem c item]
      unlootedCount :=
        if (loot.newItem c item).plain then loot.unlootedCount + 1 else loot.unlootedCount
      nextNumber := loot.nextNumber + 1 }
  else loot

/-- What `TrimNormal482` does to an item it takes out again. -/
def trim (loot : Loot) (i : ℕ) : Loot :=
  match loot.items[i]? with
  | none => loot
  | some item =>
      if item.freeforall then loot
      else
        { loot with
          items := loot.items.eraseIdx i
          unlootedCount :=
            if item.conditionId = 0 ∧ loot.unlootedCount ≠ 0 then loot.unlootedCount - 1
            else loot.unlootedCount }

/-- The loop of `MoveExcessToOverflow`: what stays, with `room` more of it visible, and what is
moved. -/
def splitExcess : ℕ → List LootItem → List LootItem × List LootItem
  | _, [] => ([], [])
  | room, item :: rest =>
      if 0 < room ∨ item.plain = false then
        let (keep, moved) := splitExcess (room - 1) rest
        (item :: keep, moved)
      else
        let (keep, moved) := splitExcess room rest
        (keep, item :: moved)

/-- `MoveExcessToOverflow`. -/
def moveExcessToOverflow (loot : Loot) : Loot :=
  let visible := maxNrLootClientSlots - min loot.questItems.length maxNrLootClientSlots
  if loot.items.length ≤ visible then loot
  else
    let (keep, moved) := splitExcess visible loot.items
    { loot with items := keep, overflowItems := loot.overflowItems ++ moved }

/-- The loop of `RefillFromOverflow`: the slots, and what still waits. -/
def refillSlots : List LootItem → List LootItem → List LootItem × List LootItem
  | [], overflow => ([], overflow)
  | items, [] => (items, [])
  | old :: rest, next :: overflow =>
      if old.isLooted = false ∨ old.plain = false then
        let (slots, left) := refillSlots rest (next :: overflow)
        (old :: slots, left)
      else
        let (slots, left) := refillSlots rest overflow
        (next :: slots, left)

/-- `RefillFromOverflow`. -/
def refillFromOverflow (loot : Loot) : Loot :=
  let (slots, left) := refillSlots loot.items loot.overflowItems
  { loot with items := slots, overflowItems := left }

/-- The indices of the items that pass a test. -/
def indices (test : LootItem → Bool) (items : List LootItem) : List ℕ :=
  (List.range items.length).filter fun i => items[i]?.any test

/-- A list of items nobody has looted. -/
def marks (indices : List ℕ) : List QuestItem := indices.map fun i => ⟨i, false⟩

/-- Rewrites the items of some indices, one after the other. -/
def modifyAt (f : LootItem → LootItem) : List ℕ → List LootItem → List LootItem
  | [], items => items
  | i :: rest, items =>
      match items[i]? with
      | none => modifyAt f rest items
      | some item => modifyAt f rest (items.set i (f item))

/-- The items `FillFFALoot` puts into the list of a player. -/
def ffaFor (c : Catalogue) (loot : Loot) (player : Looter) : List ℕ :=
  indices (fun item => !item.isLooted && item.freeforall && item.allowedForPlayer c player)
    loot.items

/-- `FillFFALoot`. -/
def fillFFALoot (c : Catalogue) (loot : Loot) (player : Looter) : Loot :=
  if player.inWorld = false ∨ loot.ffaFor c player = [] then loot
  else
    { loot with
      unlootedCount := loot.unlootedCount + UInt8.ofNat (loot.ffaFor c player).length
      playerFFAItems := loot.playerFFAItems ++ [(player.guid, marks (loot.ffaFor c player))] }

/-- The items `FillQuestLoot` puts into the list of a player: as many as the client has slots. -/
def questFor (c : Catalogue) (loot : Loot) (player : Looter) : List ℕ :=
  (indices (fun item => !item.isLooted && item.allowedForPlayer c player) loot.questItems).take
    (maxNrLootClientSlots - loot.items.length)

/-- An index that `FillQuestLoot` counts: a free-for-all item always, another one when it appears
for the first time. -/
def countsQuest (loot : Loot) (i : ℕ) : Bool :=
  loot.questItems[i]?.any fun item => item.freeforall || !item.isBlocked

/-- `FillQuestLoot`. -/
def fillQuestLoot (c : Catalogue) (loot : Loot) (player : Looter) : Loot :=
  if player.inWorld = false ∨ maxNrLootClientSlots ≤ loot.items.length ∨
      loot.questFor c player = [] then loot
  else
    { loot with
      questItems :=
        modifyAt (fun item => { item with isBlocked := true }) (loot.questFor c player)
          loot.questItems
      unlootedCount :=
        loot.unlootedCount + UInt8.ofNat ((loot.questFor c player).countP loot.countsQuest)
      playerQuestItems := loot.playerQuestItems ++ [(player.guid, marks (loot.questFor c player))] }

/-- The items `FillNonQuestNonFFAConditionalLoot` puts into the list of a player. -/
def conditionalFor (c : Catalogue) (loot : Loot) (player : Looter) : List ℕ :=
  indices (fun item => !item.isLooted && !item.freeforall && item.conditionId != 0 &&
    item.allowedForPlayer c player) loot.items

/-- An index that `FillNonQuestNonFFAConditionalLoot` counts: once for an item. -/
def countsConditional (loot : Loot) (i : ℕ) : Bool :=
  loot.items[i]?.any fun item => !item.isCounted

/-- `FillNonQuestNonFFAConditionalLoot`. -/
def fillNonQuestNonFFAConditionalLoot (c : Catalogue) (loot : Loot) (player : Looter) : Loot :=
  if player.inWorld = false ∨ loot.conditionalFor c player = [] then loot
  else
    { loot with
      items :=
        modifyAt (fun item => { item with isCounted := true }) (loot.conditionalFor c player)
          loot.items
      unlootedCount :=
        loot.unlootedCount +
          UInt8.ofNat ((loot.conditionalFor c player).countP loot.countsConditional)
      playerNonQuestNonFFAConditionalItems :=
        loot.playerNonQuestNonFFAConditionalItems ++
          [(player.guid, marks (loot.conditionalFor c player))] }

/-- The looter is allowed, if he is there. -/
def allowLooter (loot : Loot) (player : Looter) : Loot :=
  if player.inWorld then { loot with allowedLooters := loot.allowedLooters ++ [player.guid] }
  else loot

/-- The first part of `FillNotNormalLootFor`. -/
def fillQuest (c : Catalogue) (player : Looter) (loot : Loot) : Loot :=
  if loot.playerQuestItems.find player.guid = none then loot.fillQuestLoot c player else loot

/-- The second part of `FillNotNormalLootFor`. -/
def fillFFA (c : Catalogue) (player : Looter) (loot : Loot) : Loot :=
  if loot.playerFFAItems.find player.guid = none then loot.fillFFALoot c player else loot

/-- The third part of `FillNotNormalLootFor`. -/
def fillConditional (c : Catalogue) (player : Looter) (loot : Loot) : Loot :=
  if loot.playerNonQuestNonFFAConditionalItems.find player.guid = none then
    loot.fillNonQuestNonFFAConditionalLoot c player
  else loot

/-- `FillNotNormalLootFor`. -/
def fillNotNormalLootFor (c : Catalogue) (loot : Loot) (player : Looter) : Loot :=
  (((loot.allowLooter player).fillQuest c player).fillFFA c player).fillConditional c player

/-- Where `LootItemInSlot` found an item: in the list of quest items, or in `items` with an entry in
one of the other two lists, or without. -/
inductive Found where
  | quest (index : ℕ)
  | ffa
  | conditional
  | plain
  deriving DecidableEq, Repr

/-- The item is one of the quest items. -/
def Found.isQuest : Found → Bool
  | .quest _ => true
  | _ => false

/-- `LootItemInSlot` in the slots behind `items`, which are those of the player's quest items. -/
def questItemInSlot (loot : Loot) (questSlot playerGuid : ℕ) : Option (LootItem × Found) :=
  match (loot.playerQuestItems.find playerGuid).bind (·[questSlot]?) with
  | none => none
  | some qitem =>
      match loot.questItems[qitem.index]? with
      | none => none
      | some item =>
          if item.isLooted ∨ qitem.isLooted then none else some (item, .quest qitem.index)

/-- `LootItemInSlot`. -/
def lootItemInSlot (loot : Loot) (lootSlot playerGuid : ℕ) : Option (LootItem × Found) :=
  match loot.items[lootSlot]? with
  | none => loot.questItemInSlot (lootSlot - loot.items.length) playerGuid
  | some item =>
      if item.freeforall then
        match loot.playerFFAItems.findItem playerGuid lootSlot with
        | none => if item.isLooted then none else some (item, .plain)
        | some ffaitem => if ffaitem.isLooted then none else some (item, .ffa)
      else if item.isLooted then none
      else if item.conditionId = 0 then some (item, .plain)
      else
        match loot.playerNonQuestNonFFAConditionalItems.findItem playerGuid lootSlot with
        | none => some (item, .plain)
        | some conditem => if conditem.isLooted then none else some (item, .conditional)

/-- The marks of an item that was stored, in the list of the player and, if it is not free-for-all,
on the item itself. -/
def markLooted (loot : Loot) (lootSlot playerGuid : ℕ) (item : LootItem) : Found → Loot
  | .quest index =>
      { loot with
        playerQuestItems := loot.playerQuestItems.setLooted playerGuid index
        questItems := loot.questItems.set index
          { item with isLooted := item.isLooted || !item.freeforall } }
  | .ffa =>
      { loot with
        playerFFAItems := loot.playerFFAItems.setLooted playerGuid lootSlot
        items := loot.items.set lootSlot
          { item with isLooted := item.isLooted || !item.freeforall } }
  | .conditional =>
      { loot with
        playerNonQuestNonFFAConditionalItems :=
          loot.playerNonQuestNonFFAConditionalItems.setLooted playerGuid lootSlot
        items := loot.items.set lootSlot
          { item with isLooted := item.isLooted || !item.freeforall } }
  | .plain =>
      { loot with
        items := loot.items.set lootSlot
          { item with isLooted := item.isLooted || !item.freeforall } }

/-- `--unlootedCount`. -/
def countDown (loot : Loot) : Loot := { loot with unlootedCount := loot.unlootedCount - 1 }

/-- `isLooted`. -/
def isLooted (loot : Loot) : Bool := loot.gold == 0 && loot.unlootedCount == 0

end Loot

namespace Corpse

/-- Changes the loot. -/
def modifyLoot (s : Corpse) (f : Loot → Loot) : Corpse := { s with loot := f s.loot }

/-- Keeps record of an item that is stored. No item of 0 units is stored. -/
def store (s : Corpse) (item : LootItem) (player : ℕ) : Corpse :=
  if item.count = 0 then s
  else { s with stored := s.stored ++ [⟨item.number, item.freeforall, player⟩] }

/-- The checks of `HandleAutostoreLootItemOpcode`. `canStore` is the answer of `CanStoreNewItem`, and
`StoreNewItem` gives an item back unless there are no units of it. -/
def mayAutostore (c : Catalogue) (player : Looter) (item : LootItem) (found : Loot.Found)
    (isCreature canStore : Bool) : Bool :=
  if item.allowedForPlayer c player = false then false
  else if found.isQuest = false ∧ item.isBlocked = true then false
  else if isCreature = true ∧ item.isUnderthreshold = false ∧ found.isQuest = false ∧
      found ≠ .ffa ∧ player.masterLoot = true then false
  else canStore && item.count != 0

/-- `HandleAutostoreLootItemOpcode`. -/
def handleAutostoreLootItem (c : Catalogue) (s : Corpse) (player : Looter) (lootSlot : ℕ)
    (isCreature canStore : Bool) : Corpse :=
  match s.loot.lootItemInSlot lootSlot player.guid with
  | none => s
  | some (item, found) =>
      if mayAutostore c player item found isCreature canStore then
        (s.store item player.guid).modifyLoot fun loot =>
          (loot.markLooted lootSlot player.guid item found).countDown
      else s

/-- `HandleLootMasterGiveOpcode`, when the sender is the master looter and stands where he must. -/
def handleLootMasterGive (s : Corpse) (slotid target : ℕ) (canStore : Bool) : Corpse :=
  match s.loot.items[slotid]? with
  | none => s
  | some item =>
      if target ∉ s.loot.allowedLooters then s
      else if canStore = false then s
      else
        (s.store item target).modifyLoot fun loot =>
          { loot with
            items := loot.items.set slotid { item with count := 0, isLooted := true } }.countDown

/-- `StartLootRoll`, when somebody may roll. No roll is for a free-for-all item. -/
def startLootRoll (s : Corpse) (itemSlot : ℕ) : Corpse :=
  match s.loot.items[itemSlot]? with
  | none => s
  | some item =>
      if item.freeforall then s
      else
        { s with
          loot := { s.loot with
            items := s.loot.items.set itemSlot { item with isBlocked := true } }
          rolls := s.rolls ++ [⟨itemSlot, item.itemid, item.number⟩] }

/-- How a roll ends: with a winner who is online, by need or greed, with one who is not, or with
everybody passing. -/
inductive Outcome where
  | won (winner : ℕ) (canStore : Bool)
  | wonByNeedOffline (winner : ℕ)
  | wonByGreedOffline (winner : ℕ)
  | allPassed
  deriving DecidableEq, Repr

/-- `CountTheRoll`. What is stored is the item that was rolled for, as many units as the item in the
slot has now. -/
def countTheRoll (s : Corpse) (k : ℕ) (outcome : Outcome) : Corpse :=
  match s.rolls[k]? with
  | none => s
  | some roll =>
      let s := { s with rolls := s.rolls.eraseIdx k }
      match s.loot.items[roll.itemSlot]? with
      | none => s
      | some item =>
          let write (s : Corpse) (item : LootItem) : Corpse :=
            s.modifyLoot fun loot => { loot with items := loot.items.set roll.itemSlot item }
          match outcome with
          | .won winner true =>
              (write (s.store { item with number := roll.number } winner)
                { item with isLooted := true }).modifyLoot Loot.countDown
          | .won winner false => write s { item with isBlocked := false, lootOwner := winner }
          | .wonByNeedOffline winner => write s { item with lootOwner := winner }
          | .wonByGreedOffline _ => s
          | .allPassed => write s { item with isBlocked := false }

/-- A refilled item is found to be under the threshold. -/
def setUnderthreshold (s : Corpse) (slot : ℕ) : Corpse :=
  match s.loot.items[slot]? with
  | none => s
  | some item =>
      s.modifyLoot fun loot =>
        { loot with items := loot.items.set slot { item with isUnderthreshold := true } }

end Corpse

/-- What happens to a loot. -/
inductive LootEvent where
  | addItem (item : LootStoreItem)
  | fillNotNormalLootFor (player : Looter)
  | autostore (player : Looter) (lootSlot : ℕ) (isCreature canStore : Bool)
  | masterGive (slotid target : ℕ) (canStore : Bool)
  | startRoll (itemSlot : ℕ)
  | countTheRoll (k : ℕ) (outcome : Corpse.Outcome)
  | setUnderthreshold (slot : ℕ)
  | refill

/-- One event. -/
def lootStep (c : Catalogue) (s : Corpse) : LootEvent → Corpse
  | .addItem item => s.modifyLoot fun loot => loot.addItem c item
  | .fillNotNormalLootFor player => s.modifyLoot fun loot => loot.fillNotNormalLootFor c player
  | .autostore player lootSlot isCreature canStore =>
      s.handleAutostoreLootItem c player lootSlot isCreature canStore
  | .masterGive slotid target canStore => s.handleLootMasterGive slotid target canStore
  | .startRoll itemSlot => s.startLootRoll itemSlot
  | .countTheRoll k outcome => s.countTheRoll k outcome
  | .setUnderthreshold slot => s.setUnderthreshold slot
  | .refill => s.modifyLoot Loot.refillFromOverflow

/-- A loot with nothing but gold. -/
def Loot.empty (gold : ℕ) : Loot := ⟨[], [], [], gold, 0, [], [], [], [], 0⟩

/-- The first half of `FillLoot`: the items drawn, some of them trimmed, and the excess moved. The
second half is `FillNotNormalLootFor` for everybody who may loot. -/
def Loot.fillLoot (c : Catalogue) (gold : ℕ) (drawn : List LootStoreItem) (trimmed : List ℕ) :
    Loot :=
  (trimmed.foldl Loot.trim (drawn.foldl (Loot.addItem c) (Loot.empty gold))).moveExcessToOverflow

/-- A loot that is filled, when nobody has seen it yet. -/
def Corpse.filled (c : Catalogue) (gold : ℕ) (drawn : List LootStoreItem) (trimmed : List ℕ) :
    Corpse := ⟨Loot.fillLoot c gold drawn trimmed, [], []⟩

/-- A loot that is filled, after the events. -/
def afterLoot (c : Catalogue) (gold : ℕ) (drawn : List LootStoreItem) (trimmed : List ℕ)
    (events : List LootEvent) : Corpse :=
  Lib.run (lootStep c) (Corpse.filled c gold drawn trimmed) events

/-- Every entry has a prototype, and the even ones are free for all. -/
def catalogue : Catalogue where
  known _ := true
  partyLoot itemid := itemid % 2 == 0
  maxNrLootItems := 16
  maxNrLootItems_le := by decide

/-- A player who has every quest and meets every condition. -/
def looter (guid : ℕ) : Looter where
  guid := guid
  inWorld := true
  conditionSatisfied _ := true
  hasQuestForItem _ := true
  hadStartQuest _ := false
  masterLoot := false

end TwowCore.Looting
