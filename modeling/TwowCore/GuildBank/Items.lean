import TwowCore.GuildBank.Tabs

/-!
# Moving items

The item handlers of the bank. Whatever they do to the bank is made of three steps, each of which
also queues a copy of the item for `SaveToDB`: `changeItem`, `insertItem` and `removeItem`.

Each of the four messages first decides, without changing anything, which of the internal
functions it ends in: `DepositItemInFreeSlot`, `DepositItemInSlot`, `WithdrawItem`, `SwapItems`,
`MoveItem` or the body of `SplitItem`. That decision is an `ItemCall`, and `perform` carries it
out.
-/

namespace TwowCore

/-- `MAX_ENCHANTMENT_OFFSET`. -/
def maxEnchantmentOffset : ℕ := 3

namespace BankItem

variable {T : ItemTable}

/-- A list of numbers the way the bank writes one, each followed by a blank. -/
def numberList (numbers : List String) : String :=
  String.join (numbers.map fun number => number ++ " ")

/-- `GuildBank::CloneItem(BankItem*, Item*)`. -/
def cloneFrom (bItem : BankItem) (infernoBank : Bool) (pItem : Item T) : BankItem :=
  let suffix :=
    if 0 < pItem.randomPropertyId then
      match T.randomProperties pItem.randomPropertyId.toUInt32 with
      | some property => " " ++ property.nameSuffix
      | none => ""
    else ""
  { bItem with
    name := pItem.proto.name ++ suffix
    itemTemplate := pItem.entry
    creatorGuid := pItem.creator
    giftCreatorGuid := pItem.giftCreator
    maxStackSize := pItem.proto.getMaxStackSize
    duration := pItem.duration.toInt32
    isInferno := infernoBank
    charges := numberList (pItem.spellCharges.map fun charges => toString charges)
    flags := pItem.flags.toUInt8
    enchantments := numberList (pItem.enchantments.flatMap fun enchantment =>
      [toString enchantment.id, toString enchantment.duration, toString enchantment.charges])
    enchant := ((pItem.enchantments.head?).map Enchantment.id).getD 0
    randomPropertyId := pItem.randomPropertyId
    transmogrifyId := pItem.transmogrifyId
    durability := pItem.durability.toUInt8
    text := pItem.itemTextId
    generatedLoot := if pItem.generatedLoot then 1 else 0
    quality := pItem.proto.quality }

/-- `GuildBank::CloneItem(Item*, BankItem*)`. -/
def cloneInto (bItem : BankItem) (playerGuid : UInt32) (item : Item T) : Item T :=
  let chr := tokenizer bItem.charges.toList ' '
  let ench := tokenizer bItem.enchantments.toList ' '
  let number (i : ℕ) : UInt32 := UInt32.ofNat ((strtoul (ench.getD i [])).getD 0)
  { item with
    ownerGuid := playerGuid
    creator := bItem.creatorGuid
    giftCreator := bItem.giftCreatorGuid
    duration := bItem.duration.toUInt32
    spellCharges := if chr.length = maxItemProtoSpells then chr.map atoi else item.spellCharges
    flags := bItem.flags.toUInt32
    enchantments := (List.range maxEnchantmentSlot).map fun i =>
      ⟨number (i * maxEnchantmentOffset), number (i * maxEnchantmentOffset + 1),
        number (i * maxEnchantmentOffset + 2)⟩
    randomPropertyId := bItem.randomPropertyId
    transmogrifyId := bItem.transmogrifyId
    durability := bItem.durability.toUInt32
    itemTextId := bItem.text
    generatedLoot := decide (bItem.generatedLoot = 1) }

/-- `MoveItem` stacks the source onto the destination: they are of one entry, and neither is
full. -/
def Stacks (sItem dItem : BankItem) : Prop :=
  sItem.itemTemplate = dItem.itemTemplate ∧
    ¬(sItem.count = sItem.maxStackSize ∨ dItem.count = dItem.maxStackSize)

instance (sItem dItem : BankItem) : Decidable (sItem.Stacks dItem) :=
  inferInstanceAs (Decidable (_ ∧ _))

/-- The name shown for items with a random property. -/
def shownName (item : BankItem) : String := if 0 < item.randomPropertyId then item.name else "0"

/-- Place, guid, entry and count of an item, as the answers list them. -/
def placeText (item : BankItem) : String :=
  s!"{item.tab}:{item.slot}:{item.guid}:{item.itemTemplate}:{item.count}"

/-- An item as the answers list it in full. -/
def fullText (item : BankItem) : String :=
  s!"{item.placeText}:{item.shownName}:{item.randomPropertyId}:{item.enchant}"

end BankItem

namespace GuildBank

/-- `GetItem` with the item found. -/
def findItem (bank : GuildBank) (tab slot : UInt32) : Option (ℕ × BankItem) :=
  (bank.getItem tab slot).bind fun idx => (bank.items[idx]?).map fun item => (idx, item)

/-- A new `BankItem` of this bank. Everything but place, guid and count is still to be set. -/
def newItem (bank : GuildBank) (tab slot count : UInt32) : BankItem :=
  { guildid := bank.guildid, guid := bank.getNewGuid, name := "", tab, slot, itemTemplate := 0
    creatorGuid := 0, giftCreatorGuid := 0, count, maxStackSize := 0, duration := 0, charges := ""
    flags := 0, enchantments := "", enchant := 0, randomPropertyId := 0, transmogrifyId := 0
    durability := 0, text := 0, generatedLoot := 0, isInferno := bank.infernoBank, quality := 0
    state := .new }

/-- `GuildBank::CloneBankItem`, which leaves name and quality to their defaults. -/
def cloneBankItem (bank : GuildBank) (sItem : BankItem) : BankItem :=
  { sItem with guildid := bank.guildid, guid := bank.getNewGuid, name := "", quality := 0 }

/-- Writes an item of the bank, as changed, and queues it. -/
def changeItem (bank : GuildBank) (idx : ℕ) (item : BankItem) : GuildBank :=
  let item := item.setState .changed
  (bank.writeItem idx item).queue item

/-- Adds an item to the bank, as new, and queues it. -/
def insertItem (bank : GuildBank) (item : BankItem) : GuildBank :=
  let item := item.setState .new
  (bank.queue item).addItem item

/-- Takes an item out of the bank and queues it as removed. -/
def removeItem (bank : GuildBank) (idx : ℕ) (item : BankItem) : GuildBank :=
  (bank.queue (item.setState .removed)).deleteItem idx

/-- The bank side of a withdrawal: the item goes, or stays with what remains. A swap withdraws a
copy that is in no slot (`idx` is none), so only the queue sees it. -/
def takeOut (bank : GuildBank) (idx : Option ℕ) (bItem : BankItem) (all : Bool)
    (count : UInt32) : GuildBank :=
  match idx with
  | some idx => if all then bank.removeItem idx bItem else bank.changeItem idx (bItem.setCount count)
  | none =>
      if all then bank.queue (bItem.setState .removed)
      else bank.queue ((bItem.setCount count).setState .changed)

/-- The first slot of the tab with a stack of the item that is not full, and its index. -/
def unfilledStack (bank : GuildBank) (tab entry : UInt32) : Option (UInt32 × ℕ × BankItem) :=
  (List.range' 1 bankTabSize.toNat).findSome? fun slot =>
    match bank.findItem tab slot.toUInt32 with
    | none => none
    | some (idx, item) =>
        if item.itemTemplate = entry ∧ item.count < item.maxStackSize then
          some (slot.toUInt32, idx, item)
        else none

/-- The first free slot of the tab. -/
def freeSlot (bank : GuildBank) (tab : UInt32) : Option UInt32 :=
  ((List.range' 1 bankTabSize.toNat).find? fun slot =>
    bank.getItem tab slot.toUInt32 = none).map Nat.toUInt32

end GuildBank

namespace World

variable {T : ItemTable}

/-- The part of `DepositItemInSlot` before the player's item is touched: forms or updates the
bank item and queues it. The index of the bank item is returned. -/
def placeDeposit (w : World T) (bankTab bankSlot : UInt32) (pItem : Item T) (count : UInt32)
    (isNew stack : Bool) : Option (World T × ℕ) :=
  if isNew then
    let bItem := (w.bank.newItem bankTab bankSlot count).cloneFrom w.bank.infernoBank pItem
    some (w.setBank (w.bank.insertItem bItem), w.bank.items.length)
  else
    match w.bank.findItem bankTab bankSlot with
    | none => none
    | some (idx, bItem) =>
        let bItem := bItem.setCount (if stack then bItem.count + count else count)
        some (w.setBank (w.bank.changeItem idx (bItem.cloneFrom w.bank.infernoBank pItem)), idx)

/-- The answer of `DepositItemInSlot` when the stack it is to extend is not there. -/
def cantFindStack (w : World T) (bankTab bankSlot : UInt32) : World T :=
  w.sendAddonMessage
    s!"DepositItem:Error:CantFindStackDestinationItemAt:{bankTab}:{bankSlot}"

/-- The end of `DepositItemInSlot`. -/
def depositDone (se : Session) (w : World T) (idx : ℕ) (count : UInt32) : World T :=
  match w.bank.items[idx]? with
  | none => w
  | some bItem =>
      let w := w.sendGuildMessage s!"GDeposit:{bItem.fullText}"
      (w.logAction se .depositItem bItem.tab bItem.itemTemplate count (some bItem)).saveToDB

/-- `Item::SetCount` on an item of the player. -/
def setItemCount (w : World T) (pos : ItemPos) (pItem : Item T) (count : UInt32) : World T :=
  w.setPlayer (w.player.setItem pos (some (pItem.setCount count)))

/-- What `DepositItemInSlot` takes from the player when nothing is left to deposit elsewhere. -/
def takeDeposit (w : World T) (pos : ItemPos) (pItem : Item T) (count : UInt32) : World T :=
  if count = pItem.count then w.setPlayer (w.player.destroyItem pos)
  else w.setItemCount pos pItem (pItem.count - count)

/-- `GuildBank::DepositItemInSlot` without a remainder. -/
def depositItemInSlot (se : Session) (w : World T) (bankTab bankSlot : UInt32) (pos : ItemPos)
    (pItem : Item T) (count : UInt32) (isNew stack : Bool) : World T :=
  match w.placeDeposit bankTab bankSlot pItem count isNew stack with
  | none => w.cantFindStack bankTab bankSlot
  | some (w, idx) => (w.takeDeposit pos pItem count).depositDone se idx count

/-- `GuildBank::DepositItemInFreeSlot`. A remainder goes through `DepositItemInSlot` back into
this function; every round fills a stack of the tab, so the number of rounds is bounded. -/
def depositItemInFreeSlot (se : Session) (bankTab : UInt32) (pos : ItemPos) :
    ℕ → World T → Item T → World T
  | 0, w, _ => w
  | rounds + 1, w, pItem =>
      let stack :=
        if 1 < pItem.proto.getMaxStackSize then w.bank.unfilledStack bankTab pItem.entry else none
      match stack with
      | some (slot, _, bItem) =>
          if pItem.count + bItem.count ≤ bItem.maxStackSize then
            w.depositItemInSlot se bankTab slot pos pItem pItem.count false true
          else
            let count := bItem.maxStackSize - bItem.count
            match w.placeDeposit bankTab slot pItem count false true with
            | none => w.cantFindStack bankTab slot
            | some (w, idx) =>
                let pItem' := pItem.setCount (pItem.count - count)
                let w := w.setItemCount pos pItem (pItem.count - count)
                (depositItemInFreeSlot se bankTab pos rounds w pItem').depositDone se idx count
      | none =>
          match w.bank.freeSlot bankTab with
          | some slot => w.depositItemInSlot se bankTab slot pos pItem pItem.count true false
          | none =>
              (w.sendNotification "Your bank tab is full.").sendAddonMessage
                "DepositItem:Error:BankTabFullAdd"

/-- Enough rounds for every tab: a round fills a stack or renews its stack size. -/
def depositRounds : ℕ := 2 * bankTabSize.toNat + 1

/-- The view the guild gets of a bank item after a withdrawal. -/
def sendWithdrawn (w : World T) (bankTab bankSlot : UInt32) (bItem : BankItem) (all swap : Bool) :
    World T :=
  if all then
    if swap then w else w.sendGuildMessage s!"GWithdraw:{bankTab}:{bankSlot}"
  else w.sendGuildMessage s!"GPartialWithdraw:{bItem.placeText}:0:0:0"

/-- The end of a withdrawal. -/
def withdrawDone (se : Session) (w : World T) (bankTab count : UInt32) (bItem : BankItem) :
    World T :=
  let w := w.logAction se .withdrawItem bItem.tab bItem.itemTemplate count (some bItem)
  (w.sendWithdrawalsLeft se bankTab.toUInt8).saveToDB

/-- A withdrawal onto an item in the player's bags. -/
def withdrawOntoItem (se : Session) (w : World T) (bankTab bankSlot count : UInt32)
    (idx : Option ℕ) (bItem : BankItem) (pos : ItemPos) (pItem : Item T) (all swap : Bool) :
    World T :=
  let left := bItem.count - count
  let w := w.sendWithdrawn bankTab bankSlot (bItem.setCount left) all swap
  let w := w.setBank (w.bank.takeOut idx bItem all left)
  (w.setItemCount pos pItem (pItem.count + count)).withdrawDone se bankTab count bItem

/-- A withdrawal into slots of the player's bags: a new item is stored and made to look like the
bank item. -/
def withdrawAsNew (se : Session) (w : World T) (bankTab bankSlot count : UInt32)
    (dest : List ItemPosCount) (idx : Option ℕ) (bItem : BankItem) (remainer : UInt32)
    (all swap : Bool) : World T :=
  let stored := w.player.storeNewItem dest bItem.itemTemplate
    (se.generatedRandomPropertyId bItem.itemTemplate)
  match stored.2.bind fun pos => (stored.1.items pos).map fun item => (pos, item) with
  | none => (w.setPlayer stored.1).saveToDB
  | some (pos, item) =>
      let w := w.setPlayer (stored.1.setItem pos (some (bItem.cloneInto w.player.guid item)))
      let w := w.sendWithdrawn bankTab bankSlot (bItem.setCount remainer) all swap
      let w := w.setBank (w.bank.takeOut idx bItem all remainer)
      (w.send (.newItem bItem.itemTemplate count)).withdrawDone se bankTab count bItem

/-- `GuildBank::WithdrawItem(uint32, ...)`. -/
def withdrawItemTo (se : Session) (w : World T)
    (bankTab bankSlot count playerBag playerSlot : UInt32) (idx : Option ℕ) (bItem : BankItem)
    (target : Option (ItemPos × Item T)) (remainer : UInt32) (swap : Bool) : World T :=
  let stored :=
    w.player.canStoreNewItem playerBag.toUInt8 playerSlot.toUInt8 bItem.itemTemplate count
  if stored.result ≠ .ok then w.send (.equipError stored.result 0)
  else
    match target with
    | some (pos, pItem) =>
        w.withdrawOntoItem se bankTab bankSlot count idx bItem pos pItem (decide (remainer = 0))
          swap
    | none =>
        w.withdrawAsNew se bankTab bankSlot count stored.dest idx bItem remainer
          (decide (remainer = 0)) swap

/-- `GuildBank::SwapItems`. After the deposit the bag item is destroyed, so its bag and slot read
`INVENTORY_SLOT_BAG_0` and `NULL_SLOT`. -/
def swapItems (se : Session) (w : World T) (pos : ItemPos) (bagItem : Item T)
    (bankItem : BankItem) : World T :=
  let stored := w.player.canStoreNewItem nullBag nullSlot bankItem.itemTemplate bankItem.count
  if stored.result ≠ .ok ∧ stored.result ≠ .inventoryFull then
    w.send (.equipError stored.result bankItem.itemTemplate)
  else
    let w := w.depositItemInSlot se bankItem.tab bankItem.slot pos bagItem bagItem.count false false
    w.withdrawItemTo se bankItem.tab bankItem.slot bankItem.count inventorySlotBag0.toUInt32
      nullSlot.toUInt32 none bankItem none 0 true

/-- `GuildBank::MoveItem(BankItem*, ...)` for a source that is there. -/
def moveItemTo (w : World T) (sIdx : ℕ) (sItem : BankItem) (dest : Option (ℕ × BankItem))
    (bankTab fromSlot toSlot : UInt8) : World T :=
  let cleared := s!"GMoveItem:from:{bankTab}:{fromSlot}:0:0:0:0:0:0:to:"
  match dest with
  | none =>
      let sItem := sItem.setSlot toSlot.toUInt32
      (w.setBank (w.bank.changeItem sIdx sItem)).sendGuildMessage (cleared ++ sItem.fullText)
  | some (dIdx, dItem) =>
      if sItem.Stacks dItem then
        if sItem.count + dItem.count ≤ sItem.maxStackSize then
          let dItem := dItem.setCount (sItem.count + dItem.count)
          (w.setBank ((w.bank.changeItem dIdx dItem).removeItem sIdx sItem)).sendGuildMessage
            (cleared ++ dItem.fullText)
        else
          let sItem := sItem.setCount (sItem.count - (sItem.maxStackSize - dItem.count))
          let dItem := dItem.setCount dItem.maxStackSize
          (w.setBank ((w.bank.changeItem sIdx sItem).changeItem dIdx dItem)).sendGuildMessage
            (s!"GMoveItem:from:{sItem.fullText}:to:" ++ dItem.fullText)
      else
        let sItem := sItem.setSlot toSlot.toUInt32
        let dItem := dItem.setSlot fromSlot.toUInt32
        ((w.setBank ((w.bank.changeItem sIdx sItem).changeItem dIdx dItem)).sendGuildMessage
          (s!"GMoveItem:from:{sItem.fullText}:to:" ++ dItem.fullText)).saveToDB

/-- The view the guild gets of a split. -/
def sendSplit (w : World T) (sItem dItem : BankItem) : World T :=
  w.sendGuildMessage
    s!"GSplitItem:from:{sItem.placeText}:0:0:0:to:{dItem.placeText}:0:0:0"

/-- The body of `GuildBank::SplitItem` for a source that is there. -/
def splitItemTo (w : World T) (sIdx : ℕ) (sItem : BankItem) (dest : Option (ℕ × BankItem))
    (toSlot split : UInt8) : World T :=
  let split := split.toUInt32
  match dest with
  | none =>
      if sItem.maxStackSize ≤ split then
        w.sendAddonMessage "SplitItem:Error:DestinationCountTooBig"
      else if sItem.count.toInt32 - split.toInt32 ≤ 0 then
        w.sendAddonMessage "SplitItem:Error:SourceLeftCount0"
      else
        let sItem := sItem.setCount ((sItem.count.toInt32 - split.toInt32).toUInt32)
        let bank := w.bank.changeItem sIdx sItem
        let dItem := ((bank.cloneBankItem sItem).setSlot toSlot.toUInt32).setCount split
        ((w.setBank (bank.insertItem dItem)).sendSplit sItem dItem).saveToDB
  | some (dIdx, dItem) =>
      if sItem.itemTemplate = dItem.itemTemplate then
        if dItem.count + split ≤ dItem.maxStackSize then
          let sourceNewCount := sItem.count - split
          let destNewCount := dItem.count + split
          if sourceNewCount = 0 then w.sendAddonMessage "SplitItem:Error:SourceCount0"
          else if sItem.maxStackSize < sourceNewCount then
            w.sendAddonMessage "SplitItem:Error:BadSourceCount"
          else if destNewCount = 0 then w.sendAddonMessage "SplitItem:Error:DestCount0"
          else if sItem.maxStackSize < destNewCount then
            w.sendAddonMessage "SplitItem:Error:BadDestCount"
          else
            let sItem := sItem.setCount sourceNewCount
            let dItem := dItem.setCount destNewCount
            (w.setBank ((w.bank.changeItem sIdx sItem).changeItem dIdx dItem)).sendSplit sItem dItem
        else w.sendAddonMessage "SplitItem:cantStackOnTarget"
      else w.sendAddonMessage "SplitItem:destinationItemDifferent"

end World

end TwowCore
