import TwowCore.GuildBank.Message
import TwowCore.Player.Money
import TwowCore.Player.Store

/-!
# The guild bank: data and database

`GuildBank` is the in-memory bank of one guild, `Database` the four tables it is kept in. A
`BankItem*` of the source is an index into `items`: `getItem` finds the first item at a tab and
slot, and an item is changed by writing its index.

`World` is what one addon message works on: the bank, the tables, the acting player and the
answers sent so far. `Session` holds what the message reads and never changes.
-/

namespace TwowCore

/-- `BankItem`. -/
structure BankItem where
  guildid : UInt32
  guid : UInt32
  name : String
  tab : UInt32
  slot : UInt32
  itemTemplate : UInt32
  creatorGuid : UInt32
  giftCreatorGuid : UInt32
  count : UInt32
  maxStackSize : UInt32
  duration : Int32
  charges : String
  flags : UInt8
  enchantments : String
  enchant : UInt32
  randomPropertyId : Int32
  transmogrifyId : UInt32
  durability : UInt8
  text : UInt32
  generatedLoot : Int8
  isInferno : Bool
  quality : UInt32
  state : ItemUpdateState
  deriving DecidableEq, Repr

/-- A row of `guild_bank`. -/
structure BankRow where
  guildid : UInt32
  guid : UInt32
  isInferno : Bool
  tab : UInt32
  slot : UInt32
  itemTemplate : UInt32
  creatorGuid : UInt32
  giftCreatorGuid : UInt32
  count : UInt32
  duration : Int32
  charges : String
  flags : UInt8
  enchantments : String
  randomPropertyId : Int32
  transmogrifyId : UInt32
  durability : UInt8
  text : UInt32
  generatedLoot : Int8
  deriving DecidableEq, Repr

/-- `BankTab`. -/
structure BankTab where
  name : String
  icon : String
  withdrawals : UInt8
  minrank : UInt8
  deriving DecidableEq, Repr

/-- `BankLog`. -/
structure BankLog where
  player : UInt32
  action : UInt8
  tab : UInt8
  item : UInt32
  enchant : UInt32
  randomPropertyId : UInt32
  count : UInt8
  stamp : UInt32
  playerName : String
  itemName : String
  itemQuality : String
  state : ItemUpdateState
  deriving DecidableEq, Repr

/-- `MoneyLog`. -/
structure MoneyLog where
  player : UInt32
  action : UInt8
  money : UInt32
  stamp : UInt32
  playerName : String
  state : ItemUpdateState
  deriving DecidableEq, Repr

/-- A row of `guild_bank_tabs`; the five columns of each kind are one list of tabs. -/
structure TabsRow where
  guildid : UInt32
  isInferno : Bool
  tabs : UInt32
  tabInfo : List BankTab
  deriving DecidableEq, Repr

/-- A row of `guild_bank_money`. -/
structure MoneyRow where
  guildid : UInt32
  isInferno : Bool
  money : UInt32
  deriving DecidableEq, Repr

/-- A row of `guild_bank_log`. -/
structure LogRow where
  guildid : UInt32
  isInferno : Bool
  player : UInt32
  action : UInt8
  tab : UInt8
  item : UInt32
  randomPropertyId : UInt32
  enchant : UInt32
  count : UInt32
  stamp : UInt32
  deriving DecidableEq, Repr

/-- The tables of the guild banks. -/
structure Database where
  guildBank : List BankRow
  guildBankTabs : List TabsRow
  guildBankMoney : List MoneyRow
  guildBankLog : List LogRow
  deriving DecidableEq, Repr

/-- `GuildBank`. -/
structure GuildBank where
  guildid : UInt32
  infernoBank : Bool
  tabs : UInt32
  money : UInt32
  items : List BankItem
  tabInfo : UInt32 → BankTab
  log : UInt32 → List BankLog
  moneyLog : List MoneyLog
  itemUpdateQueue : List BankItem
  saveLock : Bool
  tabsChanged : Bool
  moneyChanged : Bool
  moneyLogChanged : Bool
  logChanged : Bool

/-- What the bank sends while it handles a message. -/
inductive Out where
  | addonMessage (text : String)
  | notification (text : String)
  | guildMessage (text : String)
  | buyError
  | equipError (res : InventoryResult) (entry : UInt32)
  | newItem (entry count : UInt32)
  deriving DecidableEq, Repr

/-- What a message reads about its sender and the moment it is handled: the rank and name of the
player, whether he stands at a vault keeper, the number of ranks of the guild, the clock, the
names of known characters and the random property a new item of an entry gets. -/
structure Session where
  rankIndex : UInt32
  name : String
  canUseGuildBank : Bool
  ranksSize : UInt32
  now : ℤ
  wday : ℤ
  hour : ℤ
  min : ℤ
  sec : ℤ
  playerName : UInt32 → Option String
  generatedRandomPropertyId : UInt32 → Int32

/-- The guild master at a vault keeper, in a guild of five ranks, on a Monday at midnight. -/
def Session.guildMaster : Session :=
  { rankIndex := 0, name := "Master", canUseGuildBank := true, ranksSize := 5, now := 345600
    wday := 1, hour := 0, min := 0, sec := 0, playerName := fun _ => none
    generatedRandomPropertyId := fun _ => 0 }

/-- The state an addon message is handled in. -/
structure World (T : ItemTable) where
  bank : GuildBank
  db : Database
  player : Player T
  out : List Out

/-- `GOLD`, in copper. -/
def gold : UInt32 := 10000

/-- `GUILD_BANK_COST`. -/
def guildBankCost : UInt32 := 2000 * gold

/-- The cost of a tab, 0 if it cannot be bought. -/
def tabCost (tab : UInt8) : UInt32 :=
  if tab = 2 then 500 * gold
  else if tab = 3 then 1000 * gold
  else if tab = 4 then 1500 * gold
  else if tab = 5 then 2000 * gold
  else 0

/-- `MAX_TABS`. -/
def maxTabs : UInt32 := 5

/-- `MAX_WEEKLY_WITHDRAWALS`. -/
def maxWeeklyWithdrawals : UInt8 := 5

/-- `BANK_TAB_SIZE`. -/
def bankTabSize : UInt32 := 98

/-- `LOG_LINES_LIMIT`. -/
def logLinesLimit : ℕ := 50

/-- `ADDON_MAX_PACKET_SIZE`. -/
def addonMaxPacketSize : ℕ := 2096

/-- `GuildBankAction`. -/
inductive BankAction where
  | withdrawItem
  | depositItem
  | unlockGuildBank
  | unlockTabPersonalMoney
  | withdrawMoney
  | depositMoney
  | unlockTabGuildMoney
  | destroyItem
  | splitItem
  | moveItem
  deriving DecidableEq, Repr

/-- The number of an action in the source. -/
def BankAction.code : BankAction → UInt8
  | .withdrawItem => 0
  | .depositItem => 1
  | .unlockGuildBank => 2
  | .unlockTabPersonalMoney => 3
  | .withdrawMoney => 4
  | .depositMoney => 5
  | .unlockTabGuildMoney => 6
  | .destroyItem => 7
  | .splitItem => 8
  | .moveItem => 9

namespace BankItem

/-- The item with another count. -/
def setCount (item : BankItem) (count : UInt32) : BankItem := { item with count }

/-- The item in another slot. -/
def setSlot (item : BankItem) (slot : UInt32) : BankItem := { item with slot }

/-- The item in another update state. -/
def setState (item : BankItem) (state : ItemUpdateState) : BankItem := { item with state }

/-- The row `AddToDB` inserts and `SaveToDB` writes. -/
def toRow (item : BankItem) : BankRow :=
  { guildid := item.guildid, guid := item.guid, isInferno := item.isInferno, tab := item.tab
    slot := item.slot, itemTemplate := item.itemTemplate, creatorGuid := item.creatorGuid
    giftCreatorGuid := item.giftCreatorGuid, count := item.count, duration := item.duration
    charges := item.charges, flags := item.flags, enchantments := item.enchantments
    randomPropertyId := item.randomPropertyId, transmogrifyId := item.transmogrifyId
    durability := item.durability, text := item.text, generatedLoot := item.generatedLoot }

/-- `BankItem::AddToDB`. -/
def addToDB (item : BankItem) (rows : List BankRow) : List BankRow := rows ++ [item.toRow]

/-- `BankItem::SaveToDB`: the update names the guild and the guid, not the kind of bank. -/
def saveToDB (item : BankItem) (rows : List BankRow) : List BankRow :=
  rows.map fun row => if row.guildid = item.guildid ∧ row.guid = item.guid then item.toRow else row

/-- `BankItem::DeleteFromDB`. -/
def deleteFromDB (item : BankItem) (rows : List BankRow) : List BankRow :=
  rows.filter fun row =>
    ¬(row.guildid = item.guildid ∧ row.guid = item.guid ∧ row.isInferno = item.isInferno)

/-- What `SaveToDB` of the bank does with one queued item. -/
def execute (rows : List BankRow) (item : BankItem) : List BankRow :=
  match item.state with
  | .new => item.addToDB rows
  | .changed => item.saveToDB rows
  | .removed => item.deleteFromDB rows
  | .unchanged => rows

/-- `BankItem::LoadFromDB`, followed by the fields `LoadBank` takes from the prototype. Quality
and stack size of an unknown entry stay uninitialised in the source; here they are 0. -/
def loadFromDB (T : ItemTable) (row : BankRow) : BankItem :=
  let params := tokenizer row.enchantments.toList ' '
  let proto := T.find row.itemTemplate
  let suffix :=
    if 0 < row.randomPropertyId then
      match T.randomProperties row.randomPropertyId.toUInt32 with
      | some property => " " ++ property.nameSuffix
      | none => ""
    else ""
  { guildid := row.guildid
    guid := row.guid
    name := match proto with
      | some proto => proto.name ++ suffix
      | none => ""
    tab := row.tab.toUInt8.toUInt32
    slot := row.slot.toUInt8.toUInt32
    itemTemplate := row.itemTemplate
    creatorGuid := row.creatorGuid
    giftCreatorGuid := row.giftCreatorGuid
    count := row.count
    maxStackSize := match proto with
      | some proto => proto.getMaxStackSize
      | none => 0
    duration := row.duration
    charges := row.charges
    flags := row.flags
    enchantments := row.enchantments
    enchant := if params.length = 3 * maxEnchantmentSlot then atoiWord (params.headD []) else 0
    randomPropertyId := row.randomPropertyId.toInt16.toInt32
    transmogrifyId := row.transmogrifyId
    durability := row.durability
    text := row.text
    generatedLoot := row.generatedLoot
    isInferno := row.isInferno
    quality := match proto with
      | some proto => proto.quality
      | none => 0
    state := .unchanged }

end BankItem

namespace GuildBank

/-- The row belongs to this bank. -/
def ownsRow (bank : GuildBank) (row : BankRow) : Bool :=
  row.guildid = bank.guildid && row.isInferno = bank.infernoBank

/-- `GuildBank::GetItem`: the index of the first item at the tab and slot. -/
def getItem (bank : GuildBank) (tab slot : UInt32) : Option ℕ :=
  bank.items.findIdx? fun item => item.tab = tab && item.slot = slot

/-- `GuildBank::GetNewGuid`. -/
def getNewGuid (bank : GuildBank) : UInt32 :=
  bank.items.foldl (fun guid item => if guid < item.guid then item.guid else guid) 0 + 1

/-- `GuildBank::AddItem`. -/
def addItem (bank : GuildBank) (item : BankItem) : GuildBank :=
  { bank with items := bank.items ++ [item] }

/-- `GuildBank::DeleteItem`. -/
def deleteItem (bank : GuildBank) (idx : ℕ) : GuildBank :=
  { bank with items := bank.items.eraseIdx idx }

/-- Writes an item of the bank through its pointer. -/
def writeItem (bank : GuildBank) (idx : ℕ) (item : BankItem) : GuildBank :=
  { bank with items := bank.items.set idx item }

/-- `b_itemUpdateQueue.push_back`. -/
def queue (bank : GuildBank) (item : BankItem) : GuildBank :=
  { bank with itemUpdateQueue := bank.itemUpdateQueue ++ [item] }

/-- Nothing is waiting to be saved. -/
def NothingToSave (bank : GuildBank) : Prop :=
  bank.moneyLogChanged = false ∧ bank.tabsChanged = false ∧ bank.moneyChanged = false ∧
    bank.logChanged = false ∧ bank.itemUpdateQueue = []

instance (bank : GuildBank) : Decidable bank.NothingToSave :=
  inferInstanceAs (Decidable (_ ∧ _ ∧ _ ∧ _ ∧ _))

/-- The tabs 1 to 5, as the columns of `guild_bank_tabs` hold them. -/
def tabColumns (bank : GuildBank) : List BankTab := [1, 2, 3, 4, 5].map bank.tabInfo

/-- The money rows after `SaveToDB`. -/
def savedMoney (bank : GuildBank) (rows : List MoneyRow) : List MoneyRow :=
  if bank.moneyChanged then
    rows.map fun row =>
      if row.guildid = bank.guildid ∧ row.isInferno = bank.infernoBank then
        { row with money := bank.money }
      else row
  else rows

/-- The tab rows after `SaveToDB`. -/
def savedTabs (bank : GuildBank) (rows : List TabsRow) : List TabsRow :=
  if bank.tabsChanged then
    rows.map fun row =>
      if row.guildid = bank.guildid ∧ row.isInferno = bank.infernoBank then
        { row with tabs := bank.tabs, tabInfo := bank.tabColumns }
      else row
  else rows

/-- The new lines of the money log, as rows. -/
def newMoneyLogRows (bank : GuildBank) : List LogRow :=
  if bank.moneyLogChanged then
    (bank.moneyLog.filter fun line => line.state = .new).map fun line =>
      { guildid := bank.guildid, isInferno := bank.infernoBank, player := line.player
        action := line.action, tab := 0, item := 0, randomPropertyId := 0, enchant := 0
        count := line.money, stamp := line.stamp }
  else []

/-- The new lines of the item logs, as rows. -/
def newLogRows (bank : GuildBank) : List LogRow :=
  if bank.logChanged then
    ([1, 2, 3, 4, 5].flatMap fun tab => (bank.log tab).filter fun line => line.state = .new).map
      fun line =>
        { guildid := bank.guildid, isInferno := bank.infernoBank, player := line.player
          action := line.action, tab := line.tab, item := line.item
          randomPropertyId := line.randomPropertyId, enchant := line.enchant
          count := line.count.toUInt32, stamp := line.stamp }
  else []

/-- The tables after `GuildBank::SaveToDB` has run its statements. -/
def savedDatabase (bank : GuildBank) (db : Database) : Database :=
  { guildBank := bank.itemUpdateQueue.foldl BankItem.execute db.guildBank
    guildBankTabs := bank.savedTabs db.guildBankTabs
    guildBankMoney := bank.savedMoney db.guildBankMoney
    guildBankLog := db.guildBankLog ++ bank.newMoneyLogRows ++ bank.newLogRows }

/-- The bank after `GuildBank::SaveToDB` has run its statements. -/
def saved (bank : GuildBank) : GuildBank :=
  { bank with
    moneyChanged := false
    tabsChanged := false
    moneyLog :=
      if bank.moneyLogChanged then
        bank.moneyLog.map fun line => { line with state := ItemUpdateState.unchanged }
      else bank.moneyLog
    moneyLogChanged := false
    log := fun tab =>
      if bank.logChanged ∧ 1 ≤ tab ∧ tab ≤ maxTabs then
        (bank.log tab).map fun line => { line with state := ItemUpdateState.unchanged }
      else bank.log tab
    logChanged := false
    items :=
      if bank.itemUpdateQueue = [] then bank.items
      else bank.items.map fun item => item.setState .unchanged
    itemUpdateQueue := [] }

end GuildBank

namespace World

variable {T : ItemTable}

/-- Sends something. -/
def send (w : World T) (message : Out) : World T := { w with out := w.out ++ [message] }

/-- `Player::SendAddonMessage` with the prefix of the bank. -/
def sendAddonMessage (w : World T) (text : String) : World T := w.send (.addonMessage text)

/-- `WorldSession::SendNotification`. -/
def sendNotification (w : World T) (text : String) : World T := w.send (.notification text)

/-- `GuildBank::SendGuildMessage`. -/
def sendGuildMessage (w : World T) (text : String) : World T := w.send (.guildMessage text)

/-- Replaces the bank. -/
def setBank (w : World T) (bank : GuildBank) : World T := { w with bank }

/-- Replaces the acting player. -/
def setPlayer (w : World T) (player : Player T) : World T := { w with player }

/-- `GuildBank::SaveToDB`. -/
def saveToDB (w : World T) : World T :=
  if w.bank.saveLock then w
  else if w.bank.NothingToSave then w
  else { w with bank := w.bank.saved, db := w.bank.savedDatabase w.db }

section Frames

variable (w : World T) (message : Out) (text : String) (bank : GuildBank) (player : Player T)

@[simp] theorem send_bank : (w.send message).bank = w.bank := rfl
@[simp] theorem send_db : (w.send message).db = w.db := rfl
@[simp] theorem send_player : (w.send message).player = w.player := rfl
@[simp] theorem sendAddonMessage_bank : (w.sendAddonMessage text).bank = w.bank := rfl
@[simp] theorem sendAddonMessage_db : (w.sendAddonMessage text).db = w.db := rfl
@[simp] theorem sendAddonMessage_player : (w.sendAddonMessage text).player = w.player := rfl
@[simp] theorem sendNotification_bank : (w.sendNotification text).bank = w.bank := rfl
@[simp] theorem sendNotification_db : (w.sendNotification text).db = w.db := rfl
@[simp] theorem sendNotification_player : (w.sendNotification text).player = w.player := rfl
@[simp] theorem sendGuildMessage_bank : (w.sendGuildMessage text).bank = w.bank := rfl
@[simp] theorem sendGuildMessage_db : (w.sendGuildMessage text).db = w.db := rfl
@[simp] theorem sendGuildMessage_player : (w.sendGuildMessage text).player = w.player := rfl
@[simp] theorem setBank_bank : (w.setBank bank).bank = bank := rfl
@[simp] theorem setBank_db : (w.setBank bank).db = w.db := rfl
@[simp] theorem setBank_player : (w.setBank bank).player = w.player := rfl
@[simp] theorem setPlayer_bank : (w.setPlayer player).bank = w.bank := rfl
@[simp] theorem setPlayer_db : (w.setPlayer player).db = w.db := rfl
@[simp] theorem setPlayer_player : (w.setPlayer player).player = player := rfl

end Frames

/-- Saving keeps the player. -/
@[simp] theorem saveToDB_player (w : World T) : w.saveToDB.player = w.player := by
  unfold saveToDB
  split_ifs <;> rfl

/-- Saving keeps the money of the bank. -/
@[simp] theorem saveToDB_money (w : World T) : w.saveToDB.bank.money = w.bank.money := by
  unfold saveToDB
  split_ifs <;> rfl

/-- Saving keeps the number of tabs. -/
@[simp] theorem saveToDB_tabs (w : World T) : w.saveToDB.bank.tabs = w.bank.tabs := by
  unfold saveToDB
  split_ifs <;> rfl

end World

end TwowCore
