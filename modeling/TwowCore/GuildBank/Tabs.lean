import Mathlib.Data.List.Sort
import TwowCore.GuildBank.State

/-!
# Loading, logging, access and money

The parts of `GuildBank` that are not about moving items: `LoadBank` and `LoadLog`, `LogAction`,
the access checks, the handlers that unlock the bank and its tabs, the two money handlers and the
handlers that only answer.
-/

namespace TwowCore

namespace GuildBank

variable {T : ItemTable}

/-- The tabs of a new row of `guild_bank_tabs`, the defaults of its columns. -/
def defaultTabInfo : List BankTab :=
  [⟨"Tab1", "inv_misc_bag_08", 0, 0⟩, ⟨"Tab2", "inv_misc_bag_05", 0, 0⟩,
    ⟨"Tab3", "inv_misc_bag_03", 0, 0⟩, ⟨"Tab4", "inv_misc_bag_06", 0, 0⟩,
    ⟨"Tab5", "inv_misc_bag_02", 0, 0⟩]

/-- The join of the tab rows and the money rows of the bank. -/
def tabsAndMoney (bank : GuildBank) (db : Database) : List (TabsRow × MoneyRow) :=
  (db.guildBankTabs.filter fun bt =>
      bt.guildid = bank.guildid && bt.isInferno = bank.infernoBank).flatMap fun bt =>
    (db.guildBankMoney.filter fun bm =>
      bt.guildid = bm.guildid && bt.isInferno = bm.isInferno).map fun bm => (bt, bm)

/-- The rows of `guild_bank` that belong to the bank. -/
def ownRows (bank : GuildBank) (rows : List BankRow) : List BankRow := rows.filter bank.ownsRow

/-- Which rows belong to a bank depends on its guild and its kind only. -/
theorem ownRows_congr {bank bank' : GuildBank} (hguild : bank'.guildid = bank.guildid)
    (hinferno : bank'.infernoBank = bank.infernoBank) (rows : List BankRow) :
    bank'.ownRows rows = bank.ownRows rows := by
  have howns : bank'.ownsRow = bank.ownsRow := by
    funext row
    simp only [ownsRow, hguild, hinferno]
  simp only [ownRows, howns]

/-- So does the join. -/
theorem tabsAndMoney_congr {bank bank' : GuildBank} (hguild : bank'.guildid = bank.guildid)
    (hinferno : bank'.infernoBank = bank.infernoBank) (db : Database) :
    bank'.tabsAndMoney db = bank.tabsAndMoney db := by
  simp only [tabsAndMoney, hguild, hinferno]

/-- `GuildBank::LoadBank`: the last row of the join counts, and the items of all rows of the bank
are added to those in memory. -/
def loadBank (T : ItemTable) (bank : GuildBank) (db : Database) : GuildBank :=
  match (bank.tabsAndMoney db).getLast? with
  | none => bank
  | some (bt, bm) =>
      { bank with
        tabs := bt.tabs
        money := bm.money
        tabInfo := fun tab =>
          if tab = 0 then { bank.tabInfo 0 with minrank := 1 }
          else if tab ≤ maxTabs then (bt.tabInfo[tab.toNat - 1]?).getD (bank.tabInfo tab)
          else bank.tabInfo tab
        items := bank.items ++ (bank.ownRows db.guildBank).map (BankItem.loadFromDB T) }

/-- The rows of the log `LoadLog` selects: those of the last week, oldest first. -/
def recentLog (bank : GuildBank) (now : ℤ) (db : Database) : List LogRow :=
  (db.guildBankLog.filter fun row =>
    row.guildid = bank.guildid && row.isInferno = bank.infernoBank &&
      decide (now - 604800 ≤ (row.stamp.toNat : ℤ))).insertionSort fun a b => a.stamp ≤ b.stamp

/-- The name of a logged player. -/
def loggedName (se : Session) (player : UInt32) : String := (se.playerName player).getD "Unknown"

/-- `GuildBank::AppendLog` on the money log. -/
def moneyLogLine (se : Session) (row : LogRow) : MoneyLog :=
  { player := row.player, action := row.action, money := row.count, stamp := row.stamp
    playerName := loggedName se row.player, state := .unchanged }

/-- `GuildBank::AppendLog` on an item log. The enchantment is not loaded. -/
def logLine (T : ItemTable) (se : Session) (row : LogRow) (enchant : UInt32) : BankLog :=
  let proto := T.find row.item
  let suffix :=
    if 0 < row.randomPropertyId then
      match T.randomProperties row.randomPropertyId with
      | some property => " " ++ property.nameSuffix
      | none => ""
    else ""
  { player := row.player
    action := row.action
    tab := row.tab
    item := row.item
    enchant
    randomPropertyId := row.randomPropertyId
    count := row.count.toUInt8
    stamp := row.stamp
    playerName := loggedName se row.player
    itemName := match proto with
      | some proto => proto.name ++ suffix
      | none => "Unknown"
    itemQuality := match proto with
      | some proto => toString proto.quality
      | none => "1"
    state := .unchanged }

/-- `GuildBank::LoadLog`: the selected rows are written over the first lines of the logs. -/
def loadLog (T : ItemTable) (se : Session) (bank : GuildBank) (db : Database) : GuildBank :=
  let rows := bank.recentLog se.now db
  if rows = [] then bank
  else
    let lines (tab : UInt32) := rows.filter fun row => row.tab.toUInt32 = tab
    { bank with
      moneyLog := (lines 0).map (moneyLogLine se) ++ bank.moneyLog.drop (lines 0).length
      log := fun tab =>
        if tab = 0 then bank.log 0
        else
          (lines tab).mapIdx (fun i row =>
            logLine T se row (((bank.log tab)[i]?).map BankLog.enchant |>.getD 0)) ++
            (bank.log tab).drop (lines tab).length
      moneyLogChanged := false
      logChanged := false }

/-- `GuildBank::SetGuild` on a bank just made. -/
def setGuild (T : ItemTable) (se : Session) (guildid : UInt32) (infernoBank : Bool)
    (db : Database) : GuildBank :=
  let bank : GuildBank :=
    { guildid, infernoBank, tabs := 0, money := 0, items := [], tabInfo := fun _ => ⟨"", "", 0, 0⟩
      log := fun _ => [], moneyLog := [], itemUpdateQueue := [], saveLock := false
      tabsChanged := false, moneyChanged := false, moneyLogChanged := false, logChanged := false }
  { (bank.loadBank T db).loadLog T se db with
    tabsChanged := false, moneyChanged := false, moneyLogChanged := false, logChanged := false
    itemUpdateQueue := [] }

/-- The start of the week, Monday at midnight. -/
def weekStart (se : Session) : ℤ :=
  let wday := if se.wday - 1 = -1 then 6 else se.wday - 1
  se.now - wday * (60 * 60 * 24) - (se.sec + 60 * se.min + 60 * 60 * se.hour)

/-- `GuildBank::GetTabWithdrawalsLeft`. -/
def getTabWithdrawalsLeft (bank : GuildBank) (se : Session) (playerGuid : UInt32) (tab : UInt8) :
    UInt8 :=
  if tab = 0 ∨ maxTabs < tab.toUInt32 then 0
  else
    let weekWithdrawals := ((bank.log tab.toUInt32).filter fun line =>
      line.action = BankAction.withdrawItem.code && line.player = playerGuid && line.tab = tab &&
        decide (weekStart se ≤ (line.stamp.toNat : ℤ))).length.toUInt8
    if (bank.tabInfo tab.toUInt32).withdrawals ≤ weekWithdrawals then 0
    else (bank.tabInfo tab.toUInt32).withdrawals - weekWithdrawals

/-- `GuildBank::CanAccessTab`. -/
def canAccessTab (bank : GuildBank) (se : Session) (playerGuid : UInt32) (tab : UInt8)
    (action : BankAction) : Bool :=
  let info := bank.tabInfo tab.toUInt32
  if action = .withdrawMoney then se.rankIndex ≤ 1
  else if (action = .splitItem ∨ action = .destroyItem) ∧ info.minrank.toUInt32 < se.rankIndex then
    false
  else if (action = .withdrawItem ∨ action = .depositItem) ∧ 0 < info.withdrawals ∧
      se.rankIndex = info.minrank.toUInt32 ∧
      bank.getTabWithdrawalsLeft se playerGuid tab = 0 then
    false
  else se.rankIndex ≤ info.minrank.toUInt32

end GuildBank

namespace World

variable {T : ItemTable}

/-- `GuildBank::LogAction`. -/
def logAction (se : Session) (w : World T) (action : BankAction) (tab : UInt32)
    (itemID count : UInt32) (bItem : Option BankItem) : World T :=
  let stamp := UInt32.ofInt se.now
  if maxTabs < tab then w
  else if tab = 0 then
    let line : MoneyLog :=
      { player := w.player.guid, action := action.code, money := count, stamp
        playerName := se.name, state := .new }
    (w.setBank { w.bank with moneyLog := w.bank.moneyLog ++ [line], moneyLogChanged := true })
      |>.sendGuildMessage (s!"GMoneyLog:0:{line.stamp};{line.playerName};{line.action};" ++
        s!"{line.money};{w.bank.moneyLog.length}")
  else
    let named := match action with
      | .withdrawItem | .depositItem | .destroyItem => bItem
      | _ => none
    let line : BankLog :=
      { player := w.player.guid, action := action.code, tab := tab.toUInt8, item := itemID
        enchant := (bItem.map BankItem.enchant).getD 0
        randomPropertyId := (bItem.map fun item => item.randomPropertyId.toUInt32).getD 0
        count := count.toUInt8, stamp, playerName := se.name
        itemName := (named.map BankItem.name).getD "Unknown"
        itemQuality := (named.map fun item => toString item.quality).getD "1", state := .new }
    (w.setBank { w.bank with
        log := Function.update w.bank.log tab (w.bank.log tab ++ [line]), logChanged := true })
      |>.sendGuildMessage (s!"GTabLog:{tab}:{line.stamp};{line.playerName};{action.code};" ++
        s!"{itemID};{line.itemName};{line.itemQuality};{count};{line.randomPropertyId};" ++
        s!"{line.enchant}")

/-- A log line changes nothing but the logs. -/
theorem logAction_frame (se : Session) (w : World T) (action : BankAction)
    (tab itemID count : UInt32) (bItem : Option BankItem) :
    (w.logAction se action tab itemID count bItem).player = w.player ∧
      (w.logAction se action tab itemID count bItem).db = w.db ∧
      (w.logAction se action tab itemID count bItem).bank =
        { w.bank with
          log := (w.logAction se action tab itemID count bItem).bank.log
          moneyLog := (w.logAction se action tab itemID count bItem).bank.moneyLog
          moneyLogChanged := (w.logAction se action tab itemID count bItem).bank.moneyLogChanged
          logChanged := (w.logAction se action tab itemID count bItem).bank.logChanged } := by
  unfold logAction
  simp only
  split_ifs <;> exact ⟨rfl, rfl, rfl⟩

@[simp] theorem logAction_player (se : Session) (w : World T) (action : BankAction)
    (tab itemID count : UInt32) (bItem : Option BankItem) :
    (w.logAction se action tab itemID count bItem).player = w.player :=
  (w.logAction_frame se action tab itemID count bItem).1

@[simp] theorem logAction_money (se : Session) (w : World T) (action : BankAction)
    (tab itemID count : UInt32) (bItem : Option BankItem) :
    (w.logAction se action tab itemID count bItem).bank.money = w.bank.money := by
  rw [(w.logAction_frame se action tab itemID count bItem).2.2]

@[simp] theorem logAction_tabs (se : Session) (w : World T) (action : BankAction)
    (tab itemID count : UInt32) (bItem : Option BankItem) :
    (w.logAction se action tab itemID count bItem).bank.tabs = w.bank.tabs := by
  rw [(w.logAction_frame se action tab itemID count bItem).2.2]

/-- `GuildBank::SendBankMoney`. -/
def sendBankMoney (w : World T) : World T :=
  w.sendAddonMessage s!"BankInfo:money:{w.bank.money}"

/-- `GuildBank::SendBankInfo`. -/
def sendBankInfo (w : World T) : World T :=
  let column (f : BankTab → String) := String.join (w.bank.tabColumns.map fun tab => f tab ++ ":")
  let info := s!"BankInfo:Tabs:{w.bank.tabs}:" ++ column BankTab.name ++ column BankTab.icon ++
    column (fun tab => toString tab.withdrawals) ++ column fun tab => toString tab.minrank
  w.sendBankMoney.sendAddonMessage (String.ofList info.toList.dropLast)

/-- The answer to a request with too few or too many fields. -/
def wrongSyntax (w : World T) (request : String) (msg : List Char) : World T :=
  w.sendAddonMessage (request ++ ":Error:WrongSyntax(" ++ String.ofList msg ++ ")")

/-- The tables after the two inserts of `UnlockGuildBank`. The one into `guild_bank_money` fails
if its primary key is taken. -/
def insertBank (bank : GuildBank) (db : Database) : Database :=
  { db with
    guildBankTabs := db.guildBankTabs ++
      [⟨bank.guildid, bank.infernoBank, 1, GuildBank.defaultTabInfo⟩]
    guildBankMoney :=
      if db.guildBankMoney.any fun row =>
          row.guildid = bank.guildid && row.isInferno = bank.infernoBank then
        db.guildBankMoney
      else db.guildBankMoney ++ [⟨bank.guildid, bank.infernoBank, 0⟩] }

/-- What `UnlockGuildBank` does once it has accepted. -/
def unlock (se : Session) (w : World T) : World T :=
  let db := insertBank w.bank w.db
  let bank := (({ w.bank with tabs := 1 }).loadBank T db).loadLog T se db
  let player := w.player.modifyMoney (-guildBankCost.toInt32)
  let w := { w with bank, db, player }
  let w := (w.sendGuildMessage "GUnlock:GuildBank:Ok").sendBankInfo
  let line : MoneyLog :=
    { player := w.player.guid, action := BankAction.unlockGuildBank.code, money := guildBankCost
      stamp := UInt32.ofInt se.now, playerName := se.name, state := .new }
  w.setBank { w.bank with moneyLog := w.bank.moneyLog ++ [line] }

/-- `GuildBank::UnlockGuildBank`. -/
def unlockGuildBank (se : Session) (w : World T) (msg : List Char) : World T :=
  if se.rankIndex ≠ 0 then w.sendAddonMessage "UnlockGuildBank:Error:NotGM"
  else
    match tokenizer msg ':' with
    | [_, query] =>
        if query = "Cost".toList then
          w.sendAddonMessage s!"UnlockGuildBank:Cost:{guildBankCost / gold}"
        else if query = "Ok".toList then
          if w.player.money < guildBankCost then w.send .buyError else w.unlock se
        else w.sendAddonMessage "UnlockGuildBank:Error:UnknownAction"
    | _ => w.wrongSyntax "UnlockGuildBank" msg

/-- The end of `GuildBank::UnlockTab`, once the tab is paid. -/
def tabPaid (se : Session) (w : World T) (tab : UInt8) (action : BankAction) : World T :=
  let w := w.setBank { w.bank with tabs := tab.toUInt32 }
  let w := w.sendGuildMessage s!"GUnlock:Tab:{tab}:Ok"
  let w := w.logAction se action 0 tab.toUInt32 (tabCost tab) none
  (w.setBank { w.bank with tabsChanged := true }).saveToDB

/-- The tab and the money source an `UnlockTab` message names. -/
def tabRequest (msg : List Char) : Option (UInt8 × UInt8) :=
  match tokenizer msg ':' with
  | [_, tabText, sourceText] => some (atoiByte tabText, atoiByte sourceText)
  | _ => none

/-- `GuildBank::UnlockTab`. -/
def unlockTab (se : Session) (w : World T) (msg : List Char) : World T :=
  if se.rankIndex ≠ 0 then w.sendAddonMessage "UnlockTab:Error:NotGM"
  else
    match tabRequest msg with
    | none => w.wrongSyntax "UnlockTab" msg
    | some (tab, moneySource) =>
        let cost := tabCost tab
        if tab ≤ 1 ∨ maxTabs < tab.toUInt32 then
          w.sendAddonMessage "UnlockTab:Error:ParamsOutOfRange"
        else if cost = 0 then w.sendAddonMessage "UnlockTab:Error:CantFindPrice"
        else if moneySource = 0 then
          if w.bank.money < cost then
            (w.sendNotification "Your guild bank does not have enough money.").sendAddonMessage
              "UnlockTab:Error:Player:NotEnoughMoney"
          else
            (w.setBank { w.bank with money := w.bank.money - cost, moneyChanged := true }).tabPaid
              se tab .unlockTabGuildMoney
        else if w.player.money < cost then
          (w.send .buyError).sendAddonMessage "UnlockTab:Error:Bank:NotEnoughMoney"
        else
          (w.setPlayer (w.player.modifyMoney (-cost.toInt32))).tabPaid se tab
            .unlockTabPersonalMoney

/-- `GuildBank::UnlockTabCost`. -/
def unlockTabCost (se : Session) (w : World T) (msg : List Char) : World T :=
  if se.rankIndex ≠ 0 then w.sendAddonMessage "UnlockTabCost:Error:NotGM"
  else
    match tokenizer msg ':' with
    | [_, tabText] =>
        let tab := atoiByte tabText
        if tab ≤ 1 ∨ maxTabs < tab.toUInt32 then
          w.sendAddonMessage "UnlockTabCost:Error:WrongTab"
        else if tabCost tab = 0 then w.sendAddonMessage "UnlockTabCost:Error:Cost0"
        else w.sendAddonMessage s!"Unlock:Tab:{tab}:Cost:{tabCost tab / gold}"
    | _ => w.wrongSyntax "UnlockTabCost" msg

/-- `GuildBank::UpdateTab`. -/
def updateTab (se : Session) (w : World T) (msg : List Char) : World T :=
  if se.rankIndex ≠ 0 then w.sendAddonMessage "UpdateTab:Error:NotGM"
  else
    match tokenizer msg ':' with
    | [_, tabText, name, icon, withdrawalsText, minrankText] =>
        let tab := atoiByte tabText
        let withdrawals := atoiByte withdrawalsText
        let minrank := atoiByte minrankText
        if name = [] ∨ 30 < name.length then w.sendAddonMessage "UpdateTab:Error:WrongName"
        else if icon = [] ∨ 63 < icon.length then w.sendAddonMessage "UpdateTab:Error:WrongIcon"
        else if maxWeeklyWithdrawals < withdrawals then
          w.sendAddonMessage "UpdateTab:Error:WrongWithdrawals"
        else if se.ranksSize < minrank.toUInt32 then
          w.sendAddonMessage "UpdateTab:Error:WrongMinRank"
        else
          let info : BankTab := ⟨String.ofList name, String.ofList icon, withdrawals, minrank⟩
          let w := w.setBank { w.bank with
            tabInfo := Function.update w.bank.tabInfo tab.toUInt32 info }
          let w := w.sendGuildMessage
            s!"GUpdateTab:{tab}:{info.name}:{info.icon}:{withdrawals}:{minrank}"
          (w.setBank { w.bank with tabsChanged := true }).saveToDB
    | _ => w.wrongSyntax "UpdateTab" msg

/-- The amount a money message asks for; without one the syntax is wrong. -/
def moneyRequest (msg : List Char) : Option UInt32 :=
  match tokenizer msg ':' with
  | [_, moneyText] => parseMoney moneyText
  | _ => none

/-- The end of both money handlers, once the amount has been moved. -/
def moneyMoved (se : Session) (w : World T) (action : BankAction) (money : UInt32) : World T :=
  let w := w.logAction se action 0 0 money none
  let w := w.sendGuildMessage s!"GMoney:{w.bank.money}"
  (w.setBank { w.bank with moneyChanged := true }).saveToDB

/-- `GuildBank::DepositMoney`. -/
def depositMoney (se : Session) (w : World T) (msg : List Char) : World T :=
  match moneyRequest msg with
  | none => w.wrongSyntax "DepositMoney" msg
  | some money =>
      if 4294967295 - w.bank.money < money then
        (w.sendNotification "Your guild bank cannot hold that much.").sendAddonMessage
          "DepositMoney:Error:TooMuch"
      else if w.player.money < money then
        (w.send .buyError).sendAddonMessage "DepositMoney:Error:NotEnoughMoney"
      else
        let w := w.setPlayer (w.player.modifyMoney (-money.toInt32))
        (w.setBank { w.bank with money := w.bank.money + money }).moneyMoved se .depositMoney money

/-- `GuildBank::WithdrawMoney`. -/
def withdrawMoney (se : Session) (w : World T) (msg : List Char) : World T :=
  match moneyRequest msg with
  | none => w.wrongSyntax "WithdrawMoney" msg
  | some money =>
      if w.bank.canAccessTab se w.player.guid 0 .withdrawMoney = false then
        (w.sendNotification "You dont have access to guild money.").sendAddonMessage
          "WithdrawMoney:Error:NoAccess"
      else if w.bank.money < money then
        (w.sendNotification "Your guild bank does not have enough money.").sendAddonMessage
          "WithdrawMoney:Error:NotEnoug"
      else
        let w := w.setBank { w.bank with money := w.bank.money - money }
        (w.setPlayer (w.player.modifyMoney money.toInt32)).moneyMoved se .withdrawMoney money

/-- `GuildBank::SendTabWithdrawalsLeft(uint8)`. -/
def sendWithdrawalsLeft (se : Session) (w : World T) (tab : UInt8) : World T :=
  if tab = 0 ∨ maxTabs < tab.toUInt32 then
    w.sendAddonMessage "SendTabWithdrawalsLeft:Error:ParamsOutOfRange"
  else
    let info := w.bank.tabInfo tab.toUInt32
    if info.withdrawals = 0 ∨ se.rankIndex < info.minrank.toUInt32 ∨ se.rankIndex = 0 then
      w.sendAddonMessage s!"TabWithdrawalsLeft:{tab}:Unlimited"
    else
      w.sendAddonMessage
        s!"TabWithdrawalsLeft:{tab}:{w.bank.getTabWithdrawalsLeft se w.player.guid tab}"

/-- `GuildBank::SendTabWithdrawalsLeft(std::string)`. -/
def sendTabWithdrawalsLeft (se : Session) (w : World T) (msg : List Char) : World T :=
  match tokenizer msg ':' with
  | [_, tabText] => w.sendWithdrawalsLeft se (atoiByte tabText)
  | _ => w.wrongSyntax "SendTabWithdrawalsLeft" msg

@[simp] theorem wrongSyntax_bank (w : World T) (request : String) (msg : List Char) :
    (w.wrongSyntax request msg).bank = w.bank := rfl

@[simp] theorem wrongSyntax_player (w : World T) (request : String) (msg : List Char) :
    (w.wrongSyntax request msg).player = w.player := rfl

@[simp] theorem tabPaid_player (se : Session) (w : World T) (tab : UInt8) (action : BankAction) :
    (w.tabPaid se tab action).player = w.player := by
  simp [tabPaid]

@[simp] theorem tabPaid_money (se : Session) (w : World T) (tab : UInt8) (action : BankAction) :
    (w.tabPaid se tab action).bank.money = w.bank.money := by
  simp [tabPaid]

@[simp] theorem tabPaid_tabs (se : Session) (w : World T) (tab : UInt8) (action : BankAction) :
    (w.tabPaid se tab action).bank.tabs = tab.toUInt32 := by
  simp [tabPaid]

@[simp] theorem moneyMoved_player (se : Session) (w : World T) (action : BankAction)
    (money : UInt32) : (w.moneyMoved se action money).player = w.player := by
  simp [moneyMoved]

@[simp] theorem moneyMoved_money (se : Session) (w : World T) (action : BankAction)
    (money : UInt32) : (w.moneyMoved se action money).bank.money = w.bank.money := by
  simp [moneyMoved]

end World

end TwowCore
