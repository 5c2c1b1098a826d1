import TwowCore.GuildBank.Items
import TwowCore.Lib.Run

/-!
# The addon messages

What each message asks for, and `HandleAddonMessages` over all of them. The four item messages are
read into an `ItemCall`: the checks of `DepositItem`, `WithdrawItem`, `MoveItem` and `SplitItem`,
up to the internal function each of them ends in.
-/

namespace TwowCore

/-- The internal function an item message ends in, with its arguments, or the answers it is
refused with. -/
inductive ItemCall (T : ItemTable) where
  | refuse (answers : List Out)
  | depositInFreeSlot (bankTab : UInt32) (pos : ItemPos) (pItem : Item T)
  | depositInSlot (bankTab bankSlot : UInt32) (pos : ItemPos) (pItem : Item T) (count : UInt32)
      (isNew stack : Bool)
  | withdraw (bankTab bankSlot count playerBag playerSlot : UInt32) (idx : ℕ) (bItem : BankItem)
      (target : Option (ItemPos × Item T)) (remainer : UInt32)
  | swap (pos : ItemPos) (bagItem : Item T) (bankItem : BankItem)
  | move (sIdx : ℕ) (sItem : BankItem) (dest : Option (ℕ × BankItem))
      (bankTab fromSlot toSlot : UInt8)
  | split (sIdx : ℕ) (sItem : BankItem) (dest : Option (ℕ × BankItem)) (toSlot split : UInt8)

/-- The four item messages. -/
inductive ItemOp where
  | deposit
  | withdraw
  | move
  | split
  deriving DecidableEq, Repr

namespace World

variable {T : ItemTable}

/-- A refusal that is shown to the player too. -/
def notify (notification addonMessage : String) : List Out :=
  [.notification notification, .addonMessage addonMessage]

/-- `GuildBank::IsItemBankable`: why an item cannot be deposited. -/
def notBankable (bItem : Item T) : Option (List Out) :=
  if bItem.isSoulBound then
    some (notify "You cannot deposit soulbound items." "Error:ItemSoulBound")
  else if bItem.proto.isConjuredConsumable then
    some (notify "You cannot deposit conjured items." "Error:ItemConjured")
  else if 0 < bItem.proto.duration then
    some (notify "You cannot deposit temporary items." "Error:ItemTemporary")
  else none

/-- The refusal of a message with too few or too many fields. -/
def badSyntax (request : String) (msg : List Char) : ItemCall T :=
  .refuse [.addonMessage (request ++ ":Error:WrongSyntax(" ++ String.ofList msg ++ ")")]

/-- The position in the player's bags a client means by a bag and a slot. -/
def serverPos (playerBag playerSlot : UInt8) : ItemPos :=
  if playerBag = 0 then ⟨inventorySlotBag0, playerSlot + inventorySlotItemStart - 1⟩
  else ⟨playerBag + inventorySlotBagStart - 1, playerSlot - 1⟩

/-- The end of `DepositItem` for a bank slot that is taken by `dItem`. -/
def depositOnto (bankTab bankSlot : UInt32) (pos : ItemPos) (pItem : Item T) (count : UInt32)
    (idx : ℕ) (dItem : BankItem) : ItemCall T :=
  if dItem.itemTemplate = pItem.entry ∧ dItem.count = pItem.count ∧
      dItem.count = dItem.maxStackSize ∧ dItem.randomPropertyId = pItem.randomPropertyId then
    .refuse [.addonMessage "DepositItem:Swap:Error:SameItemSameCount"]
  else if dItem.itemTemplate = pItem.entry ∧ 1 < dItem.maxStackSize then
    if dItem.count + count ≤ dItem.maxStackSize then
      .depositInSlot bankTab bankSlot pos pItem count false true
    else if count < dItem.count ∧ dItem.count = dItem.maxStackSize then
      let withdrawCount := dItem.maxStackSize - count
      .withdraw bankTab bankSlot withdrawCount pos.bag.toUInt32 pos.slot.toUInt32 idx dItem
        (some (pos, pItem)) (dItem.maxStackSize - withdrawCount)
    else
      .depositInSlot bankTab bankSlot pos pItem (dItem.maxStackSize - dItem.count) false true
  else .swap pos pItem dItem

/-- `GuildBank::DepositItem`. -/
def depositCall (se : Session) (w : World T) (msg : List Char) : ItemCall T :=
  match tokenizer msg ':' with
  | [_, bagText, slotText, tabText, bankSlotText, countText] =>
      let bankTab := atoiByte tabText
      let bankSlot := atoiByte bankSlotText
      let count := atoiByte countText
      if bankTab = 0 ∨ maxTabs < bankTab.toUInt32 ∨ bankTabSize < bankSlot.toUInt32 then
        .refuse [.addonMessage "DepositItem:Error:ParamsOutOfRange"]
      else if w.bank.canAccessTab se w.player.guid bankTab .depositItem = false then
        .refuse (notify "You dont have access to this tab." "DepositItem:Error:NoRights")
      else
        let pos := serverPos (atoiByte bagText) (atoiByte slotText)
        match w.player.getItemByPos pos with
        | none =>
            .refuse [.addonMessage s!"DepositItem:Error:CantGetPlayerItem:{pos.bag}:{pos.slot}"]
        | some pItem =>
            match notBankable pItem with
            | some answers => .refuse answers
            | none =>
                if pItem.getMaxStackCount < count.toUInt32 then
                  .refuse [.addonMessage "DepositItem:Error:Count>GetMaxStackCount"]
                else if bankSlot = 0 then .depositInFreeSlot bankTab.toUInt32 pos pItem
                else
                  match w.bank.findItem bankTab.toUInt32 bankSlot.toUInt32 with
                  | some (idx, dItem) =>
                      depositOnto bankTab.toUInt32 bankSlot.toUInt32 pos pItem count.toUInt32 idx
                        dItem
                  | none =>
                      .depositInSlot bankTab.toUInt32 bankSlot.toUInt32 pos pItem count.toUInt32
                        true false
  | _ => badSyntax "DepositItem" msg

/-- The end of `WithdrawItem` for a bag slot that is taken by `pItem`. -/
def withdrawOnto (bankTab bankSlot withdrawCount playerBag playerSlot : UInt32) (idx : ℕ)
    (bItem : BankItem) (pos : ItemPos) (pItem : Item T) : ItemCall T :=
  match notBankable pItem with
  | some answers => .refuse answers
  | none =>
      if pItem.entry = bItem.itemTemplate ∧ 1 < bItem.maxStackSize then
        let count :=
          if pItem.getMaxStackCount < withdrawCount + pItem.count then
            pItem.proto.getMaxStackSize - pItem.count
          else withdrawCount
        .withdraw bankTab bankSlot count playerBag playerSlot idx bItem (some (pos, pItem))
          (bItem.count - count)
      else .swap pos pItem bItem

/-- `GuildBank::WithdrawItem(std::string)`. -/
def withdrawCall (se : Session) (w : World T) (msg : List Char) : ItemCall T :=
  match tokenizer msg ':' with
  | [_, tabText, bankSlotText, bagText, slotText, countText] =>
      let bankTab := atoiWord tabText
      let bankSlot := atoiWord bankSlotText
      let playerBag := atoiWord bagText
      let playerSlot := atoiWord slotText
      let withdrawCount := atoiWord countText
      if bankTab = 0 ∨ maxTabs < bankTab ∨ bankSlot = 0 ∨ bankTabSize < bankSlot then
        .refuse [.addonMessage "WithdrawItem:Error:ParamsOutOfRange"]
      else if w.bank.canAccessTab se w.player.guid bankTab.toUInt8 .withdrawItem = false then
        .refuse (notify "You dont have access to this tab." "WithdrawItem:Error:NoRights")
      else
        match w.bank.findItem bankTab bankSlot with
        | none => .refuse [.addonMessage "WithdrawItem:Error:CantFindBankItem"]
        | some (idx, bItem) =>
            if bItem.count < withdrawCount then
              .refuse [.addonMessage "WithdrawItem:Error:CantWithdrawMoreThanCount"]
            else if playerBag = 0 ∧ playerSlot = 0 then
              if bItem.count = withdrawCount then
                .withdraw bankTab bankSlot bItem.count nullBag.toUInt32 nullSlot.toUInt32 idx
                  bItem none 0
              else .refuse [.addonMessage "WithdrawItem:Error:CantAutoWithdrawDifferentCount"]
            else
              let playerBag := if playerBag = 0 then 255 else playerBag + 18
              let playerSlot := if playerBag = 255 then playerSlot + 22 else playerSlot - 1
              let pos : ItemPos := ⟨playerBag.toUInt8, playerSlot.toUInt8⟩
              match w.player.getItemByPos pos with
              | some pItem =>
                  withdrawOnto bankTab bankSlot withdrawCount playerBag playerSlot idx bItem pos
                    pItem
              | none =>
                  .withdraw bankTab bankSlot withdrawCount playerBag playerSlot idx bItem none
                    (bItem.count - withdrawCount)
  | _ => badSyntax "WithdrawItem" msg

/-- The two slots of a move or a split are out of range. -/
def slotsOutOfRange (bankTab fromSlot toSlot : UInt8) : Prop :=
  bankTab = 0 ∨ maxTabs < bankTab.toUInt32 ∨ fromSlot = 0 ∨ bankTabSize < fromSlot.toUInt32 ∨
    toSlot = 0 ∨ bankTabSize < toSlot.toUInt32

instance (bankTab fromSlot toSlot : UInt8) : Decidable (slotsOutOfRange bankTab fromSlot toSlot) :=
  inferInstanceAs (Decidable (_ ∨ _))

/-- `GuildBank::MoveItem`. -/
def moveCall (se : Session) (w : World T) (msg : List Char) : ItemCall T :=
  match tokenizer msg ':' with
  | [_, tabText, fromText, toText] =>
      let bankTab := atoiByte tabText
      let fromSlot := atoiByte fromText
      let toSlot := atoiByte toText
      if w.bank.canAccessTab se w.player.guid bankTab .moveItem = false then
        .refuse (notify "You dont have access in this tab." "MoveItem:Error:NoRights")
      else if fromSlot = toSlot then .refuse [.addonMessage "MoveItem:Error:SameSourceDest"]
      else if slotsOutOfRange bankTab fromSlot toSlot then
        .refuse [.addonMessage "MoveItem:Error:ParamsOutOfRange"]
      else
        match w.bank.findItem bankTab.toUInt32 fromSlot.toUInt32 with
        | none => .refuse [.addonMessage "MoveItem:Error:CantGetSource"]
        | some (sIdx, sItem) =>
            .move sIdx sItem (w.bank.findItem bankTab.toUInt32 toSlot.toUInt32) bankTab fromSlot
              toSlot
  | _ => badSyntax "MoveItem" msg

/-- `GuildBank::SplitItem`. -/
def splitCall (se : Session) (w : World T) (msg : List Char) : ItemCall T :=
  match tokenizer msg ':' with
  | [_, tabText, fromText, toText, splitText] =>
      let bankTab := atoiByte tabText
      let fromSlot := atoiByte fromText
      let toSlot := atoiByte toText
      if w.bank.canAccessTab se w.player.guid bankTab .splitItem = false then
        .refuse (notify "You dont have access to this tab." "SplitItem:Error:NoRights")
      else if fromSlot = toSlot then .refuse [.addonMessage "SplitItem:Error:fromSlot=toSlot"]
      else if slotsOutOfRange bankTab fromSlot toSlot then
        .refuse [.addonMessage "SplitItem:Error:ParamsOutOfRange"]
      else
        match w.bank.findItem bankTab.toUInt32 fromSlot.toUInt32 with
        | none => .refuse []
        | some (sIdx, sItem) =>
            .split sIdx sItem (w.bank.findItem bankTab.toUInt32 toSlot.toUInt32) toSlot
              (atoiByte splitText)
  | _ => badSyntax "SplitItem" msg

/-- What an item message ends in. -/
def itemCall (se : Session) (w : World T) (op : ItemOp) (msg : List Char) : ItemCall T :=
  match op with
  | .deposit => w.depositCall se msg
  | .withdraw => w.withdrawCall se msg
  | .move => w.moveCall se msg
  | .split => w.splitCall se msg

/-- Carries an item call out. -/
def perform (se : Session) (w : World T) : ItemCall T → World T
  | .refuse answers => { w with out := w.out ++ answers }
  | .depositInFreeSlot bankTab pos pItem =>
      depositItemInFreeSlot se bankTab pos depositRounds w pItem
  | .depositInSlot bankTab bankSlot pos pItem count isNew stack =>
      w.depositItemInSlot se bankTab bankSlot pos pItem count isNew stack
  | .withdraw bankTab bankSlot count playerBag playerSlot idx bItem target remainer =>
      w.withdrawItemTo se bankTab bankSlot count playerBag playerSlot (some idx) bItem target
        remainer false
  | .swap pos bagItem bankItem => w.swapItems se pos bagItem bankItem
  | .move sIdx sItem dest bankTab fromSlot toSlot =>
      w.moveItemTo sIdx sItem dest bankTab fromSlot toSlot
  | .split sIdx sItem dest toSlot split => w.splitItemTo sIdx sItem dest toSlot split

/-- `GuildBank::DepositItem`, `WithdrawItem`, `MoveItem` and `SplitItem`. -/
def handleItem (se : Session) (w : World T) (op : ItemOp) (msg : List Char) : World T :=
  w.perform se (w.itemCall se op msg)

/-- Cuts an answer that would become too long into several, each behind `header`. -/
def packets (header : String) (lines : List String) : List String :=
  let (done, last) := lines.foldl (fun (done, message) line =>
    let message := message ++ line
    if addonMaxPacketSize < message.length then
      (done ++ [String.ofList message.toList.dropLast], header)
    else (done, message)) ([], header)
  if last = header then done ++ [last ++ "end"]
  else done ++ [String.ofList last.toList.dropLast, header ++ "end"]

/-- Sends answers one by one. -/
def sendAll (w : World T) (messages : List String) : World T :=
  messages.foldl sendAddonMessage w

/-- `GuildBank::SendTabItems`. -/
def sendTabItems (se : Session) (w : World T) (msg : List Char) : World T :=
  match tokenizer msg ':' with
  | [_, tabText] =>
      let tab := atoiByte tabText
      let lines := (List.range' 1 bankTabSize.toNat).filterMap fun slot =>
        (w.bank.findItem tab.toUInt32 slot.toUInt32).map fun found => found.2.fullText ++ ";"
      (w.sendWithdrawalsLeft se tab).sendAll (packets s!"TabItems:{tab}:" lines)
  | _ => w.wrongSyntax "TabItems" msg

/-- `GuildBank::SendTabLog`. -/
def sendTabLog (w : World T) (msg : List Char) : World T :=
  match tokenizer msg ':' with
  | [_, tabText] =>
      let tab := atoiByte tabText
      if tab = 0 ∨ maxTabs < tab.toUInt32 then
        w.sendAddonMessage "SendTabLog:Error:ParamsOutOfRange"
      else
        let log := w.bank.log tab.toUInt32
        w.sendAll (packets s!"TabLog:{tab}:" ((log.drop (log.length - logLinesLimit)).map fun line =>
          s!"{line.stamp};{line.playerName};{line.action};{line.item};{line.itemName};" ++
            s!"{line.itemQuality};{line.count};{line.randomPropertyId};{line.enchant}="))
  | _ => w.wrongSyntax "SendTabLog" msg

/-- `GuildBank::SendMoneyLog`. -/
def sendMoneyLog (w : World T) : World T :=
  let log := w.bank.moneyLog
  w.sendAll (packets "MoneyLog:" ((log.drop (log.length - logLinesLimit)).map fun line =>
    s!"{line.stamp};{line.playerName};{line.action};{line.money}="))

end World

/-- The handlers `HandleAddonMessages` looks for keywords of once the bank is unlocked, in the
order it does. `DESTROY_ITEM_ALLOWED` is false, so `DestroyItem` is never run. -/
inductive Handler where
  | unlockTab
  | unlockTabCost
  | sendBankInfo
  | sendTabItems
  | sendTabWithdrawalsLeft
  | sendTabLog
  | sendMoneyLog
  | item (op : ItemOp)
  | updateTab
  | depositMoney
  | withdrawMoney
  deriving DecidableEq, Repr

namespace Handler

/-- The keyword of a handler. -/
def keyword : Handler → String
  | unlockTab => "UnlockTab:"
  | unlockTabCost => "UnlockTabCost:"
  | sendBankInfo => "GetBankInfo:"
  | sendTabItems => "GetTabItems:"
  | sendTabWithdrawalsLeft => "GetTabWithdrawalsLeft:"
  | sendTabLog => "GetTabLog:"
  | sendMoneyLog => "GetMoneyLog:"
  | item .deposit => "DepositItem:"
  | item .withdraw => "WithdrawItem:"
  | item .move => "MoveItem:"
  | item .split => "SplitItem:"
  | updateTab => "UpdateTab:"
  | depositMoney => "DepositMoney:"
  | withdrawMoney => "WithdrawMoney:"

/-- All handlers, in the order of the source. -/
def all : List Handler :=
  [unlockTab, unlockTabCost, sendBankInfo, sendTabItems, sendTabWithdrawalsLeft, sendTabLog,
    sendMoneyLog, item .deposit, item .withdraw, item .move, item .split, updateTab, depositMoney,
    withdrawMoney]

/-- The handlers whose keyword is in the message: one message can run several. -/
def named (msg : List Char) : List Handler :=
  all.filter fun handler => strstr msg handler.keyword

end Handler

namespace World

variable {T : ItemTable}

/-- Runs one handler. -/
def handle (se : Session) (msg : List Char) (w : World T) : Handler → World T
  | .unlockTab => w.unlockTab se msg
  | .unlockTabCost => w.unlockTabCost se msg
  | .sendBankInfo => w.sendBankInfo
  | .sendTabItems => w.sendTabItems se msg
  | .sendTabWithdrawalsLeft => w.sendTabWithdrawalsLeft se msg
  | .sendTabLog => w.sendTabLog msg
  | .sendMoneyLog => w.sendMoneyLog
  | .item op => w.handleItem se op msg
  | .updateTab => w.updateTab se msg
  | .depositMoney => w.depositMoney se msg
  | .withdrawMoney => w.withdrawMoney se msg

/-- `GuildBank::HandleAddonMessages`. -/
def handleAddonMessages (se : Session) (w : World T) (msg : List Char) : World T :=
  if se.canUseGuildBank = false then w
  else if w.bank.saveLock then w.sendAddonMessage "ActionBlockedBySaveLock"
  else if strstr msg "UnlockGuildBank:" then w.unlockGuildBank se msg
  else if w.bank.tabs = 0 then w.sendAddonMessage "BankInfo:NoGuildBank"
  else Lib.run (handle se msg) w (Handler.named msg)

end World

end TwowCore
