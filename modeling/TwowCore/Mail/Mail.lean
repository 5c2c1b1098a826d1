import TwowCore.Lib.Keyed
import TwowCore.Lib.Run
import TwowCore.Player.Money
import TwowCore.Player.Store

/-!
# Mail

The mails of a realm and the four handlers that move money and items through them:
`HandleSendMailCallback`, `HandleMailTakeMoney`, `HandleMailTakeItem` and
`HandleMailReturnToSender`, with `SendMailTo` and `SendReturnToSender` under them.

A mail that is not deleted is in `mails` with the items it holds. All of them are `MAIL_NORMAL`: a
sender of 0 is that of `PLAYER_ANON_MAIL`. No player here is hardcore.
-/

namespace TwowCore

/-- `Mail`, as far as money and items go. -/
structure Mail (T : ItemTable) where
  id : ℕ
  sender : UInt32
  receiver : UInt32
  money : UInt32
  cod : UInt32
  items : List (Item T)
  deliverTime : ℕ

/-- The players, their mails, and the counters of mails and item guids. `sent` counts the mails
that players have sent. -/
structure MailWorld (T : ItemTable) where
  players : List (Player T)
  mails : List (Mail T)
  nextMailId : ℕ
  nextItemGuid : UInt32
  sent : ℕ

/-- `AsyncMailSendRequest`, with what its callback finds out about the sender, the receiver and the
item beyond what the model knows: `mailsCount`, whether the factions may mail each
other, whether both have one account, whether the item is in the world, may be unequipped, is being
looted or is bound by an enchantment, whether the spam checks and the script let the mail through,
and whether the sender has `PLAYER_ANON_MAIL`. -/
structure SendRequest where
  receiver : UInt32
  itemGuid : UInt32
  money : UInt32
  cod : UInt32
  mailsCount : UInt8
  teamAllowed : Bool
  sameAccount : Bool
  inWorld : Bool
  canUnequip : Bool
  isLooting : Bool
  boundByEnchant : Bool
  passesSpamCheck : Bool
  canMail : Bool
  scriptAllows : Bool
  anonymous : Bool
  deriving DecidableEq, Repr

namespace Player

variable {T : ItemTable}

/-- `Player::GetItemByGuid`: where the item lies. -/
def getItemByGuid (p : Player T) (guid : UInt32) : Option ItemPos :=
  (p.allPositions true).find? fun pos => (p.getItemByPos pos).any fun item => item.guid = guid

/-- `Player::IsBankPos`. -/
def isBankPos (pos : ItemPos) : Bool :=
  (pos.bag == inventorySlotBag0 && bankSlotItemStart ≤ pos.slot && pos.slot < bankSlotBagEnd) ||
    (bankSlotBagStart ≤ pos.bag && pos.bag < bankSlotBagEnd)

/-- Whether a bag is empty is decided slot by slot. -/
instance (p : Player T) (slot : UInt8) : Decidable (p.EmptyBag slot) :=
  decidable_of_iff (∀ inner : Fin 256, p.items ⟨slot, UInt8.ofNat inner⟩ = none) <| by
    constructor
    · intro h inner
      have hinner := h ⟨inner.toNat, inner.toNat_lt⟩
      rw [UInt8.ofNat_toNat] at hinner
      exact hinner
    · exact fun h inner => h _

/-- `Item::CanBeTraded`. -/
def canBeTraded (p : Player T) (pos : ItemPos) (item : Item T) (req : SendRequest) : Bool :=
  if item.isSoulBound = true ∧ item.tradeAllowed = false then false
  else if item.isBag = true ∧ isBagPos pos = true then false
  -- `Bag::IsEmpty`; nothing lies in an item that is not a bag
  else if pos.bag = inventorySlotBag0 ∧ ¬p.EmptyBag pos.slot then false
  else if req.canUnequip = false ∨ req.isLooting = true then false
  else if item.hasGeneratedLoot then false
  else !req.boundByEnchant

/-- The item asked for and where it lies, if it may be mailed. -/
def mailedItem (p : Player T) (req : SendRequest) : Option (ItemPos × Item T) :=
  match p.getItemByGuid req.itemGuid with
  | none => none
  | some pos =>
      match p.getItemByPos pos with
      | none => none
      | some item =>
          if req.inWorld = false then none
          else if isBankPos pos then none
          else if item.flags &&& Item.dynflagBoa = 0 ∧ p.canBeTraded pos item req = false then none
          else if item.flags &&& Item.dynflagBoa ≠ 0 ∧ req.sameAccount = false then none
          else if p.canBeTraded pos item req = false ∨ item.isSoulBound = true then none
          else if item.proto.flags &&& ItemPrototype.flagConjured ≠ 0 ∨ item.duration ≠ 0 then none
          else some (pos, item)

end Player

namespace MailWorld

variable {T : ItemTable}

/-- The player of a guid. -/
def findPlayer (w : MailWorld T) (guid : UInt32) : Option (Player T) :=
  w.players.find? fun p => p.guid = guid

/-- `GetPlayerAccountIdByGUID` finds an account. -/
def Exists (w : MailWorld T) (guid : UInt32) : Prop := (w.findPlayer guid).isSome = true

instance (w : MailWorld T) (guid : UInt32) : Decidable (w.Exists guid) :=
  inferInstanceAs (Decidable (_ = true))

/-- Writes a player. -/
def writePlayer (w : MailWorld T) (p : Player T) : MailWorld T :=
  { w with players := Lib.writeKey Player.guid p.guid (fun _ => p) w.players }

/-- `GetMail`, of the mailbox of a player. -/
def getMail (w : MailWorld T) (player : UInt32) (mailId : ℕ) : Option (Mail T) :=
  w.mails.find? fun m => m.id = mailId ∧ m.receiver = player

/-- Writes a mail. -/
def writeMail (w : MailWorld T) (m : Mail T) : MailWorld T :=
  { w with mails := Lib.writeKey Mail.id m.id (fun _ => m) w.mails }

/-- `SendMailTo`. -/
def sendMailTo (w : MailWorld T) (receiver sender money cod : UInt32) (items : List (Item T))
    (deliverTime : ℕ) : MailWorld T :=
  { w with
    mails := w.mails ++ [⟨w.nextMailId, sender, receiver, money, cod, items, deliverTime⟩]
    nextMailId := w.nextMailId + 1 }

/-- The player pays for a mail and gives the item away, if there is one. -/
def handOver (p : Player T) (reqmoney : UInt32) (item : Option (ItemPos × Item T)) : Player T :=
  match item with
  | none => p.modifyMoney (-reqmoney.toInt32)
  | some (pos, _) => (p.modifyMoney (-reqmoney.toInt32)).moveItemFromInventory pos

/-- `HandleSendMailCallback`. -/
def handleSendMailCallback (w : MailWorld T) (sender : UInt32) (req : SendRequest)
    (now mailDeliveryDelay : ℕ) : MailWorld T :=
  match w.findPlayer sender with
  | none => w
  | some pl =>
      let reqmoney := req.money + 30
      if reqmoney < req.money then w
      else if pl.money < reqmoney then w
      else if 100 < req.mailsCount then w
      else if req.teamAllowed = false then w
      else if req.itemGuid ≠ 0 ∧ (pl.mailedItem req).isNone = true then w
      else if req.passesSpamCheck = false then w
      else if req.canMail = false then w
      else if req.scriptAllows = false then w
      else
        let item := if req.itemGuid = 0 then none else pl.mailedItem req
        let delay := if req.anonymous ∨ req.itemGuid = 0 then 0 else mailDeliveryDelay
        let cod := if item.isNone then 0 else req.cod
        { (w.writePlayer (handOver pl reqmoney item)).sendMailTo req.receiver
            (if req.anonymous then 0 else pl.guid) req.money cod
            (item.map Prod.snd).toList (now + delay) with
          sent := w.sent + 1 }

/-- `HandleMailTakeMoney`. -/
def handleMailTakeMoney (w : MailWorld T) (player : UInt32) (mailId now : ℕ) : MailWorld T :=
  match w.findPlayer player, w.getMail player mailId with
  | some pl, some m =>
      if now < m.deliverTime then w
      else (w.writePlayer (pl.modifyMoney m.money.toInt32)).writeMail { m with money := 0 }
  | _, _ => w

/-- `MAX_COUNTER` of item guids, where the guid generator stops the world. -/
def maxItemGuid : ℕ := 2 ^ 32

/-- What `HandleMailTakeItem` takes out of a mail, if its checks let it: the item, the items that
stay, and the plan for its place. -/
def takenItem (pl : Player T) (m : Mail T) (now : ℕ) (gmAllowsTrades : Bool) :
    Option (Item T × List (Item T) × List ItemPosCount) :=
  if now < m.deliverTime then none
  else
    match m.items with
    | [] => none
    | it :: rest =>
        if pl.money < m.cod then none
        else if gmAllowsTrades = false ∧ m.cod ≠ 0 then none
        else
          let plan := pl.canStoreItem nullBag nullSlot ⟨it, none, false⟩ false
          if plan.result = .ok then some (it, rest, plan.dest) else none

/-- The `COD` of a mail is sent to its sender, if he exists. -/
def payCod (w : MailWorld T) (pl : Player T) (m : Mail T) (now : ℕ) : MailWorld T :=
  if m.cod = 0 then w
  else if w.Exists m.sender then w.sendMailTo m.sender pl.guid m.cod 0 [] now
  else w

/-- `HandleMailTakeItem`. The world stops when the guids of items are used up. -/
def handleMailTakeItem (w : MailWorld T) (player : UInt32) (mailId now : ℕ)
    (gmAllowsTrades : Bool) : MailWorld T :=
  match w.findPlayer player, w.getMail player mailId with
  | some pl, some m =>
      match takenItem pl m now gmAllowsTrades with
      | none => w
      | some (it, rest, dest) =>
          if maxItemGuid ≤ w.nextItemGuid.toNat + dest.length then w
          else
            let w := (w.writeMail { m with items := rest, cod := 0 }).payCod pl m now
            let pl := if m.cod = 0 then pl else pl.modifyMoney (-m.cod.toInt32)
            let pl := (pl.setNextItemGuid w.nextItemGuid).moveItemToInventory dest it
            { w.writePlayer pl with nextItemGuid := pl.nextItemGuid }
  | _, _ => w

/-- `HandleMailReturnToSender`, with `SendReturnToSender`. -/
def handleMailReturnToSender (w : MailWorld T) (player : UInt32) (mailId now : ℕ) : MailWorld T :=
  match w.findPlayer player, w.getMail player mailId with
  | some _, some m =>
      if now < m.deliverTime then w
      else
        let w := { w with mails := Lib.eraseKey Mail.id mailId w.mails }
        if m.sender ≠ 0 ∧ w.Exists m.sender then
          w.sendMailTo m.sender m.receiver m.money 0 m.items now
        else w
  | _, _ => w

end MailWorld

/-- What happens to the mails. -/
inductive MailEvent where
  | send (sender : UInt32) (req : SendRequest) (now mailDeliveryDelay : ℕ)
  | takeMoney (player : UInt32) (mailId now : ℕ)
  | takeItem (player : UInt32) (mailId now : ℕ) (gmAllowsTrades : Bool)
  | returnToSender (player : UInt32) (mailId now : ℕ)

/-- One event. -/
def mailStep {T : ItemTable} (w : MailWorld T) : MailEvent → MailWorld T
  | .send sender req now mailDeliveryDelay =>
      w.handleSendMailCallback sender req now mailDeliveryDelay
  | .takeMoney player mailId now => w.handleMailTakeMoney player mailId now
  | .takeItem player mailId now gmAllowsTrades =>
      w.handleMailTakeItem player mailId now gmAllowsTrades
  | .returnToSender player mailId now => w.handleMailReturnToSender player mailId now

end TwowCore
