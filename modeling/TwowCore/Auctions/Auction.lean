import TwowCore.Lib.Fresh
import TwowCore.Lib.Keyed
import TwowCore.Lib.Run
import TwowCore.Player.Money

/-!
# Auctions

`AuctionEntry` and what happens to it: `HandleAuctionSellItem`, `HandleAuctionPlaceBid`,
`HandleAuctionRemoveItem` and the expiry in `AuctionHouseObject::Update`, with the mails they send.

`debits` and `mails` keep what has been taken from the purses of bidders and what has been sent, each
for the auction of an id, and `closed` keeps the entries as they were when they were removed, with
whether the item was sold. No character here is hardcore.
-/

namespace TwowCore.Auctions

/-- `AuctionEntry`. A bidder of 0 is none. -/
structure AuctionEntry where
  id : ℕ
  itemGuid : UInt32
  owner : UInt32
  ownerAccount : ℕ
  startbid : UInt32
  bid : UInt32
  buyout : UInt32
  expireTime : ℕ
  bidder : UInt32
  deposit : UInt32
  /-- the house, its object and its entry alike: the entries to which `LoadAuctionHouses` gives one object,
  1 to 3 and 4 to 6, are taken to be one house -/
  houseId : ℕ
  deriving DecidableEq, Repr

/-- A character: his account, his purse, and whether he is online. -/
structure Character where
  guid : UInt32
  account : ℕ
  money : UInt32
  online : Bool
  deriving DecidableEq, Repr

/-- The mails of the auction house. -/
inductive MailKind where
  | outbidded
  | cancelledToBidder
  | won
  | successful
  | expired
  | canceled
  deriving DecidableEq, Repr

/-- A mail, with the auction that sends it. -/
structure AuctionMail where
  auctionId : ℕ
  kind : MailKind
  receiver : UInt32
  money : UInt32
  item : Option UInt32
  deriving DecidableEq, Repr

/-- What has been taken from the purse of a bidder for an auction. -/
structure Debit where
  auctionId : ℕ
  bidder : UInt32
  amount : ℕ
  deriving DecidableEq, Repr

/-- The auctions of all houses. `aItems` are the guids of the items in `mAitems`, and `auctionIds`
is `m_AuctionsIds`. -/
structure AuctionWorld where
  characters : List Character
  auctions : List AuctionEntry
  aItems : List UInt32
  auctionIds : List ℕ
  nextAuctionId : ℕ
  debits : List Debit
  mails : List AuctionMail
  closed : List (AuctionEntry × Bool)
  deriving DecidableEq, Repr

/-- `AuctionHouseEntry` and the configuration: the cut of a bid, the times an auction may run, and
how many auctions an account may have, 0 being any number. -/
structure HouseConfig where
  auctionCut : ℕ → UInt32 → UInt32
  rateTime : UInt32 → ℕ
  accountLimit : ℕ

/-- `MIN_AUCTION_TIME`, in seconds. -/
def minAuctionTime : UInt32 := 7200

/-- The packet of `HandleAuctionSellItem`, with what the checks find out beyond what the model knows:
the deposit, whether the seller may use the house, and whether the item lies in his inventory, outside
the bank, and may be traded. -/
structure SellRequest where
  houseId : ℕ
  itemGuid : UInt32
  bid : UInt32
  buyout : UInt32
  etime : UInt32
  deposit : UInt32
  allowed : Bool
  mayList : Bool
  deriving DecidableEq, Repr

namespace AuctionEntry

/-- `GetAuctionOutBid`. -/
def getAuctionOutBid (e : AuctionEntry) : UInt32 :=
  if e.bid / 100 * 5 = 0 then 1 else e.bid / 100 * 5

/-- `GetAuctionCut`. -/
def getAuctionCut (c : HouseConfig) (e : AuctionEntry) : UInt32 := c.auctionCut e.houseId e.bid

end AuctionEntry

namespace AuctionWorld

/-- The character of a guid. -/
def findCharacter (w : AuctionWorld) (guid : UInt32) : Option Character :=
  w.characters.find? fun p => p.guid = guid

/-- `GetPlayer` or `GetPlayerAccountIdByGUID` finds the character. -/
def Exists (w : AuctionWorld) (guid : UInt32) : Prop := (w.findCharacter guid).isSome = true

instance (w : AuctionWorld) (guid : UInt32) : Decidable (w.Exists guid) :=
  inferInstanceAs (Decidable (_ = true))

/-- `ObjectMgr::GenerateAuctionID`: the loop goes on while the next id is used, and no further than
the used ids go. -/
def generateAuctionID (w : AuctionWorld) : ℕ :=
  Lib.nextFree w.auctionIds w.auctionIds.length w.nextAuctionId

/-- `GetAuction`. -/
def getAuction (w : AuctionWorld) (houseId auctionId : ℕ) : Option AuctionEntry :=
  w.auctions.find? fun e => e.id = auctionId ∧ e.houseId = houseId

/-- Writes a character. -/
def writeCharacter (w : AuctionWorld) (guid : UInt32) (f : Character → Character) : AuctionWorld :=
  { w with characters := Lib.writeKey Character.guid guid f w.characters }

/-- `ModifyMoney`. -/
def modifyMoney (w : AuctionWorld) (p : Character) (amount : Int32) : AuctionWorld :=
  w.writeCharacter p.guid fun p => { p with money := Player.modifiedMoney p.money amount }

/-- The bidder pays, with a record of what has gone from his purse. -/
def pay (w : AuctionWorld) (p : Character) (e : AuctionEntry) (amount : UInt32) : AuctionWorld :=
  { w.modifyMoney p (-amount.toInt32) with
    debits := w.debits ++ [⟨e.id, p.guid,
      p.money.toNat - (Player.modifiedMoney p.money (-amount.toInt32)).toNat⟩] }

/-- `SendMailTo`, to a character who exists. -/
def sendMail (w : AuctionWorld) (m : AuctionMail) : AuctionWorld :=
  if w.Exists m.receiver then { w with mails := w.mails ++ [m] } else w

/-- `SendAuctionOutbiddedMail`. -/
def sendAuctionOutbiddedMail (w : AuctionWorld) (e : AuctionEntry) : AuctionWorld :=
  w.sendMail ⟨e.id, .outbidded, e.bidder, e.bid, none⟩

/-- `SendAuctionCancelledToBidderMail`. -/
def sendAuctionCancelledToBidderMail (w : AuctionWorld) (e : AuctionEntry) : AuctionWorld :=
  w.sendMail ⟨e.id, .cancelledToBidder, e.bidder, e.bid, none⟩

/-- `SendAuctionWonMail`. -/
def sendAuctionWonMail (w : AuctionWorld) (e : AuctionEntry) : AuctionWorld :=
  if e.itemGuid ∉ w.aItems then w
  else w.sendMail ⟨e.id, .won, e.bidder, 0, some e.itemGuid⟩

/-- `SendAuctionSuccessfulMail`. -/
def sendAuctionSuccessfulMail (c : HouseConfig) (w : AuctionWorld) (e : AuctionEntry) :
    AuctionWorld :=
  w.sendMail ⟨e.id, .successful, e.owner, e.bid + e.deposit - e.getAuctionCut c, none⟩

/-- `SendAuctionExpiredMail`. -/
def sendAuctionExpiredMail (w : AuctionWorld) (e : AuctionEntry) : AuctionWorld :=
  if e.itemGuid ∉ w.aItems then w
  else w.sendMail ⟨e.id, .expired, e.owner, 0, some e.itemGuid⟩

/-- `RemoveAItem` and `RemoveAuction`, with a record of the entry. -/
def removeAuction (w : AuctionWorld) (e : AuctionEntry) (sold : Bool) : AuctionWorld :=
  { w with
    aItems := w.aItems.filter fun guid => guid ≠ e.itemGuid
    auctions := Lib.eraseKey AuctionEntry.id e.id w.auctions
    auctionIds := w.auctionIds.filter fun id => id ≠ e.id
    closed := w.closed ++ [(e, sold)] }

/-- Writes the bidder and the bid of an entry. -/
def writeBid (w : AuctionWorld) (id : ℕ) (bidder bid : UInt32) : AuctionWorld :=
  { w with
    auctions := Lib.writeKey AuctionEntry.id id (fun e => { e with bidder := bidder, bid := bid })
      w.auctions }

/-- The checks of `HandleAuctionSellItem`. -/
def maySell (c : HouseConfig) (w : AuctionWorld) (p : Character) (req : SellRequest) : Bool :=
  if req.bid = 0 ∨ req.etime = 0 ∨ req.allowed = false then false
  else if 2000000000 < req.bid ∨ 2000000000 < req.buyout then false
  else if req.buyout ≠ 0 ∧ req.buyout < req.bid then false
  else if c.accountLimit ≠ 0 ∧ c.accountLimit ≤ (w.auctions.countP fun e =>
      e.houseId = req.houseId ∧ e.ownerAccount = p.account) then false
  else if req.etime * 60 ≠ minAuctionTime ∧ req.etime * 60 ≠ 4 * minAuctionTime ∧
      req.etime * 60 ≠ 12 * minAuctionTime then false
  else if req.itemGuid = 0 ∨ req.itemGuid ∈ w.aItems then false
  else req.mayList && req.deposit ≤ p.money

/-- The entry of a new auction. -/
def newEntry (c : HouseConfig) (w : AuctionWorld) (p : Character) (req : SellRequest) (now : ℕ) :
    AuctionEntry where
  id := w.generateAuctionID
  itemGuid := req.itemGuid
  owner := p.guid
  ownerAccount := p.account
  startbid := req.bid
  bid := 0
  buyout := req.buyout
  expireTime := now + c.rateTime (req.etime * 60)
  bidder := 0
  deposit := req.deposit
  houseId := req.houseId

/-- `HandleAuctionSellItem`. -/
def handleAuctionSellItem (c : HouseConfig) (w : AuctionWorld) (player : UInt32)
    (req : SellRequest) (now : ℕ) : AuctionWorld :=
  match w.findCharacter player with
  | none => w
  | some p =>
      if w.maySell c p req then
        { w.modifyMoney p (-req.deposit.toInt32) with
          auctions := w.auctions ++ [w.newEntry c p req now]
          aItems := w.aItems ++ [req.itemGuid]
          auctionIds := w.auctionIds ++ [w.generateAuctionID]
          nextAuctionId := w.generateAuctionID + 1 }
      else w

/-- The checks of `HandleAuctionPlaceBid`. -/
def mayBid (w : AuctionWorld) (p : Character) (e : AuctionEntry) (price : UInt32) : Bool :=
  if e.owner = p.guid then false
  -- another character of the owner's account
  else if (w.findCharacter e.owner).any fun owner =>
      owner.online = false ∧ owner.account = p.account then false
  else if price < e.startbid then false
  else if price ≤ e.bid then false
  else if (price < e.buyout ∨ e.buyout = 0) ∧ price < e.bid + e.getAuctionOutBid then false
  else price ≤ p.money

/-- The bidder pays the price, or what it is more than his own bid, and an outbidden one gets his
money back. -/
def takeBid (w : AuctionWorld) (p : Character) (e : AuctionEntry) (price : UInt32) : AuctionWorld :=
  if p.guid = e.bidder then w.pay p e (price - e.bid)
  else if e.bidder ≠ 0 then (w.pay p e price).sendAuctionOutbiddedMail e
  else w.pay p e price

/-- `HandleAuctionPlaceBid`. -/
def handleAuctionPlaceBid (c : HouseConfig) (w : AuctionWorld) (player : UInt32)
    (houseId auctionId : ℕ) (price : UInt32) (allowed : Bool) : AuctionWorld :=
  if allowed = false ∨ auctionId = 0 ∨ price = 0 then w
  else
    match w.findCharacter player, w.getAuction houseId auctionId with
    | some p, some e =>
        if w.mayBid p e price = false then w
        else if price < e.buyout ∨ e.buyout = 0 then
          (w.takeBid p e price).writeBid e.id p.guid price
        else
          let e' := { e with bidder := p.guid, bid := e.buyout }
          (((w.takeBid p e e.buyout).sendAuctionSuccessfulMail c e').sendAuctionWonMail
            e').removeAuction e' true
    | _, _ => w

/-- `HandleAuctionRemoveItem`. -/
def handleAuctionRemoveItem (c : HouseConfig) (w : AuctionWorld) (player : UInt32)
    (houseId auctionId : ℕ) : AuctionWorld :=
  match w.findCharacter player, w.getAuction houseId auctionId with
  | some p, some e =>
      if e.owner ≠ p.guid then w
      else if e.itemGuid ∉ w.aItems then w
      else if e.bidder = 0 then
        (w.sendMail ⟨e.id, .canceled, p.guid, 0, some e.itemGuid⟩).removeAuction e false
      else if p.money < e.getAuctionCut c then w
      else
        ((((w.sendAuctionCancelledToBidderMail e).modifyMoney p
          (-(e.getAuctionCut c).toInt32))).sendMail
            ⟨e.id, .canceled, p.guid, 0, some e.itemGuid⟩).removeAuction e false
  | _, _ => w

/-- The body of the loop of `AuctionHouseObject::Update`. -/
def expire (c : HouseConfig) (curTime : ℕ) (w : AuctionWorld) (e : AuctionEntry) : AuctionWorld :=
  if e.expireTime < curTime then
    if e.bidder = 0 then (w.sendAuctionExpiredMail e).removeAuction e false
    else ((w.sendAuctionSuccessfulMail c e).sendAuctionWonMail e).removeAuction e true
  else w

/-- `AuctionHouseObject::Update`, which visits every entry of the house once. -/
def update (c : HouseConfig) (w : AuctionWorld) (houseId curTime : ℕ) : AuctionWorld :=
  (w.auctions.filter fun e => e.houseId = houseId).foldl (expire c curTime) w

end AuctionWorld

/-- What happens to the auctions. A session begins or ends with `session`, and whatever else fills or
empties a purse leaves it within its cap with `purse`. -/
inductive AuctionEvent where
  | sell (player : UInt32) (req : SellRequest) (now : ℕ)
  | placeBid (player : UInt32) (houseId auctionId : ℕ) (price : UInt32) (allowed : Bool)
  | removeItem (player : UInt32) (houseId auctionId : ℕ)
  | update (houseId curTime : ℕ)
  | session (player : UInt32) (online : Bool)
  | purse (player : UInt32) (balance : UInt32)

/-- One event. -/
def auctionStep (c : HouseConfig) (w : AuctionWorld) : AuctionEvent → AuctionWorld
  | .sell player req now => w.handleAuctionSellItem c player req now
  | .placeBid player houseId auctionId price allowed =>
      w.handleAuctionPlaceBid c player houseId auctionId price allowed
  | .removeItem player houseId auctionId => w.handleAuctionRemoveItem c player houseId auctionId
  | .update houseId curTime => w.update c houseId curTime
  | .session player online => w.writeCharacter player fun p => { p with online := online }
  | .purse player balance =>
      w.writeCharacter player fun p => { p with money := min balance maxMoneyAmount }

/-- The houses before the first auction. -/
def opened (characters : List Character) : AuctionWorld :=
  ⟨characters, [], [], [], 1, [], [], []⟩

end TwowCore.Auctions
