import TwowCore.Item.Item
import TwowCore.Player.Money
import TwowCore.Lib.Run

/-!
# Trading

Two players with an open trade: what each keeps in `TradeData`, the handlers of the trade packets, and
the requests on the inventory that can change an item while it lies in the trade window. `TradeData`
names the offered items by guid and finds them again when the exchange is executed.

An inventory is the items by guid. Where items lie is not kept: the places a search for room comes to are
part of the request, named by the guid of what lies or will lie there, as is what the handlers read from
elsewhere. What `CanStoreItem` plans at these places and what `StoreItem` makes of it is computed from the
inventory, and what a side receives is read from the inventory it ends with.

`Traders` also remembers, for each side, what it was offered when it last accepted.
-/

namespace TwowCore.Trade

/-- The two players. -/
inductive Side where
  | mine
  | his
  deriving DecidableEq, Repr

/-- The trader of a player. -/
def Side.trader : Side → Side
  | .mine => .his
  | .his => .mine

/-- `TradeSlots`: six that are traded, and `TRADE_SLOT_NONTRADED`. -/
abbrev TradeSlots := Fin 7

/-- `TRADE_SLOT_NONTRADED`. -/
def tradeSlotNonTraded : TradeSlots := 6

/-- A slot whose item is traded. -/
def tradedSlot (slot : Fin 6) : TradeSlots := slot.castSucc

/-- `TradeData`. An empty guid is 0. -/
structure TradeData where
  items : TradeSlots → UInt32
  money : UInt32
  spell : UInt32
  spellCastItem : UInt32
  accepted : Bool
  lastModificationTime : ℕ
  scamPreventionDelay : ℕ

/-- The constructor of `TradeData`, and `SetScamPreventionDelay(200)`. -/
def TradeData.new : TradeData := ⟨fun _ => 0, 0, 0, 0, false, 0, 200⟩

/-- A player: the items by guid, and the money. -/
structure Trader (T : ItemTable) where
  items : UInt32 → Option (Item T)
  money : UInt32

/-- What a side is offered: the entries and the stack counts in the traded slots, the gold, and the
spell that is cast on its item. -/
structure Offer where
  items : Fin 6 → Option (UInt32 × UInt32)
  money : UInt32
  spell : UInt32
  deriving DecidableEq

/-- What `StoreItem` is told: how many units go to the item of a guid, which may be new. -/
abbrev StorePlan := List (UInt32 × UInt32)

/-- The units of a plan. -/
def StorePlan.units (plan : StorePlan) : ℕ := (plan.map fun place => place.2.toNat).sum

/-- The units of an entry that an item is. -/
def unitsOf {T : ItemTable} (entry : UInt32) : Option (Item T) → ℕ
  | some item => if item.entry = entry then item.count.toNat else 0
  | none => 0

namespace Trader

variable {T : ItemTable}

/-- Writes the item of a guid. -/
def setItem (trader : Trader T) (guid : UInt32) (item : Option (Item T)) : Trader T :=
  { trader with items := Function.update trader.items guid item }

/-- `StoreItem`, at one place: units are added to a stack, or are an item of their own. -/
def storeAt (item : Item T) (trader : Trader T) (place : UInt32 × UInt32) : Trader T :=
  match trader.items place.1 with
  | none => trader.setItem place.1 (some { item.setCount place.2 with guid := place.1 })
  | some stack => trader.setItem place.1 (some (stack.setCount (stack.count + place.2)))

/-- `StoreItem`. -/
def storeItem (trader : Trader T) (plan : StorePlan) (item : Item T) : Trader T :=
  plan.foldl (storeAt item) trader

/-- The room that a search finds at a place for an item: that of a free slot, or of a stack to merge with. -/
def room (trader : Trader T) (item : Item T) (guid : UInt32) : Option UInt32 :=
  match trader.items guid with
  | none => some item.getMaxStackCount
  | some stack =>
      if stack.canBeMergedPartlyWith item.proto = .ok then some (item.getMaxStackCount - stack.count)
      else none

/-- A search comes to a place, with what is planned and the units that are left. -/
def planPlace (trader : Trader T) (item : Item T) (dest : StorePlan × UInt32) (guid : UInt32) :
    StorePlan × UInt32 :=
  if dest.2 = 0 ∨ guid ∈ dest.1.map Prod.fst then dest
  else
    match trader.room item guid with
    | none => dest
    | some room =>
        let needSpace := if dest.2 < room then dest.2 else room
        (dest.1 ++ [(guid, needSpace)], dest.2 - needSpace)

/-- `CanStoreItem`: what is planned after `dest`, and the units without space. It answers `EQUIP_ERR_OK` when
there are none. -/
def canStoreItem (trader : Trader T) (item : Item T) (places : List UInt32) (dest : StorePlan) :
    StorePlan × UInt32 :=
  places.foldl (trader.planPlace item) (dest, item.count)

/-- The units of an entry at some places. -/
def unitsAt (trader : Trader T) (entry : UInt32) (places : List UInt32) : ℕ :=
  ∑ guid ∈ places.toFinset, unitsOf entry (trader.items guid)

end Trader

/-- Both players, the trade between them, and what each side was offered when it last accepted. The
trade data of both is made and deleted together. -/
structure Traders (T : ItemTable) where
  trader : Side → Trader T
  trade : Option (Side → TradeData)
  seen : Side → Option Offer

/-- What `HandleAcceptTradeOpcode` reads from elsewhere. -/
structure AcceptEnv where
  now : ℕ
  blocked : Bool
  tooFar : Bool
  gmRefused : Bool
  luaRefused : Bool
  canBeTraded : UInt32 → Bool
  /-- the spell of a side exists and `CheckCast` allows it -/
  castable : Side → Bool
  /-- `CanStoreItems` of a side answers `EQUIP_ERR_OK` -/
  canStoreItems : Side → Bool
  /-- the places `CanStoreItem` of a side comes to in `moveItems` for what it gets from a slot -/
  places : Side → Fin 6 → List UInt32
  /-- and for an item that is given back -/
  placesBack : Side → Fin 6 → List UInt32

namespace Traders

variable {T : ItemTable}

/-- Writes a player. -/
def setTrader (s : Traders T) (side : Side) (trader : Trader T) : Traders T :=
  { s with trader := Function.update s.trader side trader }

/-- Writes the trade data of both. -/
def setTrade (s : Traders T) (trade : Side → TradeData) : Traders T := { s with trade := some trade }

/-- `GetItemByGuid`. -/
def itemOf (s : Traders T) (side : Side) (guid : UInt32) : Option (Item T) :=
  if guid = 0 then none else (s.trader side).items guid

/-- What a side puts into the trade, as it would be found now. -/
def offerOf (s : Traders T) (trade : Side → TradeData) (side : Side) : Offer where
  items slot := (s.itemOf side ((trade side).items (tradedSlot slot))).map fun item =>
    (item.entry, item.count)
  money := (trade side).money
  spell := (trade side).spell

end Traders

section TradeData

variable (trade : Side → TradeData) (side : Side)

/-- `SetAccepted`. -/
def setAccepted (accepted : Bool) : Side → TradeData :=
  Function.update trade side { trade side with accepted }

/-- `SetLastModificationTime`. -/
def setLastModificationTime (now : ℕ) : Side → TradeData :=
  Function.update trade side { trade side with lastModificationTime := now }

/-- What follows a change of what a side offers: nobody has accepted it. -/
def unacceptBoth : Side → TradeData := setAccepted (setAccepted trade side false) side.trader false

/-- `SetSpell`. -/
def setSpell (spell castItem : UInt32) : Side → TradeData :=
  if (trade side).spell = spell ∧ (trade side).spellCastItem = castItem then trade
  else
    unacceptBoth (Function.update trade side { trade side with spell, spellCastItem := castItem })
      side

/-- `SetMoney`. -/
def setMoney (money : UInt32) : Side → TradeData :=
  if (trade side).money = money then trade
  else unacceptBoth (Function.update trade side { trade side with money }) side

/-- `SetItem`. -/
def setItem (slot : TradeSlots) (guid : UInt32) : Side → TradeData :=
  if (trade side).items slot = guid then trade
  else
    let changed := unacceptBoth (Function.update trade side
      { trade side with items := Function.update (trade side).items slot guid }) side
    let changed := if slot = tradeSlotNonTraded then setSpell changed side.trader 0 0 else changed
    setSpell changed side 0 0

/-- What the handlers of gold and items write before they change the offer. -/
def modified (now : ℕ) : Side → TradeData :=
  setLastModificationTime (setLastModificationTime (setAccepted trade side.trader false)
    side.trader now) side now

end TradeData

namespace Traders

variable {T : ItemTable} (s : Traders T) (side : Side)

section Requests

/-- `HandleSetTradeGoldOpcode`. -/
def handleSetTradeGold (gold : UInt32) (now : ℕ) : Traders T :=
  match s.trade with
  | none => s
  | some trade =>
      if (s.trader side).money < gold then s
      else s.setTrade (setMoney (modified trade side now) side gold)

/-- `HandleSetTradeItemOpcode`; `allowed` is what it finds out about the item itself. -/
def handleSetTradeItem (slot : TradeSlots) (guid : UInt32) (allowed : Bool) (now : ℕ) :
    Traders T :=
  match s.trade with
  | none => s
  | some trade =>
      if (s.itemOf side guid).isNone ∨ allowed = false ∨ (∃ other, (trade side).items other = guid)
      then s
      else s.setTrade (setItem (modified trade side now) side slot guid)

/-- `HandleClearTradeItemOpcode`. -/
def handleClearTradeItem (slot : TradeSlots) (now : ℕ) : Traders T :=
  match s.trade with
  | none => s
  | some trade => s.setTrade (setItem (modified trade side now) side slot 0)

/-- A spell is cast on the item in the slot that is not traded, in `Spell::CheckCast`. -/
def castOnTradeItem (spell castItem : UInt32) : Traders T :=
  match s.trade with
  | none => s
  | some trade => s.setTrade (setSpell trade side spell castItem)

/-- `HandleUnacceptTradeOpcode`. -/
def handleUnacceptTrade : Traders T :=
  match s.trade with
  | none => s
  | some trade => s.setTrade (setAccepted trade side false)

/-- A trade is opened, when none is. -/
def beginTrade : Traders T :=
  if s.trade.isNone then s.setTrade fun _ => .new else s

/-- `TradeCancel`. -/
def tradeCancel : Traders T := { s with trade := none }

end Requests

section Inventory

/-- The item lies in the trade window of its owner, in some slot: `GetTradeSlotForItem`. -/
def InTradeSlot (guid : UInt32) : Prop :=
  match s.trade with
  | none => False
  | some trade => ∃ slot, (trade side).items slot = guid

instance (guid : UInt32) : Decidable (s.InTradeSlot side guid) := by
  unfold InTradeSlot
  split <;> infer_instance

/-- What `SplitItem` plans for the new item, by `CanStoreItem`, `CanBankItem` or `CanEquipItem`: a stack that is
there, or a new guid. -/
def splitPlan (item : Item T) (src count : UInt32) (places : List UInt32) : StorePlan × UInt32 :=
  ((s.trader side).setItem src (some (item.setCount (item.count - count)))).canStoreItem
    (item.setCount count) places []

/-- `SplitItem`, with the places that the search for room comes to. -/
def splitItem (src count : UInt32) (lootGenerated : Bool) (places : List UInt32) : Traders T :=
  match (s.trader side).items src with
  | none => s
  | some item =>
      if lootGenerated ∨ item.count ≤ count ∨ count = 0 ∨ s.InTradeSlot side src then s
      else if (s.splitPlan side item src count places).2 = 0 then
        s.setTrader side
          (((s.trader side).setItem src (some (item.setCount (item.count - count)))).storeItem
            (s.splitPlan side item src count places).1 (item.setCount count))
      else s

/-- `SwapItem` of two items that are no bags. When the check that would store one with the other
answers well they are merged, or the stack at the destination is filled; else they change places. -/
def swapItem (src dst : UInt32) (merges : Bool) : Traders T :=
  match (s.trader side).items src, (s.trader side).items dst with
  | some srcItem, some dstItem =>
      if merges = false ∨ src = dst then s
      else if srcItem.count + dstItem.count ≤ srcItem.getMaxStackCount then
        s.setTrader side (((s.trader side).setItem src none).setItem dst
          (some (dstItem.setCount (dstItem.count + srcItem.count))))
      else
        s.setTrader side (((s.trader side).setItem src
          (some (srcItem.setCount
            (srcItem.count + dstItem.count - srcItem.getMaxStackCount)))).setItem dst
              (some (dstItem.setCount srcItem.getMaxStackCount)))
  | _, _ => s

/-- `HandleDestroyItemOpcode`, which goes to `DestroyItemCount`, or to `DestroyItem` for 0. -/
def destroyItem (guid count : UInt32) (allowed : Bool) : Traders T :=
  match (s.trader side).items guid with
  | none => s
  | some item =>
      if allowed = false then s
      else if count = 0 ∨ item.count ≤ count then
        s.setTrader side ((s.trader side).setItem guid none)
      else
        s.setTrader side ((s.trader side).setItem guid (some (item.setCount (item.count - count))))

end Inventory

section Accept

variable (env : AcceptEnv)

/-- Every item in a traded slot that is found can be traded. -/
def AllCanBeTraded (trade : Side → TradeData) : Prop :=
  ∀ side slot, (s.itemOf side ((trade side).items (tradedSlot slot))).isSome →
    env.canBeTraded ((trade side).items (tradedSlot slot))

instance (trade : Side → TradeData) : Decidable (s.AllCanBeTraded env trade) :=
  decidable_of_iff ((∀ slot, (s.itemOf .mine ((trade .mine).items (tradedSlot slot))).isSome →
      env.canBeTraded ((trade .mine).items (tradedSlot slot))) ∧
    ∀ slot, (s.itemOf .his ((trade .his).items (tradedSlot slot))).isSome →
      env.canBeTraded ((trade .his).items (tradedSlot slot)))
    ⟨fun h side => by cases side with | mine => exact h.1 | his => exact h.2,
      fun h => ⟨h .mine, h .his⟩⟩

/-- The spell of a side can be cast on the item of the other. -/
def spellReady (trade : Side → TradeData) : Bool :=
  (s.itemOf side.trader ((trade side.trader).items tradeSlotNonTraded)).isSome &&
    ((trade side).spellCastItem = 0 || (s.itemOf side (trade side).spellCastItem).isSome) &&
    env.castable side

/-- The item a side gives from a slot. -/
def given (trade : Side → TradeData) (slot : Fin 6) : Option (Item T) :=
  s.itemOf side ((trade side).items (tradedSlot slot))

/-- `playerDst` or `traderDst` in `moveItems`: what `CanStoreItem` of a side plans for what it gets from a slot. -/
def dst (trade : Side → TradeData) (traders : Side → Trader T) (slot : Fin 6) (side : Side) :
    StorePlan × UInt32 :=
  match s.given side.trader trade slot with
  | none => ([], 0)
  | some item => (traders side).canStoreItem item (env.places side slot) []

/-- `moveItems` can store what both sides get from a slot. -/
def exchanged (trade : Side → TradeData) (traders : Side → Trader T) (slot : Fin 6) : Bool :=
  decide ((s.dst env trade traders slot .mine).2 = 0 ∧ (s.dst env trade traders slot .his).2 = 0)

/-- `MoveItemToInventory`, if there is an item. -/
def receive (trader : Trader T) (plan : StorePlan) (item : Option (Item T)) : Trader T :=
  match item with
  | none => trader
  | some item => trader.storeItem plan item

/-- A side gets its item back. What was planned for the other's item is still in `dest`. -/
def takeBack (trade : Side → TradeData) (traders : Side → Trader T) (slot : Fin 6) (side : Side) : Trader T :=
  match s.given side trade slot with
  | none => traders side
  | some item =>
      let back := (traders side).canStoreItem item (env.placesBack side slot) (s.dst env trade traders slot side).1
      if back.2 = 0 then (traders side).storeItem back.1 item else traders side

/-- One turn of the loop of `moveItems`. -/
def moveItem (trade : Side → TradeData) (traders : Side → Trader T) (slot : Fin 6) (side : Side) : Trader T :=
  if s.exchanged env trade traders slot then
    receive (traders side) (s.dst env trade traders slot side).1 (s.given side.trader trade slot)
  else s.takeBack env trade traders slot side

/-- Both sides have removed what they give. -/
def removed (trade : Side → TradeData) (side : Side) : Trader T :=
  (List.finRange 6).foldl
    (fun trader slot => trader.setItem ((trade side).items (tradedSlot slot)) none) (s.trader side)

/-- The inventories after the first turns of `moveItems`. -/
def moved (trade : Side → TradeData) (turns : ℕ) : Side → Trader T :=
  ((List.finRange 6).take turns).foldl (s.moveItem env trade) (s.removed trade)

/-- What a player has when the exchange is over: his items are removed, then `moveItems` stores what
he gets, or gives back what he has given, and then the gold changes hands. -/
def afterExchange (trade : Side → TradeData) (side : Side) : Trader T :=
  { s.moved env trade 6 side with
    money := Player.modifiedMoney
      (Player.modifiedMoney (s.moved env trade 6 side).money (-(trade side).money.toInt32))
      (trade side.trader).money.toInt32 }

/-- What a side receives: of each item that is given to it, the units by which its inventory grows at the
places of the search, what its money grows by after it has paid, and the spell. -/
def receipt (trade : Side → TradeData) (side : Side) : Offer where
  items slot := (s.given side.trader trade slot).map fun item =>
    (item.entry, UInt32.ofNat
      ((s.moved env trade (slot + 1) side).unitsAt item.entry (env.places side slot) -
        (s.moved env trade slot side).unitsAt item.entry (env.places side slot)))
  money := (s.afterExchange env trade side).money -
    Player.modifiedMoney (s.trader side).money (-(trade side).money.toInt32)
  spell := (trade side.trader).spell

/-- The end of `HandleAcceptTradeOpcode`, when both sides have accepted; and what each side receives
if the exchange is executed. -/
def completeTrade (trade : Side → TradeData) : Traders T × Option (Side → Offer) :=
  if (trade side).spell ≠ 0 ∧ s.spellReady side env trade = false then
    (s.setTrade (setSpell trade side 0 0), none)
  else if (trade side.trader).spell ≠ 0 ∧ s.spellReady side.trader env trade = false then
    (s.setTrade (setSpell trade side.trader 0 0), none)
  else if env.canStoreItems side = false ∨ env.canStoreItems side.trader = false then
    (s.setTrade (setLastModificationTime (unacceptBoth trade side) side.trader env.now), none)
  else
    ({ s with trader := s.afterExchange env trade, trade := none }, some (s.receipt env trade))

/-- `HandleAcceptTradeOpcode` from where the side has accepted. -/
def acceptedTrade (trade : Side → TradeData) : Traders T × Option (Side → Offer) :=
  if env.tooFar then (s, none)
  else if (s.trader side).money < (trade side).money then
    (s.setTrade (setAccepted trade side false), none)
  else if (s.trader side.trader).money < (trade side.trader).money then
    (s.setTrade (setAccepted trade side.trader false), none)
  else if env.gmRefused then (s, none)
  else if ¬s.AllCanBeTraded env trade then (s, none)
  else if env.luaRefused then (s.setTrade (setAccepted trade side false), none)
  else if (trade side.trader).accepted then s.completeTrade side env trade
  else (s, none)

/-- The side accepts what it is offered. -/
def accept (trade : Side → TradeData) : Side → TradeData :=
  setAccepted (setLastModificationTime trade side env.now) side true

/-- `HandleAcceptTradeOpcode`. -/
def handleAcceptTrade : Traders T × Option (Side → Offer) :=
  match s.trade with
  | none => (s, none)
  | some trade =>
      if env.blocked ∨ (env.now - (trade side).lastModificationTime) * 1000 <
          (trade side).scamPreventionDelay then (s, none)
      else
        acceptedTrade
          { s with
            trade := some (accept side env trade)
            seen := Function.update s.seen side (some (s.offerOf trade side.trader)) }
          side env (accept side env trade)

end Accept

end Traders

/-- What the two players do. -/
inductive TradeEvent where
  | beginTrade
  | tradeCancel
  | setTradeGold (side : Side) (gold : UInt32) (now : ℕ)
  | setTradeItem (side : Side) (slot : TradeSlots) (guid : UInt32) (allowed : Bool) (now : ℕ)
  | clearTradeItem (side : Side) (slot : TradeSlots) (now : ℕ)
  | castOnTradeItem (side : Side) (spell castItem : UInt32)
  | acceptTrade (side : Side) (env : AcceptEnv)
  | unacceptTrade (side : Side)
  | splitItem (side : Side) (src count : UInt32) (lootGenerated : Bool) (places : List UInt32)
  | swapItem (side : Side) (src dst : UInt32) (merges : Bool)
  | destroyItem (side : Side) (guid count : UInt32) (allowed : Bool)

/-- What an event does, and what each side receives if it executes the exchange. -/
def TradeEvent.run {T : ItemTable} (s : Traders T) :
    TradeEvent → Traders T × Option (Side → Offer)
  | beginTrade => (s.beginTrade, none)
  | tradeCancel => (s.tradeCancel, none)
  | setTradeGold side gold now => (s.handleSetTradeGold side gold now, none)
  | setTradeItem side slot guid allowed now =>
      (s.handleSetTradeItem side slot guid allowed now, none)
  | clearTradeItem side slot now => (s.handleClearTradeItem side slot now, none)
  | castOnTradeItem side spell castItem => (s.castOnTradeItem side spell castItem, none)
  | acceptTrade side env => s.handleAcceptTrade side env
  | unacceptTrade side => (s.handleUnacceptTrade side, none)
  | splitItem side src count lootGenerated places =>
      (s.splitItem side src count lootGenerated places, none)
  | swapItem side src dst merges => (s.swapItem side src dst merges, none)
  | destroyItem side guid count allowed => (s.destroyItem side guid count allowed, none)

/-- The state after an event. -/
def TradeEvent.apply {T : ItemTable} (s : Traders T) (event : TradeEvent) : Traders T :=
  (event.run s).1

/-- Two players before they trade. -/
def opened {T : ItemTable} (trader : Side → Trader T) : Traders T := ⟨trader, none, fun _ => none⟩

end TwowCore.Trade
