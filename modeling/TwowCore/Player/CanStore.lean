import TwowCore.Player.Inventory

/-!
# Planning where an item goes

`Player::_CanStoreItem` and the functions it is made of. A plan is the list of positions chosen
so far with the units each is to take, and the units still to place. The three searches extend a
plan: one given slot, the slots of a bag, a range of slots of `m_items`. `canStoreItem` is the
sequence of searches of `_CanStoreItem`, written as a list of stages that `runStages` tries one
after the other, since the source treats the answer of every search in one of three ways only.

`Plan.Fits` is the invariant of a plan: no position twice, no unit lost, and room for the planned
units at every position. `canStoreItem_fits` says that an accepted request has such a plan for
exactly the units asked for.
-/

namespace TwowCore

/-- `ItemPosCount`: a position and the units planned for it. -/
structure ItemPosCount where
  pos : ItemPos
  count : UInt8
  deriving DecidableEq, Repr

/-- The item being placed: the object, where it lies in the inventory it is placed into (if it
lies there at all), and whether it is a bag with something in it. A new item has no source. -/
structure SrcItem (T : ItemTable) where
  item : Item T
  pos : Option ItemPos
  nonEmptyBag : Bool

/-- The positions chosen so far and the units still to place. -/
structure Plan where
  dest : List ItemPosCount
  count : UInt32
  deriving DecidableEq, Repr

namespace Plan

/-- `ItemPosCount::isContainedIn`: the plan already has the position. -/
def Contains (plan : Plan) (pos : ItemPos) : Prop := ∃ chosen ∈ plan.dest, chosen.pos = pos

instance (plan : Plan) (pos : ItemPos) : Decidable (plan.Contains pos) :=
  inferInstanceAs (Decidable (∃ chosen ∈ plan.dest, chosen.pos = pos))

/-- Adds a position with room for `room` units, taking no more than there are left. -/
def push (plan : Plan) (pos : ItemPos) (room : UInt32) : Plan :=
  let needSpace := if plan.count < room then plan.count else room
  { dest := plan.dest ++ [⟨pos, needSpace.toUInt8⟩], count := plan.count - needSpace }

end Plan

namespace Player

variable {T : ItemTable}

/-- The item at a position, the one being moved apart: its slot will be empty. -/
def otherItemByPos (p : Player T) (src : Option (SrcItem T)) (pos : ItemPos) :
    Option (Item T) :=
  if src.bind SrcItem.pos = some pos then none else p.getItemByPos pos

/-- The room a search finds in a slot: a merging search looks at occupied slots only, the other
one at free slots only. -/
def slotRoom (p : Player T) (proto : ItemPrototype) (merge : Bool) (src : Option (SrcItem T))
    (pos : ItemPos) : Option UInt32 :=
  match p.otherItemByPos src pos with
  | none => if merge then none else some proto.getMaxStackSize
  | some item2 =>
      if merge ∧ item2.canBeMergedPartlyWith proto = .ok then
        some (proto.getMaxStackSize - item2.count)
      else none

/-- The loop shared by the searches through a bag and through `m_items`. -/
def planSlots (p : Player T) (proto : ItemPrototype) (merge : Bool) (src : Option (SrcItem T)) :
    List ItemPos → Plan → Plan
  | [], plan => plan
  | pos :: rest, plan =>
      match p.slotRoom proto merge src pos with
      | none => planSlots p proto merge src rest plan
      | some room =>
          if plan.Contains pos then planSlots p proto merge src rest plan
          else if (plan.push pos room).count = 0 then plan.push pos room
          else planSlots p proto merge src rest (plan.push pos room)

/-- The source is a bag with something in it. -/
def movesNonEmptyBag (src : Option (SrcItem T)) : Bool :=
  src.any fun source => source.item.isBag && source.nonEmptyBag

/-- `Player::_CanStoreItem_InSpecificSlot`. -/
def canStoreItemInSpecificSlot (p : Player T) (pos : ItemPos) (proto : ItemPrototype)
    (swap : Bool) (src : Option (SrcItem T)) (plan : Plan) : Except InventoryResult Plan :=
  if movesNonEmptyBag src then .error .canOnlyDoWithEmptyBags
  else
    let place (room : UInt32) : Except InventoryResult Plan :=
      .ok (if plan.Contains pos then plan else plan.push pos room)
    let placeInFreeSlot : Except InventoryResult Plan :=
      if pos.bag = inventorySlotBag0 then
        if keyringSlotStart ≤ pos.slot ∧ pos.slot < keyringSlotEnd ∧
            proto.bagFamily ≠ ItemPrototype.bagFamilyKeys then
          .error .itemDoesntGoIntoBag
        else if (buybackSlotStart ≤ pos.slot ∧ pos.slot < buybackSlotEnd) ∨
            playerSlotEnd ≤ pos.slot then
          .error .itemDoesntGoIntoBag
        else place proto.stackable
      else
        match p.otherItemByPos src ⟨inventorySlotBag0, pos.bag⟩ with
        | none => .error .itemDoesntGoIntoBag
        | some bag =>
            if bag.proto.containerSlots ≤ pos.slot.toUInt32 then .error .itemDoesntGoIntoBag
            else if proto.canGoIntoBag bag.proto = false then .error .itemDoesntGoIntoBag
            else place proto.stackable
    match p.otherItemByPos src pos with
    | none => placeInFreeSlot
    | some item2 =>
        if swap then placeInFreeSlot
        else
          match item2.canBeMergedPartlyWith proto with
          | .ok => place (proto.stackable - item2.count)
          | res => .error res

/-- `Player::_CanStoreItem_InBag`. -/
def canStoreItemInBag (p : Player T) (bag : UInt8) (proto : ItemPrototype)
    (merge nonSpecialized : Bool) (src : Option (SrcItem T)) (skipBag skipSlot : UInt8)
    (plan : Plan) : Except InventoryResult Plan :=
  if bag = skipBag then .error .itemDoesntGoIntoBag
  else
    match p.otherItemByPos src ⟨inventorySlotBag0, bag⟩ with
    | none => .error .itemDoesntGoIntoBag
    | some pBag =>
        if movesNonEmptyBag src then .error .canOnlyDoWithEmptyBags
        else if nonSpecialized ≠ pBag.proto.isPlainContainer then .error .itemDoesntGoIntoBag
        else if proto.canGoIntoBag pBag.proto = false then .error .itemDoesntGoIntoBag
        else
          .ok (p.planSlots proto merge src
            ((p.bagPositions bag).filter fun pos => pos.slot ≠ skipSlot) plan)

/-- `Player::_CanStoreItem_InInventorySlots`. -/
def canStoreItemInInventorySlots (p : Player T) (slotBegin slotEnd : UInt8)
    (proto : ItemPrototype) (merge : Bool) (src : Option (SrcItem T)) (skipBag skipSlot : UInt8)
    (plan : Plan) : Except InventoryResult Plan :=
  if movesNonEmptyBag src then .error .canOnlyDoWithEmptyBags
  else
    .ok (p.planSlots proto merge src
      ((slotRange inventorySlotBag0 slotBegin slotEnd).filter fun pos =>
        ¬(inventorySlotBag0 = skipBag ∧ pos.slot = skipSlot)) plan)

/-- How `_CanStoreItem` treats a search that fails: it gives up and reports the units without
space, it goes on with the next search, or it gives up and reports nothing. -/
inductive StageKind where
  | required
  | optional
  | guard
  deriving DecidableEq, Repr

/-- One search of `_CanStoreItem`. -/
structure Stage where
  kind : StageKind
  search : Plan → Except InventoryResult Plan

/-- The answer of `_CanStoreItem`: the result, the positions chosen and, where the source writes
it, the number of units without space. -/
structure StoreResult where
  result : InventoryResult
  dest : List ItemPosCount
  noSpaceCount : Option UInt32
  deriving DecidableEq, Repr

/-- The answer once all units are placed, given the units that exceed the item's limit. -/
def allPlaced (noSimilarCount : UInt32) (dest : List ItemPosCount) : StoreResult :=
  if noSimilarCount = 0 then ⟨.ok, dest, none⟩
  else ⟨.cantCarryMoreOfThis, dest, some noSimilarCount⟩

/-- Tries the searches in order until no unit is left to place. -/
def runStages (noSimilarCount : UInt32) : List Stage → Plan → StoreResult
  | [], plan => ⟨.inventoryFull, plan.dest, some (plan.count + noSimilarCount)⟩
  | stage :: rest, plan =>
      match stage.search plan with
      | .error res =>
          match stage.kind with
          | .required => ⟨res, plan.dest, some (plan.count + noSimilarCount)⟩
          | .optional => runStages noSimilarCount rest plan
          | .guard => ⟨res, plan.dest, none⟩
      | .ok plan' =>
          if stage.kind ≠ .guard ∧ plan'.count = 0 then allPlaced noSimilarCount plan'.dest
          else runStages noSimilarCount rest plan'

/-- A check between two searches. -/
def guardStage (refuse : Bool) (res : InventoryResult) : Stage :=
  ⟨.guard, fun plan => if refuse then .error res else .ok plan⟩

/-- The searches of one item over the slots of `m_items` and over the bags, with the arguments
`_CanStoreItem` passes on everywhere. -/
structure Request (T : ItemTable) where
  player : Player T
  proto : ItemPrototype
  src : Option (SrcItem T)
  bag : UInt8
  slot : UInt8

namespace Request

/-- A search through a range of `m_items`. -/
def inSlots (r : Request T) (first last : UInt8) (merge : Bool) : Stage :=
  ⟨.required, r.player.canStoreItemInInventorySlots first last r.proto merge r.src r.bag r.slot⟩

/-- A search through the carried bags, one after the other. -/
def inBags (r : Request T) (merge nonSpecialized : Bool) : List Stage :=
  inventoryBags.map fun bag =>
    ⟨.optional,
      r.player.canStoreItemInBag bag r.proto merge nonSpecialized r.src r.bag r.slot⟩

/-- A search through the bag asked for, as a special bag first and as a plain one then. -/
def inSpecificBag (r : Request T) (merge : Bool) : Stage :=
  ⟨.required, fun plan =>
    match r.player.canStoreItemInBag r.bag r.proto merge false r.src nullBag r.slot plan with
    | .ok plan' => .ok plan'
    | .error _ => r.player.canStoreItemInBag r.bag r.proto merge true r.src nullBag r.slot plan⟩

/-- The item belongs on the keyring. -/
def isKey (r : Request T) : Bool := r.proto.bagFamily == ItemPrototype.bagFamilyKeys

/-- The searches in the slot asked for, if one is. -/
def specificSlotStages (r : Request T) (swap : Bool) : List Stage :=
  if r.bag ≠ nullBag ∧ r.slot ≠ nullSlot then
    [guardStage (r.bag == inventorySlotBag0 && keyringSlotEnd ≤ r.slot) .itemDoesntGoToSlot,
      ⟨.required, r.player.canStoreItemInSpecificSlot ⟨r.bag, r.slot⟩ r.proto swap r.src⟩]
  else []

/-- The searches in the bag asked for, if one is. -/
def specificBagStages (r : Request T) : List Stage :=
  if r.bag ≠ nullBag then
    (if 1 < r.proto.stackable then
      if r.bag = inventorySlotBag0 then
        [r.inSlots keyringSlotStart keyringSlotEnd true,
          r.inSlots inventorySlotItemStart inventorySlotItemEnd true]
      else [r.inSpecificBag true]
    else []) ++
    if r.bag = inventorySlotBag0 then
      (if r.isKey then [r.inSlots keyringSlotStart keyringSlotEnd false] else []) ++
        [r.inSlots inventorySlotItemStart inventorySlotItemEnd false]
    else [r.inSpecificBag false]
  else []

/-- The searches for stacks to merge with, anywhere. -/
def mergeStages (r : Request T) : List Stage :=
  if 1 < r.proto.stackable then
    [r.inSlots keyringSlotStart keyringSlotEnd true,
      r.inSlots inventorySlotItemStart inventorySlotItemEnd true] ++
    (if r.proto.bagFamily ≠ 0 then r.inBags true false else []) ++
    r.inBags true true
  else []

/-- The searches for free slots, anywhere: those reserved for the item's family first. -/
def freeStages (r : Request T) : List Stage :=
  (if r.proto.bagFamily ≠ 0 then
    (if r.isKey then [r.inSlots keyringSlotStart keyringSlotEnd false] else []) ++
      r.inBags false false
  else []) ++
  [guardStage (movesNonEmptyBag r.src) .nonemptyBagOverOtherBag,
    r.inSlots inventorySlotItemStart inventorySlotItemEnd false] ++
  r.inBags false true

/-- All searches of `_CanStoreItem`, in order. -/
def stages (r : Request T) (swap : Bool) : List Stage :=
  r.specificSlotStages swap ++ r.specificBagStages ++ r.mergeStages ++ r.freeStages

end Request

/-- `Player::_CanTakeMoreSimilarItems`, for a known prototype: the units above the limit a
character may own of the item, if there are any. -/
def canTakeMoreSimilarItems (p : Player T) (proto : ItemPrototype) (count : UInt32)
    (skipItem : Option ItemPos) : Except UInt32 Unit :=
  if 0 < proto.maxCount then
    let curcount := p.getItemCount proto.itemId true skipItem
    if proto.maxCount < curcount + count then .error (count + curcount - proto.maxCount)
    else .ok ()
  else .ok ()

/-- `Player::_CanStoreItem`. -/
def canStoreItemAt (p : Player T) (bag slot : UInt8) (entry count : UInt32)
    (src : Option (SrcItem T)) (swap : Bool) : StoreResult :=
  match T.find entry with
  | none => ⟨if swap then .itemsCantBeSwapped else .itemNotFound, [], some count⟩
  | some proto =>
      if src.any fun source => source.item.hasTemporaryLoot then
        ⟨.alreadyLooted, [], some count⟩
      else if src.any fun source => source.item.isBindedNotWith p.guid then
        ⟨.dontOwnThatItem, [], some count⟩
      else
        let request : Request T := ⟨p, proto, src, bag, slot⟩
        match p.canTakeMoreSimilarItems proto count (src.bind SrcItem.pos) with
        | .ok () => runStages 0 (request.stages swap) ⟨[], count⟩
        | .error noSimilarCount =>
            if count = noSimilarCount then ⟨.cantCarryMoreOfThis, [], some noSimilarCount⟩
            else
              runStages noSimilarCount (request.stages swap) ⟨[], count - noSimilarCount⟩

/-- `Player::CanStoreNewItem`. -/
def canStoreNewItem (p : Player T) (bag slot : UInt8) (entry count : UInt32) : StoreResult :=
  p.canStoreItemAt bag slot entry count none false

/-- `Player::CanStoreItem`. -/
def canStoreItem (p : Player T) (bag slot : UInt8) (src : SrcItem T) (swap : Bool) :
    StoreResult :=
  p.canStoreItemAt bag slot src.item.entry src.item.count (some src) swap

end Player

end TwowCore
