import TwowCore.GuildBank.Conservation
import TwowCore.Player.Destinations
import TwowCore.Player.Guids

/-!
# What a swap leaves

`SwapItems` tests whether the bank item could be stored anywhere and goes on when the inventory is full, since
the bag item will make room. Then it deposits the bag item over the bank slot, saves, and plans the withdrawal
of the copy it kept. When that plan fails the bank item is gone.
-/

namespace TwowCore

namespace Player

variable {T : ItemTable} {p : Player T}

/-- Every position of a plan for no slot in particular is shown as it is. -/
theorem getItemByPos_of_reaches {proto : ItemPrototype} {src : Option (SrcItem T)} {pos : ItemPos}
    (h : (⟨p, proto, src, inventorySlotBag0, nullSlot⟩ : Request T).Reaches pos) :
    p.getItemByPos pos = p.items pos := by
  have hrange : ∀ first last : UInt8, (last.toNat ≤ 69 ∨ 81 ≤ first.toNat ∧ last.toNat ≤ 113) →
      pos ∈ slotRange inventorySlotBag0 first last → p.getItemByPos pos = p.items pos := by
    intro first last hrange hpos
    have hdirect := isDirectSlot_of_slotRange hrange hpos
    obtain ⟨bag, slot⟩ := pos
    obtain rfl : bag = inventorySlotBag0 := (mem_slotRange.mp hpos).1
    exact p.getItemByPos_direct hdirect
  cases h with
  | asked hbag hslot hpos => exact absurd rfl hslot
  | bag hbag hother hpos => exact absurd rfl hother
  | keyring hpos => exact hrange _ _ (by decide) hpos
  | backpack hpos => exact hrange _ _ (by decide) hpos
  | carried bag hbag hpos => exact shown_of_bagPositions hbag hpos

/-- What is planned for no slot in particular is stored with its units. -/
theorem storeNewItem_units {entry count : UInt32} (randomPropertyId : Int32)
    (hok : (p.canStoreNewItem inventorySlotBag0 nullSlot entry count).result = .ok) (other : UInt32) :
    (p.storeNewItem (p.canStoreNewItem inventorySlotBag0 nullSlot entry count).dest entry
      randomPropertyId).1.units other = p.units other + if entry = other then count.toNat else 0 := by
  obtain ⟨dest, hdest⟩ : ∃ dest, dest = (p.canStoreNewItem inventorySlotBag0 nullSlot entry count).dest :=
    ⟨_, rfl⟩
  obtain ⟨proto, hfind, hfits⟩ := canStoreItemAt_fits hok
  rw [← hdest]
  by_cases hcount : count = 0
  · have hplanned : planned dest = 0 := by
      have hsum := hfits.sum
      rw [← canStoreNewItem, ← hdest] at hsum
      simpa [hcount] using hsum
    rw [storeNewItem_of_no_units hplanned]
    simp [hcount]
  · obtain ⟨-, -, -, -, -, -, -, hunits, -⟩ := storeNewItem_spec randomPropertyId hdest hok hcount
    refine hunits (fun chosen hchosen => ?_) other
    rw [hdest] at hchosen
    exact getItemByPos_of_reaches (canStoreItemAt_reaches hfind hchosen)

/-- Taking an item out takes at least its units. -/
theorem units_takeOut_le (pos : ItemPos) (entry : UInt32) :
    (p.takeOut pos).units entry + unitsOf entry (p.items pos) ≤ p.units entry := by
  have hset := p.units_setItem pos none entry
  rw [unitsOf_none, Nat.add_zero] at hset
  rw [← hset]
  refine Nat.add_le_add_right (Finset.sum_le_sum fun other _ => ?_) _
  rw [setItem_items]
  unfold takeOut
  simp only
  by_cases hother : other = pos
  · rw [if_pos hother, unitsOf_none]
    exact Nat.zero_le _
  · rw [if_neg hother, Function.update_of_ne hother]
    split
    · exact Nat.zero_le _
    · exact le_rfl

end Player

namespace World

variable {T : ItemTable} {w : World T} {pos : ItemPos} {bagItem : Item T} {bankItem : BankItem} {idx : ℕ}

/-- The items of the bank, whatever their update state. -/
def bankItems (w : World T) : List BankItem := w.bank.items.map fun item => item.setState .unchanged

/-- The two items are exchanged: the bag item is in the slot of the bank item, and the units of the two are
exchanged in the player's inventory. -/
structure Exchanged (w : World T) (idx : ℕ) (bagItem : Item T) (bankItem : BankItem) (w' : World T) : Prop where
  bank : ∃ item : BankItem, w'.bankItems = w.bankItems.set idx item ∧ item.tab = bankItem.tab ∧
    item.slot = bankItem.slot ∧ item.itemTemplate = bagItem.entry ∧ item.count = bagItem.count
  bags : ∀ entry, w'.player.units entry + Player.unitsOf entry (some bagItem) =
    w.player.units entry + bankItem.unitsOf entry

/-- Both stores are as they were. -/
def LeftAlone (w w' : World T) : Prop := w'.bank.items = w.bank.items ∧ w'.player = w.player

/-- The first test of a swap lets it go on. -/
def SwapTested (w : World T) (bankItem : BankItem) : Prop :=
  (w.player.canStoreNewItem nullBag nullSlot bankItem.itemTemplate bankItem.count).result = .ok ∨
    (w.player.canStoreNewItem nullBag nullSlot bankItem.itemTemplate bankItem.count).result = .inventoryFull

section Halves

variable (se : Session)

/-- The deposit half of a swap. -/
theorem depositHalf (hitem : w.player.getItemByPos pos = some bagItem)
    (hfound : w.bank.findItem bankItem.tab bankItem.slot = some (idx, bankItem)) :
    (w.depositItemInSlot se bankItem.tab bankItem.slot pos bagItem bagItem.count false false).player =
        w.player.takeOut pos ∧
      ∃ item : BankItem, (w.depositItemInSlot se bankItem.tab bankItem.slot pos bagItem bagItem.count false
          false).bankItems = w.bankItems.set idx item ∧ item.tab = bankItem.tab ∧
        item.slot = bankItem.slot ∧ item.itemTemplate = bagItem.entry ∧ item.count = bagItem.count := by
  unfold depositItemInSlot placeDeposit
  simp only [Bool.false_eq_true, if_false, hfound]
  constructor
  · simp [takeDeposit, Player.destroyItem, hitem]
  · refine ⟨((bankItem.setCount bagItem.count).cloneFrom w.bank.infernoBank bagItem).setState .unchanged,
      ?_, rfl, rfl, rfl, rfl⟩
    unfold bankItems
    rw [depositDone_items_map (fun item => item.setState .unchanged) (fun _ _ => rfl)]
    simp only [takeDeposit_bank, setBank_bank, GuildBank.changeItem, GuildBank.queue_items,
      GuildBank.writeItem, List.map_set]
    rfl

/-- The withdrawal half of a swap: the copy is stored if the plan is accepted. -/
theorem withdrawHalf (w : World T) (bankItem : BankItem) :
    (w.withdrawItemTo se bankItem.tab bankItem.slot bankItem.count inventorySlotBag0.toUInt32
        nullSlot.toUInt32 none bankItem none 0 true).bankItems = w.bankItems ∧
      ∀ entry, (w.withdrawItemTo se bankItem.tab bankItem.slot bankItem.count inventorySlotBag0.toUInt32
          nullSlot.toUInt32 none bankItem none 0 true).player.units entry = w.player.units entry +
        if (w.player.canStoreNewItem inventorySlotBag0 nullSlot bankItem.itemTemplate
          bankItem.count).result = .ok then bankItem.unitsOf entry else 0 := by
  unfold withdrawItemTo
  simp only [UInt8.toUInt8_toUInt32]
  by_cases hok : (w.player.canStoreNewItem inventorySlotBag0 nullSlot bankItem.itemTemplate
      bankItem.count).result = .ok
  · have hunits := Player.storeNewItem_units (se.generatedRandomPropertyId bankItem.itemTemplate) hok
    rw [if_neg (not_not.mpr hok)]
    simp only [hok, if_true]
    unfold withdrawAsNew
    simp only
    split
    · next hnothing =>
        refine ⟨saveToDB_items_map (fun item => item.setState .unchanged) (fun _ _ => rfl) _, fun entry => ?_⟩
        rw [saveToDB_player, setPlayer_player]
        exact hunits entry
    · next stored item hstored =>
        obtain ⟨stored', hpos, hmap⟩ := Option.bind_eq_some_iff.mp hstored
        obtain ⟨item', hitem, heq⟩ := Option.map_eq_some_iff.mp hmap
        cases heq
        constructor
        · unfold bankItems
          rw [withdrawDone_items_map (fun item => item.setState .unchanged) (fun _ _ => rfl)]
          simp [GuildBank.takeOut]
        · intro entry
          simp only [withdrawDone_player, send_player, setBank_player, sendWithdrawn_player, setPlayer_player]
          rw [cloneInto_units _ hitem]
          exact hunits entry
  · rw [if_pos hok]
    simp only [hok, if_false]
    exact ⟨rfl, fun _ => rfl⟩

end Halves

/-- The units are exchanged in the inventory if and only if the bag item's go, and only they, and the bank item's
come. -/
theorem bags_exchanged_iff (hlies : w.player.items pos = some bagItem) (bankItem : BankItem) {units : UInt32 → ℕ}
    (hunits : ∀ entry, units entry = (w.player.takeOut pos).units entry +
      if ((w.player.takeOut pos).canStoreNewItem inventorySlotBag0 nullSlot bankItem.itemTemplate
        bankItem.count).result = .ok then bankItem.unitsOf entry else 0) :
    (∀ entry, units entry + Player.unitsOf entry (some bagItem) =
        w.player.units entry + bankItem.unitsOf entry) ↔
      (((w.player.takeOut pos).canStoreNewItem inventorySlotBag0 nullSlot bankItem.itemTemplate
        bankItem.count).result = .ok ∨ bankItem.count = 0) ∧ w.player.DestroysExactly pos := by
  have hle : ∀ entry, (w.player.takeOut pos).units entry + Player.unitsOf entry (some bagItem) ≤
      w.player.units entry := fun entry => hlies ▸ Player.units_takeOut_le pos entry
  have hwhole : bankItem.unitsOf bankItem.itemTemplate = bankItem.count.toNat := by
    simp [BankItem.unitsOf]
  unfold Player.DestroysExactly
  simp only [hunits, hlies]
  by_cases hok : ((w.player.takeOut pos).canStoreNewItem inventorySlotBag0 nullSlot bankItem.itemTemplate
      bankItem.count).result = .ok
  · simp only [hok, if_true, true_or, true_and]
    exact forall_congr' fun entry => by omega
  · -- nothing comes, which is right only if there was nothing to come
    simp only [hok, if_false, false_or, Nat.add_zero]
    constructor
    · intro hequal
      refine ⟨UInt32.toNat.inj ?_, fun entry => ?_⟩
      · have hentry := hequal bankItem.itemTemplate
        have hbound := hle bankItem.itemTemplate
        rw [UInt32.toNat_zero]
        omega
      · have hentry := hequal entry
        have hbound := hle entry
        omega
    · rintro ⟨hzero, hexact⟩ entry
      have hnothing : bankItem.unitsOf entry = 0 := by simp [BankItem.unitsOf, hzero]
      rw [hexact entry, hnothing]
      rfl

/-- If the deposit over the bank item leaves the bank as it was, the two items have the same units. -/
theorem unitsOf_of_set_same (hfound : w.bank.findItem bankItem.tab bankItem.slot = some (idx, bankItem))
    {item : BankItem} (hset : w.bankItems.set idx item = w.bankItems) (hentry : item.itemTemplate = bagItem.entry)
    (hcount : item.count = bagItem.count) (entry : UInt32) :
    Player.unitsOf entry (some bagItem) = bankItem.unitsOf entry := by
  have hthere : w.bankItems[idx]? = some (bankItem.setState .unchanged) := by
    rw [bankItems, List.getElem?_map, (GuildBank.findItem_some hfound).1]
    rfl
  have hlt : idx < w.bankItems.length := (List.getElem?_eq_some_iff.mp hthere).1
  have hget := congrArg (fun l => l[idx]?) hset
  simp only [List.getElem?_set_self hlt, hthere] at hget
  have hsame : item = bankItem.setState .unchanged := Option.some.inj hget
  rw [hsame] at hentry hcount
  show (if bagItem.entry = entry then bagItem.count.toNat else 0) = _
  rw [← hentry, ← hcount]
  rfl

/-- A swap exchanges the two items or leaves them alone if and only if the first test stops it, or what it
tests holds: the bank item finds room without the bag item there, and the bag item is no bag with something
in it. -/
theorem swapItems_atomic_iff (se : Session) (w : World T) (pos : ItemPos) (bagItem : Item T)
    (bankItem : BankItem) (idx : ℕ) (hitem : w.player.getItemByPos pos = some bagItem)
    (hfound : w.bank.findItem bankItem.tab bankItem.slot = some (idx, bankItem)) :
    w.Exchanged idx bagItem bankItem (w.swapItems se pos bagItem bankItem) ∨
        w.LeftAlone (w.swapItems se pos bagItem bankItem) ↔
      (w.SwapTested bankItem →
        (((w.player.destroyItem pos).canStoreNewItem inventorySlotBag0 nullSlot bankItem.itemTemplate
          bankItem.count).result = .ok ∨ bankItem.count = 0) ∧ w.player.DestroysExactly pos) := by
  have hlies := Player.items_of_getItemByPos hitem
  have hdestroyed : w.player.destroyItem pos = w.player.takeOut pos := by
    rw [Player.destroyItem, hitem]
  by_cases htested : w.SwapTested bankItem
  · have hcall : w.swapItems se pos bagItem bankItem =
        (w.depositItemInSlot se bankItem.tab bankItem.slot pos bagItem bagItem.count false
          false).withdrawItemTo se bankItem.tab bankItem.slot bankItem.count inventorySlotBag0.toUInt32
          nullSlot.toUInt32 none bankItem none 0 true := by
      unfold swapItems
      simp only
      exact if_neg fun hrefused => htested.elim hrefused.1 hrefused.2
    obtain ⟨hplayer, item, hbank, hplace⟩ := depositHalf se hitem hfound
    obtain ⟨hkept, hunits⟩ := withdrawHalf se (w.depositItemInSlot se bankItem.tab bankItem.slot pos bagItem
      bagItem.count false false) bankItem
    rw [hplayer] at hunits
    rw [← hcall] at hkept hunits
    simp only [htested, true_implies]
    have hbags := bags_exchanged_iff hlies bankItem hunits
    rw [hdestroyed]
    constructor
    · rintro (hexchanged | hleft)
      · exact hbags.mp hexchanged.bags
      · -- everything can be as it was only if the two items have the same units
        have hset : w.bankItems.set idx item = w.bankItems := by
          rw [← hbank, ← hkept, bankItems, hleft.1]
          rfl
        refine hbags.mp fun entry => ?_
        rw [hleft.2, unitsOf_of_set_same hfound hset hplace.2.2.1 hplace.2.2.2]
    · intro h
      exact Or.inl ⟨⟨item, hkept.trans hbank, hplace⟩, hbags.mpr h⟩
  · have hcall : w.swapItems se pos bagItem bankItem = w.send (.equipError (w.player.canStoreNewItem nullBag
        nullSlot bankItem.itemTemplate bankItem.count).result bankItem.itemTemplate) := by
      unfold swapItems
      simp only
      exact if_pos (not_or.mp htested)
    rw [hcall]
    exact iff_of_true (Or.inr ⟨rfl, rfl⟩) fun h => absurd h htested

/-- Peacebloom, a herb. -/
def peacebloom : ItemPrototype := { linenCloth with itemId := 2447, name := "Peacebloom", bagFamily := 6 }

/-- A pouch for herbs. -/
def herbPouch : ItemPrototype :=
  { linenCloth with
    itemId := 22250, name := "Herb Pouch", itemClass := 1, subClass := 2, inventoryType := 18
    stackable := 1, containerSlots := 12 }

/-- Cloth, a herb and a pouch for herbs. -/
def herbTable : ItemTable := .ofList [linenCloth, peacebloom, herbPouch] (by decide)

/-- An item of that table. -/
def herbItem (proto : ItemPrototype) (listed : herbTable.find proto.itemId = some proto) (guid count : UInt32) :
    Item herbTable :=
  { guid, proto, listed, count, ownerGuid := 7, creator := 0, giftCreator := 0, duration := 0
    spellCharges := [], flags := 0, enchantments := [], randomPropertyId := 0, transmogrifyId := 0
    durability := 0, itemTextId := 0, generatedLoot := false, hasGeneratedLoot := false
    hasTemporaryLoot := false, tradeAllowed := false, inTrade := false }

/-- An empty pouch for herbs. -/
def emptyPouch : Item herbTable := herbItem herbPouch rfl 500 1

/-- A herbalist: a stack of Peacebloom in the pouch in the first bag slot, and the backpack full of cloth from
this slot on. -/
def herbalist (first : UInt8) : Player herbTable :=
  ⟨7, fun pos =>
    if pos = ⟨255, 19⟩ then some emptyPouch
    else if pos = ⟨19, 0⟩ then some (herbItem peacebloom rfl 501 5)
    else if pos.bag = 255 ∧ first ≤ pos.slot ∧ pos.slot < inventorySlotItemEnd then
      some (herbItem linenCloth rfl 502 20)
    else none, 0, 1000⟩

/-- A stack of cloth in the first slot of the bank. -/
def bankCloth : BankItem :=
  { guildid := 1, guid := 1, name := "Linen Cloth", tab := 1, slot := 1, itemTemplate := 2589
    creatorGuid := 0, giftCreatorGuid := 0, count := 20, maxStackSize := 20, duration := 0, charges := ""
    flags := 0, enchantments := "", enchant := 0, randomPropertyId := 0, transmogrifyId := 0
    durability := 0, text := 0, generatedLoot := 0, isInferno := false, quality := 1, state := .unchanged }

/-- The herbalist in front of a bank with that cloth. -/
def herbWorld (first : UInt8) : World herbTable where
  bank :=
    { guildid := 1, infernoBank := false, tabs := 1, money := 0, items := [bankCloth]
      tabInfo := fun _ => ⟨"", "", 0, 0⟩, log := fun _ => [], moneyLog := [], itemUpdateQueue := []
      saveLock := false, tabsChanged := false, moneyChanged := false, moneyLogChanged := false
      logChanged := false }
  db := ⟨[], [], [], []⟩
  player := herbalist first
  out := []

/-- With a free slot in the backpack the herb and the cloth are exchanged. -/
theorem swapItems_atomic_free : (herbWorld 24).Exchanged 0 (herbItem peacebloom rfl 501 5) bankCloth
      ((herbWorld 24).swapItems .guildMaster ⟨19, 0⟩ (herbItem peacebloom rfl 501 5) bankCloth) ∨
    (herbWorld 24).LeftAlone
      ((herbWorld 24).swapItems .guildMaster ⟨19, 0⟩ (herbItem peacebloom rfl 501 5) bankCloth) :=
  (swapItems_atomic_iff .guildMaster (herbWorld 24) ⟨19, 0⟩ (herbItem peacebloom rfl 501 5) bankCloth 0
    rfl rfl).mpr fun _ => ⟨Or.inl (by decide +kernel), Player.destroysExactly_of_empty fun hbag => absurd hbag (by decide)⟩

/-- With a full backpack the cloth is gone. -/
theorem swapItems_not_atomic : ¬ ((herbWorld 23).Exchanged 0 (herbItem peacebloom rfl 501 5) bankCloth
      ((herbWorld 23).swapItems .guildMaster ⟨19, 0⟩ (herbItem peacebloom rfl 501 5) bankCloth) ∨
    (herbWorld 23).LeftAlone
      ((herbWorld 23).swapItems .guildMaster ⟨19, 0⟩ (herbItem peacebloom rfl 501 5) bankCloth)) := by
  rw [swapItems_atomic_iff .guildMaster (herbWorld 23) ⟨19, 0⟩ (herbItem peacebloom rfl 501 5) bankCloth 0
    rfl rfl]
  intro h
  obtain ⟨hroom, -⟩ := h (Or.inr (by decide +kernel))
  exact absurd hroom (by decide +kernel)

end World

end TwowCore
