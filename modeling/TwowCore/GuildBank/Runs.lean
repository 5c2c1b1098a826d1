import TwowCore.GuildBank.Steps

/-!
# Runs of the bank

The bank and its tables are the state, an addon message together with the player who sends it is
an input, and `receive` is one step. The player is part of the input because between two messages
anything may happen to him.

`handleAddonMessages_invariant` is the rule the safety results use. A property that depends on
the items and the queue only, and that saving keeps, is kept by all handlers but the item handlers
and `UnlockGuildBank`, so only these two are left to look at.
-/

namespace TwowCore

namespace World

variable {T : ItemTable} {Inv : GuildBank → Database → Prop} {w w₀ : World T}

/-- Saving keeps the property. -/
theorem Kept.saveToDB (hkept : Kept Inv) (h : Inv w.bank w.db) :
    Inv w.saveToDB.bank w.saveToDB.db := by
  unfold World.saveToDB
  split_ifs
  · exact h
  · exact h
  · exact hkept.save h

/-- Logging keeps the items. -/
theorem logAction_sameItems (se : Session) (w : World T) (action : BankAction)
    (tab itemID count : UInt32) (bItem : Option BankItem) :
    SameItems w.bank (w.logAction se action tab itemID count bItem).bank := by
  obtain ⟨-, -, hbank⟩ := w.logAction_frame se action tab itemID count bItem
  refine ⟨?_, ?_, ?_, ?_, ?_⟩ <;> rw [hbank]

/-- A world with the same items and tables, saved. -/
theorem Kept.saveToDB_of_same (hkept : Kept Inv) (h : Inv w.bank w.db)
    (hsame : SameItems w.bank w₀.bank) (hdb : w₀.db = w.db) :
    Inv w₀.saveToDB.bank w₀.saveToDB.db :=
  Kept.saveToDB hkept (by rw [hdb]; exact hkept.same hsame h)

/-- A world in the same state. -/
theorem Kept.of_state (h : Inv w.bank w.db) (hsame : w.SameState w₀) : Inv w₀.bank w₀.db := by
  rw [hsame.bank, hsame.db]
  exact h

section Handlers

variable (se : Session) (msg : List Char)

theorem sendAll_same (w : World T) (messages : List String) :
    w.SameState (w.sendAll messages) := by
  unfold sendAll
  induction messages generalizing w with
  | nil => exact ⟨rfl, rfl, rfl⟩
  | cons message rest ih =>
      have hrest := ih (w.sendAddonMessage message)
      exact ⟨hrest.bank, hrest.db, hrest.player⟩

theorem unlockTabCost_same (w : World T) : w.SameState (w.unlockTabCost se msg) := by
  unfold unlockTabCost
  simp only
  split_ifs
  · exact ⟨rfl, rfl, rfl⟩
  · split
    · split_ifs <;> exact ⟨rfl, rfl, rfl⟩
    · exact ⟨rfl, rfl, rfl⟩

theorem sendTabItems_same (w : World T) : w.SameState (w.sendTabItems se msg) := by
  unfold sendTabItems
  split
  · simp only
    rename_i tabText htokens
    have hleft := w.sendWithdrawalsLeft_same se (atoiByte tabText)
    refine ⟨?_, ?_, ?_⟩
    · exact (sendAll_same _ _).bank.trans hleft.bank
    · exact (sendAll_same _ _).db.trans hleft.db
    · exact (sendAll_same _ _).player.trans hleft.player
  · exact ⟨rfl, rfl, rfl⟩

theorem sendTabWithdrawalsLeft_same (w : World T) :
    w.SameState (w.sendTabWithdrawalsLeft se msg) := by
  unfold sendTabWithdrawalsLeft
  split
  · exact w.sendWithdrawalsLeft_same se _
  · exact ⟨rfl, rfl, rfl⟩

theorem sendTabLog_same (w : World T) : w.SameState (w.sendTabLog msg) := by
  unfold sendTabLog
  split
  · simp only
    split_ifs
    · exact ⟨rfl, rfl, rfl⟩
    · exact sendAll_same w _
  · exact ⟨rfl, rfl, rfl⟩

/-- The end of `UnlockTab` keeps the property. -/
theorem Kept.tabPaid (hkept : Kept Inv) (h : Inv w.bank w.db)
    (hsame : SameItems w.bank w₀.bank) (hdb : w₀.db = w.db) (tab : UInt8) (action : BankAction) :
    Inv (w₀.tabPaid se tab action).bank (w₀.tabPaid se tab action).db := by
  refine Kept.saveToDB_of_same hkept h ?_ ?_
  · have hlog := logAction_sameItems se ((w₀.setBank { w₀.bank with tabs := tab.toUInt32 }
      ).sendGuildMessage s!"GUnlock:Tab:{tab}:Ok") action 0 tab.toUInt32 (tabCost tab) none
    exact hsame.trans
      ⟨hlog.guildid, hlog.infernoBank, hlog.items, hlog.itemUpdateQueue, hlog.saveLock⟩
  · exact (logAction_frame se _ _ _ _ _ _).2.1.trans hdb

/-- `UnlockTab` keeps the property. -/
theorem Kept.unlockTab (hkept : Kept Inv) (h : Inv w.bank w.db) :
    Inv (w.unlockTab se msg).bank (w.unlockTab se msg).db := by
  unfold World.unlockTab
  simp only
  split_ifs
  · exact h
  · split
    · exact h
    · split_ifs
      · exact h
      · exact h
      · exact h
      · refine Kept.tabPaid se hkept h ?_ ?_ _ _
        · exact ⟨rfl, rfl, rfl, rfl, rfl⟩
        · rfl
      · exact h
      · refine Kept.tabPaid se hkept h ?_ ?_ _ _
        · exact ⟨rfl, rfl, rfl, rfl, rfl⟩
        · rfl

/-- `UpdateTab` keeps the property. -/
theorem Kept.updateTab (hkept : Kept Inv) (h : Inv w.bank w.db) :
    Inv (w.updateTab se msg).bank (w.updateTab se msg).db := by
  unfold World.updateTab
  simp only
  split_ifs
  · exact h
  · split
    · split_ifs
      · exact h
      · exact h
      · exact h
      · exact h
      · refine Kept.saveToDB_of_same hkept h ?_ rfl
        exact ⟨rfl, rfl, rfl, rfl, rfl⟩
    · exact h

/-- The end of the money handlers keeps the property. -/
theorem Kept.moneyMoved (hkept : Kept Inv) (h : Inv w.bank w.db)
    (hsame : SameItems w.bank w₀.bank) (hdb : w₀.db = w.db) (action : BankAction)
    (money : UInt32) :
    Inv (w₀.moneyMoved se action money).bank (w₀.moneyMoved se action money).db := by
  refine Kept.saveToDB_of_same hkept h ?_ ?_
  · have hlog := logAction_sameItems se w₀ action 0 0 money none
    exact hsame.trans
      ⟨hlog.guildid, hlog.infernoBank, hlog.items, hlog.itemUpdateQueue, hlog.saveLock⟩
  · exact (logAction_frame se _ _ _ _ _ _).2.1.trans hdb

/-- `DepositMoney` keeps the property. -/
theorem Kept.depositMoney (hkept : Kept Inv) (h : Inv w.bank w.db) :
    Inv (w.depositMoney se msg).bank (w.depositMoney se msg).db := by
  unfold World.depositMoney
  split
  · exact h
  · split_ifs
    · exact h
    · exact h
    · refine Kept.moneyMoved se hkept h ?_ ?_ _ _
      · exact ⟨rfl, rfl, rfl, rfl, rfl⟩
      · rfl

/-- `WithdrawMoney` keeps the property. -/
theorem Kept.withdrawMoney (hkept : Kept Inv) (h : Inv w.bank w.db) :
    Inv (w.withdrawMoney se msg).bank (w.withdrawMoney se msg).db := by
  unfold World.withdrawMoney
  split
  · exact h
  · split_ifs
    · exact h
    · exact h
    · refine Kept.moneyMoved se hkept h ?_ ?_ _ _
      · exact ⟨rfl, rfl, rfl, rfl, rfl⟩
      · rfl

/-- Every handler keeps the property if the item handlers do. -/
theorem Kept.handle (hkept : Kept Inv) {handler : Handler} (h : Inv w.bank w.db)
    (hitem : ∀ op, handler = .item op →
      Inv (w.handleItem se op msg).bank (w.handleItem se op msg).db) :
    Inv (w.handle se msg handler).bank (w.handle se msg handler).db := by
  cases handler with
  | unlockTab => exact Kept.unlockTab se msg hkept h
  | unlockTabCost => exact Kept.of_state h (unlockTabCost_same se msg w)
  | sendBankInfo => exact h
  | sendTabItems => exact Kept.of_state h (sendTabItems_same se msg w)
  | sendTabWithdrawalsLeft => exact Kept.of_state h (sendTabWithdrawalsLeft_same se msg w)
  | sendTabLog => exact Kept.of_state h (sendTabLog_same msg w)
  | sendMoneyLog => exact Kept.of_state h (sendAll_same w _)
  | item op => exact hitem op rfl
  | updateTab => exact Kept.updateTab se msg hkept h
  | depositMoney => exact Kept.depositMoney se msg hkept h
  | withdrawMoney => exact Kept.withdrawMoney se msg hkept h

end Handlers

/-- The message gets as far as the keywords of the handlers. -/
def Dispatches (se : Session) (w : World T) (msg : List Char) : Prop :=
  se.canUseGuildBank = true ∧ w.bank.saveLock = false ∧ strstr msg "UnlockGuildBank:" = false ∧
    w.bank.tabs ≠ 0

/-- Every item handler the message runs starts in a world that meets `P`. -/
def ItemsAlong (P : World T → ItemOp → Prop) (se : Session) (w : World T) (msg : List Char) :
    Prop :=
  w.Dispatches se msg →
    Lib.Along (fun w handler => ∀ op, handler = .item op → P w op) (handle se msg) w
      (Handler.named msg)

/-- Nothing is asked of the item handlers. -/
theorem itemsAlong_true (se : Session) (w : World T) (msg : List Char) :
    ItemsAlong (fun _ _ => True) se w msg :=
  fun _ => Lib.along_of_forall (fun _ _ _ _ => trivial) _ _

/-- The message asks to unlock the bank and is accepted. -/
def AcceptsUnlock (se : Session) (w : World T) (msg : List Char) : Prop :=
  se.rankIndex = 0 ∧ (∃ head, tokenizer msg ':' = [head, "Ok".toList]) ∧
    guildBankCost ≤ w.player.money

section Unlock

/-- Loading the log leaves the items, the tabs and the money alone. -/
theorem loadLog_frame (T : ItemTable) (se : Session) (bank : GuildBank) (db : Database) :
    SameItems bank (bank.loadLog T se db) ∧ (bank.loadLog T se db).tabs = bank.tabs ∧
      (bank.loadLog T se db).money = bank.money := by
  unfold GuildBank.loadLog
  simp only
  split_ifs <;> exact ⟨⟨rfl, rfl, rfl, rfl, rfl⟩, rfl, rfl⟩

/-- The last row of a join whose last tab row has a money row. -/
theorem tabsAndMoney_getLast {bank : GuildBank} {db : Database} {bm : MoneyRow}
    (rows : List TabsRow) (bt : TabsRow) (hrows : db.guildBankTabs = rows ++ [bt])
    (hown : bt.guildid = bank.guildid ∧ bt.isInferno = bank.infernoBank)
    (hmem : bm ∈ db.guildBankMoney)
    (hmoney : bm.guildid = bt.guildid ∧ bm.isInferno = bt.isInferno) :
    ∃ bm', (bank.tabsAndMoney db).getLast? = some (bt, bm') := by
  unfold GuildBank.tabsAndMoney
  rw [hrows, List.filter_append, List.flatMap_append]
  obtain ⟨joined, hjoined⟩ : ∃ joined, joined = db.guildBankMoney.filter fun bm =>
      bt.guildid = bm.guildid && bt.isInferno = bm.isInferno := ⟨_, rfl⟩
  have hlast : bm ∈ joined := by
    rw [hjoined]
    simp [hmem, hmoney]
  have hone : ([bt].filter fun bt => bt.guildid = bank.guildid && bt.isInferno = bank.infernoBank) =
      [bt] := by
    simp [hown]
  rw [hone, List.flatMap_cons, List.flatMap_nil, List.append_nil, ← hjoined]
  cases hcons : joined.getLast? with
  | none =>
      rw [List.getLast?_eq_none_iff.mp hcons] at hlast
      cases hlast
  | some last =>
      refine ⟨last, ?_⟩
      rw [List.getLast?_append, List.getLast?_map, hcons]
      rfl

/-- What an accepted `UnlockGuildBank:Ok` does: it sets the number of tabs to 1, and it loads the
items of the bank from the tables behind those in memory. -/
structure Unlocked (w w' : World T) : Prop where
  guildid : w'.bank.guildid = w.bank.guildid
  infernoBank : w'.bank.infernoBank = w.bank.infernoBank
  itemUpdateQueue : w'.bank.itemUpdateQueue = w.bank.itemUpdateQueue
  items : w'.bank.items =
    w.bank.items ++ (w.bank.ownRows w.db.guildBank).map (BankItem.loadFromDB T)
  tabs : w'.bank.tabs = 1
  guildBank : w'.db.guildBank = w.db.guildBank
  player : w'.player = w.player.modifyMoney (-guildBankCost.toInt32)

/-- The two inserts leave a join whose last row is the new one. -/
theorem insertBank_getLast (bank : GuildBank) (db : Database) :
    ∃ bt bm, bt.tabs = 1 ∧ (bank.tabsAndMoney (insertBank bank db)).getLast? = some (bt, bm) := by
  have hmoney : ∃ bm ∈ (insertBank bank db).guildBankMoney,
      bm.guildid = bank.guildid ∧ bm.isInferno = bank.infernoBank := by
    simp only [insertBank]
    split_ifs with hany
    · simpa using hany
    · exact ⟨_, List.mem_append_right _ (List.mem_singleton_self _), rfl, rfl⟩
  obtain ⟨bm, hmem, hown⟩ := hmoney
  obtain ⟨bm', hlast⟩ := tabsAndMoney_getLast db.guildBankTabs
    ⟨bank.guildid, bank.infernoBank, 1, GuildBank.defaultTabInfo⟩ rfl ⟨rfl, rfl⟩ hmem hown
  exact ⟨_, bm', rfl, hlast⟩

/-- What `LoadBank` does when the bank has its rows. -/
theorem loadBank_some {bank : GuildBank} {db : Database} {bt : TabsRow} {bm : MoneyRow}
    (h : (bank.tabsAndMoney db).getLast? = some (bt, bm)) :
    (bank.loadBank T db).guildid = bank.guildid ∧
      (bank.loadBank T db).infernoBank = bank.infernoBank ∧
      (bank.loadBank T db).itemUpdateQueue = bank.itemUpdateQueue ∧
      (bank.loadBank T db).items =
        bank.items ++ (bank.ownRows db.guildBank).map (BankItem.loadFromDB T) ∧
      (bank.loadBank T db).tabs = bt.tabs := by
  simp [GuildBank.loadBank, h]

/-- Unlocking loads the bank. -/
theorem unlock_unlocked (se : Session) (w : World T) : w.Unlocked (w.unlock se) := by
  obtain ⟨bt, bm, htabs, hlast⟩ := insertBank_getLast { w.bank with tabs := 1 } w.db
  obtain ⟨hguild, hinferno, hqueue, hitems, hloaded⟩ := loadBank_some (T := T) hlast
  obtain ⟨hsame, hkept, -⟩ := loadLog_frame T se (({ w.bank with tabs := 1 } : GuildBank).loadBank
    T (insertBank w.bank w.db)) (insertBank w.bank w.db)
  exact
    { guildid := hsame.guildid.trans hguild
      infernoBank := hsame.infernoBank.trans hinferno
      itemUpdateQueue := hsame.itemUpdateQueue.trans hqueue
      items := hsame.items.trans hitems
      tabs := hkept.trans (hloaded.trans htabs)
      guildBank := rfl
      player := rfl }

/-- What `SetGuild` loads: nothing for a bank without rows, else the items of the tables. -/
theorem setGuild_spec (T : ItemTable) (se : Session) (guildid : UInt32) (infernoBank : Bool)
    (db : Database) :
    let bank := GuildBank.setGuild T se guildid infernoBank db
    bank.guildid = guildid ∧ bank.infernoBank = infernoBank ∧ bank.itemUpdateQueue = [] ∧
      bank.saveLock = false ∧
      (bank.tabs = 0 ∧ bank.items = [] ∧ bank.tabsAndMoney db = [] ∨
        bank.items = (bank.ownRows db.guildBank).map (BankItem.loadFromDB T)) := by
  intro bank
  obtain ⟨start, hstart⟩ : ∃ start : GuildBank, start =
      { guildid, infernoBank, tabs := 0, money := 0, items := [], tabInfo := fun _ => ⟨"", "", 0, 0⟩
        log := fun _ => [], moneyLog := [], itemUpdateQueue := [], saveLock := false
        tabsChanged := false, moneyChanged := false, moneyLogChanged := false
        logChanged := false } := ⟨_, rfl⟩
  have hbank : bank = { (start.loadBank T db).loadLog T se db with
      tabsChanged := false, moneyChanged := false, moneyLogChanged := false, logChanged := false
      itemUpdateQueue := [] } := by
    rw [hstart]
    rfl
  obtain ⟨hsame, htabs, -⟩ := loadLog_frame T se (start.loadBank T db) db
  have hjoin : bank.tabsAndMoney db = start.tabsAndMoney db ∧
      bank.ownRows db.guildBank = start.ownRows db.guildBank ∧
      bank.guildid = guildid ∧ bank.infernoBank = infernoBank := by
    have hguild : bank.guildid = start.guildid := by
      rw [hbank]
      refine hsame.guildid.trans ?_
      unfold GuildBank.loadBank
      split <;> rfl
    have hinferno : bank.infernoBank = start.infernoBank := by
      rw [hbank]
      refine hsame.infernoBank.trans ?_
      unfold GuildBank.loadBank
      split <;> rfl
    exact ⟨GuildBank.tabsAndMoney_congr hguild hinferno db,
      GuildBank.ownRows_congr hguild hinferno db.guildBank, hguild.trans (by rw [hstart]),
      hinferno.trans (by rw [hstart])⟩
  have hlock : bank.saveLock = false := by
    rw [hbank]
    refine hsame.saveLock.trans ?_
    unfold GuildBank.loadBank
    split <;> simp [hstart]
  refine ⟨hjoin.2.2.1, hjoin.2.2.2, by rw [hbank], hlock, ?_⟩
  rw [hjoin.1, hjoin.2.1]
  cases hrows : (start.tabsAndMoney db).getLast? with
  | none =>
      have hload : start.loadBank T db = start := by simp [GuildBank.loadBank, hrows]
      rw [hload] at hsame htabs
      refine Or.inl ⟨?_, ?_, List.getLast?_eq_none_iff.mp hrows⟩
      · rw [hbank, hload]
        exact htabs.trans (by rw [hstart])
      · rw [hbank, hload]
        exact hsame.items.trans (by rw [hstart])
  | some join =>
      obtain ⟨bt, bm⟩ := join
      refine Or.inr ?_
      have hitems := (loadBank_some (T := T) hrows).2.2.2.1
      rw [hbank]
      refine hsame.items.trans (hitems.trans ?_)
      rw [hstart]
      rfl

/-- `UnlockGuildBank` answers, or unlocks. -/
theorem unlockGuildBank_cases (se : Session) (w : World T) (msg : List Char) :
    (¬w.AcceptsUnlock se msg ∧ w.SameState (w.unlockGuildBank se msg)) ∨
      w.AcceptsUnlock se msg ∧ w.Unlocked (w.unlockGuildBank se msg) := by
  unfold AcceptsUnlock unlockGuildBank
  split
  · rename_i hrank
    exact Or.inl ⟨fun haccept => hrank haccept.1, rfl, rfl, rfl⟩
  · rename_i hrank
    rw [ne_eq, not_not] at hrank
    split
    · rename_i head query htokens
      simp only [htokens, List.cons.injEq, and_true, exists_eq_left', hrank, true_and]
      split_ifs with hcost hok hmoney
      · refine Or.inl ⟨fun haccept => ?_, rfl, rfl, rfl⟩
        rw [hcost] at haccept
        exact absurd haccept.1 (by decide)
      · exact Or.inl ⟨fun haccept => UInt32.not_le.mpr hmoney haccept.2, rfl, rfl, rfl⟩
      · exact Or.inr ⟨⟨hok, UInt32.not_lt.mp hmoney⟩, unlock_unlocked se w⟩
      · exact Or.inl ⟨fun haccept => hok haccept.1, rfl, rfl, rfl⟩
    · rename_i hsyntax
      refine Or.inl ⟨?_, rfl, rfl, rfl⟩
      rintro ⟨-, ⟨head, htokens⟩, -⟩
      exact hsyntax head _ htokens

end Unlock

/-- The message reaches `UnlockGuildBank` and is accepted there. -/
def Unlocks (se : Session) (w : World T) (msg : List Char) : Prop :=
  se.canUseGuildBank = true ∧ w.bank.saveLock = false ∧ strstr msg "UnlockGuildBank:" = true ∧
    w.AcceptsUnlock se msg

/-- A property is kept by a message if unlocking the bank and the item handlers it runs keep
it. -/
theorem handleAddonMessages_invariant (hkept : Kept Inv) {se : Session} {msg : List Char}
    {Ok : World T → ItemOp → Prop} (h : Inv w.bank w.db)
    (hunlock : w.Unlocks se msg → w.Unlocked (w.unlockGuildBank se msg) →
      Inv (w.unlockGuildBank se msg).bank (w.unlockGuildBank se msg).db)
    (hitem : ∀ (w : World T) op, Ok w op → Inv w.bank w.db →
      Inv (w.handleItem se op msg).bank (w.handleItem se op msg).db)
    (hok : w.ItemsAlong Ok se msg) :
    Inv (w.handleAddonMessages se msg).bank (w.handleAddonMessages se msg).db := by
  unfold handleAddonMessages
  split_ifs with hnpc hlock hkeyword htabs
  · exact h
  · exact h
  · rcases unlockGuildBank_cases se w msg with ⟨-, hsame⟩ | ⟨haccept, hunlocked⟩
    · exact Kept.of_state h hsame
    · exact hunlock ⟨by simpa using hnpc, by simpa using hlock, hkeyword, haccept⟩ hunlocked
  · exact h
  · refine Lib.run_invariant (fun w => Inv w.bank w.db) ?_ h
      (hok ⟨by simpa using hnpc, by simpa using hlock, by simpa using hkeyword, htabs⟩)
    intro w handler hsteps hinv
    exact Kept.handle se msg hkept hinv fun op hop => hitem w op (hsteps op hop) hinv

end World

/-- An addon message and the player who sends it. -/
structure Request (T : ItemTable) where
  se : Session
  player : Player T
  msg : List Char

/-- The world a message is handled in. -/
def Request.world {T : ItemTable} (request : Request T) (state : GuildBank × Database) : World T :=
  ⟨state.1, state.2, request.player, []⟩

/-- The bank and its tables after a message. -/
def receive {T : ItemTable} (state : GuildBank × Database) (request : Request T) :
    GuildBank × Database :=
  let w := (request.world state).handleAddonMessages request.se request.msg
  (w.bank, w.db)

/-- An item message and the player who sends it. -/
structure ItemRequest (T : ItemTable) where
  se : Session
  player : Player T
  op : ItemOp
  msg : List Char

namespace ItemRequest

variable {T : ItemTable}

/-- The world the message is handled in. -/
def world (request : ItemRequest T) (state : GuildBank × Database) : World T :=
  ⟨state.1, state.2, request.player, []⟩

/-- The call the message ends in. -/
def call (request : ItemRequest T) (state : GuildBank × Database) : ItemCall T :=
  (request.world state).itemCall request.se request.op request.msg

end ItemRequest

/-- The bank and its tables after an item message. -/
def receiveItem {T : ItemTable} (state : GuildBank × Database) (request : ItemRequest T) :
    GuildBank × Database :=
  let w := (request.world state).handleItem request.se request.op request.msg
  (w.bank, w.db)

/-- The row of a stack of Linen Cloth of guild 1. -/
def linenRow (guid tab slot count : UInt32) : BankRow :=
  { guildid := 1, guid, isInferno := false, tab, slot, itemTemplate := 2589, creatorGuid := 0
    giftCreatorGuid := 0, count, duration := 0, charges := "", flags := 0, enchantments := ""
    randomPropertyId := 0, transmogrifyId := 0, durability := 0, text := 0, generatedLoot := 0 }

/-- The row of a stack of Wool Cloth of guild 1. -/
def woolRow (guid tab slot count : UInt32) : BankRow :=
  { linenRow guid tab slot count with itemTemplate := 2592 }

/-- The tables of guild 1 with one tab and the given items in it. -/
def linenDatabase (rows : List BankRow) : Database :=
  ⟨rows, [⟨1, false, 1, GuildBank.defaultTabInfo⟩], [⟨1, false, 0⟩], []⟩

/-- A player with one stack of Linen Cloth in the first slot of his backpack. -/
def linenPlayer (count : UInt32) : Player ItemTable.cloth :=
  ⟨7, fun pos => if pos = ⟨255, 23⟩ then some (Item.linen 500 count) else none, 0, 1000⟩

/-- That player in front of the bank just loaded from those tables. -/
def linenWorld (rows : List BankRow) (count : UInt32) : World ItemTable.cloth :=
  { bank := GuildBank.setGuild ItemTable.cloth .guildMaster 1 false (linenDatabase rows)
    db := linenDatabase rows
    player := linenPlayer count
    out := [] }

/-- A message of the guild master, who carries a stack of Linen Cloth and some money. -/
def linenRequest (count money : UInt32) (msg : String) : Request ItemTable.cloth :=
  ⟨.guildMaster, (linenPlayer count).setMoney money, msg.toList⟩

/-- A request of the player with a stack of Linen Cloth. -/
def linenItemRequest (count : UInt32) (op : ItemOp) (msg : String) :
    ItemRequest ItemTable.cloth :=
  ⟨.guildMaster, linenPlayer count, op, msg.toList⟩

/-- The bank just loaded from those tables, and the tables. -/
def linenState (rows : List BankRow) : GuildBank × Database :=
  (GuildBank.setGuild ItemTable.cloth .guildMaster 1 false (linenDatabase rows),
    linenDatabase rows)

/-- The bank and its tables can be the result of messages to a bank that `SetGuild` has loaded. -/
def Reachable (T : ItemTable) (state : GuildBank × Database) : Prop :=
  ∃ (se : Session) (guildid : UInt32) (infernoBank : Bool) (db : Database)
    (requests : List (Request T)),
    state = Lib.run receive (GuildBank.setGuild T se guildid infernoBank db, db) requests

end TwowCore
