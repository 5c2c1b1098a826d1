import Mathlib.Logic.Relation
import TwowCore.GuildBank.Calls

/-!
# Item calls as sequences of steps

Whatever an item message does to the bank and its tables is a sequence of a few kinds of steps:
an item is changed in place or removed, two items exchange their slots, a copy is queued, and at
the end something is logged and the queue is saved (`Rest`). `Step` lists them with what is known
about the items involved. Before the end at most one item is inserted (`Insertion`).
`perform_grows` takes every call apart in this way, so an invariant of the bank only has to be
checked against `Step` and `Insertion`.

All items that take part in the steps of one call are in one tab, the parameter `tab` of `Step`;
the items it may write are those with the guids `names`. Copies are queued by swaps that go through
only, so the parameter `copies` says whether they occur.
-/

namespace TwowCore

/-- The two banks hold the same items and have the same queued. -/
structure SameItems (bank bank' : GuildBank) : Prop where
  guildid : bank'.guildid = bank.guildid
  infernoBank : bank'.infernoBank = bank.infernoBank
  items : bank'.items = bank.items
  itemUpdateQueue : bank'.itemUpdateQueue = bank.itemUpdateQueue
  saveLock : bank'.saveLock = bank.saveLock

namespace SameItems

theorem refl (bank : GuildBank) : SameItems bank bank := ⟨rfl, rfl, rfl, rfl, rfl⟩

theorem trans {bank₁ bank₂ bank₃ : GuildBank} (h₁ : SameItems bank₁ bank₂)
    (h₂ : SameItems bank₂ bank₃) : SameItems bank₁ bank₃ :=
  ⟨h₂.guildid.trans h₁.guildid, h₂.infernoBank.trans h₁.infernoBank, h₂.items.trans h₁.items,
    h₂.itemUpdateQueue.trans h₁.itemUpdateQueue, h₂.saveLock.trans h₁.saveLock⟩

end SameItems

/-- A property of the bank and its tables that depends on the items and the queue only, and that
saving keeps. -/
structure Kept (Inv : GuildBank → Database → Prop) : Prop where
  same : ∀ {bank bank' : GuildBank} {db : Database}, SameItems bank bank' → Inv bank db →
    Inv bank' db
  save : ∀ {bank : GuildBank} {db : Database}, Inv bank db →
    Inv bank.saved (bank.savedDatabase db)

/-- Where the stack size and the kind of bank of a written item come from: from an item of the
bank, or from an item of a player. -/
structure Made (T : ItemTable) (bank : GuildBank) (item : BankItem) : Prop where
  stack : (∃ old ∈ bank.items, item.itemTemplate = old.itemTemplate ∧
      item.maxStackSize = old.maxStackSize) ∨
    ∃ proto, T.find item.itemTemplate = some proto ∧ item.maxStackSize = proto.getMaxStackSize
  inferno : (∃ old ∈ bank.items, item.isInferno = old.isInferno) ∨
    item.isInferno = bank.infernoBank

/-- A new item of this bank, with the next guid, is put into a free slot of the tab. -/
inductive Insertion (T : ItemTable) (tab : UInt32) (bank : GuildBank) : GuildBank → Prop
  | intro {new : BankItem} (hnew : new.tab = tab) (hguid : new.guid = bank.getNewGuid)
      (hguild : new.guildid = bank.guildid) (hslot : ValidSlot new.slot)
      (hfree : bank.findItem tab new.slot = none) (hmade : Made T bank new) :
      Insertion T tab bank (bank.insertItem new)

/-- What happens at the end of a call: logging and saving. -/
inductive Rest : GuildBank × Database → GuildBank × Database → Prop
  | quiet {bank bank' : GuildBank} {db : Database} (hsame : SameItems bank bank')
      (htabs : bank'.tabs = bank.tabs) : Rest (bank, db) (bank', db)
  | save {bank : GuildBank} {db : Database} : Rest (bank, db) (bank.saved, bank.savedDatabase db)

/-- The steps item calls are made of, on the bank and its tables. -/
inductive Step (T : ItemTable) (tab : UInt32) (copies : Bool) (names : List UInt32) :
    GuildBank × Database → GuildBank × Database → Prop
  | rest {s s' : GuildBank × Database} (hrest : Rest s s') : Step T tab copies names s s'
  | change {bank : GuildBank} {db : Database} {idx : ℕ} {old new : BankItem}
      (hold : bank.items[idx]? = some old) (htab : old.tab = tab) (hname : old.guid ∈ names)
      (hnew : new.tab = tab) (hguid : new.guid = old.guid) (hguild : new.guildid = old.guildid)
      (hslot : new.slot = old.slot ∨ ValidSlot new.slot ∧ bank.findItem tab new.slot = none)
      (hmade : Made T bank new) :
      Step T tab copies names (bank, db) (bank.changeItem idx new, db)
  | remove {bank : GuildBank} {db : Database} {idx : ℕ} {old : BankItem}
      (hold : bank.items[idx]? = some old) (htab : old.tab = tab) :
      Step T tab copies names (bank, db) (bank.removeItem idx old, db)
  | exchange {bank : GuildBank} {db : Database} {sIdx dIdx : ℕ} {sItem dItem : BankItem}
      (hs : bank.items[sIdx]? = some sItem) (hd : bank.items[dIdx]? = some dItem)
      (hne : sIdx ≠ dIdx) (hsTab : sItem.tab = tab) (hdTab : dItem.tab = tab)
      (hsName : sItem.guid ∈ names) (hdName : dItem.guid ∈ names) :
      Step T tab copies names (bank, db)
        ((bank.changeItem sIdx (sItem.setSlot dItem.slot)).changeItem dIdx
          (dItem.setSlot sItem.slot), db)
  | copy {bank : GuildBank} {db : Database} (item : BankItem) (hcopies : copies = true) :
      Step T tab copies names (bank, db) (bank.queue item, db)

/-- The end of a call keeps what depends on items and queue and is kept by saving. -/
theorem Kept.rest {Inv : GuildBank → Database → Prop} (hkept : Kept Inv)
    {s s' : GuildBank × Database} (hrest : Rest s s') (h : Inv s.1 s.2) : Inv s'.1 s'.2 := by
  cases hrest with
  | quiet hsame htabs => exact hkept.same hsame h
  | save => exact hkept.save h

/-- The call works in the tab. -/
def ItemCall.InTab {T : ItemTable} (tab : UInt32) : ItemCall T → Prop
  | .refuse _ => True
  | .depositInFreeSlot bankTab _ _ => bankTab = tab
  | .depositInSlot bankTab _ _ _ _ _ _ => bankTab = tab
  | .withdraw bankTab _ _ _ _ _ _ _ _ => bankTab = tab
  | .swap _ _ bankItem => bankItem.tab = tab
  | .move _ _ _ bankTab _ _ => bankTab.toUInt32 = tab
  | .split _ sItem _ _ _ => sItem.tab = tab

/-- The call may add an item to the bank. -/
def ItemCall.inserts {T : ItemTable} : ItemCall T → Bool
  | .depositInFreeSlot _ _ _ => true
  | .depositInSlot _ _ _ _ _ isNew _ => isNew
  | .split _ _ dest _ _ => dest.isNone
  | _ => false

namespace GuildBank

variable {bank : GuildBank}

/-- Changing an item in place keeps a free slot free. -/
theorem findItem_changeItem_none {tab slot : UInt32} {idx : ℕ} {old : BankItem} (new : BankItem)
    (hfree : bank.findItem tab slot = none) (hold : bank.items[idx]? = some old)
    (htab : new.tab = old.tab) (hslot : new.slot = old.slot) :
    (bank.changeItem idx new).findItem tab slot = none := by
  rw [findItem_none] at hfree ⊢
  intro item hmem
  rw [changeItem_items] at hmem
  rcases List.mem_or_eq_of_mem_set hmem with hitem | rfl
  · exact hfree item hitem
  · have hplace := hfree old (List.mem_of_getElem? hold)
    rw [← htab, ← hslot] at hplace
    exact hplace

/-- Another item stays when one is changed. -/
theorem changeItem_getElem?_ne {idx other : ℕ} {item : BankItem} (h : idx ≠ other)
    (new : BankItem) (hitem : bank.items[other]? = some item) :
    (bank.changeItem idx new).items[other]? = some item := by
  rw [changeItem_items, List.getElem?_set_ne h]
  exact hitem

end GuildBank

namespace World

variable {T : ItemTable}

/-- The call is a swap that goes through: there is room for the bank item, also once the bag item
is destroyed. -/
def copies (w : World T) : ItemCall T → Bool
  | .swap pos _ bankItem =>
      let stored := w.player.canStoreNewItem nullBag nullSlot bankItem.itemTemplate bankItem.count
      (stored.result = .ok ∨ stored.result = .inventoryFull) ∧
        ((w.player.destroyItem pos).canStoreNewItem inventorySlotBag0 nullSlot
          bankItem.itemTemplate bankItem.count).result = .ok ∧ bankItem.count ≠ 0
  | _ => false

/-- The guids of the items the call may write. -/
def rewrites (w : World T) : ItemCall T → List UInt32
  | .refuse _ => []
  | .depositInFreeSlot bankTab _ pItem =>
      (w.bank.items.filter fun item => item.tab = bankTab ∧ item.itemTemplate = pItem.entry).map
        BankItem.guid
  | .depositInSlot bankTab bankSlot _ _ _ isNew _ =>
      if isNew then [] else ((w.bank.findItem bankTab bankSlot).map fun found => found.2.guid).toList
  | .withdraw _ _ _ _ _ _ bItem _ remainer => if remainer = 0 then [] else [bItem.guid]
  | .swap _ _ bankItem => [bankItem.guid]
  | .move _ sItem none _ _ _ => [sItem.guid]
  | .move _ sItem (some (_, dItem)) _ _ _ =>
      if sItem.Stacks dItem ∧ sItem.count + dItem.count ≤ sItem.maxStackSize then [dItem.guid]
      else [sItem.guid, dItem.guid]
  | .split _ sItem dest _ _ => sItem.guid :: (dest.map fun found => found.2.guid).toList

variable {tab : UInt32} {copies : Bool} {names : List UInt32}

/-- The bank and its tables get from one world to the other by steps. -/
def Steps (tab : UInt32) (copies : Bool) (names : List UInt32) (w w' : World T) : Prop :=
  Relation.ReflTransGen (Step T tab copies names) (w.bank, w.db) (w'.bank, w'.db)

theorem Steps.refl (w : World T) : w.Steps tab copies names w := Relation.ReflTransGen.refl

theorem Steps.trans {w₁ w₂ w₃ : World T} (h₁ : w₁.Steps tab copies names w₂) (h₂ : w₂.Steps tab copies names w₃) :
    w₁.Steps tab copies names w₃ := Relation.ReflTransGen.trans h₁ h₂

/-- One step. -/
theorem Steps.one {w w' : World T} (h : Step T tab copies names (w.bank, w.db) (w'.bank, w'.db)) :
    w.Steps tab copies names w' := Relation.ReflTransGen.single h

/-- One step and the ones after it. -/
theorem Steps.step {w w₀ w' : World T} (hstep : Step T tab copies names (w.bank, w.db) (w₀.bank, w₀.db))
    (h : w₀.Steps tab copies names w') : w.Steps tab copies names w' := Relation.ReflTransGen.head hstep h

/-- Steps start from the bank and the tables only. -/
theorem Steps.of_same {w w₀ w' : World T} (hbank : w₀.bank = w.bank) (hdb : w₀.db = w.db)
    (h : w₀.Steps tab copies names w') : w.Steps tab copies names w' := by
  unfold Steps at h ⊢
  rw [← hbank, ← hdb]
  exact h

/-- Nothing but logging and saving happens from one world to the other. -/
def Rests (w w' : World T) : Prop :=
  Relation.ReflTransGen Rest (w.bank, w.db) (w'.bank, w'.db)

theorem Rests.refl (w : World T) : w.Rests w := Relation.ReflTransGen.refl

theorem Rests.trans {w₁ w₂ w₃ : World T} (h₁ : w₁.Rests w₂) (h₂ : w₂.Rests w₃) : w₁.Rests w₃ :=
  Relation.ReflTransGen.trans h₁ h₂

/-- The end of a call starts from the bank and the tables only. -/
theorem Rests.of_same {w w₀ w' : World T} (hbank : w₀.bank = w.bank) (hdb : w₀.db = w.db)
    (h : w₀.Rests w') : w.Rests w' := by
  unfold Rests at h ⊢
  rw [← hbank, ← hdb]
  exact h

/-- The end of a call is made of steps. -/
theorem Rests.steps {w w' : World T} (h : w.Rests w') : w.Steps tab copies names w' :=
  Relation.ReflTransGen.mono (fun _ _ hrest => Step.rest hrest) _ _ h

/-- Steps, at most one insertion, and the end of the call. -/
def Grows (tab : UInt32) (copies : Bool) (names : List UInt32) (w w' : World T) : Prop :=
  ∃ w₁ w₂ : World T, w.Steps tab copies names w₁ ∧
    (w₂ = w₁ ∨ Insertion T tab w₁.bank w₂.bank ∧ w₂.db = w₁.db) ∧ w₂.Rests w'

theorem Steps.grows {w w' : World T} (h : w.Steps tab copies names w') : w.Grows tab copies names w' :=
  ⟨w', w', h, Or.inl rfl, Rests.refl w'⟩

theorem Steps.trans_grows {w₁ w₂ w₃ : World T} (h₁ : w₁.Steps tab copies names w₂)
    (h₂ : w₂.Grows tab copies names w₃) : w₁.Grows tab copies names w₃ := by
  obtain ⟨u, v, hbefore, hinsert, hafter⟩ := h₂
  exact ⟨u, v, h₁.trans hbefore, hinsert, hafter⟩

theorem Grows.trans_rests {w₁ w₂ w₃ : World T} (h₁ : w₁.Grows tab copies names w₂)
    (h₂ : w₂.Rests w₃) : w₁.Grows tab copies names w₃ := by
  obtain ⟨u, v, hbefore, hinsert, hafter⟩ := h₁
  exact ⟨u, v, hbefore, hinsert, hafter.trans h₂⟩

/-- An insertion and the end of the call. -/
theorem grows_of_insertion {w w₂ w' : World T} (hinsert : Insertion T tab w.bank w₂.bank)
    (hdb : w₂.db = w.db) (h : w₂.Rests w') : w.Grows tab copies names w' :=
  ⟨w, w₂, Steps.refl w, Or.inr ⟨hinsert, hdb⟩, h⟩

/-- Saving is at most one step. -/
theorem saveToDB_rests (w : World T) : w.Rests w.saveToDB := by
  unfold saveToDB
  split_ifs
  · exact Rests.refl w
  · exact Rests.refl w
  · exact Relation.ReflTransGen.single .save

/-- Logging is a quiet step. -/
theorem logAction_rests (se : Session) (w : World T) (action : BankAction)
    (logTab itemID count : UInt32) (bItem : Option BankItem) :
    w.Rests (w.logAction se action logTab itemID count bItem) := by
  apply Relation.ReflTransGen.single
  obtain ⟨-, hdb, hbank⟩ := w.logAction_frame se action logTab itemID count bItem
  rw [hdb]
  refine .quiet ⟨?_, ?_, ?_, ?_, ?_⟩ ?_ <;> rw [hbank]

/-- The end of a deposit logs and saves. -/
theorem depositDone_rests (se : Session) (w : World T) (idx : ℕ) (count : UInt32) :
    w.Rests (w.depositDone se idx count) := by
  unfold depositDone
  split
  · exact Rests.refl w
  · rename_i bItem hitem
    refine Rests.of_same ?_ ?_ ((logAction_rests se (w.sendGuildMessage
      s!"GDeposit:{bItem.fullText}") _ _ _ _ _).trans (saveToDB_rests _)) <;> rfl

/-- The end of a withdrawal logs and saves. -/
theorem withdrawDone_rests (se : Session) (w : World T) (bankTab count : UInt32)
    (bItem : BankItem) : w.Rests (w.withdrawDone se bankTab count bItem) := by
  refine (logAction_rests se w .withdrawItem bItem.tab bItem.itemTemplate count
    (some bItem)).trans ?_
  have hanswer := (w.logAction se .withdrawItem bItem.tab bItem.itemTemplate count
    (some bItem)).sendWithdrawalsLeft_same se bankTab.toUInt8
  exact Rests.of_same hanswer.bank hanswer.db (saveToDB_rests _)

section Deposits

variable {w : World T} {pItem : Item T}

/-- What a deposit writes takes its stack size from the player's item. -/
theorem made_cloneFrom (bank : GuildBank) (bItem : BankItem) (pItem : Item T) :
    Made T bank (bItem.cloneFrom bank.infernoBank pItem) :=
  ⟨Or.inr ⟨pItem.proto, pItem.listed, rfl⟩, Or.inr rfl⟩

/-- Updating the bank item of a deposit is one step, and the item written is one of those named. -/
theorem placeDeposit_steps {bankSlot count : UInt32} {stack : Bool} {w' : World T} {idx : ℕ}
    (hnames : ∀ idx dItem, w.bank.findItem tab bankSlot = some (idx, dItem) → dItem.guid ∈ names)
    (h : w.placeDeposit tab bankSlot pItem count false stack = some (w', idx)) :
    w.Steps tab copies names w' ∧
      ∀ item ∈ w'.bank.items, item ∈ w.bank.items ∨ item.guid ∈ names := by
  simp only [placeDeposit, Bool.false_eq_true, if_false] at h
  split at h
  · cases h
  · rename_i idx' dItem hfound
    simp only [Option.some.injEq, Prod.mk.injEq] at h
    obtain ⟨rfl, rfl⟩ := h
    obtain ⟨hold, htab, -⟩ := GuildBank.findItem_some hfound
    have hname := hnames _ _ hfound
    refine ⟨Steps.one (.change hold htab hname htab rfl rfl (Or.inl rfl)
      (made_cloneFrom _ _ pItem)), fun item hmem => ?_⟩
    rcases List.mem_or_eq_of_mem_set hmem with hitem | rfl
    · exact Or.inl hitem
    · exact Or.inr hname

/-- What follows once the bank item of a deposit is formed. -/
theorem takeDeposit_rests (se : Session) (w : World T) (pos : ItemPos) (pItem : Item T)
    (count : UInt32) (idx : ℕ) :
    w.Rests ((w.takeDeposit pos pItem count).depositDone se idx count) :=
  Rests.of_same (takeDeposit_bank _ _ _ _) (takeDeposit_db _ _ _ _)
    (depositDone_rests se _ idx count)

/-- The steps of a deposit onto an item. -/
theorem depositItemInSlot_steps (se : Session) {bankSlot count : UInt32} {pos : ItemPos}
    {stack : Bool}
    (hnames : ∀ idx dItem, w.bank.findItem tab bankSlot = some (idx, dItem) → dItem.guid ∈ names) :
    w.Steps tab copies names (w.depositItemInSlot se tab bankSlot pos pItem count false stack) := by
  unfold depositItemInSlot
  split
  · exact Steps.refl w
  · rename_i w' idx hplace
    exact (placeDeposit_steps hnames hplace).1.trans
      (takeDeposit_rests se w' pos pItem count idx).steps

/-- Depositing a whole stack onto an item destroys it. -/
theorem depositItemInSlot_player (se : Session) {bankSlot : UInt32} {pos : ItemPos} {stack : Bool}
    {idx : ℕ} {dItem : BankItem} (hfound : w.bank.findItem tab bankSlot = some (idx, dItem)) :
    (w.depositItemInSlot se tab bankSlot pos pItem pItem.count false stack).player =
      w.player.destroyItem pos := by
  simp [depositItemInSlot, placeDeposit, hfound, takeDeposit]

/-- The steps of a deposit into a free slot. -/
theorem depositItemInSlot_grows (se : Session) {bankSlot count : UInt32} {pos : ItemPos}
    (stack : Bool) (hslot : ValidSlot bankSlot)
    (hfree : w.bank.findItem tab bankSlot = none) :
    w.Grows tab copies names (w.depositItemInSlot se tab bankSlot pos pItem count true stack) := by
  refine grows_of_insertion ?_ ?_ (takeDeposit_rests se (w.setBank (w.bank.insertItem
    ((w.bank.newItem tab bankSlot count).cloneFrom w.bank.infernoBank pItem))) pos pItem count
    w.bank.items.length)
  · exact .intro rfl rfl rfl hslot hfree (made_cloneFrom _ _ pItem)
  · rfl

/-- The steps of a deposit into free slots. -/
theorem depositItemInFreeSlot_grows (se : Session) (pos : ItemPos) (rounds : ℕ)
    (hnames : ∀ item ∈ w.bank.items, item.tab = tab → item.itemTemplate = pItem.entry →
      item.guid ∈ names) :
    w.Grows tab copies names (depositItemInFreeSlot se tab pos rounds w pItem) := by
  induction rounds generalizing w pItem with
  | zero => exact (Steps.refl w).grows
  | succ rounds ih =>
      unfold depositItemInFreeSlot
      simp only
      split
      · rename_i slot idx bItem hstack
        have hfound : w.bank.findItem tab slot = some (idx, bItem) ∧
            bItem.itemTemplate = pItem.entry := by
          rw [Option.ite_none_right_eq_some] at hstack
          obtain ⟨-, -, hitem, hentry, -⟩ := GuildBank.unfilledStack_some hstack.2
          exact ⟨hitem, hentry⟩
        have hname : ∀ idx dItem, w.bank.findItem tab slot = some (idx, dItem) →
            dItem.guid ∈ names := by
          intro idx' dItem hitem
          rw [hfound.1] at hitem
          cases hitem
          obtain ⟨hold, htab, -⟩ := GuildBank.findItem_some hfound.1
          exact hnames bItem (List.mem_of_getElem? hold) htab hfound.2
        split
        · exact (depositItemInSlot_steps se hname).grows
        · split
          · exact (Steps.refl w).grows
          · rename_i w' idx' hplace
            obtain ⟨hsteps, hitems⟩ := placeDeposit_steps hname hplace
            refine (hsteps.trans ?_).trans_grows
              ((ih fun item hmem htab hentry => ?_).trans_rests (depositDone_rests se _ idx' _))
            · exact Steps.refl w'
            · rcases hitems item hmem with hold | hnew
              · exact hnames item hold htab hentry
              · exact hnew
      · split
        · rename_i slot hfree
          obtain ⟨hpos, hmax, hnone⟩ := GuildBank.freeSlot_some hfree
          exact depositItemInSlot_grows se false ⟨hpos, hmax⟩ hnone
        · exact (Steps.refl w).grows

end Deposits

section Withdrawals

variable {w : World T}

/-- A copy of an item of the bank, with another count. -/
theorem made_of_item {bank : GuildBank} {idx : ℕ} {old item : BankItem}
    (hold : bank.items[idx]? = some old) (hentry : item.itemTemplate = old.itemTemplate)
    (hstack : item.maxStackSize = old.maxStackSize) (hinferno : item.isInferno = old.isInferno) :
    Made T bank item :=
  ⟨Or.inl ⟨old, List.mem_of_getElem? hold, hentry, hstack⟩,
    Or.inl ⟨old, List.mem_of_getElem? hold, hinferno⟩⟩

/-- The bank side of a withdrawal is one step. -/
theorem takeOut_step {bank : GuildBank} {db : Database} {idx : ℕ} {bItem : BankItem}
    (hold : bank.items[idx]? = some bItem) (htab : bItem.tab = tab) {all : Bool}
    (hname : all = false → bItem.guid ∈ names) (left : UInt32) :
    Step T tab copies names (bank, db) (bank.takeOut (some idx) bItem all left, db) := by
  simp only [GuildBank.takeOut]
  cases all with
  | true => exact .remove hold htab
  | false =>
      exact .change hold htab (hname rfl) htab rfl rfl (Or.inl rfl) (made_of_item hold rfl rfl rfl)

/-- A swap only queues the copy it withdraws. -/
theorem takeOut_copy_step {bank : GuildBank} {db : Database} (bItem : BankItem) (all : Bool)
    (left : UInt32) : Step T tab true names (bank, db) (bank.takeOut none bItem all left, db) := by
  simp only [GuildBank.takeOut]
  split <;> exact .copy _ rfl

/-- The steps of a withdrawal, given the one on the bank side. -/
theorem withdrawItemTo_steps_of (se : Session)
    {bankTab bankSlot count playerBag playerSlot remainer : UInt32} {idx : Option ℕ}
    {bItem : BankItem} {target : Option (ItemPos × Item T)} {swapped : Bool}
    (htake : ∀ left, Step T tab copies names (w.bank, w.db)
      (w.bank.takeOut idx bItem (decide (remainer = 0)) left, w.db)) :
    w.Steps tab copies names (w.withdrawItemTo se bankTab bankSlot count playerBag playerSlot idx bItem
      target remainer swapped) := by
  unfold withdrawItemTo
  simp only
  split
  · exact Steps.refl w
  · split
    · refine Steps.step ?_ (withdrawDone_rests se _ _ _ _).steps
      simp only [setItemCount_bank, setItemCount_db, setBank_bank, setBank_db, sendWithdrawn_bank,
        sendWithdrawn_db]
      exact htake _
    · unfold withdrawAsNew
      simp only
      split
      · refine Steps.of_same ?_ ?_ (saveToDB_rests _).steps <;> rfl
      · refine Steps.step ?_ (withdrawDone_rests se _ _ _ _).steps
        simp only [send_bank, send_db, setBank_bank, setBank_db, sendWithdrawn_bank,
          sendWithdrawn_db, setPlayer_bank, setPlayer_db]
        exact htake _

/-- Where no units are asked for, a withdrawal only saves. -/
theorem withdrawItemTo_none (se : Session) (bankTab bankSlot playerBag playerSlot : UInt32)
    (idx : Option ℕ) {bItem : BankItem} (hzero : bItem.count = 0) (remainer : UInt32)
    (swapped : Bool) :
    w.Rests (w.withdrawItemTo se bankTab bankSlot bItem.count playerBag playerSlot idx bItem none
      remainer swapped) := by
  unfold withdrawItemTo
  simp only
  split
  · exact Rests.refl w
  · rename_i hok
    rw [not_not] at hok
    obtain ⟨proto, -, hfits⟩ := Player.canStoreItemAt_fits hok
    have hplanned := hfits.sum
    rw [← Player.canStoreNewItem, hzero] at hplanned
    have hnone : w.player.storeNewItem (w.player.canStoreNewItem playerBag.toUInt8
        playerSlot.toUInt8 bItem.itemTemplate bItem.count).dest bItem.itemTemplate
          (se.generatedRandomPropertyId bItem.itemTemplate) = (w.player, none) := by
      refine Player.storeNewItem_of_no_units ?_ _ _
      rw [hzero]
      simpa using hplanned
    unfold withdrawAsNew
    simp only [hnone, Option.bind_none]
    refine Rests.of_same ?_ ?_ (saveToDB_rests _) <;> rfl

/-- The steps of a swap. -/
theorem swapItems_steps (se : Session) {pos : ItemPos} {bagItem : Item T} {bankItem : BankItem}
    {idx : ℕ} (hfound : w.bank.findItem bankItem.tab bankItem.slot = some (idx, bankItem)) :
    w.Steps bankItem.tab (w.copies (.swap pos bagItem bankItem)) [bankItem.guid]
      (w.swapItems se pos bagItem bankItem) := by
  unfold swapItems
  simp only
  split
  · exact Steps.refl w
  · rename_i haccept
    have hname : ∀ idx dItem, w.bank.findItem bankItem.tab bankItem.slot = some (idx, dItem) →
        dItem.guid ∈ [bankItem.guid] := by
      intro idx' dItem hitem
      rw [hfound] at hitem
      cases hitem
      exact List.mem_singleton_self _
    have hdeposit : w.Steps bankItem.tab (w.copies (.swap pos bagItem bankItem)) [bankItem.guid]
        (w.depositItemInSlot se bankItem.tab bankItem.slot pos bagItem bagItem.count false
          false) := depositItemInSlot_steps se hname
    refine hdeposit.trans ?_
    obtain ⟨deposited, hdeposited⟩ : ∃ deposited, deposited = w.depositItemInSlot se bankItem.tab
        bankItem.slot pos bagItem bagItem.count false false := ⟨_, rfl⟩
    have hplayer : deposited.player = w.player.destroyItem pos := by
      rw [hdeposited]
      exact depositItemInSlot_player se hfound
    rw [← hdeposited]
    cases hcopies : w.copies (.swap pos bagItem bankItem) with
    | true => exact withdrawItemTo_steps_of se fun left => takeOut_copy_step bankItem _ left
    | false =>
        by_cases hzero : bankItem.count = 0
        · exact (withdrawItemTo_none se _ _ _ _ _ hzero _ _).steps
        · have hroom : (deposited.player.canStoreNewItem inventorySlotBag0 nullSlot
              bankItem.itemTemplate bankItem.count).result ≠ .ok := by
            intro hok
            rw [hplayer] at hok
            simp only [copies, decide_eq_false_iff_not] at hcopies
            refine hcopies ⟨?_, hok, hzero⟩
            by_contra hnone
            exact haccept (not_or.mp hnone)
          unfold withdrawItemTo
          simp only [UInt8.toUInt8_toUInt32]
          rw [if_pos hroom]
          exact Steps.refl deposited

end Withdrawals

section Moves

variable {w : World T}

/-- Two items in different slots of a tab are different items. -/
theorem idx_ne_of_slot {bank : GuildBank} {tab fromSlot toSlot : UInt32} {sIdx dIdx : ℕ}
    {sItem dItem : BankItem} (hs : bank.findItem tab fromSlot = some (sIdx, sItem))
    (hd : bank.findItem tab toSlot = some (dIdx, dItem)) (hne : fromSlot ≠ toSlot) :
    sIdx ≠ dIdx := by
  obtain ⟨hsItem, -, hsSlot⟩ := GuildBank.findItem_some hs
  obtain ⟨hdItem, -, hdSlot⟩ := GuildBank.findItem_some hd
  rintro rfl
  rw [hsItem] at hdItem
  cases hdItem
  exact hne (hsSlot.symm.trans hdSlot)

/-- Two changes that leave both items in their slots. -/
theorem changeTwo_steps {db : Database} {bank : GuildBank} {sIdx dIdx : ℕ}
    {sItem dItem : BankItem} {sCount dCount : UInt32} (hs : bank.items[sIdx]? = some sItem)
    (hd : bank.items[dIdx]? = some dItem) (hne : sIdx ≠ dIdx) (hsTab : sItem.tab = tab)
    (hdTab : dItem.tab = tab) (hsName : sItem.guid ∈ names) (hdName : dItem.guid ∈ names) :
    Relation.ReflTransGen (Step T tab copies names) (bank, db)
      ((bank.changeItem sIdx (sItem.setCount sCount)).changeItem dIdx
        (dItem.setCount dCount), db) := by
  have hfirst : Step T tab copies names (bank, db)
      (bank.changeItem sIdx (sItem.setCount sCount), db) :=
    .change hs hsTab hsName hsTab rfl rfl (Or.inl rfl) (made_of_item hs rfl rfl rfl)
  have hd' := GuildBank.changeItem_getElem?_ne hne (sItem.setCount sCount) hd
  exact .tail (.single hfirst)
    (.change hd' hdTab hdName hdTab rfl rfl (Or.inl rfl) (made_of_item hd' rfl rfl rfl))

/-- The steps of a move. -/
theorem moveItemTo_steps {sIdx : ℕ} {sItem : BankItem} {bankTab fromSlot toSlot : UInt8}
    (hto : ValidSlot toSlot.toUInt32) (hne : fromSlot ≠ toSlot)
    (hfound : w.bank.findItem bankTab.toUInt32 fromSlot.toUInt32 = some (sIdx, sItem)) :
    w.Steps bankTab.toUInt32 copies
      (w.rewrites (.move sIdx sItem (w.bank.findItem bankTab.toUInt32 toSlot.toUInt32) bankTab
        fromSlot toSlot))
      (w.moveItemTo sIdx sItem (w.bank.findItem bankTab.toUInt32 toSlot.toUInt32) bankTab fromSlot
        toSlot) := by
  obtain ⟨hs, hsTab, hsSlot⟩ := GuildBank.findItem_some hfound
  unfold moveItemTo
  simp only
  cases hdest : w.bank.findItem bankTab.toUInt32 toSlot.toUInt32 with
  | none =>
      exact Steps.one (.change hs hsTab (List.mem_singleton_self _) hsTab rfl rfl
        (Or.inr ⟨hto, hdest⟩) (made_of_item hs rfl rfl rfl))
  | some found =>
      obtain ⟨dIdx, dItem⟩ := found
      obtain ⟨hd, hdTab, hdSlot⟩ := GuildBank.findItem_some hdest
      have hidx := idx_ne_of_slot hfound hdest fun heq => hne (UInt8.toUInt32_inj.mp heq)
      simp only [rewrites]
      by_cases hstack : sItem.Stacks dItem
      · simp only [hstack, true_and, if_true]
        split_ifs with hall
        · have hfirst : Step T bankTab.toUInt32 copies [dItem.guid] (w.bank, w.db)
              (w.bank.changeItem dIdx (dItem.setCount (sItem.count + dItem.count)), w.db) :=
            .change hd hdTab (List.mem_singleton_self _) hdTab rfl rfl (Or.inl rfl)
              (made_of_item hd rfl rfl rfl)
          have hs' := GuildBank.changeItem_getElem?_ne hidx.symm
            (dItem.setCount (sItem.count + dItem.count)) hs
          exact .tail (.single hfirst) (.remove hs' hsTab)
        · exact changeTwo_steps hs hd hidx hsTab hdTab (by simp) (by simp)
      · simp only [hstack, false_and, if_false]
        refine Steps.step ?_ (saveToDB_rests _).steps
        rw [← hsSlot, ← hdSlot]
        exact .exchange hs hd hidx hsTab hdTab (by simp) (by simp)

/-- The steps of a split into a free slot. -/
theorem splitItemTo_grows {sIdx : ℕ} {sItem : BankItem} {bankTab fromSlot toSlot split : UInt8}
    (hto : ValidSlot toSlot.toUInt32)
    (hfound : w.bank.findItem bankTab.toUInt32 fromSlot.toUInt32 = some (sIdx, sItem))
    (hfree : w.bank.findItem bankTab.toUInt32 toSlot.toUInt32 = none) :
    w.Grows bankTab.toUInt32 copies [sItem.guid] (w.splitItemTo sIdx sItem none toSlot split) := by
  obtain ⟨hs, hsTab, hsSlot⟩ := GuildBank.findItem_some hfound
  unfold splitItemTo
  simp only
  split_ifs
  · exact (Steps.refl w).grows
  · exact (Steps.refl w).grows
  · obtain ⟨left, hleft⟩ : ∃ left,
        left = (sItem.count.toInt32 - split.toUInt32.toInt32).toUInt32 := ⟨_, rfl⟩
    rw [← hleft]
    have hfirst : Step T bankTab.toUInt32 copies [sItem.guid] (w.bank, w.db)
        (w.bank.changeItem sIdx (sItem.setCount left), w.db) :=
      .change hs hsTab (List.mem_singleton_self _) hsTab rfl rfl (Or.inl rfl)
        (made_of_item hs rfl rfl rfl)
    have hfree' := GuildBank.findItem_changeItem_none (sItem.setCount left) hfree hs rfl rfl
    have hs' : (w.bank.changeItem sIdx (sItem.setCount left)).items[sIdx]? =
        some ((sItem.setCount left).setState .changed) := by
      obtain ⟨hlt, -⟩ := List.getElem?_eq_some_iff.mp hs
      simp [List.getElem?_set_self hlt]
    have hchanged : w.Steps bankTab.toUInt32 copies [sItem.guid]
        (w.setBank (w.bank.changeItem sIdx (sItem.setCount left))) := Steps.one hfirst
    refine hchanged.trans_grows (grows_of_insertion ?_ ?_ (saveToDB_rests _))
    · exact .intro hsTab rfl rfl hto hfree' (made_of_item hs' rfl rfl rfl)
    · rfl

/-- The steps of a split onto another item. -/
theorem splitItemTo_steps {sIdx dIdx : ℕ} {sItem dItem : BankItem} (toSlot split : UInt8)
    (hs : w.bank.items[sIdx]? = some sItem) (hd : w.bank.items[dIdx]? = some dItem)
    (hne : sIdx ≠ dIdx) (hsTab : sItem.tab = tab) (hdTab : dItem.tab = tab) :
    w.Steps tab copies [sItem.guid, dItem.guid]
      (w.splitItemTo sIdx sItem (some (dIdx, dItem)) toSlot split) := by
  unfold splitItemTo
  simp only
  split_ifs
  all_goals first
    | exact Steps.refl w
    | exact changeTwo_steps hs hd hne hsTab hdTab (by simp) (by simp)

end Moves

/-- Every call of an item message is a sequence of steps in one valid tab, with at most one
insertion among them, and none if the call does not insert. -/
theorem perform_grows (se : Session) {w : World T} {call : ItemCall T} (h : Asked w call) :
    ∃ tab, ValidTab tab ∧ call.InTab tab ∧
      w.Grows tab (w.copies call) (w.rewrites call) (w.perform se call) ∧
      (call.inserts = false →
        w.Steps tab (w.copies call) (w.rewrites call) (w.perform se call)) := by
  have hsteps : ∀ {tab w'}, w.Steps tab (w.copies call) (w.rewrites call) w' →
      w.Grows tab (w.copies call) (w.rewrites call) w' ∧
        (call.inserts = false → w.Steps tab (w.copies call) (w.rewrites call) w') :=
    fun hs => ⟨hs.grows, fun _ => hs⟩
  cases h with
  | refuse answers => exact ⟨1, by decide, trivial, hsteps (Steps.refl w)⟩
  | @depositInFreeSlot bankTab pos pItem htab hitem =>
      refine ⟨_, htab, rfl, depositItemInFreeSlot_grows se _ _ fun item hmem hplace hentry => ?_,
        nofun⟩
      exact List.mem_map_of_mem (List.mem_filter.mpr ⟨hmem, by simp [hplace, hentry]⟩)
  | depositNew htab hslot hitem hcount hfree =>
      exact ⟨_, htab, rfl, depositItemInSlot_grows se false hslot hfree, nofun⟩
  | depositAll htab hitem hcount hfound =>
      refine ⟨_, htab, rfl, hsteps (depositItemInSlot_steps se fun idx dItem hdest => ?_)⟩
      simp [rewrites, hdest]
  | depositFew htab hitem hcount hfound =>
      refine ⟨_, htab, rfl, hsteps (depositItemInSlot_steps se fun idx dItem hdest => ?_)⟩
      simp [rewrites, hdest]
  | refill htab hitem hcount hfound =>
      obtain ⟨hold, hplace, -⟩ := GuildBank.findItem_some hfound
      refine ⟨_, htab, rfl,
        hsteps (withdrawItemTo_steps_of se fun _ => takeOut_step hold hplace (fun hrest => ?_) _)⟩
      simpa [rewrites] using hrest
  | withdrawOnto htab hitem hfound =>
      obtain ⟨hold, hplace, -⟩ := GuildBank.findItem_some hfound
      refine ⟨_, htab, rfl,
        hsteps (withdrawItemTo_steps_of se fun _ => takeOut_step hold hplace (fun hrest => ?_) _)⟩
      simpa [rewrites] using hrest
  | withdrawNew htab hfound =>
      obtain ⟨hold, hplace, -⟩ := GuildBank.findItem_some hfound
      refine ⟨_, htab, rfl,
        hsteps (withdrawItemTo_steps_of se fun _ => takeOut_step hold hplace (fun hrest => ?_) _)⟩
      simpa [rewrites] using hrest
  | swap htab hitem hfound => exact ⟨_, htab, rfl, hsteps (swapItems_steps se hfound)⟩
  | move htab hfrom hto hne hfound =>
      exact ⟨_, htab, rfl, hsteps (moveItemTo_steps hto hne hfound)⟩
  | @split sIdx sItem bankTab fromSlot toSlot amount htab hto hne hfound =>
      obtain ⟨hs, hsTab, -⟩ := GuildBank.findItem_some hfound
      refine ⟨_, htab, hsTab, ?_⟩
      cases hdest : w.bank.findItem bankTab.toUInt32 toSlot.toUInt32 with
      | none => exact ⟨splitItemTo_grows hto hfound hdest, nofun⟩
      | some found =>
          obtain ⟨dIdx, dItem⟩ := found
          obtain ⟨hd, hdTab, -⟩ := GuildBank.findItem_some hdest
          have hidx := idx_ne_of_slot hfound hdest fun heq => hne (UInt8.toUInt32_inj.mp heq)
          -- onto a stack nothing is inserted, and both stacks are rewritten
          have hs' : w.Steps bankTab.toUInt32 false [sItem.guid, dItem.guid] _ :=
            splitItemTo_steps toSlot amount hs hd hidx hsTab hdTab
          exact ⟨hs'.grows, fun _ => hs'⟩

/-- What every step keeps holds after the steps. -/
theorem Steps.invariant {w w' : World T} (h : w.Steps tab copies names w')
    (Inv : GuildBank × Database → Prop)
    (hstep : ∀ s s', Step T tab copies names s s' → Inv s → Inv s') (hstart : Inv (w.bank, w.db)) :
    Inv (w'.bank, w'.db) := by
  unfold Steps at h
  generalize (w'.bank, w'.db) = s at h ⊢
  induction h with
  | refl => exact hstart
  | tail _ hlast ih => exact hstep _ _ hlast ih

/-- What logging and saving keep holds at the end of a call. -/
theorem Rests.invariant {w w' : World T} (h : w.Rests w') (Inv : GuildBank × Database → Prop)
    (hrest : ∀ s s', Rest s s' → Inv s → Inv s') (hstart : Inv (w.bank, w.db)) :
    Inv (w'.bank, w'.db) := by
  unfold Rests at h
  generalize (w'.bank, w'.db) = s at h ⊢
  induction h with
  | refl => exact hstart
  | tail _ hlast ih => exact hrest _ _ hlast ih

/-- The rule for invariants of item calls: `Before` holds until the insertion, `After` from
there. -/
theorem Grows.invariant {w w' : World T} (h : w.Grows tab copies names w')
    (Before After : GuildBank × Database → Prop)
    (hbefore : ∀ s s', Step T tab copies names s s' → Before s → Before s')
    (hsame : ∀ s, Before s → After s)
    (hinsert : ∀ bank bank' db, Insertion T tab bank bank' → Before (bank, db) →
      After (bank', db))
    (hafter : ∀ s s', Rest s s' → After s → After s') (hstart : Before (w.bank, w.db)) :
    After (w'.bank, w'.db) := by
  obtain ⟨u, v, hfirst, hmiddle, hlast⟩ := h
  have hu := hfirst.invariant Before hbefore hstart
  have hv : After (v.bank, v.db) := by
    rcases hmiddle with rfl | ⟨hin, hdb⟩
    · exact hsame _ hu
    · rw [hdb]
      exact hinsert _ _ _ hin hu
  exact hlast.invariant After hafter hv

end World

end TwowCore
