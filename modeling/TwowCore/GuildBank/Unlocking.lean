import TwowCore.GuildBank.MoneyLaw
import TwowCore.GuildBank.Runs

/-!
# Unlocking tabs

`receive_tabs` says what one message does to the number of tabs: an accepted `UnlockTab` makes it
the tab that was named, an accepted `UnlockGuildBank:Ok` makes it 1, and nothing else changes it.
`WithinTabs` says that an item message neither reads nor changes an item of a higher tab than a
given one: what it ends in is the same whatever lies there, and what lies there stays.

The handlers check the tab against `MAX_TABS` only, and neither unlocking looks at the number of
tabs there are. `UnlocksInOrder` names the messages that are fine nevertheless, and
`run_unlocksInOrder` is the law of unlocking for the runs made of them.
-/

namespace TwowCore

/-- The bank with other items. -/
def GuildBank.setItems (bank : GuildBank) (items : List BankItem) : GuildBank := { bank with items }

/-- The items of the tabs above one, whatever their update state. -/
def GuildBank.itemsAbove (bank : GuildBank) (last : UInt32) : List BankItem :=
  (bank.items.filter fun item => last < item.tab).map fun item => item.setState .unchanged

/-- The call without the positions of the items in `b_items`. -/
def ItemCall.forget {T : ItemTable} : ItemCall T → ItemCall T
  | .withdraw bankTab bankSlot count playerBag playerSlot _ bItem target remainer =>
      .withdraw bankTab bankSlot count playerBag playerSlot 0 bItem target remainer
  | .move _ sItem dest bankTab fromSlot toSlot =>
      .move 0 sItem (dest.map fun found => (0, found.2)) bankTab fromSlot toSlot
  | .split _ sItem dest toSlot amount =>
      .split 0 sItem (dest.map fun found => (0, found.2)) toSlot amount
  | call => call

namespace World

variable {T : ItemTable} {w : World T}

/-- The tab an item message works in, once it has passed the checks that come before it looks for
items. -/
def namedTab (se : Session) (w : World T) (op : ItemOp) (msg : List Char) : Option UInt32 :=
  match op with
  | .deposit =>
      match tokenizer msg ':' with
      | [_, _, _, tabText, bankSlotText, _] =>
          let bankTab := atoiByte tabText
          if bankTab = 0 ∨ maxTabs < bankTab.toUInt32 ∨
              bankTabSize < (atoiByte bankSlotText).toUInt32 then none
          else if w.bank.canAccessTab se w.player.guid bankTab .depositItem = false then none
          else some bankTab.toUInt32
      | _ => none
  | .withdraw =>
      match tokenizer msg ':' with
      | [_, tabText, bankSlotText, _, _, _] =>
          let bankTab := atoiWord tabText
          let bankSlot := atoiWord bankSlotText
          if bankTab = 0 ∨ maxTabs < bankTab ∨ bankSlot = 0 ∨ bankTabSize < bankSlot then none
          else if w.bank.canAccessTab se w.player.guid bankTab.toUInt8 .withdrawItem = false then
            none
          else some bankTab
      | _ => none
  | .move =>
      match tokenizer msg ':' with
      | [_, tabText, fromText, toText] =>
          let bankTab := atoiByte tabText
          if w.bank.canAccessTab se w.player.guid bankTab .moveItem = false then none
          else if atoiByte fromText = atoiByte toText then none
          else if slotsOutOfRange bankTab (atoiByte fromText) (atoiByte toText) then none
          else some bankTab.toUInt32
      | _ => none
  | .split =>
      match tokenizer msg ':' with
      | [_, tabText, fromText, toText, _] =>
          let bankTab := atoiByte tabText
          if w.bank.canAccessTab se w.player.guid bankTab .splitItem = false then none
          else if atoiByte fromText = atoiByte toText then none
          else if slotsOutOfRange bankTab (atoiByte fromText) (atoiByte toText) then none
          else some bankTab.toUInt32
      | _ => none

section Reading

variable {se : Session} {msg : List Char} {items : List BankItem}

/-- The two banks show the same items in the tab. -/
def ShowsSame (bank bank' : GuildBank) (tab : UInt32) : Prop :=
  ∀ slot, (bank'.findItem tab slot).map Prod.snd = (bank.findItem tab slot).map Prod.snd

/-- What is found in a tab two banks agree on. -/
theorem ShowsSame.cases {bank bank' : GuildBank} {tab : UInt32} (h : ShowsSame bank bank' tab)
    (slot : UInt32) :
    (bank'.findItem tab slot = none ∧ bank.findItem tab slot = none) ∨
      ∃ idx idx' item, bank'.findItem tab slot = some (idx', item) ∧
        bank.findItem tab slot = some (idx, item) := by
  have hslot := h slot
  cases hleft : bank'.findItem tab slot with
  | none =>
      rw [hleft] at hslot
      exact Or.inl ⟨rfl, Option.map_eq_none_iff.mp hslot.symm⟩
  | some found =>
      obtain ⟨idx', item⟩ := found
      rw [hleft] at hslot
      obtain ⟨⟨idx, item'⟩, hright, heq⟩ := Option.map_eq_some_iff.mp hslot.symm
      cases heq
      exact Or.inr ⟨idx, idx', item, rfl, hright⟩

/-- Access to a tab is not a matter of the items in it. -/
theorem setItems_canAccessTab (bank : GuildBank) (items : List BankItem) (se : Session)
    (playerGuid : UInt32) (tab : UInt8) (action : BankAction) :
    (bank.setItems items).canAccessTab se playerGuid tab action =
      bank.canAccessTab se playerGuid tab action := rfl

/-- A deposit onto an item does not depend on its position in `b_items`. -/
theorem depositOnto_forget (bankTab bankSlot : UInt32) (pos : ItemPos) (pItem : Item T)
    (count : UInt32) (idx idx' : ℕ) (dItem : BankItem) :
    (depositOnto bankTab bankSlot pos pItem count idx' dItem).forget =
      (depositOnto bankTab bankSlot pos pItem count idx dItem).forget := by
  unfold depositOnto
  split_ifs <;> rfl

/-- Neither does a withdrawal onto an item of the bags. -/
theorem withdrawOnto_forget (bankTab bankSlot withdrawCount playerBag playerSlot : UInt32)
    (idx idx' : ℕ) (bItem : BankItem) (pos : ItemPos) (pItem : Item T) :
    (withdrawOnto bankTab bankSlot withdrawCount playerBag playerSlot idx' bItem pos pItem).forget =
      (withdrawOnto bankTab bankSlot withdrawCount playerBag playerSlot idx bItem pos
        pItem).forget := by
  unfold withdrawOnto
  split
  · rfl
  · split_ifs <;> rfl

/-- Two results of a search that find the same item. -/
theorem forget_dest {dest dest' : Option (ℕ × BankItem)}
    (h : dest'.map Prod.snd = dest.map Prod.snd) :
    (dest'.map fun found => ((0 : ℕ), found.2)) = dest.map fun found => ((0 : ℕ), found.2) := by
  have hpair := congrArg (Option.map fun item => ((0 : ℕ), item)) h
  simpa [Option.map_map, Function.comp_def] using hpair

/-- What `DepositItem` ends in depends on the items of the tab it names only. -/
theorem depositCall_forget
    (hsame : ∀ tab, w.namedTab se .deposit msg = some tab →
      ShowsSame w.bank (w.bank.setItems items) tab) :
    ((w.setBank (w.bank.setItems items)).depositCall se msg).forget =
      (w.depositCall se msg).forget := by
  unfold namedTab at hsame
  unfold depositCall
  simp only [setBank_bank, setBank_player, setItems_canAccessTab]
  split
  · rename_i bagText slotText tabText bankSlotText countText htokens
    simp only [htokens] at hsame
    split
    · rfl
    · rename_i hrange
      rw [if_neg hrange] at hsame
      by_cases haccess : w.bank.canAccessTab se w.player.guid (atoiByte tabText) .depositItem = false
      · simp only [haccess, if_true]
      · rw [if_neg haccess] at hsame
        simp only [haccess, Bool.true_eq_false, if_false]
        rcases (hsame _ rfl).cases (atoiByte bankSlotText).toUInt32 with
          ⟨hleft, hright⟩ | ⟨idx, idx', dItem, hleft, hright⟩
        · rw [hleft, hright]
        · rw [hleft, hright]
          split
          · rfl
          · split
            · rfl
            · split_ifs
              · rfl
              · rfl
              · exact depositOnto_forget _ _ _ _ _ idx idx' dItem
  · rfl

/-- What `WithdrawItem` ends in depends on the items of the tab it names only. -/
theorem withdrawCall_forget
    (hsame : ∀ tab, w.namedTab se .withdraw msg = some tab →
      ShowsSame w.bank (w.bank.setItems items) tab) :
    ((w.setBank (w.bank.setItems items)).withdrawCall se msg).forget =
      (w.withdrawCall se msg).forget := by
  unfold namedTab at hsame
  unfold withdrawCall
  simp only [setBank_bank, setBank_player, setItems_canAccessTab]
  split
  · rename_i tabText bankSlotText bagText slotText countText htokens
    simp only [htokens] at hsame
    split
    · rfl
    · rename_i hrange
      rw [if_neg hrange] at hsame
      by_cases haccess : w.bank.canAccessTab se w.player.guid (atoiWord tabText).toUInt8
          .withdrawItem = false
      · simp only [haccess, if_true]
      · rw [if_neg haccess] at hsame
        simp only [haccess, Bool.true_eq_false, if_false]
        rcases (hsame _ rfl).cases (atoiWord bankSlotText) with
          ⟨hleft, hright⟩ | ⟨idx, idx', bItem, hleft, hright⟩
        · rw [hleft, hright]
        · rw [hleft, hright]
          simp only
          split
          · rfl
          · split
            · split_ifs <;> rfl
            · split
              · exact withdrawOnto_forget _ _ _ _ _ idx idx' bItem _ _
              · rfl
  · rfl

/-- What `MoveItem` ends in depends on the items of the tab it names only. -/
theorem moveCall_forget
    (hsame : ∀ tab, w.namedTab se .move msg = some tab →
      ShowsSame w.bank (w.bank.setItems items) tab) :
    ((w.setBank (w.bank.setItems items)).moveCall se msg).forget = (w.moveCall se msg).forget := by
  unfold namedTab at hsame
  unfold moveCall
  simp only [setBank_bank, setBank_player, setItems_canAccessTab]
  split
  · rename_i tabText fromText toText htokens
    simp only [htokens] at hsame
    by_cases haccess : w.bank.canAccessTab se w.player.guid (atoiByte tabText) .moveItem = false
    · simp only [haccess, if_true]
    · rw [if_neg haccess] at hsame
      simp only [haccess, Bool.true_eq_false, if_false]
      split
      · rfl
      · rename_i hne
        rw [if_neg hne] at hsame
        split
        · rfl
        · rename_i hrange
          rw [if_neg hrange] at hsame
          have hdest := hsame _ rfl (atoiByte toText).toUInt32
          rcases (hsame _ rfl).cases (atoiByte fromText).toUInt32 with
            ⟨hleft, hright⟩ | ⟨idx, idx', sItem, hleft, hright⟩
          · rw [hleft, hright]
          · rw [hleft, hright]
            simp only [ItemCall.forget, forget_dest hdest]
  · rfl

/-- What `SplitItem` ends in depends on the items of the tab it names only. -/
theorem splitCall_forget
    (hsame : ∀ tab, w.namedTab se .split msg = some tab →
      ShowsSame w.bank (w.bank.setItems items) tab) :
    ((w.setBank (w.bank.setItems items)).splitCall se msg).forget =
      (w.splitCall se msg).forget := by
  unfold namedTab at hsame
  unfold splitCall
  simp only [setBank_bank, setBank_player, setItems_canAccessTab]
  split
  · rename_i tabText fromText toText splitText htokens
    simp only [htokens] at hsame
    by_cases haccess : w.bank.canAccessTab se w.player.guid (atoiByte tabText) .splitItem = false
    · simp only [haccess, if_true]
    · rw [if_neg haccess] at hsame
      simp only [haccess, Bool.true_eq_false, if_false]
      split
      · rfl
      · rename_i hne
        rw [if_neg hne] at hsame
        split
        · rfl
        · rename_i hrange
          rw [if_neg hrange] at hsame
          have hdest := hsame _ rfl (atoiByte toText).toUInt32
          rcases (hsame _ rfl).cases (atoiByte fromText).toUInt32 with
            ⟨hleft, hright⟩ | ⟨idx, idx', sItem, hleft, hright⟩
          · rw [hleft, hright]
          · rw [hleft, hright]
            simp only [ItemCall.forget, forget_dest hdest]
  · rfl

/-- What an item message ends in depends on the items of the tab it names only. -/
theorem itemCall_forget {op : ItemOp}
    (hsame : ∀ tab, w.namedTab se op msg = some tab →
      ShowsSame w.bank (w.bank.setItems items) tab) :
    ((w.setBank (w.bank.setItems items)).itemCall se op msg).forget =
      (w.itemCall se op msg).forget := by
  cases op with
  | deposit => exact depositCall_forget hsame
  | withdraw => exact withdrawCall_forget hsame
  | move => exact moveCall_forget hsame
  | split => exact splitCall_forget hsame

end Reading

section Changing

variable {se : Session} {msg : List Char}

/-- The call is refused, or it works in the tab and no other. -/
def WorksIn (call : ItemCall T) (named : Option UInt32) : Prop :=
  (∃ answers, call = .refuse answers) ∨ ∀ tab, call.InTab tab → named = some tab

theorem WorksIn.refuse (answers : List Out) (named : Option UInt32) :
    WorksIn (.refuse answers : ItemCall T) named := Or.inl ⟨answers, rfl⟩

theorem depositCall_worksIn : WorksIn (w.depositCall se msg) (w.namedTab se .deposit msg) := by
  unfold depositCall
  split
  · rename_i bagText slotText tabText bankSlotText countText htokens
    simp only
    split
    · exact .refuse _ _
    · rename_i hrange
      split
      · exact .refuse _ _
      · rename_i haccess
        have hnamed : w.namedTab se .deposit msg = some (atoiByte tabText).toUInt32 := by
          simp only [namedTab, htokens, if_neg hrange, if_neg haccess]
        rw [hnamed]
        split
        · exact .refuse _ _
        · split
          · exact .refuse _ _
          · split
            · exact .refuse _ _
            · split
              · exact Or.inr fun tab htab => congrArg some htab
              · split
                · rename_i idx dItem hfound
                  obtain ⟨-, hplace, -⟩ := GuildBank.findItem_some hfound
                  unfold depositOnto
                  split_ifs
                  · exact .refuse _ _
                  · exact Or.inr fun tab htab => congrArg some htab
                  · exact Or.inr fun tab htab => congrArg some htab
                  · exact Or.inr fun tab htab => congrArg some htab
                  · exact Or.inr fun tab htab => congrArg some (hplace.symm.trans htab)
                · exact Or.inr fun tab htab => congrArg some htab
  · exact .refuse _ _

theorem withdrawCall_worksIn : WorksIn (w.withdrawCall se msg) (w.namedTab se .withdraw msg) := by
  unfold withdrawCall
  split
  · rename_i tabText bankSlotText bagText slotText countText htokens
    simp only
    split
    · exact .refuse _ _
    · rename_i hrange
      split
      · exact .refuse _ _
      · rename_i haccess
        have hnamed : w.namedTab se .withdraw msg = some (atoiWord tabText) := by
          simp only [namedTab, htokens, if_neg hrange, if_neg haccess]
        rw [hnamed]
        split
        · exact .refuse _ _
        · rename_i idx bItem hfound
          obtain ⟨-, hplace, -⟩ := GuildBank.findItem_some hfound
          split
          · exact .refuse _ _
          · split
            · split
              · exact Or.inr fun tab htab => congrArg some htab
              · exact .refuse _ _
            · split
              · unfold withdrawOnto
                split
                · exact .refuse _ _
                · split
                  · exact Or.inr fun tab htab => congrArg some htab
                  · exact Or.inr fun tab htab => congrArg some (hplace.symm.trans htab)
              · exact Or.inr fun tab htab => congrArg some htab
  · exact .refuse _ _

theorem moveCall_worksIn : WorksIn (w.moveCall se msg) (w.namedTab se .move msg) := by
  unfold moveCall
  split
  · rename_i tabText fromText toText htokens
    simp only
    split_ifs with haccess hsame hrange
    · exact .refuse _ _
    · exact .refuse _ _
    · exact .refuse _ _
    · have hnamed : w.namedTab se .move msg = some (atoiByte tabText).toUInt32 := by
        simp only [namedTab, htokens, if_neg haccess, if_neg hsame, if_neg hrange]
      rw [hnamed]
      split
      · exact .refuse _ _
      · exact Or.inr fun tab htab => congrArg some htab
  · exact .refuse _ _

theorem splitCall_worksIn : WorksIn (w.splitCall se msg) (w.namedTab se .split msg) := by
  unfold splitCall
  split
  · rename_i tabText fromText toText splitText htokens
    simp only
    split_ifs with haccess hsame hrange
    · exact .refuse _ _
    · exact .refuse _ _
    · exact .refuse _ _
    · have hnamed : w.namedTab se .split msg = some (atoiByte tabText).toUInt32 := by
        simp only [namedTab, htokens, if_neg haccess, if_neg hsame, if_neg hrange]
      rw [hnamed]
      split
      · exact .refuse _ _
      · rename_i sIdx sItem hfound
        obtain ⟨-, hplace, -⟩ := GuildBank.findItem_some hfound
        exact Or.inr fun tab htab => congrArg some (hplace.symm.trans htab)
  · exact .refuse _ _

/-- An item message works in the tab it names. -/
theorem itemCall_worksIn (op : ItemOp) :
    WorksIn (w.itemCall se op msg) (w.namedTab se op msg) := by
  cases op with
  | deposit => exact depositCall_worksIn
  | withdraw => exact withdrawCall_worksIn
  | move => exact moveCall_worksIn
  | split => exact splitCall_worksIn

end Changing

end World

namespace GuildBank

variable {T : ItemTable} {tab last : UInt32} {copies : Bool} {names : List UInt32}

/-- Changing an item of a lower tab. -/
theorem changeItem_itemsAbove {bank : GuildBank} {idx : ℕ} {old : BankItem} (new : BankItem)
    (hold : bank.items[idx]? = some old) (htab : old.tab ≤ last) (hnew : new.tab ≤ last) :
    (bank.changeItem idx new).itemsAbove last = bank.itemsAbove last := by
  unfold itemsAbove
  rw [changeItem_items, Lib.filter_set_of_not hold]
  · simpa using htab
  · show ¬decide (last < new.tab) = true
    simpa using hnew

/-- Saving changes the update state only. -/
theorem saved_itemsAbove (bank : GuildBank) : bank.saved.itemsAbove last = bank.itemsAbove last := by
  simp only [itemsAbove, saved]
  split
  · rfl
  · rw [List.filter_map, List.map_map]
    rfl

/-- The end of a call leaves the items of the tabs above one. -/
theorem itemsAbove_rest {s s' : GuildBank × Database} (hrest : Rest s s') :
    s'.1.itemsAbove last = s.1.itemsAbove last := by
  cases hrest with
  | quiet hsame htabs => simp only [itemsAbove, hsame.items]
  | save => exact saved_itemsAbove _

/-- Steps in a tab leave the items of the tabs above it. -/
theorem itemsAbove_step (htab : tab ≤ last) {s s' : GuildBank × Database}
    (hstep : Step T tab copies names s s') : s'.1.itemsAbove last = s.1.itemsAbove last := by
  cases hstep with
  | rest hrest => exact itemsAbove_rest hrest
  | change hold htabOld hname hnew hguid hguild hslot hmade =>
      exact changeItem_itemsAbove _ hold (htabOld ▸ htab) (hnew ▸ htab)
  | @remove bank db idx old hold htabOld =>
      show (bank.removeItem idx old).itemsAbove last = bank.itemsAbove last
      unfold itemsAbove
      rw [removeItem_items, Lib.filter_eraseIdx_of_not hold]
      simpa [htabOld] using htab
  | @exchange bank db sIdx dIdx sItem dItem hs hd hne hsTab hdTab hsName hdName =>
      have hd' := changeItem_getElem?_ne hne (sItem.setSlot dItem.slot) hd
      have hsecond := changeItem_itemsAbove (dItem.setSlot sItem.slot) hd'
        (hdTab ▸ htab) (hdTab ▸ htab)
      have hfirst := changeItem_itemsAbove (sItem.setSlot dItem.slot) hs
        (hsTab ▸ htab) (hsTab ▸ htab)
      exact hsecond.trans hfirst
  | copy item hcopies => rfl

/-- An insertion into a tab leaves the items of the tabs above it. -/
theorem itemsAbove_insertion (htab : tab ≤ last) {bank bank' : GuildBank}
    (hinsert : Insertion T tab bank bank') : bank'.itemsAbove last = bank.itemsAbove last := by
  cases hinsert with
  | @intro new hnew hguid hguild hslot hfree hmade =>
      have hnot : ¬last < (new.setState .new).tab := by
        show ¬last < new.tab
        rw [hnew]
        exact UInt32.not_lt.mpr htab
      unfold itemsAbove
      rw [insertItem_items, List.filter_append, List.filter_cons_of_neg (by simpa using hnot),
        List.filter_nil, List.append_nil]

end GuildBank

namespace World

variable {T : ItemTable} {w : World T} {se : Session} {msg : List Char} {op : ItemOp}

/-- An item message reads and changes no item of the tabs above one: the items there are no matter
for what it ends in, what it ends in works in a lower tab, and the items there stay. -/
structure WithinTabs (se : Session) (w : World T) (op : ItemOp) (msg : List Char)
    (last : UInt32) : Prop where
  reads : ∀ items, (∀ tab, tab ≤ last → ShowsSame w.bank (w.bank.setItems items) tab) →
    ((w.setBank (w.bank.setItems items)).itemCall se op msg).forget =
      (w.itemCall se op msg).forget
  works : (∃ answers, w.itemCall se op msg = .refuse answers) ∨
    ∀ tab, (w.itemCall se op msg).InTab tab → tab ≤ last
  changes : (w.handleItem se op msg).bank.itemsAbove last = w.bank.itemsAbove last

/-- An item message that names a low tab stays below. -/
theorem withinTabs_of_named {last : UInt32}
    (hnamed : ∀ tab, w.namedTab se op msg = some tab → tab ≤ last) :
    w.WithinTabs se op msg last := by
  refine ⟨fun items hsame => itemCall_forget fun tab htab => hsame tab (hnamed tab htab), ?_, ?_⟩
  · rcases itemCall_worksIn op with hrefuse | hworks
    · exact Or.inl hrefuse
    · exact Or.inr fun tab hin => hnamed tab (hworks tab hin)
  · unfold handleItem
    rcases itemCall_worksIn op with ⟨answers, hrefuse⟩ | hworks
    · rw [hrefuse]
      rfl
    · obtain ⟨tab, -, hin, hgrows, -⟩ := perform_grows se (asked se w op msg)
      have hlow := hnamed tab (hworks tab hin)
      -- nothing is inserted, changed or taken out above the tab the call works in
      refine hgrows.invariant (fun s => s.1.itemsAbove last = w.bank.itemsAbove last)
        (fun s => s.1.itemsAbove last = w.bank.itemsAbove last) ?_ (fun s hs => hs) ?_ ?_ rfl
      · intro s s' hstep hs
        exact (GuildBank.itemsAbove_step hlow hstep).trans hs
      · intro bank bank' db hinsert hs
        exact (GuildBank.itemsAbove_insertion hlow hinsert).trans hs
      · intro s s' hrest hs
        exact (GuildBank.itemsAbove_rest hrest).trans hs

/-- The item handlers keep the number of tabs. -/
theorem handleItem_tabs : (w.handleItem se op msg).bank.tabs = w.bank.tabs := by
  obtain ⟨tab, -, -, hgrows, -⟩ := perform_grows se (asked se w op msg)
  have hrests : ∀ s s', Rest s s' → s.1.tabs = w.bank.tabs → s'.1.tabs = w.bank.tabs := by
    intro s s' hrest hs
    cases hrest with
    | quiet hsame htabs => exact htabs.trans hs
    | save => exact hs
  refine hgrows.invariant (fun s => s.1.tabs = w.bank.tabs) (fun s => s.1.tabs = w.bank.tabs)
    ?_ (fun s hs => hs) ?_ hrests rfl
  · intro s s' hstep hs
    cases hstep with
    | rest hrest => exact hrests _ _ hrest hs
    | change => exact hs
    | remove => exact hs
    | exchange => exact hs
    | copy => exact hs
  · intro bank bank' db hinsert hs
    cases hinsert
    exact hs

theorem updateTab_tabs : (w.updateTab se msg).bank.tabs = w.bank.tabs := by
  unfold updateTab
  simp only
  split_ifs
  · rfl
  · split
    · split_ifs <;> first | rfl | simp
    · rfl

theorem moneyMoved_tabs (action : BankAction) (money : UInt32) :
    (w.moneyMoved se action money).bank.tabs = w.bank.tabs := by
  simp [moneyMoved]

theorem depositMoney_tabs : (w.depositMoney se msg).bank.tabs = w.bank.tabs := by
  unfold depositMoney
  split
  · rfl
  · split_ifs
    · rfl
    · rfl
    · exact moneyMoved_tabs _ _

theorem withdrawMoney_tabs : (w.withdrawMoney se msg).bank.tabs = w.bank.tabs := by
  unfold withdrawMoney
  split
  · rfl
  · split_ifs
    · rfl
    · rfl
    · exact moneyMoved_tabs _ _

/-- Every handler but `UnlockTab` keeps the number of tabs. -/
theorem handle_tabs {handler : Handler} (hne : handler ≠ .unlockTab) :
    (w.handle se msg handler).bank.tabs = w.bank.tabs := by
  cases handler with
  | unlockTab => exact absurd rfl hne
  | unlockTabCost => exact congrArg GuildBank.tabs (unlockTabCost_same se msg w).bank
  | sendBankInfo => rfl
  | sendTabItems => exact congrArg GuildBank.tabs (sendTabItems_same se msg w).bank
  | sendTabWithdrawalsLeft =>
      exact congrArg GuildBank.tabs (sendTabWithdrawalsLeft_same se msg w).bank
  | sendTabLog => exact congrArg GuildBank.tabs (sendTabLog_same msg w).bank
  | sendMoneyLog => exact congrArg GuildBank.tabs (sendAll_same w _).bank
  | item op => exact handleItem_tabs
  | updateTab => exact updateTab_tabs
  | depositMoney => exact depositMoney_tabs
  | withdrawMoney => exact withdrawMoney_tabs

/-- `UnlockTab` leaves the number of tabs, or makes it the tab that was paid for. -/
theorem unlockTab_tabs :
    (∀ tab source, w.AcceptsUnlockTab se msg tab source →
        (w.unlockTab se msg).bank.tabs = tab.toUInt32) ∧
      ((∀ tab source, ¬w.AcceptsUnlockTab se msg tab source) →
        (w.unlockTab se msg).bank.tabs = w.bank.tabs) := by
  rcases w.unlockTab_cases se msg with ⟨hrefuse, hbank, -⟩ | ⟨tab, source, haccept, htabs, -⟩
  · exact ⟨fun tab source h => absurd h (hrefuse tab source), fun _ => by rw [hbank]⟩
  · refine ⟨fun other otherSource hother => ?_, fun hnone => absurd haccept (hnone tab source)⟩
    have hsame : other = tab := by
      have hrequest := haccept.2.1.symm.trans hother.2.1
      simp only [Option.some.injEq, Prod.mk.injEq] at hrequest
      exact hrequest.1.symm
    rw [hsame]
    exact htabs

/-- Running handlers none of which is `UnlockTab`. -/
theorem runHandlers_tabs {handlers : List Handler} (hne : .unlockTab ∉ handlers) :
    (Lib.run (handle se msg) w handlers).bank.tabs = w.bank.tabs := by
  have hok : Lib.Along (fun _ handler => handler ≠ Handler.unlockTab) (handle se msg) w
      handlers := by
    refine Lib.along_of_mem (fun handler hmem _ heq => ?_) w
    rw [heq] at hmem
    exact hne hmem
  exact Lib.run_invariant (fun w' : World T => w'.bank.tabs = w.bank.tabs)
    (fun _ _ hne' hsame => (handle_tabs hne').trans hsame) rfl hok

/-- `UnlockTab` is looked for first. -/
theorem named_unlockTab (msg : List Char) :
    ∃ rest, .unlockTab ∉ rest ∧ Handler.named msg =
      if strstr msg "UnlockTab:" then .unlockTab :: rest else rest := by
  refine ⟨Handler.all.tail.filter fun handler => strstr msg handler.keyword, ?_, ?_⟩
  · intro hmem
    have htail := (List.mem_filter.mp hmem).1
    revert htail
    decide
  · show (Handler.unlockTab :: Handler.all.tail).filter _ = _
    rw [List.filter_cons]
    rfl

end World

namespace Request

variable {T : ItemTable}

/-- The message reaches `UnlockGuildBank` and is accepted there. -/
def Unlocks (state : GuildBank × Database) (request : Request T) : Prop :=
  (request.world state).Unlocks request.se request.msg

/-- The message reaches `UnlockTab` and pays for the tab. -/
def Pays (tab : UInt8) (state : GuildBank × Database) (request : Request T) : Prop :=
  (request.world state).Dispatches request.se request.msg ∧
    strstr request.msg "UnlockTab:" = true ∧
    ∃ source, (request.world state).AcceptsUnlockTab request.se request.msg tab source

/-- The item messages of a request stay in the tabs that are unlocked. -/
def StaysWithin (state : GuildBank × Database) (request : Request T) : Prop :=
  (request.world state).ItemsAlong
    (fun w op => w.WithinTabs request.se op request.msg w.bank.tabs) request.se request.msg

/-- The messages that unlock in order: a tab is paid for only when it is the next one, the bank
is unlocked only while it has no tabs, and the item messages name unlocked tabs. -/
structure UnlocksInOrder (state : GuildBank × Database) (request : Request T) : Prop where
  pays : ∀ tab : UInt8, request.Pays tab state → tab.toNat = state.1.tabs.toNat + 1
  unlocks : request.Unlocks state → state.1.tabs = 0
  items : (request.world state).ItemsAlong
    (fun w op => ∀ tab, w.namedTab request.se op request.msg = some tab → tab ≤ w.bank.tabs)
    request.se request.msg

/-- One message grows the tabs by the tab it pays for, and by the first when it unlocks. -/
structure GrowsByOne (state : GuildBank × Database) (request : Request T) : Prop where
  grows : state.1.tabs ≤ (receive state request).1.tabs
  pays : ∀ tab, request.Pays tab state →
    (receive state request).1.tabs.toNat = state.1.tabs.toNat + 1
  keeps : (∀ tab, ¬request.Pays tab state) → ¬request.Unlocks state →
    (receive state request).1.tabs = state.1.tabs

variable {state : GuildBank × Database} {request : Request T}

/-- What one message does to the number of tabs. -/
theorem receive_tabs (state : GuildBank × Database) (request : Request T) :
    (request.Unlocks state → (receive state request).1.tabs = 1) ∧
      (∀ tab, request.Pays tab state → (receive state request).1.tabs = tab.toUInt32) ∧
      ((∀ tab, ¬request.Pays tab state) → ¬request.Unlocks state →
        (receive state request).1.tabs = state.1.tabs) := by
  obtain ⟨rest, hrest, hnamed⟩ := World.named_unlockTab request.msg
  refine ⟨?_, ?_, ?_⟩
  · rintro ⟨hnpc, hlock, hkeyword, haccept⟩
    show ((request.world state).handleAddonMessages request.se request.msg).bank.tabs = 1
    unfold World.handleAddonMessages
    simp only [hnpc, hlock, hkeyword, Bool.true_eq_false, Bool.false_eq_true, if_true, if_false]
    rcases World.unlockGuildBank_cases request.se (request.world state) request.msg with
      ⟨hrefuse, -⟩ | ⟨-, hunlocked⟩
    · exact absurd haccept hrefuse
    · exact hunlocked.tabs
  · rintro tab ⟨⟨hnpc, hlock, hkeyword, htabs⟩, hunlockTab, source, haccept⟩
    show ((request.world state).handleAddonMessages request.se request.msg).bank.tabs = _
    unfold World.handleAddonMessages
    simp only [hnpc, hlock, hkeyword, htabs, Bool.true_eq_false, Bool.false_eq_true, if_false]
    rw [hnamed, if_pos hunlockTab, Lib.run_cons, World.runHandlers_tabs hrest]
    exact World.unlockTab_tabs.1 tab source haccept
  · intro hpays hunlocks
    show ((request.world state).handleAddonMessages request.se request.msg).bank.tabs =
      (request.world state).bank.tabs
    unfold World.handleAddonMessages
    split_ifs with hnpc hlock hkeyword htabs
    · rfl
    · rfl
    · rcases World.unlockGuildBank_cases request.se (request.world state) request.msg with
        ⟨-, hsame⟩ | ⟨haccept, -⟩
      · rw [hsame.bank]
      · exact absurd ⟨by simpa using hnpc, by simpa using hlock, hkeyword, haccept⟩ hunlocks
    · rfl
    · rw [hnamed]
      split_ifs with hunlockTab
      · rw [Lib.run_cons, World.runHandlers_tabs hrest]
        refine World.unlockTab_tabs.2 fun tab source haccept => hpays tab ?_
        exact ⟨⟨by simpa using hnpc, by simpa using hlock, by simpa using hkeyword, htabs⟩,
          hunlockTab, source, haccept⟩
      · exact World.runHandlers_tabs hrest

/-- A message that unlocks in order grows the tabs by at most one. -/
theorem UnlocksInOrder.growsByOne (h : request.UnlocksInOrder state) :
    request.GrowsByOne state := by
  obtain ⟨hunlocked, hpaid, hkept⟩ := receive_tabs state request
  have hpays : ∀ tab, request.Pays tab state →
      (receive state request).1.tabs.toNat = state.1.tabs.toNat + 1 := by
    intro tab hpay
    rw [hpaid tab hpay, UInt8.toNat_toUInt32]
    exact h.pays tab hpay
  refine ⟨?_, hpays, hkept⟩
  rw [UInt32.le_iff_toNat_le]
  by_cases hpay : ∃ tab, request.Pays tab state
  · obtain ⟨tab, hpay⟩ := hpay
    rw [hpays tab hpay]
    omega
  · by_cases hunlock : request.Unlocks state
    · rw [h.unlocks hunlock]
      exact Nat.zero_le _
    · rw [hkept (fun tab hpay' => hpay ⟨tab, hpay'⟩) hunlock]

/-- The item messages of a message that unlocks in order stay within the tabs. -/
theorem UnlocksInOrder.staysWithin (h : request.UnlocksInOrder state) :
    request.StaysWithin state := by
  intro hdispatch
  exact (h.items hdispatch).mono fun w handler hnamed op hop =>
    World.withinTabs_of_named (hnamed op hop)

end Request

/-- The law of unlocking for a run: the tabs only grow, by exactly one for a tab paid for, no tab
is paid for twice, the bank is unlocked at most once, and the item messages stay within the
unlocked tabs. -/
structure UnlockLaw {T : ItemTable} (start : GuildBank × Database) (requests : List (Request T)) :
    Prop where
  grows : Lib.Along (fun state request => request.GrowsByOne state) receive start requests
  paidOnce : ∀ tab, Lib.AtMostOnce (fun state request => request.Pays tab state) receive start
    requests
  unlockedOnce : Lib.AtMostOnce (fun state request => request.Unlocks state) receive start requests
  within : Lib.Along (fun state request => request.StaysWithin state) receive start requests

/-- The law of unlocking holds of every run of messages that unlock in order. -/
theorem run_unlocksInOrder {T : ItemTable} (start : GuildBank × Database)
    (requests : List (Request T))
    (hok : Lib.Along (fun state request => request.UnlocksInOrder state) receive start requests) :
    UnlockLaw start requests := by
  refine ⟨hok.mono fun state request h => h.growsByOne, fun tab => ?_, ?_,
    hok.mono fun state request h => h.staysWithin⟩
  · -- the number of tabs crosses the tab that is paid for
    refine Lib.atMostOnce_of_crossing (fun state => state.1.tabs.toNat) tab.toNat ?_
    refine hok.mono fun state request h => ⟨h.growsByOne.grows, fun hpay => ?_⟩
    have hnext := h.pays tab hpay
    have hgrown := h.growsByOne.pays tab hpay
    omega
  · refine Lib.atMostOnce_of_crossing (fun state => state.1.tabs.toNat) 1 ?_
    refine hok.mono fun state request h => ⟨h.growsByOne.grows, fun hunlock => ?_⟩
    rw [h.unlocks hunlock, (Request.receive_tabs _ _).1 hunlock]
    exact ⟨Nat.zero_lt_one, Nat.le_refl _⟩

/-- A deposit into the fifth tab of a bank that has one tab puts an item there. -/
theorem depositItem_locked_tab :
    ¬UnlockLaw (linenState []) [linenRequest 5 1000 "DepositItem:0:1:5:1:5"] := by
  intro hlaw
  have hnamed : Handler.named "DepositItem:0:1:5:1:5".toList = [.item .deposit] := by decide
  have hruns := hlaw.within.1 (by refine ⟨?_, ?_, ?_, ?_⟩ <;> decide)
  simp only [linenRequest, hnamed] at hruns
  have hchanges := (hruns.1 .deposit rfl).changes
  revert hchanges
  decide

/-- Paying for the second tab and then depositing into it. -/
theorem run_unlocksInOrder_second :
    Lib.Along (fun state request => request.UnlocksInOrder state) receive (linenState [])
        [linenRequest 5 2000000000 "UnlockTab:2:1", linenRequest 5 1000 "DepositItem:0:1:2:1:5"] ∧
      UnlockLaw (linenState [])
        [linenRequest 5 2000000000 "UnlockTab:2:1",
          linenRequest 5 1000 "DepositItem:0:1:2:1:5"] := by
  have hok : Lib.Along (fun state request => request.UnlocksInOrder state) receive (linenState [])
      [linenRequest 5 2000000000 "UnlockTab:2:1",
        linenRequest 5 1000 "DepositItem:0:1:2:1:5"] := by
    refine ⟨⟨?_, ?_, fun _ => ?_⟩, ⟨?_, ?_, fun _ => ?_⟩, trivial⟩
    · rintro tab ⟨-, -, source, -, hrequest, -⟩
      have htab : World.tabRequest "UnlockTab:2:1".toList = some (2, 1) := by decide
      obtain ⟨rfl, -⟩ := Prod.mk.inj (Option.some.inj (htab.symm.trans hrequest))
      decide
    · exact fun hunlocks => absurd hunlocks.2.2.1 (by decide)
    · have hnamed : Handler.named "UnlockTab:2:1".toList = [.unlockTab] := by decide
      simp only [linenRequest, hnamed]
      exact ⟨fun op hop => absurd hop (by simp), trivial⟩
    · exact fun tab hpays => absurd hpays.2.1 (by decide)
    · exact fun hunlocks => absurd hunlocks.2.2.1 (by decide)
    · have hnamed : Handler.named "DepositItem:0:1:2:1:5".toList = [.item .deposit] := by decide
      simp only [linenRequest, hnamed]
      refine ⟨fun op hop tab htab => ?_, trivial⟩
      cases hop
      have htwo : some tab = some 2 := htab.symm.trans (by decide)
      rw [Option.some.inj htwo]
      decide
  exact ⟨hok, run_unlocksInOrder _ _ hok⟩

end TwowCore
