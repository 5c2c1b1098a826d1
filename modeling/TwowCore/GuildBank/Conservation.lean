import TwowCore.GuildBank.Runs
import TwowCore.Lib.Word

/-!
# Conservation of items

The units of an entry in the bank and with the acting player are one total. Every item call moves
units between the two, and `ItemCall.Keeps` says for each call exactly when it moves as many as it
takes: when the stack it takes from has them, and the stack it adds to does not run over.

`Player::CanStoreNewItem`, `StoreNewItem` and `DestroyItem` are taken at their word here, through
`Player.StoresExactly` and `Player.DestroysExactly`.
-/

namespace TwowCore

/-- The units of an entry in a bank item. -/
def BankItem.unitsOf (entry : UInt32) (item : BankItem) : ℕ :=
  if item.itemTemplate = entry then item.count.toNat else 0

/-- The stack size of an entry; unknown entries have none. -/
def ItemTable.stackSize (T : ItemTable) (entry : UInt32) : UInt32 :=
  match T.find entry with
  | some proto => proto.getMaxStackSize
  | none => 0

/-- The items of the bank have the stack size of their entry. -/
def GuildBank.StackSized (T : ItemTable) (bank : GuildBank) : Prop :=
  ∀ item ∈ bank.items, item.maxStackSize = T.stackSize item.itemTemplate

/-- The position of the bag item a call takes units from. -/
def ItemCall.source {T : ItemTable} : ItemCall T → Option ItemPos
  | .depositInFreeSlot _ pos _ => some pos
  | .depositInSlot _ _ pos _ _ _ _ => some pos
  | .swap pos _ _ => some pos
  | _ => none

namespace GuildBank.StackSized

variable {T : ItemTable} {bank : GuildBank}

/-- The stack size of an item the player has one of too. -/
theorem eq_stackable (h : bank.StackSized T) {item : BankItem} (hmem : item ∈ bank.items)
    {pItem : Item T} (hentry : item.itemTemplate = pItem.entry) :
    item.maxStackSize = pItem.proto.stackable := by
  rw [h item hmem, hentry]
  simp only [ItemTable.stackSize, Item.entry, pItem.listed]
  rfl

/-- A written item has the stack size of its entry. -/
theorem of_made (h : bank.StackSized T) {item : BankItem} (hmade : Made T bank item) :
    item.maxStackSize = T.stackSize item.itemTemplate := by
  rcases hmade.stack with ⟨old, hmem, hentry, hstack⟩ | ⟨proto, hfind, hstack⟩
  · rw [hstack, hentry]
    exact h old hmem
  · rw [hstack]
    simp only [ItemTable.stackSize, hfind]

/-- Everything that leaves the items alone, and saving, keep the stack sizes. -/
theorem kept (T : ItemTable) : Kept fun bank _ => bank.StackSized T where
  same := fun hsame h item hmem => h item (hsame.items ▸ hmem)
  save := fun h => GuildBank.forall_saved (fun _ _ hitem => hitem) h

/-- Every step keeps the stack sizes. -/
theorem step {tab : UInt32} {copies : Bool} {names : List UInt32} {s s' : GuildBank × Database}
    (hstep : Step T tab copies names s s') (h : s.1.StackSized T) : s'.1.StackSized T := by
  intro item hmem
  cases hstep with
  | rest hrest => exact (kept T).rest hrest h item hmem
  | change hold htab hname hnew hguid hguild hslot hmade =>
      have hwritten := h.of_made hmade
      rcases List.mem_or_eq_of_mem_set hmem with hitem | rfl
      · exact h item hitem
      · exact hwritten
  | remove hold htab => exact h item (List.mem_of_mem_eraseIdx hmem)
  | exchange hs hd hne hsTab hdTab hsName hdName =>
      have hsItem := h _ (List.mem_of_getElem? hs)
      have hdItem := h _ (List.mem_of_getElem? hd)
      rcases List.mem_or_eq_of_mem_set hmem with hitem | rfl
      · rcases List.mem_or_eq_of_mem_set hitem with hitem | rfl
        · exact h item hitem
        · exact hsItem
      · exact hdItem
  | copy copied hcopies => exact h item hmem

/-- An insertion keeps the stack sizes. -/
theorem insertion {tab : UInt32} {bank' : GuildBank} (hinsert : Insertion T tab bank bank')
    (h : bank.StackSized T) : bank'.StackSized T := by
  intro item hmem
  cases hinsert with
  | intro hnew hguid hguild hslot hfree hmade =>
      have hwritten := h.of_made hmade
      rcases List.mem_append.mp hmem with hitem | hitem
      · exact h item hitem
      · rw [List.mem_singleton.mp hitem]
        exact hwritten

end GuildBank.StackSized

/-- The units of an entry in the bank. -/
def GuildBank.units (bank : GuildBank) (entry : UInt32) : ℕ :=
  (bank.items.map (BankItem.unitsOf entry)).sum

namespace World

variable {T : ItemTable} {w : World T}

/-- The units of an entry in the bank and with the acting player. -/
noncomputable def totalUnits (w : World T) (entry : UInt32) : ℕ :=
  w.bank.units entry + w.player.units entry

/-- No unit appears or disappears. -/
def Conserves (w w' : World T) : Prop := ∀ entry, w'.totalUnits entry = w.totalUnits entry

/-- The share of an entry: `n` if it is the one asked about. -/
def share (entry asked : UInt32) (n : ℕ) : ℕ := if entry = asked then n else 0

theorem share_add (entry asked : UInt32) (n m : ℕ) :
    share entry asked n + share entry asked m = share entry asked (n + m) := by
  unfold share
  split <;> rfl

theorem Conserves.refl (w : World T) : w.Conserves w := fun _ => rfl

/-- A move of units of one entry conserves when it conserves that entry. -/
theorem conserves_iff_of_share {w' : World T} (entry : UInt32) {before after : ℕ}
    (h : ∀ asked, w'.totalUnits asked + share entry asked before =
      w.totalUnits asked + share entry asked after) : w.Conserves w' ↔ after = before := by
  constructor
  · intro hkeep
    have hentry := h entry
    rw [hkeep entry] at hentry
    simpa [share] using hentry.symm
  · rintro rfl asked
    have hasked := h asked
    omega

/-- Item calls keep the stack sizes. -/
theorem Grows.stackSized {tab : UInt32} {copies : Bool} {names : List UInt32} {w' : World T}
    (h : w.Grows tab copies names w')
    (hsizes : w.bank.StackSized T) : w'.bank.StackSized T :=
  h.invariant (fun s => s.1.StackSized T) (fun s => s.1.StackSized T)
    (fun _ _ => GuildBank.StackSized.step) (fun _ hs => hs)
    (fun _ _ _ => GuildBank.StackSized.insertion) (fun _ _ => (GuildBank.StackSized.kept T).rest)
    hsizes

/-- A loaded item has the stack size of its entry. -/
theorem loadFromDB_stackSize (T : ItemTable) (row : BankRow) :
    (BankItem.loadFromDB T row).maxStackSize =
      T.stackSize (BankItem.loadFromDB T row).itemTemplate := rfl

/-- The items of every bank that messages lead to have the stack size of their entry. -/
theorem stackSized_of_reachable {state : GuildBank × Database} (h : Reachable T state) :
    state.1.StackSized T := by
  obtain ⟨se, guildid, infernoBank, db, requests, rfl⟩ := h
  refine Lib.run_invariant (fun state : GuildBank × Database => state.1.StackSized T) ?_ ?_
    (Lib.along_of_forall (P := fun _ _ => True) (fun _ _ => trivial) _ _)
  · intro state request _ hsizes
    refine handleAddonMessages_invariant (GuildBank.StackSized.kept T) hsizes ?_ ?_
      (itemsAlong_true request.se (request.world state) request.msg)
    · intro _ hunlocked item hmem
      rw [hunlocked.items] at hmem
      rcases List.mem_append.mp hmem with hold | hloaded
      · exact hsizes item hold
      · obtain ⟨row, -, rfl⟩ := List.mem_map.mp hloaded
        exact loadFromDB_stackSize T row
    · intro w op _ hw
      obtain ⟨tab, -, -, hgrows, -⟩ := perform_grows request.se (asked request.se w op request.msg)
      exact hgrows.stackSized hw
  · intro item hmem
    rcases (setGuild_spec T se guildid infernoBank db).2.2.2.2 with ⟨-, hnone, -⟩ | hloaded
    · rw [hnone] at hmem
      cases hmem
    · rw [hloaded] at hmem
      obtain ⟨row, -, rfl⟩ := List.mem_map.mp hmem
      exact loadFromDB_stackSize T row

section Bank

/-- The units depend on the items only. -/
theorem units_of_items {bank bank' : GuildBank} (h : bank'.items = bank.items) (entry : UInt32) :
    bank'.units entry = bank.units entry := by
  simp only [GuildBank.units, h]

@[simp] theorem saveToDB_units (w : World T) (entry : UInt32) :
    w.saveToDB.bank.units entry = w.bank.units entry := by
  unfold GuildBank.units
  rw [saveToDB_items_map (BankItem.unitsOf entry) fun _ _ => rfl]

@[simp] theorem logAction_units (se : Session) (w : World T) (action : BankAction)
    (tab itemID count : UInt32) (bItem : Option BankItem) (entry : UInt32) :
    (w.logAction se action tab itemID count bItem).bank.units entry = w.bank.units entry :=
  units_of_items (by simp) entry

@[simp] theorem depositDone_units (se : Session) (w : World T) (idx : ℕ) (count entry : UInt32) :
    (w.depositDone se idx count).bank.units entry = w.bank.units entry := by
  unfold GuildBank.units
  rw [depositDone_items_map (BankItem.unitsOf entry) fun _ _ => rfl]

@[simp] theorem withdrawDone_units (se : Session) (w : World T) (bankTab count : UInt32)
    (bItem : BankItem) (entry : UInt32) :
    (w.withdrawDone se bankTab count bItem).bank.units entry = w.bank.units entry := by
  unfold GuildBank.units
  rw [withdrawDone_items_map (BankItem.unitsOf entry) fun _ _ => rfl]

/-- The units of an item with another count. -/
theorem unitsOf_setCount (item : BankItem) (count entry : UInt32) :
    (item.setCount count).unitsOf entry = share item.itemTemplate entry count.toNat := rfl

/-- The units of an item, as a share. -/
theorem unitsOf_eq_share {item : BankItem} {template : UInt32} (h : item.itemTemplate = template)
    (entry : UInt32) : item.unitsOf entry = share template entry item.count.toNat := by
  rw [← h]
  rfl

theorem changeItem_units {bank : GuildBank} {idx : ℕ} {old : BankItem}
    (h : bank.items[idx]? = some old) (item : BankItem) (entry : UInt32) :
    (bank.changeItem idx item).units entry + old.unitsOf entry =
      bank.units entry + item.unitsOf entry :=
  Lib.sum_map_set (BankItem.unitsOf entry) h _

theorem insertItem_units (bank : GuildBank) (item : BankItem) (entry : UInt32) :
    (bank.insertItem item).units entry = bank.units entry + item.unitsOf entry := by
  simp [GuildBank.units, BankItem.unitsOf, BankItem.setState]

theorem removeItem_units {bank : GuildBank} {idx : ℕ} {old : BankItem}
    (h : bank.items[idx]? = some old) (item : BankItem) (entry : UInt32) :
    (bank.removeItem idx item).units entry + old.unitsOf entry = bank.units entry :=
  Lib.sum_map_eraseIdx (BankItem.unitsOf entry) h

/-- What the bank has after its side of a withdrawal. -/
theorem takeOut_units {bank : GuildBank} {idx : ℕ} {bItem : BankItem}
    (h : bank.items[idx]? = some bItem) {remainer left : UInt32} (hleft : remainer = left)
    (entry : UInt32) :
    (bank.takeOut (some idx) bItem (decide (remainer = 0)) left).units entry +
        bItem.unitsOf entry =
      bank.units entry + share bItem.itemTemplate entry left.toNat := by
  subst hleft
  simp only [GuildBank.takeOut]
  split_ifs with hzero
  · have hremove := removeItem_units h bItem entry
    rw [of_decide_eq_true hzero]
    have hnothing : share bItem.itemTemplate entry (0 : UInt32).toNat = 0 := by simp [share]
    omega
  · exact changeItem_units h _ entry

end Bank

section PlayerSide

/-- Changing the count of an item changes the units by the difference. -/
theorem setItemCount_units {pos : ItemPos} {pItem : Item T}
    (hitem : w.player.items pos = some pItem) (count entry : UInt32) :
    (w.setItemCount pos pItem count).player.units entry +
        share pItem.entry entry pItem.count.toNat =
      w.player.units entry + share pItem.entry entry count.toNat := by
  have hunits := w.player.units_setItem pos (some (pItem.setCount count)) entry
  rw [hitem] at hunits
  exact hunits

/-- What the player has left after a deposit. -/
theorem takeDeposit_units {pos : ItemPos} {pItem : Item T}
    (hitem : w.player.getItemByPos pos = some pItem) (hexact : w.player.DestroysExactly pos)
    (count entry : UInt32) :
    (w.takeDeposit pos pItem count).player.units entry +
        share pItem.entry entry pItem.count.toNat =
      w.player.units entry + share pItem.entry entry (pItem.count - count).toNat := by
  have hthere := Player.items_of_getItemByPos hitem
  unfold takeDeposit
  split_ifs with hall
  · have hdestroy := hexact entry
    rw [hthere] at hdestroy
    have hplayer : (w.setPlayer (w.player.destroyItem pos)).player = w.player.takeOut pos := by
      simp [Player.destroyItem, hitem]
    rw [hplayer, hall, UInt32.sub_self]
    have hzero : share pItem.entry entry (0 : UInt32).toNat = 0 := by simp [share]
    rw [hzero, Nat.add_zero]
    exact hdestroy
  · exact setItemCount_units hthere _ entry

/-- Changing the count of an item does not change what destroying it takes along. -/
theorem destroysExactly_setItemCount {pos : ItemPos} {pItem : Item T}
    (hexact : w.player.DestroysExactly pos) (count : UInt32) : (w.setItemCount pos pItem count).player.DestroysExactly pos := by
  intro entry
  have hbefore := hexact entry
  have hchange := w.player.units_setItem pos (some (pItem.setCount count)) entry
  have hsame : ((w.player.setItem pos (some (pItem.setCount count))).takeOut pos).items =
      (w.player.takeOut pos).items := by
    funext other
    simp only [Player.takeOut, Player.setItem_items]
    split_ifs with hother
    · rfl
    · rfl
    · rw [Function.update_of_ne hother]
  show ((w.player.setItem pos (some (pItem.setCount count))).takeOut pos).units entry +
      Player.unitsOf entry ((w.player.setItem pos (some (pItem.setCount count))).items pos) =
    (w.player.setItem pos (some (pItem.setCount count))).units entry
  rw [Player.units_congr hsame]
  simp only [Player.setItem_items, Function.update_self]
  omega

end PlayerSide

section Deposits

variable (se : Session) {pos : ItemPos} {pItem : Item T}

/-- What the bank has after the bank item of a deposit was formed or updated. -/
theorem placeDeposit_units {bankTab bankSlot count : UInt32} {isNew stack : Bool} {w' : World T}
    {idx : ℕ} (h : w.placeDeposit bankTab bankSlot pItem count isNew stack = some (w', idx)) :
    w'.player = w.player ∧
      ((isNew = true ∧ ∀ entry, w'.bank.units entry =
          w.bank.units entry + share pItem.entry entry count.toNat) ∨
        ∃ dItem, isNew = false ∧ w.bank.findItem bankTab bankSlot = some (idx, dItem) ∧
          ∀ entry, w'.bank.units entry + dItem.unitsOf entry =
            w.bank.units entry + share pItem.entry entry
              (if stack then dItem.count + count else count).toNat) := by
  unfold placeDeposit at h
  cases isNew with
  | true =>
      simp only [if_true, Option.some.injEq, Prod.mk.injEq] at h
      obtain ⟨rfl, rfl⟩ := h
      exact ⟨rfl, Or.inl ⟨rfl, fun entry => insertItem_units w.bank _ entry⟩⟩
  | false =>
      simp only [Bool.false_eq_true, if_false] at h
      split at h
      · cases h
      · rename_i idx' dItem hfound
        simp only [Option.some.injEq, Prod.mk.injEq] at h
        obtain ⟨rfl, rfl⟩ := h
        refine ⟨rfl, Or.inr ⟨dItem, rfl, hfound, fun entry => ?_⟩⟩
        exact changeItem_units (GuildBank.findItem_some hfound).1 _ entry

/-- The total after a deposit into a slot: the share the player gives is exchanged for the one
the bank item takes. -/
theorem depositItemInSlot_units {bankTab bankSlot count : UInt32} {isNew stack : Bool}
    (hitem : w.player.getItemByPos pos = some pItem) (hexact : w.player.DestroysExactly pos)
    {w' : World T} {idx : ℕ}
    (hplace : w.placeDeposit bankTab bankSlot pItem count isNew stack = some (w', idx))
    (entry : UInt32) :
    (w.depositItemInSlot se bankTab bankSlot pos pItem count isNew stack).totalUnits entry +
        share pItem.entry entry pItem.count.toNat =
      w'.bank.units entry + w.player.units entry +
        share pItem.entry entry (pItem.count - count).toNat := by
  have hplayer := (placeDeposit_units hplace).1
  have htake := takeDeposit_units (w := w') (by rw [hplayer]; exact hitem)
    (by rw [hplayer]; exact hexact) count entry
  rw [hplayer] at htake
  unfold totalUnits depositItemInSlot
  simp only [hplace, depositDone_units, depositDone_player, takeDeposit_bank]
  omega

/-- A deposit into a free slot conserves exactly when the bag stack has the units. -/
theorem depositItemInSlot_new_iff (hitem : w.player.getItemByPos pos = some pItem)
    (hexact : w.player.DestroysExactly pos) (bankTab bankSlot count : UInt32) (stack : Bool) :
    w.Conserves (w.depositItemInSlot se bankTab bankSlot pos pItem count true stack) ↔
      count ≤ pItem.count := by
  obtain ⟨w', idx, hplace⟩ : ∃ w' idx,
      w.placeDeposit bankTab bankSlot pItem count true stack = some (w', idx) := ⟨_, _, rfl⟩
  rw [← Lib.take_exact_iff]
  refine conserves_iff_of_share pItem.entry fun entry => ?_
  have htotal := depositItemInSlot_units se hitem hexact hplace entry
  rcases (placeDeposit_units hplace).2 with ⟨-, hbank⟩ | ⟨_, hnew, -⟩
  · rw [hbank entry] at htotal
    rw [← share_add, htotal, totalUnits]
    omega
  · cases hnew

/-- A deposit onto a stack of the item conserves exactly when the bag stack has the units and the
bank stack does not wrap around, or neither. -/
theorem depositItemInSlot_stack_iff (hitem : w.player.getItemByPos pos = some pItem)
    (hexact : w.player.DestroysExactly pos) {bankTab bankSlot count : UInt32} {idx : ℕ}
    {dItem : BankItem} (hfound : w.bank.findItem bankTab bankSlot = some (idx, dItem))
    (hentry : dItem.itemTemplate = pItem.entry) :
    w.Conserves (w.depositItemInSlot se bankTab bankSlot pos pItem count false true) ↔
      (count ≤ pItem.count ↔ dItem.count.toNat + count.toNat < 2 ^ 32) := by
  obtain ⟨w', hplace⟩ : ∃ w',
      w.placeDeposit bankTab bankSlot pItem count false true = some (w', idx) := by
    simp [placeDeposit, hfound]
  rw [← Lib.transfer_exact_iff]
  refine conserves_iff_of_share pItem.entry fun entry => ?_
  have htotal := depositItemInSlot_units se hitem hexact hplace entry
  rcases (placeDeposit_units hplace).2 with ⟨hnew, -⟩ | ⟨dItem', -, hfound', hbank⟩
  · cases hnew
  · rw [hfound] at hfound'
    cases hfound'
    have hshare : dItem.unitsOf entry = share pItem.entry entry dItem.count.toNat := by
      simp [BankItem.unitsOf, share, hentry]
    have hbank := hbank entry
    rw [hshare, if_pos rfl] at hbank
    have hbefore : w.totalUnits entry = w.bank.units entry + w.player.units entry := rfl
    rw [← share_add, ← share_add]
    omega

/-- The bank after one round of a deposit into free slots. -/
theorem fillStack_spec {bankTab slot count : UInt32} {idx : ℕ} {dItem : BankItem}
    (hitem : w.player.getItemByPos pos = some pItem) (hexact : w.player.DestroysExactly pos)
    (hsizes : w.bank.StackSized T)
    (hfound : w.bank.findItem bankTab slot = some (idx, dItem))
    (hentry : dItem.itemTemplate = pItem.entry) (hcount : count ≤ pItem.count)
    (hroom : dItem.count.toNat + count.toNat < 2 ^ 32) :
    ∃ w', w.placeDeposit bankTab slot pItem count false true = some (w', idx) ∧
      (w'.setItemCount pos pItem (pItem.count - count)).player.getItemByPos pos =
        some (pItem.setCount (pItem.count - count)) ∧
      (w'.setItemCount pos pItem (pItem.count - count)).player.DestroysExactly pos ∧
      (w'.setItemCount pos pItem (pItem.count - count)).bank.StackSized T ∧
      w.Conserves (w'.setItemCount pos pItem (pItem.count - count)) := by
  obtain ⟨w', hplace⟩ : ∃ w',
      w.placeDeposit bankTab slot pItem count false true = some (w', idx) := by
    simp [placeDeposit, hfound]
  obtain ⟨hplayer, hunits⟩ := placeDeposit_units hplace
  have hshown : w'.player.getItemByPos pos = some pItem := by rw [hplayer]; exact hitem
  refine ⟨w', hplace, Player.getItemByPos_setItem_self hshown _,
    destroysExactly_setItemCount (by rw [hplayer]; exact hexact) _, ?_, ?_⟩
  · have hname : ∀ idx' dItem', w.bank.findItem bankTab slot = some (idx', dItem') →
        dItem'.guid ∈ [dItem.guid] := by
      intro idx' dItem' hother
      rw [hfound] at hother
      cases hother
      exact List.mem_singleton_self _
    have hsteps : w.Steps bankTab false [dItem.guid] w' := (placeDeposit_steps hname hplace).1
    exact hsteps.grows.stackSized hsizes
  · have hthere := Player.items_of_getItemByPos hshown
    have hbalance := (Lib.transfer_exact_iff pItem.count dItem.count count).mpr
      (iff_of_true hcount hroom)
    refine (conserves_iff_of_share pItem.entry fun entry => ?_).mpr hbalance
    have htake := setItemCount_units hthere (pItem.count - count) entry
    rcases hunits with ⟨hnew, -⟩ | ⟨dItem', -, hfound', hbank⟩
    · cases hnew
    · rw [hfound] at hfound'
      cases hfound'
      have hbank := hbank entry
      have hshare : dItem.unitsOf entry = share pItem.entry entry dItem.count.toNat := by
        simp [BankItem.unitsOf, share, hentry]
      rw [hshare, if_pos rfl] at hbank
      rw [hplayer] at htake
      have hbefore : w.totalUnits entry = w.bank.units entry + w.player.units entry := rfl
      have hafter : (w'.setItemCount pos pItem (pItem.count - count)).totalUnits entry =
        w'.bank.units entry +
          (w'.setItemCount pos pItem (pItem.count - count)).player.units entry := rfl
      rw [← share_add, ← share_add]
      omega

/-- Units conserved along two steps are conserved along both. -/
theorem Conserves.trans {w₁ w₂ w₃ : World T} (h₁ : w₁.Conserves w₂) (h₂ : w₂.Conserves w₃) :
    w₁.Conserves w₃ := fun entry => (h₂ entry).trans (h₁ entry)

/-- The end of a deposit conserves. -/
theorem conserves_depositDone (w : World T) (idx : ℕ) (count : UInt32) :
    w.Conserves (w.depositDone se idx count) := by
  intro entry
  simp [totalUnits]

/-- The deposit into free slots does not wrap a stack around: only the first stack it meets can
have too many units for it. -/
def RoomInTab (w : World T) (bankTab : UInt32) (pItem : Item T) : Prop :=
  1 < pItem.proto.getMaxStackSize →
    ∀ slot idx dItem, w.bank.unfilledStack bankTab pItem.entry = some (slot, idx, dItem) →
      dItem.count.toNat + pItem.count.toNat < 2 ^ 32

/-- Small enough stacks have room in every tab. -/
theorem roomInTab_of_small (hsizes : w.bank.StackSized T) (bankTab : UInt32)
    (hsmall : pItem.count.toNat + pItem.proto.stackable.toNat ≤ 2 ^ 32) :
    w.RoomInTab bankTab pItem := by
  intro _ slot idx dItem hstack
  obtain ⟨-, -, hfound, hentry, hless⟩ := GuildBank.unfilledStack_some hstack
  have hsize := hsizes.eq_stackable (List.mem_of_getElem? (GuildBank.findItem_some hfound).1) hentry
  rw [UInt32.lt_iff_toNat_lt, hsize] at hless
  omega

/-- A deposit into free slots conserves if the first stack it meets does not wrap around. -/
theorem depositItemInFreeSlot_conserves (bankTab : UInt32) (rounds : ℕ)
    (hitem : w.player.getItemByPos pos = some pItem) (hexact : w.player.DestroysExactly pos)
    (hsizes : w.bank.StackSized T) (hroom : w.RoomInTab bankTab pItem) :
    w.Conserves (depositItemInFreeSlot se bankTab pos rounds w pItem) := by
  induction rounds generalizing w pItem with
  | zero => exact Conserves.refl w
  | succ rounds ih =>
      unfold depositItemInFreeSlot
      simp only
      split
      · rename_i slot idx dItem hstack
        simp only [Option.ite_none_right_eq_some] at hstack
        have hfits := hroom hstack.1 slot idx dItem hstack.2
        obtain ⟨-, -, hfound, hentry, hless⟩ := GuildBank.unfilledStack_some hstack.2
        have hsize := hsizes.eq_stackable
          (List.mem_of_getElem? (GuildBank.findItem_some hfound).1) hentry
        rw [UInt32.lt_iff_toNat_lt, hsize] at hless
        split_ifs with hall
        · refine (depositItemInSlot_stack_iff se hitem hexact hfound hentry).mpr ?_
          exact iff_of_true (UInt32.le_refl _) hfits
        · have hsub : (pItem.proto.stackable - dItem.count).toNat =
              pItem.proto.stackable.toNat - dItem.count.toNat :=
            UInt32.toNat_sub_of_le _ _ (UInt32.le_iff_toNat_le.mpr (by omega))
          have hmore : pItem.proto.stackable.toNat < pItem.count.toNat + dItem.count.toNat := by
            rw [hsize, UInt32.not_le, UInt32.lt_iff_toNat_lt, UInt32.toNat_add] at hall
            omega
          have hcount : pItem.proto.stackable - dItem.count ≤ pItem.count := by
            rw [UInt32.le_iff_toNat_le]
            omega
          have hstack32 : dItem.count.toNat + (pItem.proto.stackable - dItem.count).toNat <
              2 ^ 32 := by
            have hlt := pItem.proto.stackable.toNat_lt
            omega
          rw [hsize]
          obtain ⟨w', hplace, hitem', hexact', hsizes', hround⟩ :=
            fillStack_spec hitem hexact hsizes hfound hentry hcount hstack32
          rw [hplace]
          have hleft := UInt32.toNat_sub_of_le _ _ hcount
          have hrest := ih hitem' hexact' hsizes' (roomInTab_of_small hsizes' bankTab (by
            simp only [Item.setCount_count, Item.setCount_proto]
            omega))
          exact (hround.trans hrest).trans (conserves_depositDone se _ idx _)
      · split
        · exact (depositItemInSlot_new_iff se hitem hexact _ _ _ _).mpr (UInt32.le_refl _)
        · exact Conserves.refl w

/-- A deposit into free slots conserves exactly when the first stack it meets does not wrap
around. -/
theorem depositItemInFreeSlot_iff (bankTab : UInt32) (rounds : ℕ)
    (hitem : w.player.getItemByPos pos = some pItem) (hexact : w.player.DestroysExactly pos)
    (hsizes : w.bank.StackSized T) :
    w.Conserves (depositItemInFreeSlot se bankTab pos (rounds + 1) w pItem) ↔
      w.RoomInTab bankTab pItem := by
  refine ⟨?_, depositItemInFreeSlot_conserves se bankTab (rounds + 1) hitem hexact hsizes⟩
  intro hkeep hmany slot idx dItem hstack
  obtain ⟨-, -, hfound, hentry, hless⟩ := GuildBank.unfilledStack_some hstack
  by_contra hwraps
  -- a sum that wraps around looks as if it fit
  have hall : pItem.count + dItem.count ≤ dItem.maxStackSize := by
    have hlt := pItem.count.toNat_lt
    have hlt' := dItem.count.toNat_lt
    rw [UInt32.lt_iff_toNat_lt] at hless
    rw [UInt32.le_iff_toNat_le, UInt32.toNat_add]
    omega
  have hcall : depositItemInFreeSlot se bankTab pos (rounds + 1) w pItem =
      w.depositItemInSlot se bankTab slot pos pItem pItem.count false true := by
    simp [depositItemInFreeSlot, hmany, hstack, hall]
  rw [hcall, depositItemInSlot_stack_iff se hitem hexact hfound hentry] at hkeep
  exact hwraps (hkeep.mp (UInt32.le_refl _))

end Deposits

section Withdrawals

variable (se : Session)

/-- Making a withdrawn item look like the bank item keeps its units. -/
theorem cloneInto_units (p : Player T) {pos : ItemPos} {item : Item T}
    (hitem : p.items pos = some item) (bItem : BankItem) (playerGuid entry : UInt32) :
    (p.setItem pos (some (bItem.cloneInto playerGuid item))).units entry = p.units entry := by
  have hunits := p.units_setItem pos (some (bItem.cloneInto playerGuid item)) entry
  rw [hitem] at hunits
  exact Nat.add_right_cancel hunits

/-- A withdrawal onto a bag stack of the item conserves exactly when the bank item has the units
and the bag stack does not wrap around, or neither, or the player cannot store them. -/
theorem withdrawItemTo_onto_iff {bankTab bankSlot count playerBag playerSlot remainer : UInt32}
    {idx : ℕ} {bItem : BankItem} {pos : ItemPos} {pItem : Item T} {swap : Bool}
    (hbank : w.bank.items[idx]? = some bItem) (hitem : w.player.items pos = some pItem)
    (hentry : bItem.itemTemplate = pItem.entry) (hremainer : remainer = bItem.count - count) :
    w.Conserves (w.withdrawItemTo se bankTab bankSlot count playerBag playerSlot (some idx) bItem
        (some (pos, pItem)) remainer swap) ↔
      ((w.player.canStoreNewItem playerBag.toUInt8 playerSlot.toUInt8 bItem.itemTemplate
          count).result = .ok →
        (count ≤ bItem.count ↔ pItem.count.toNat + count.toNat < 2 ^ 32)) := by
  by_cases hstore : (w.player.canStoreNewItem playerBag.toUInt8 playerSlot.toUInt8
      bItem.itemTemplate count).result = .ok
  · have hcall : w.withdrawItemTo se bankTab bankSlot count playerBag playerSlot (some idx) bItem
        (some (pos, pItem)) remainer swap = w.withdrawOntoItem se bankTab bankSlot count (some idx)
          bItem pos pItem (decide (remainer = 0)) swap := by
      simp [withdrawItemTo, hstore]
    rw [hcall]
    simp only [hstore, forall_true_left]
    rw [← Lib.transfer_exact_iff]
    refine conserves_iff_of_share pItem.entry fun entry => ?_
    have hunits := takeOut_units hbank hremainer entry
    have hplayer := setItemCount_units hitem (pItem.count + count) entry
    have hshare : bItem.unitsOf entry = share pItem.entry entry bItem.count.toNat := by
      simp [BankItem.unitsOf, share, hentry]
    have hto : ∀ n, share bItem.itemTemplate entry n = share pItem.entry entry n := by
      simp [hentry]
    rw [hshare, hto] at hunits
    unfold totalUnits withdrawOntoItem
    simp only [withdrawDone_units, withdrawDone_player, setItemCount_bank, setBank_bank,
      sendWithdrawn_bank, setItemCount_player, setBank_player, sendWithdrawn_player]
    rw [← share_add, ← share_add]
    rw [setItemCount_player] at hplayer
    omega
  · have hcall : w.withdrawItemTo se bankTab bankSlot count playerBag playerSlot (some idx) bItem
        (some (pos, pItem)) remainer swap = w.send (.equipError (w.player.canStoreNewItem
          playerBag.toUInt8 playerSlot.toUInt8 bItem.itemTemplate count).result 0) := by
      simp [withdrawItemTo, hstore]
    rw [hcall]
    exact iff_of_true (Conserves.refl w) fun hok => absurd hok hstore

/-- A withdrawal into the bags conserves when the bank item has the units. -/
theorem withdrawItemTo_new {bankTab bankSlot count playerBag playerSlot remainer : UInt32}
    {idx : ℕ} {bItem : BankItem} {swap : Bool} (hexact : w.player.StoresExactly)
    (hbank : w.bank.items[idx]? = some bItem) (hcount : count ≤ bItem.count)
    (hremainer : remainer = bItem.count - count) :
    w.Conserves (w.withdrawItemTo se bankTab bankSlot count playerBag playerSlot (some idx) bItem
      none remainer swap) := by
  intro entry
  unfold withdrawItemTo
  simp only
  split_ifs with hstore
  · rfl
  · simp only [ne_eq, not_not] at hstore
    obtain ⟨hunits, hback⟩ := hexact playerBag.toUInt8 playerSlot.toUInt8 bItem.itemTemplate count
      (se.generatedRandomPropertyId bItem.itemTemplate) hstore
    unfold withdrawAsNew
    simp only
    split
    · rename_i hnothing
      -- nothing comes back only when nothing was asked for
      have hzero : count = 0 := by
        by_contra hne
        obtain ⟨pos, item, hpos, hitem⟩ := hback.mpr hne
        simp [hpos, hitem] at hnothing
      unfold totalUnits
      rw [saveToDB_units, saveToDB_player, setPlayer_player, setPlayer_bank, hunits entry, hzero]
      simp
    · rename_i pos item hstored
      obtain ⟨pos', hpos, hmap⟩ := Option.bind_eq_some_iff.mp hstored
      obtain ⟨item', hitem, heq⟩ := Option.map_eq_some_iff.mp hmap
      cases heq
      have htake := takeOut_units hbank (rfl : remainer = remainer) entry
      have hshare : bItem.unitsOf entry =
          share bItem.itemTemplate entry (remainer.toNat + count.toNat) := by
        have hsplit : remainer.toNat + count.toNat = bItem.count.toNat := by
          rw [hremainer, Nat.add_comm]
          exact (Lib.take_exact_iff bItem.count count).mpr hcount
        rw [hsplit]
        rfl
      rw [hshare, ← share_add] at htake
      unfold totalUnits
      simp only [withdrawDone_units, withdrawDone_player, send_bank, send_player, setBank_bank,
        setBank_player, sendWithdrawn_bank, sendWithdrawn_player, setPlayer_bank, setPlayer_player]
      rw [cloneInto_units _ hitem, hunits entry]
      have hasked : (if bItem.itemTemplate = entry then count.toNat else 0) =
        share bItem.itemTemplate entry count.toNat := rfl
      omega

/-- A withdrawal of a copy that is in no slot adds its units to the total, if they can be
stored. -/
theorem withdrawItemTo_copy (bankTab bankSlot playerBag playerSlot : UInt32)
    (bItem : BankItem) (swap : Bool) (hexact : w.player.StoresExactly) (entry : UInt32) :
    (w.withdrawItemTo se bankTab bankSlot bItem.count playerBag playerSlot none bItem none 0
        swap).totalUnits entry =
      w.totalUnits entry +
        if (w.player.canStoreNewItem playerBag.toUInt8 playerSlot.toUInt8 bItem.itemTemplate
          bItem.count).result = .ok then bItem.unitsOf entry else 0 := by
  by_cases hok : (w.player.canStoreNewItem playerBag.toUInt8 playerSlot.toUInt8
      bItem.itemTemplate bItem.count).result = .ok
  · obtain ⟨hunits, -⟩ := hexact playerBag.toUInt8 playerSlot.toUInt8 bItem.itemTemplate
      bItem.count (se.generatedRandomPropertyId bItem.itemTemplate) hok
    have hcall : w.withdrawItemTo se bankTab bankSlot bItem.count playerBag playerSlot none bItem
        none 0 swap = w.withdrawAsNew se bankTab bankSlot bItem.count (w.player.canStoreNewItem
          playerBag.toUInt8 playerSlot.toUInt8 bItem.itemTemplate bItem.count).dest none bItem 0
          true swap := by
      simp [withdrawItemTo, hok]
    rw [hcall, if_pos hok]
    unfold withdrawAsNew
    simp only
    split
    · unfold totalUnits
      rw [saveToDB_units, saveToDB_player, setPlayer_player, setPlayer_bank, hunits entry,
        ← Nat.add_assoc]
      rfl
    · rename_i pos item hstored
      obtain ⟨pos', hpos, hmap⟩ := Option.bind_eq_some_iff.mp hstored
      obtain ⟨item', hitem, heq⟩ := Option.map_eq_some_iff.mp hmap
      cases heq
      unfold totalUnits
      simp only [withdrawDone_units, withdrawDone_player, send_bank, send_player, setBank_bank,
        setBank_player, sendWithdrawn_bank, sendWithdrawn_player, setPlayer_bank, setPlayer_player]
      rw [cloneInto_units _ hitem, hunits entry, ← Nat.add_assoc]
      rfl
  · have hcall : w.withdrawItemTo se bankTab bankSlot bItem.count playerBag playerSlot none bItem
        none 0 swap = w.send (.equipError (w.player.canStoreNewItem playerBag.toUInt8
          playerSlot.toUInt8 bItem.itemTemplate bItem.count).result 0) := by
      simp [withdrawItemTo, hok]
    rw [hcall, if_neg hok]
    rfl

/-- A swap conserves exactly when the bank item still finds room after the bag item is gone, or
had no units. -/
theorem swapItems_iff {pos : ItemPos} {bagItem : Item T} {bankItem : BankItem} {idx : ℕ}
    (hitem : w.player.getItemByPos pos = some bagItem) (hexact : w.player.DestroysExactly pos)
    (hstores : (w.player.destroyItem pos).StoresExactly)
    (hfound : w.bank.findItem bankItem.tab bankItem.slot = some (idx, bankItem)) :
    w.Conserves (w.swapItems se pos bagItem bankItem) ↔
      ((w.player.canStoreNewItem nullBag nullSlot bankItem.itemTemplate
            bankItem.count).result = .ok ∨
          (w.player.canStoreNewItem nullBag nullSlot bankItem.itemTemplate
            bankItem.count).result = .inventoryFull →
        ((w.player.destroyItem pos).canStoreNewItem inventorySlotBag0 nullSlot
            bankItem.itemTemplate bankItem.count).result = .ok ∨ bankItem.count = 0) := by
  unfold swapItems
  simp only
  split_ifs with hrefuse
  · refine iff_of_true (Conserves.refl w) fun haccept => ?_
    rcases haccept with hok | hfull
    · exact absurd hok hrefuse.1
    · exact absurd hfull hrefuse.2
  · have haccept : (w.player.canStoreNewItem nullBag nullSlot bankItem.itemTemplate
          bankItem.count).result = .ok ∨
        (w.player.canStoreNewItem nullBag nullSlot bankItem.itemTemplate
          bankItem.count).result = .inventoryFull := by
      by_contra hnone
      exact hrefuse (not_or.mp hnone)
    simp only [haccept, forall_true_left]
    obtain ⟨w', hplace⟩ : ∃ w', w.placeDeposit bankItem.tab bankItem.slot bagItem bagItem.count
        false false = some (w', idx) := by
      simp [placeDeposit, hfound]
    obtain ⟨deposited, hdeposited⟩ : ∃ deposited, deposited = w.depositItemInSlot se bankItem.tab
        bankItem.slot pos bagItem bagItem.count false false := ⟨_, rfl⟩
    have hplayer : deposited.player = w.player.destroyItem pos := by
      rw [hdeposited, depositItemInSlot, hplace]
      simp [takeDeposit, (placeDeposit_units hplace).1]
    have htotal : ∀ entry, deposited.totalUnits entry + bankItem.unitsOf entry =
        w.totalUnits entry := by
      intro entry
      have hdeposit := depositItemInSlot_units se hitem hexact hplace entry
      rw [← hdeposited, UInt32.sub_self] at hdeposit
      have hnothing : share bagItem.entry entry (0 : UInt32).toNat = 0 := by simp [share]
      rcases (placeDeposit_units hplace).2 with ⟨hnew, -⟩ | ⟨dItem, -, hfound', hbank⟩
      · cases hnew
      · rw [hfound] at hfound'
        cases hfound'
        have hbank := hbank entry
        simp only [Bool.false_eq_true, if_false] at hbank
        have hbefore : w.totalUnits entry = w.bank.units entry + w.player.units entry := rfl
        omega
    have hwithdraw := withdrawItemTo_copy (w := deposited) se bankItem.tab bankItem.slot
      inventorySlotBag0.toUInt32 nullSlot.toUInt32 bankItem true (by rw [hplayer]; exact hstores)
    rw [← hdeposited]
    simp only [hplayer, UInt8.toUInt8_toUInt32] at hwithdraw
    constructor
    · intro hkeep
      by_contra hlost
      obtain ⟨hfull, hunits⟩ := not_or.mp hlost
      have hentry := hkeep bankItem.itemTemplate
      rw [hwithdraw, if_neg hfull] at hentry
      have hbefore := htotal bankItem.itemTemplate
      have hcount : bankItem.unitsOf bankItem.itemTemplate = bankItem.count.toNat := by
        simp [BankItem.unitsOf]
      exact hunits (UInt32.toNat.inj (by simp only [UInt32.toNat_zero]; omega))
    · intro hroom entry
      rw [hwithdraw entry]
      have hbefore := htotal entry
      rcases hroom with hok | hzero
      · rw [if_pos hok]
        exact hbefore
      · have hnothing : bankItem.unitsOf entry = 0 := by simp [BankItem.unitsOf, hzero]
        rw [hnothing] at hbefore ⊢
        simpa using hbefore

end Withdrawals

section Moves

/-- Two changes of items of one entry. -/
theorem changeTwo_units {bank : GuildBank} {sIdx dIdx : ℕ} {sItem dItem : BankItem}
    (hs : bank.items[sIdx]? = some sItem) (hd : bank.items[dIdx]? = some dItem)
    (hne : sIdx ≠ dIdx) (sItem' dItem' : BankItem) (entry : UInt32) :
    ((bank.changeItem sIdx sItem').changeItem dIdx dItem').units entry +
        (sItem.unitsOf entry + dItem.unitsOf entry) =
      bank.units entry + (sItem'.unitsOf entry + dItem'.unitsOf entry) := by
  have hfirst := changeItem_units hs sItem' entry
  have hsecond := changeItem_units (GuildBank.changeItem_getElem?_ne hne sItem' hd) dItem' entry
  omega

/-- Changing the counts of two items of one entry conserves exactly when their sum stays. -/
theorem conserves_changeTwo_iff {w' : World T} {sIdx dIdx : ℕ} {sItem dItem : BankItem}
    (sCount dCount : UInt32) (hs : w.bank.items[sIdx]? = some sItem)
    (hd : w.bank.items[dIdx]? = some dItem) (hne : sIdx ≠ dIdx)
    (hentry : sItem.itemTemplate = dItem.itemTemplate) (hplayer : w'.player = w.player)
    (hbank : w'.bank = (w.bank.changeItem sIdx (sItem.setCount sCount)).changeItem dIdx
      (dItem.setCount dCount)) :
    w.Conserves w' ↔
      sCount.toNat + dCount.toNat = sItem.count.toNat + dItem.count.toNat := by
  refine conserves_iff_of_share sItem.itemTemplate fun entry => ?_
  have hunits := changeTwo_units hs hd hne (sItem.setCount sCount) (dItem.setCount dCount) entry
  rw [unitsOf_setCount, unitsOf_setCount, unitsOf_eq_share rfl, unitsOf_eq_share hentry.symm,
    ← hentry] at hunits
  unfold totalUnits
  rw [hbank, hplayer, ← share_add, ← share_add]
  omega

/-- A move onto a stack of the item conserves exactly when the two stacks do not wrap around. -/
theorem moveItemTo_stack_iff {sIdx dIdx : ℕ} {sItem dItem : BankItem}
    {bankTab fromSlot toSlot : UInt8} (hs : w.bank.items[sIdx]? = some sItem)
    (hd : w.bank.items[dIdx]? = some dItem) (hne : sIdx ≠ dIdx) (hsizes : w.bank.StackSized T)
    (hstack : sItem.Stacks dItem) :
    w.Conserves (w.moveItemTo sIdx sItem (some (dIdx, dItem)) bankTab fromSlot toSlot) ↔
      sItem.count.toNat + dItem.count.toNat < 2 ^ 32 := by
  have hsize : dItem.maxStackSize = sItem.maxStackSize := by
    rw [hsizes _ (List.mem_of_getElem? hs), hsizes _ (List.mem_of_getElem? hd), hstack.1]
  have hslt := sItem.count.toNat_lt
  have hdlt := dItem.count.toNat_lt
  have hmlt := sItem.maxStackSize.toNat_lt
  unfold moveItemTo
  simp only
  rw [if_pos hstack]
  split_ifs with hall
  · rw [← Lib.add_exact_iff]
    refine conserves_iff_of_share sItem.itemTemplate fun entry => ?_
    have hfirst := changeItem_units hd (dItem.setCount (sItem.count + dItem.count)) entry
    have hsecond := removeItem_units (GuildBank.changeItem_getElem?_ne hne.symm
      (dItem.setCount (sItem.count + dItem.count)) hs) sItem entry
    rw [unitsOf_setCount, unitsOf_eq_share hstack.1.symm, ← hstack.1] at hfirst
    rw [unitsOf_eq_share rfl] at hsecond
    rw [← share_add]
    unfold totalUnits
    simp only [sendGuildMessage_bank, sendGuildMessage_player, setBank_bank, setBank_player]
    omega
  · refine (conserves_changeTwo_iff (sItem.count - (sItem.maxStackSize - dItem.count))
      dItem.maxStackSize hs hd hne hstack.1 ?_ ?_).trans ?_
    · rfl
    · rfl
    rw [UInt32.le_iff_toNat_le, UInt32.toNat_add] at hall
    rw [hsize, UInt32.toNat_sub, UInt32.toNat_sub]
    omega

/-- A move into a free slot, or a swap of two slots, conserves. -/
theorem moveItemTo_conserves {sIdx : ℕ} {sItem : BankItem} {dest : Option (ℕ × BankItem)}
    {bankTab fromSlot toSlot : UInt8} (hs : w.bank.items[sIdx]? = some sItem)
    (hdest : ∀ dIdx dItem, dest = some (dIdx, dItem) →
      w.bank.items[dIdx]? = some dItem ∧ sIdx ≠ dIdx ∧ ¬sItem.Stacks dItem) :
    w.Conserves (w.moveItemTo sIdx sItem dest bankTab fromSlot toSlot) := by
  intro entry
  unfold moveItemTo
  cases dest with
  | none =>
      have hunits := changeItem_units hs (sItem.setSlot toSlot.toUInt32) entry
      exact congrArg (· + w.player.units entry) (Nat.add_right_cancel hunits)
  | some found =>
      obtain ⟨dIdx, dItem⟩ := found
      obtain ⟨hd, hne, hstack⟩ := hdest dIdx dItem rfl
      have hunits := changeTwo_units hs hd hne (sItem.setSlot toSlot.toUInt32)
        (dItem.setSlot fromSlot.toUInt32) entry
      simp only
      rw [if_neg hstack]
      unfold totalUnits
      rw [saveToDB_units, saveToDB_player]
      exact congrArg (· + w.player.units entry) (Nat.add_right_cancel hunits)

/-- The checks a split onto a stack of the item passes. -/
def SplitAccepted (sItem dItem : BankItem) (split : UInt8) : Prop :=
  sItem.itemTemplate = dItem.itemTemplate ∧
    dItem.count + split.toUInt32 ≤ dItem.maxStackSize ∧
    sItem.count - split.toUInt32 ≠ 0 ∧ sItem.count - split.toUInt32 ≤ sItem.maxStackSize ∧
    dItem.count + split.toUInt32 ≠ 0 ∧ dItem.count + split.toUInt32 ≤ sItem.maxStackSize

/-- A split onto another item conserves exactly when it is refused, or the source has the units
and the other stack does not wrap around, or neither. -/
theorem splitItemTo_onto_iff {sIdx dIdx : ℕ} {sItem dItem : BankItem} (toSlot split : UInt8)
    (hs : w.bank.items[sIdx]? = some sItem) (hd : w.bank.items[dIdx]? = some dItem)
    (hne : sIdx ≠ dIdx) :
    w.Conserves (w.splitItemTo sIdx sItem (some (dIdx, dItem)) toSlot split) ↔
      (SplitAccepted sItem dItem split →
        (split.toUInt32 ≤ sItem.count ↔
          dItem.count.toNat + split.toUInt32.toNat < 2 ^ 32)) := by
  unfold SplitAccepted splitItemTo
  simp only
  split_ifs with hentry hroom hzero hsource hzero' hdest
  · exact iff_of_true (Conserves.refl w) fun haccept => absurd hzero haccept.2.2.1
  · exact iff_of_true (Conserves.refl w) fun haccept =>
      absurd haccept.2.2.2.1 (UInt32.not_le.mpr hsource)
  · exact iff_of_true (Conserves.refl w) fun haccept => absurd hzero' haccept.2.2.2.2.1
  · exact iff_of_true (Conserves.refl w) fun haccept =>
      absurd haccept.2.2.2.2.2 (UInt32.not_le.mpr hdest)
  · simp only [hentry, hroom, ne_eq, hzero, UInt32.not_lt.mp hsource, hzero',
      UInt32.not_lt.mp hdest, not_false_eq_true, and_self, forall_true_left]
    rw [← Lib.transfer_exact_iff]
    refine (conserves_changeTwo_iff (sItem.count - split.toUInt32)
      (dItem.count + split.toUInt32) hs hd hne hentry ?_ ?_).trans ?_
    · rfl
    · rfl
    · omega
  · exact iff_of_true (Conserves.refl w) fun haccept => absurd haccept.2.1 hroom
  · exact iff_of_true (Conserves.refl w) fun haccept => absurd haccept.1 hentry

/-- An amount that leaves a positive rest, as signed words, is there. -/
theorem le_of_signed_rest {count split : UInt32} (hsplit : split.toNat < 256)
    (h : ¬count.toInt32 - split.toInt32 ≤ 0) : split ≤ count := by
  rw [UInt32.le_iff_toNat_le]
  by_contra hmore
  have hneg : count.toInt32 - split.toInt32 < 0 := by
    rw [Player.int32_neg_iff, Int32.toUInt32_sub, UInt32.toUInt32_toInt32,
      UInt32.toUInt32_toInt32, UInt32.toNat_sub]
    omega
  exact h (Int32.le_of_lt hneg)

/-- A split into a free slot conserves. -/
theorem splitItemTo_new_conserves {sIdx : ℕ} {sItem : BankItem} {toSlot split : UInt8}
    (hs : w.bank.items[sIdx]? = some sItem) :
    w.Conserves (w.splitItemTo sIdx sItem none toSlot split) := by
  unfold splitItemTo
  simp only
  split_ifs with hmax hrest
  · exact Conserves.refl w
  · exact Conserves.refl w
  · have hsplit : split.toUInt32 ≤ sItem.count :=
      le_of_signed_rest (by simpa using split.toNat_lt) hrest
    have hleft : (sItem.count.toInt32 - split.toUInt32.toInt32).toUInt32 =
        sItem.count - split.toUInt32 := by
      simp
    rw [hleft]
    intro entry
    have hchange := changeItem_units hs
      (sItem.setCount (sItem.count - split.toUInt32)) entry
    have hexact := (Lib.take_exact_iff sItem.count split.toUInt32).mpr hsplit
    unfold totalUnits
    rw [saveToDB_units, saveToDB_player]
    simp only [sendSplit_bank, sendSplit_player, setBank_bank, setBank_player, insertItem_units,
      unitsOf_setCount]
    rw [unitsOf_setCount, unitsOf_eq_share rfl, ← hexact, ← share_add] at hchange
    have hclone : ∀ bank : GuildBank, ((bank.cloneBankItem (sItem.setCount (sItem.count -
        split.toUInt32))).setSlot toSlot.toUInt32).itemTemplate = sItem.itemTemplate :=
      fun _ => rfl
    rw [hclone]
    omega

end Moves

/-- What decides whether a call conserves: the stack it takes from has the units, and the stack it
adds to does not run over; a swap finds room for the bank item once the bag item is gone. -/
def Keeps (w : World T) : ItemCall T → Prop
  | .refuse _ => True
  | .depositInFreeSlot bankTab _ pItem => w.RoomInTab bankTab pItem
  | .depositInSlot bankTab bankSlot _ pItem count isNew _ =>
      if isNew then count ≤ pItem.count
      else
        ∀ idx dItem, w.bank.findItem bankTab bankSlot = some (idx, dItem) →
          (count ≤ pItem.count ↔ dItem.count.toNat + count.toNat < 2 ^ 32)
  | .withdraw _ _ count playerBag playerSlot _ bItem target _ =>
      ∀ pos pItem, target = some (pos, pItem) →
        (w.player.canStoreNewItem playerBag.toUInt8 playerSlot.toUInt8 bItem.itemTemplate
            count).result = .ok →
          (count ≤ bItem.count ↔ pItem.count.toNat + count.toNat < 2 ^ 32)
  | .swap pos _ bankItem =>
      (w.player.canStoreNewItem nullBag nullSlot bankItem.itemTemplate
            bankItem.count).result = .ok ∨
          (w.player.canStoreNewItem nullBag nullSlot bankItem.itemTemplate
            bankItem.count).result = .inventoryFull →
        ((w.player.destroyItem pos).canStoreNewItem inventorySlotBag0 nullSlot
            bankItem.itemTemplate bankItem.count).result = .ok ∨ bankItem.count = 0
  | .move _ sItem dest _ _ _ =>
      ∀ dIdx dItem, dest = some (dIdx, dItem) → sItem.Stacks dItem →
        sItem.count.toNat + dItem.count.toNat < 2 ^ 32
  | .split _ sItem dest _ split =>
      ∀ dIdx dItem, dest = some (dIdx, dItem) → SplitAccepted sItem dItem split →
        (split.toUInt32 ≤ sItem.count ↔ dItem.count.toNat + split.toUInt32.toNat < 2 ^ 32)

/-- A statement about what is found is one about the item found. -/
theorem forall_found {β : Type*} {key : β} {item : BankItem} {P : BankItem → Prop} :
    (∀ key' item', some (key, item) = some (key', item') → P item') ↔ P item := by
  constructor
  · intro h
    exact h key item rfl
  · rintro h key' item' heq
    cases heq
    exact h

/-- Every call an item message ends in conserves exactly when `Keeps` says so. -/
theorem conserves_perform_iff (se : Session) {call : ItemCall T} (hasked : Asked w call)
    (hsizes : w.bank.StackSized T) (hstores : w.player.StoresExactly)
    (hsource : ∀ pos, call.source = some pos →
      w.player.DestroysExactly pos ∧ (w.player.destroyItem pos).StoresExactly) :
    w.Conserves (w.perform se call) ↔ w.Keeps call := by
  cases hasked with
  | refuse answers => exact iff_of_true (Conserves.refl w) trivial
  | depositInFreeSlot htab hitem =>
      exact depositItemInFreeSlot_iff se _ _ hitem (hsource _ rfl).1 hsizes
  | depositNew htab hslot hitem hcount hfree =>
      exact depositItemInSlot_new_iff se hitem (hsource _ rfl).1 _ _ _ false
  | depositAll htab hitem hcount hfound hentry =>
      simp only [Keeps, Bool.false_eq_true, if_false, hfound, forall_found]
      exact depositItemInSlot_stack_iff se hitem (hsource _ rfl).1 hfound hentry
  | depositFew htab hitem hcount hfound hentry =>
      simp only [Keeps, Bool.false_eq_true, if_false, hfound, forall_found]
      exact depositItemInSlot_stack_iff se hitem (hsource _ rfl).1 hfound hentry
  | refill htab hitem hcount hfound hentry hmany hless hfull hremainer =>
      refine (withdrawItemTo_onto_iff se (GuildBank.findItem_some hfound).1
        (Player.items_of_getItemByPos hitem) hentry hremainer).trans ?_
      refine ⟨?_, fun h => h _ _ rfl⟩
      rintro h pos pItem heq
      cases heq
      exact h
  | withdrawOnto htab hitem hfound hentry =>
      refine (withdrawItemTo_onto_iff se (GuildBank.findItem_some hfound).1
        (Player.items_of_getItemByPos hitem) hentry rfl).trans ?_
      refine ⟨?_, fun h => h _ _ rfl⟩
      rintro h pos pItem heq
      cases heq
      exact h
  | withdrawNew htab hfound hcount hremainer =>
      refine iff_of_true ?_ nofun
      exact withdrawItemTo_new se hstores (GuildBank.findItem_some hfound).1 hcount hremainer
  | swap htab hitem hfound =>
      exact swapItems_iff se hitem (hsource _ rfl).1 (hsource _ rfl).2 hfound
  | @move sIdx sItem bankTab fromSlot toSlot htab hfrom hto hne hfound =>
      have hs := (GuildBank.findItem_some hfound).1
      cases hdest : w.bank.findItem bankTab.toUInt32 toSlot.toUInt32 with
      | none => exact iff_of_true (moveItemTo_conserves hs nofun) nofun
      | some found =>
          obtain ⟨dIdx, dItem⟩ := found
          have hd := (GuildBank.findItem_some hdest).1
          have hidx := idx_ne_of_slot hfound hdest fun heq => hne (UInt8.toUInt32_inj.mp heq)
          simp only [Keeps, forall_found]
          by_cases hstack : sItem.Stacks dItem
          · simp only [hstack, forall_true_left]
            exact moveItemTo_stack_iff hs hd hidx hsizes hstack
          · refine iff_of_true (moveItemTo_conserves hs ?_) fun h => absurd h hstack
            rintro dIdx' dItem' heq
            cases heq
            exact ⟨hd, hidx, hstack⟩
  | @split sIdx sItem bankTab fromSlot toSlot amount htab hto hne hfound =>
      have hs := (GuildBank.findItem_some hfound).1
      cases hdest : w.bank.findItem bankTab.toUInt32 toSlot.toUInt32 with
      | none => exact iff_of_true (splitItemTo_new_conserves hs) nofun
      | some found =>
          obtain ⟨dIdx, dItem⟩ := found
          have hd := (GuildBank.findItem_some hdest).1
          have hidx := idx_ne_of_slot hfound hdest fun heq => hne (UInt8.toUInt32_inj.mp heq)
          simp only [Keeps, forall_found]
          exact splitItemTo_onto_iff toSlot amount hs hd hidx

/-- The player with one stack of Linen Cloth has no bags. -/
theorem linenPlayer_direct (count : UInt32) (pos : ItemPos) (item : Item ItemTable.cloth)
    (h : (linenPlayer count).items pos = some item) :
    pos.bag = inventorySlotBag0 ∧ isDirectSlot pos.slot = true := by
  simp only [linenPlayer, Option.ite_none_right_eq_some] at h
  rw [h.1]
  decide

/-- He stores and destroys exactly. -/
theorem linenPlayer_exact (count : UInt32) :
    (linenPlayer count).StoresExactly ∧
      (linenPlayer count).DestroysExactly ⟨255, 23⟩ ∧
      ((linenPlayer count).destroyItem ⟨255, 23⟩).StoresExactly := by
  refine ⟨Player.storesExactly_of_visible (Player.visible_of_direct (linenPlayer_direct count)),
    Player.destroysExactly_of_empty ?_,
    Player.storesExactly_of_visible (Player.visible_destroyItem (linenPlayer_direct count))⟩
  intro _ inner
  simp [linenPlayer]

/-- The bank just loaded is reachable. -/
theorem linenWorld_reachable (rows : List BankRow) (count : UInt32) :
    Reachable ItemTable.cloth ((linenWorld rows count).bank, (linenWorld rows count).db) :=
  ⟨.guildMaster, 1, false, linenDatabase rows, [], rfl⟩

/-- A player with 5 Linen Cloth who deposits 20 of them into a free slot: the message is taken,
and the units do not stay what they were. -/
theorem depositItem_more_than_stack :
    Reachable ItemTable.cloth ((linenWorld [] 5).bank, (linenWorld [] 5).db) ∧
      (linenWorld [] 5).player.StoresExactly ∧
      (∀ pos, ((linenWorld [] 5).itemCall .guildMaster .deposit
          "DepositItem:0:1:1:1:20".toList).source = some pos →
        (linenWorld [] 5).player.DestroysExactly pos ∧
          ((linenWorld [] 5).player.destroyItem pos).StoresExactly) ∧
      ¬(linenWorld [] 5).Conserves ((linenWorld [] 5).handleItem .guildMaster .deposit
        "DepositItem:0:1:1:1:20".toList) := by
  have hcall : (linenWorld [] 5).itemCall .guildMaster .deposit
      "DepositItem:0:1:1:1:20".toList =
        .depositInSlot 1 1 ⟨255, 23⟩ (Item.linen 500 5) 20 true false := rfl
  have hsource : ∀ pos, ((linenWorld [] 5).itemCall .guildMaster .deposit
      "DepositItem:0:1:1:1:20".toList).source = some pos →
      (linenWorld [] 5).player.DestroysExactly pos ∧
        ((linenWorld [] 5).player.destroyItem pos).StoresExactly := by
    rintro pos hpos
    rw [hcall] at hpos
    cases hpos
    exact (linenPlayer_exact 5).2
  refine ⟨linenWorld_reachable [] 5, (linenPlayer_exact 5).1, hsource, fun hkeep => ?_⟩
  rw [handleItem, conserves_perform_iff .guildMaster (asked _ _ _ _)
    (stackSized_of_reachable (linenWorld_reachable [] 5)) (linenPlayer_exact 5).1 hsource,
    hcall] at hkeep
  exact absurd hkeep (by decide : ¬(20 : UInt32) ≤ 5)

/-- An item message to a reachable bank conserves exactly when `Keeps` says so of the call it
ends in. -/
theorem itemMessage_conserves_iff (se : Session) (w : World T) (op : ItemOp) (msg : List Char)
    (hreach : Reachable T (w.bank, w.db)) (hstores : w.player.StoresExactly)
    (hsource : ∀ pos, (w.itemCall se op msg).source = some pos →
      w.player.DestroysExactly pos ∧ (w.player.destroyItem pos).StoresExactly) :
    w.Conserves (w.handleItem se op msg) ↔ w.Keeps (w.itemCall se op msg) :=
  conserves_perform_iff se (asked se w op msg) (stackSized_of_reachable hreach) hstores hsource

/-- A player with 20 Linen Cloth who deposits all of them: the units stay. -/
theorem depositItem_whole_stack :
    (linenWorld [] 20).Conserves ((linenWorld [] 20).handleItem .guildMaster .deposit
      "DepositItem:0:1:1:1:20".toList) := by
  have hcall : (linenWorld [] 20).itemCall .guildMaster .deposit
      "DepositItem:0:1:1:1:20".toList =
        .depositInSlot 1 1 ⟨255, 23⟩ (Item.linen 500 20) 20 true false := rfl
  refine (itemMessage_conserves_iff .guildMaster (linenWorld [] 20) .deposit
    "DepositItem:0:1:1:1:20".toList (linenWorld_reachable [] 20) (linenPlayer_exact 20).1 ?_).mpr ?_
  · intro pos hpos
    rw [hcall] at hpos
    cases hpos
    exact (linenPlayer_exact 20).2
  · rw [hcall]
    exact (by decide : (20 : UInt32) ≤ 20)

end World

end TwowCore
