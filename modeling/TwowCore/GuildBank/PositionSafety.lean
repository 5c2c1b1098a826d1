import TwowCore.GuildBank.SwapAtomic

/-!
# The positions a message reaches

`DepositItem` and `WithdrawItem` turn the bag and the slot of a client into a position by additions that wrap
around, in 8 bits the one and in 32 bits the other, and check the result against nothing. `namedPos` is that
position, and `carried_serverPos` and `carried_withdrawPos` say which numbers name a slot of the backpack or of
a bag that is carried.
-/

namespace TwowCore

namespace World

variable {T : ItemTable} {se : Session} {w : World T}

/-- A slot of the backpack, or of one of the four bags a character carries. -/
def Carried (pos : ItemPos) : Prop :=
  (pos.bag = inventorySlotBag0 ∧ inventorySlotItemStart ≤ pos.slot ∧ pos.slot < inventorySlotItemEnd) ∨
    (inventorySlotBagStart ≤ pos.bag ∧ pos.bag < inventorySlotBagEnd)

instance (pos : ItemPos) : Decidable (Carried pos) := inferInstanceAs (Decidable (_ ∨ _))

/-- The position a client means in `WithdrawItem`. -/
def withdrawPos (playerBag playerSlot : UInt32) : ItemPos :=
  let playerBag := if playerBag = 0 then 255 else playerBag + 18
  let playerSlot := if playerBag = 255 then playerSlot + 22 else playerSlot - 1
  ⟨playerBag.toUInt8, playerSlot.toUInt8⟩

/-- The position a message names. -/
def namedPos (op : ItemOp) (msg : List Char) : Option ItemPos :=
  match op, tokenizer msg ':' with
  | .deposit, [_, bagText, slotText, _, _, _] => some (serverPos (atoiByte bagText) (atoiByte slotText))
  | .withdraw, [_, _, _, bagText, slotText, _] => some (withdrawPos (atoiWord bagText) (atoiWord slotText))
  | _, _ => none

/-- The position at which a message that has passed the checks before looks for an item. -/
def looksAt (se : Session) (w : World T) (op : ItemOp) (msg : List Char) : Option ItemPos :=
  match op, tokenizer msg ':' with
  | .deposit, [_, bagText, slotText, tabText, bankSlotText, _] =>
      let bankTab := atoiByte tabText
      if bankTab = 0 ∨ maxTabs < bankTab.toUInt32 ∨ bankTabSize < (atoiByte bankSlotText).toUInt32 then none
      else if w.bank.canAccessTab se w.player.guid bankTab .depositItem = false then none
      else some (serverPos (atoiByte bagText) (atoiByte slotText))
  | .withdraw, [_, tabText, bankSlotText, bagText, slotText, countText] =>
      let bankTab := atoiWord tabText
      let bankSlot := atoiWord bankSlotText
      if bankTab = 0 ∨ maxTabs < bankTab ∨ bankSlot = 0 ∨ bankTabSize < bankSlot then none
      else if w.bank.canAccessTab se w.player.guid bankTab.toUInt8 .withdrawItem = false then none
      else
        match w.bank.findItem bankTab bankSlot with
        | none => none
        | some (_, bItem) =>
            if bItem.count < atoiWord countText then none
            else if atoiWord bagText = 0 ∧ atoiWord slotText = 0 then none
            else some (withdrawPos (atoiWord bagText) (atoiWord slotText))
  | _, _ => none

/-- A call to `CanStoreNewItem`. -/
structure StoreRequest (T : ItemTable) where
  player : Player T
  bag : UInt8
  slot : UInt8
  entry : UInt32
  count : UInt32

/-- Its answer. -/
def StoreRequest.answer (r : StoreRequest T) : Player.StoreResult :=
  r.player.canStoreNewItem r.bag r.slot r.entry r.count

/-- The positions a new item is to be stored into. -/
def StoreRequest.positions (r : StoreRequest T) : List ItemPos :=
  if r.answer.result = .ok then r.answer.dest.map ItemPosCount.pos else []

/-- The request names a slot, and is granted. -/
def StoreRequest.Targets (r : StoreRequest T) (pos : ItemPos) : Prop :=
  r.bag ≠ nullBag ∧ r.slot ≠ nullSlot ∧ r.answer.result = .ok ∧ pos = ⟨r.bag, r.slot⟩

/-- None of the units are for the keyring, nor, where no slot is named, for a bag that is not carried. -/
def StoreRequest.Aside (r : StoreRequest T) : Prop :=
  ∀ pos ∈ r.positions, pos ∉ slotRange inventorySlotBag0 keyringSlotStart keyringSlotEnd ∧
    (r.slot = nullSlot → pos.bag = r.bag → Carried pos)

instance (w : World T) (bankItem : BankItem) : Decidable (w.SwapTested bankItem) :=
  inferInstanceAs (Decidable (_ ∨ _))

/-- What a call plans to store. -/
def storeRequest (w : World T) : ItemCall T → Option (StoreRequest T)
  | .withdraw _ _ count playerBag playerSlot _ bItem _ _ =>
      some ⟨w.player, playerBag.toUInt8, playerSlot.toUInt8, bItem.itemTemplate, count⟩
  | .swap pos _ bankItem =>
      if w.SwapTested bankItem then
        some ⟨w.player.destroyItem pos, inventorySlotBag0, nullSlot, bankItem.itemTemplate, bankItem.count⟩
      else none
  | _ => none

/-- Every position at which the message finds an item, or into which it plans to store one, is carried. -/
def PositionSafe (se : Session) (w : World T) (op : ItemOp) (msg : List Char) : Prop :=
  (∀ pos item, w.looksAt se op msg = some pos → w.player.getItemByPos pos = some item → Carried pos) ∧
    ∀ r, w.storeRequest (w.itemCall se op msg) = some r → ∀ pos ∈ r.positions, Carried pos

/-- The message comes to use the position it names: it finds an item there, or may store one there. -/
def Uses (se : Session) (w : World T) (op : ItemOp) (msg : List Char) (pos : ItemPos) : Prop :=
  (w.looksAt se op msg = some pos ∧ (w.player.getItemByPos pos).isSome = true) ∨
    ∃ r, w.storeRequest (w.itemCall se op msg) = some r ∧ r.Targets pos

/-- The numbers of a message name a slot of the backpack or of one of the four bags. -/
def NamesCarried (op : ItemOp) (msg : List Char) : Prop :=
  match op, tokenizer msg ':' with
  | .deposit, [_, bagText, slotText, _, _, _] =>
      (atoiByte bagText = 0 ∧ 1 ≤ atoiByte slotText ∧ atoiByte slotText ≤ 16) ∨
        (1 ≤ atoiByte bagText ∧ atoiByte bagText ≤ 4) ∨
        (atoiByte bagText = 237 ∧ 24 ≤ atoiByte slotText ∧ atoiByte slotText ≤ 39)
  | .withdraw, [_, _, _, bagText, slotText, _] =>
      ((atoiWord bagText = 0 ∨ atoiWord bagText = 237) ∧ 1 ≤ atoiByte slotText ∧ atoiByte slotText ≤ 16) ∨
        (1 ≤ atoiByte bagText ∧ atoiByte bagText ≤ 4) ∨
        (atoiWord bagText ≠ 237 ∧ atoiByte bagText = 237 ∧ 24 ≤ atoiByte slotText ∧ atoiByte slotText ≤ 39)
  | _, _ => True

section Numbers

theorem carried_iff (pos : ItemPos) : Carried pos ↔
    (pos.bag.toNat = 255 ∧ 23 ≤ pos.slot.toNat ∧ pos.slot.toNat < 39) ∨
      (19 ≤ pos.bag.toNat ∧ pos.bag.toNat < 23) := by
  unfold Carried
  rw [← UInt8.toNat_inj, UInt8.le_iff_toNat_le, UInt8.lt_iff_toNat_lt, UInt8.le_iff_toNat_le,
    UInt8.lt_iff_toNat_lt]
  rfl

/-- The numbers of `DepositItem` that name a carried slot. -/
theorem carried_serverPos (playerBag playerSlot : UInt8) : Carried (serverPos playerBag playerSlot) ↔
    (playerBag = 0 ∧ 1 ≤ playerSlot ∧ playerSlot ≤ 16) ∨ (1 ≤ playerBag ∧ playerBag ≤ 4) ∨
      (playerBag = 237 ∧ 24 ≤ playerSlot ∧ playerSlot ≤ 39) := by
  have hbag := playerBag.toNat_lt
  have hslot := playerSlot.toNat_lt
  rw [carried_iff]
  unfold serverPos inventorySlotBag0 inventorySlotItemStart inventorySlotBagStart
  simp only [← UInt8.toNat_inj, UInt8.le_iff_toNat_le]
  split
  · next hzero =>
      simp only [UInt8.toNat_add, UInt8.toNat_sub, UInt8.toNat_zero, UInt8.reduceToNat, true_and] at hzero ⊢
      omega
  · next hother =>
      simp only [UInt8.toNat_add, UInt8.toNat_sub, UInt8.toNat_zero, UInt8.reduceToNat] at hother ⊢
      omega

/-- The numbers of `WithdrawItem` that do. -/
theorem carried_withdrawPos (playerBag playerSlot : UInt32) : Carried (withdrawPos playerBag playerSlot) ↔
    ((playerBag = 0 ∨ playerBag = 237) ∧ 1 ≤ playerSlot.toUInt8 ∧ playerSlot.toUInt8 ≤ 16) ∨
      (1 ≤ playerBag.toUInt8 ∧ playerBag.toUInt8 ≤ 4) ∨
      (playerBag ≠ 237 ∧ playerBag.toUInt8 = 237 ∧ 24 ≤ playerSlot.toUInt8 ∧ playerSlot.toUInt8 ≤ 39) := by
  have hbag := playerBag.toNat_lt
  have hslot := playerSlot.toNat_lt
  rw [carried_iff]
  unfold withdrawPos
  simp only [ne_eq, ← UInt32.toNat_inj, ← UInt8.toNat_inj, UInt8.le_iff_toNat_le, UInt32.toNat_toUInt8]
  split
  · next hzero =>
      simp only [if_true, UInt32.toNat_add, UInt32.toNat_zero, UInt32.reduceToNat, UInt8.reduceToNat,
        true_and] at hzero ⊢
      omega
  · next hsome =>
      split
      · next hbackpack =>
          simp only [UInt32.toNat_add, UInt32.toNat_zero, UInt32.reduceToNat, UInt8.reduceToNat]
            at hsome hbackpack ⊢
          omega
      · next hother =>
          simp only [UInt32.toNat_add, UInt32.toNat_sub, UInt32.toNat_zero, UInt32.reduceToNat,
            UInt8.reduceToNat] at hsome hother ⊢
          omega

/-- A message names a carried position by its numbers. -/
theorem namesCarried_iff {op : ItemOp} {msg : List Char} {pos : ItemPos} (h : namedPos op msg = some pos) :
    NamesCarried op msg ↔ Carried pos := by
  unfold namedPos at h
  unfold NamesCarried
  split at h
  · rw [← Option.some.inj h, carried_serverPos]
  · rw [← Option.some.inj h, carried_withdrawPos]
    rfl
  · cases h

end Numbers

section Named

variable {op : ItemOp} {msg : List Char} {pos : ItemPos}

/-- A message looks for an item at the position it names. -/
theorem namedPos_of_looksAt (h : w.looksAt se op msg = some pos) : namedPos op msg = some pos := by
  unfold looksAt at h
  unfold namedPos
  split at h
  · simp only at h
    split_ifs at h
    exact h
  · simp only at h
    repeat' split at h
    all_goals first
      | exact h
      | cases h
  · cases h

/-- The call takes units from a position only, and asks for room in no slot but this one. -/
structure WorksAt (w : World T) (place : ItemPos) (call : ItemCall T) : Prop where
  source : ∀ pos, call.source = some pos → pos = place
  targets : ∀ r pos, w.storeRequest call = some r → r.Targets pos → pos = place

variable {place : ItemPos}

theorem worksAt_refuse (answers : List Out) : w.WorksAt place (.refuse answers) :=
  ⟨nofun, nofun⟩

theorem worksAt_depositInSlot (bankTab bankSlot : UInt32) (pItem : Item T) (count : UInt32) (isNew stack : Bool) :
    w.WorksAt place (.depositInSlot bankTab bankSlot place pItem count isNew stack) :=
  ⟨fun _ h => (Option.some.inj h).symm, nofun⟩

theorem worksAt_withdraw {playerBag playerSlot : UInt32} (hplace : ⟨playerBag.toUInt8, playerSlot.toUInt8⟩ = place)
    (bankTab bankSlot count : UInt32) (idx : ℕ) (bItem : BankItem) (target : Option (ItemPos × Item T))
    (remainer : UInt32) :
    w.WorksAt place (.withdraw bankTab bankSlot count playerBag playerSlot idx bItem target remainer) := by
  refine ⟨nofun, fun r pos hrequest htarget => ?_⟩
  rw [← hplace, htarget.2.2.2, ← Option.some.inj hrequest]

theorem worksAt_swap (bagItem : Item T) (bankItem : BankItem) : w.WorksAt place (.swap place bagItem bankItem) := by
  refine ⟨fun _ h => (Option.some.inj h).symm, fun r pos hrequest htarget => ?_⟩
  simp only [storeRequest] at hrequest
  split at hrequest
  · exact absurd (congrArg StoreRequest.slot (Option.some.inj hrequest)).symm htarget.2.1
  · cases hrequest

theorem worksAt_depositOnto (bankTab bankSlot : UInt32) (pItem : Item T) (count : UInt32) (idx : ℕ)
    (dItem : BankItem) : w.WorksAt place (depositOnto bankTab bankSlot place pItem count idx dItem) := by
  unfold depositOnto
  repeat' split
  · exact worksAt_refuse _
  · exact worksAt_depositInSlot _ _ _ _ _ _
  · exact worksAt_withdraw (by simp) _ _ _ _ _ _ _
  · exact worksAt_depositInSlot _ _ _ _ _ _
  · exact worksAt_swap _ _

theorem worksAt_withdrawOnto {playerBag playerSlot : UInt32}
    (hplace : ⟨playerBag.toUInt8, playerSlot.toUInt8⟩ = place) (bankTab bankSlot withdrawCount : UInt32) (idx : ℕ)
    (bItem : BankItem) (pItem : Item T) :
    w.WorksAt place (withdrawOnto bankTab bankSlot withdrawCount playerBag playerSlot idx bItem place pItem) := by
  unfold withdrawOnto
  repeat' split
  · exact worksAt_refuse _
  · exact worksAt_withdraw hplace _ _ _ _ _ _ _
  · exact worksAt_withdraw hplace _ _ _ _ _ _ _
  · exact worksAt_swap _ _

/-- The call works at a position, and has found an item there that it takes units from. -/
def WorksWith (se : Session) (w : World T) (op : ItemOp) (msg : List Char) (place : ItemPos) : Prop :=
  w.WorksAt place (w.itemCall se op msg) ∧ ∀ pos, (w.itemCall se op msg).source = some pos →
    w.looksAt se op msg = some pos ∧ (w.player.getItemByPos pos).isSome = true

/-- What is refused works anywhere. -/
theorem worksWith_refuse {answers : List Out} (h : w.itemCall se op msg = .refuse answers) :
    w.WorksWith se op msg place := by
  unfold WorksWith
  rw [h]
  exact ⟨worksAt_refuse _, nofun⟩

/-- A call that works where an item is found. -/
theorem worksWith_of_found {item : Item T} (hworks : w.WorksAt place (w.itemCall se op msg))
    (hlooks : w.looksAt se op msg = some place) (hitem : w.player.getItemByPos place = some item) :
    w.WorksWith se op msg place := by
  refine ⟨hworks, fun pos hsource => ?_⟩
  rw [hworks.source pos hsource, hitem]
  exact ⟨hlooks, rfl⟩

/-- A `DepositItem` works at the position it names. -/
theorem depositCall_works (hnamed : namedPos .deposit msg = some place) :
    w.WorksWith se .deposit msg place := by
  unfold namedPos at hnamed
  split at hnamed
  · next first bagText slotText tabText bankSlotText countText _ htokens =>
      have hplace := (Option.some.inj hnamed).symm
      have hcall : w.itemCall se .deposit msg = w.depositCall se msg := rfl
      unfold depositCall at hcall
      simp only [htokens, ← hplace] at hcall
      by_cases hrange : atoiByte tabText = 0 ∨ maxTabs < (atoiByte tabText).toUInt32 ∨
          bankTabSize < (atoiByte bankSlotText).toUInt32
      · rw [if_pos hrange] at hcall
        exact worksWith_refuse hcall
      rw [if_neg hrange] at hcall
      by_cases haccess : w.bank.canAccessTab se w.player.guid (atoiByte tabText) .depositItem = false
      · rw [if_pos haccess] at hcall
        exact worksWith_refuse hcall
      rw [if_neg haccess] at hcall
      have hlooks : w.looksAt se .deposit msg = some place := by
        unfold looksAt
        simp only [htokens, if_neg hrange, if_neg haccess, hplace]
      cases hitem : w.player.getItemByPos place with
      | none =>
          rw [hitem] at hcall
          exact worksWith_refuse hcall
      | some pItem =>
          rw [hitem] at hcall
          simp only at hcall
          refine worksWith_of_found ?_ hlooks hitem
          rw [hcall]
          repeat' split
          · exact worksAt_refuse _
          · exact worksAt_refuse _
          · exact ⟨fun _ h => (Option.some.inj h).symm, nofun⟩
          · exact worksAt_depositOnto _ _ _ _ _ _
          · exact worksAt_depositInSlot _ _ _ _ _ _
  · next hop _ => cases hop
  · cases hnamed

/-- So does a `WithdrawItem`, if it names one. -/
theorem withdrawCall_works (hnamed : namedPos .withdraw msg = some place) :
    w.WorksWith se .withdraw msg place := by
  unfold namedPos at hnamed
  split at hnamed
  · next hop _ => cases hop
  · next first tabText bankSlotText bagText slotText countText _ htokens =>
      have hplace := (Option.some.inj hnamed).symm
      have hcall : w.itemCall se .withdraw msg = w.withdrawCall se msg := rfl
      unfold withdrawCall at hcall
      simp only [htokens] at hcall
      by_cases hrange : atoiWord tabText = 0 ∨ maxTabs < atoiWord tabText ∨ atoiWord bankSlotText = 0 ∨
          bankTabSize < atoiWord bankSlotText
      · rw [if_pos hrange] at hcall
        exact worksWith_refuse hcall
      rw [if_neg hrange] at hcall
      by_cases haccess : w.bank.canAccessTab se w.player.guid (atoiWord tabText).toUInt8 .withdrawItem = false
      · rw [if_pos haccess] at hcall
        exact worksWith_refuse hcall
      rw [if_neg haccess] at hcall
      cases hfound : w.bank.findItem (atoiWord tabText) (atoiWord bankSlotText) with
      | none =>
          rw [hfound] at hcall
          exact worksWith_refuse hcall
      | some found =>
          obtain ⟨idx, bItem⟩ := found
          rw [hfound] at hcall
          simp only at hcall
          by_cases hcount : bItem.count < atoiWord countText
          · rw [if_pos hcount] at hcall
            exact worksWith_refuse hcall
          rw [if_neg hcount] at hcall
          by_cases hauto : atoiWord bagText = 0 ∧ atoiWord slotText = 0
          · -- the game chooses the place
            rw [if_pos hauto] at hcall
            by_cases hall : bItem.count = atoiWord countText
            · rw [if_pos hall] at hcall
              refine ⟨⟨fun pos h => ?_, fun r pos hrequest htarget => ?_⟩, fun pos h => ?_⟩
              · rw [hcall] at h
                cases h
              · rw [hcall] at hrequest
                exact absurd (congrArg StoreRequest.bag (Option.some.inj hrequest)).symm htarget.1
              · rw [hcall] at h
                cases h
            · rw [if_neg hall] at hcall
              exact worksWith_refuse hcall
          rw [if_neg hauto] at hcall
          -- the message has passed all tests, so the position it names is looked at
          have hlooks : w.looksAt se .withdraw msg = some place := by
            unfold looksAt
            simp only [htokens, if_neg hrange, if_neg haccess, hfound, if_neg hcount, if_neg hauto, hplace]
          unfold withdrawPos at hplace
          simp only at hplace
          rw [← hplace] at hcall
          cases hitem : w.player.getItemByPos place with
          | none =>
              rw [hitem] at hcall
              refine ⟨?_, fun pos h => ?_⟩
              · rw [hcall]
                exact worksAt_withdraw hplace.symm _ _ _ _ _ _ _
              · rw [hcall] at h
                cases h
          | some pItem =>
              rw [hitem] at hcall
              refine worksWith_of_found ?_ hlooks hitem
              rw [hcall]
              exact worksAt_withdrawOnto hplace.symm _ _ _ _ _ _
  · cases hnamed

/-- A call that asks for room is that of a message which names a position. -/
theorem exists_namedPos {r : StoreRequest T} (hrequest : w.storeRequest (w.itemCall se op msg) = some r) :
    ∃ place, namedPos op msg = some place ∧ w.WorksWith se op msg place := by
  cases op with
  | deposit =>
      cases hname : namedPos .deposit msg with
      | some place => exact ⟨place, rfl, depositCall_works hname⟩
      | none =>
          -- with another number of fields the call is a refusal
          unfold itemCall depositCall at hrequest
          simp only at hrequest
          split at hrequest
          · next htokens =>
              unfold namedPos at hname
              simp only [htokens] at hname
              cases hname
          · cases hrequest
  | withdraw =>
      cases hname : namedPos .withdraw msg with
      | some place => exact ⟨place, rfl, withdrawCall_works hname⟩
      | none =>
          unfold itemCall withdrawCall at hrequest
          simp only at hrequest
          split at hrequest
          · next htokens =>
              unfold namedPos at hname
              simp only [htokens] at hname
              cases hname
          · cases hrequest
  | move =>
      unfold itemCall moveCall at hrequest
      simp only at hrequest
      repeat' split at hrequest
      all_goals cases hrequest
  | split =>
      unfold itemCall splitCall at hrequest
      simp only at hrequest
      repeat' split at hrequest
      all_goals cases hrequest

/-- A message that uses a position names it. -/
theorem namedPos_of_uses (h : w.Uses se op msg pos) : namedPos op msg = some pos := by
  rcases h with ⟨hlooks, -⟩ | ⟨r, hrequest, htarget⟩
  · exact namedPos_of_looksAt hlooks
  · obtain ⟨place, hname, hworks⟩ := exists_namedPos hrequest
    rw [hname, hworks.1.targets r pos hrequest htarget]

end Named

section Planned

variable {r : StoreRequest T} {pos : ItemPos}

/-- A request that names a slot has the slot among its positions. -/
theorem StoreRequest.Targets.mem (h : r.Targets pos) : pos ∈ r.positions := by
  obtain ⟨hbag, hslot, hok, rfl⟩ := h
  obtain ⟨chosen, hchosen, hpos⟩ := Player.canStoreNewItem_asked hbag hslot hok
  rw [StoreRequest.positions, if_pos hok]
  exact List.mem_map.mpr ⟨chosen, hchosen, hpos⟩

/-- A carried position is not on the keyring. -/
theorem Carried.not_keyring (h : Carried pos) :
    pos ∉ slotRange inventorySlotBag0 keyringSlotStart keyringSlotEnd := by
  intro hmem
  obtain ⟨hbag, hstart, hend⟩ := mem_slotRange.mp hmem
  have hfirst : keyringSlotStart.toNat = 81 := rfl
  have hlast : keyringSlotEnd.toNat = 113 := rfl
  have hmain : inventorySlotBag0.toNat = 255 := rfl
  rw [carried_iff, hbag] at h
  omega

/-- A position of a bag that is carried. -/
theorem carried_of_bagPositions {p : Player T} {bag : UInt8} (hpos : pos ∈ p.bagPositions bag)
    (hbag : 19 ≤ bag.toNat ∧ bag.toNat < 23) : Carried pos := by
  rw [carried_iff, Player.bag_of_bagPositions hpos]
  exact Or.inr hbag

/-- What is planned lies where the request may lead: it is carried, if the slot that is named is, and nothing is
for the keyring or for another bag. -/
theorem carried_of_planned (htarget : ∀ place, r.Targets place → Carried place) (haside : r.Aside)
    (hpos : pos ∈ r.positions) : Carried pos := by
  have hok : r.answer.result = .ok := by
    by_contra hrefused
    rw [StoreRequest.positions, if_neg hrefused] at hpos
    cases hpos
  obtain ⟨hkeyring, hother⟩ := haside pos hpos
  obtain ⟨proto, hfind, -⟩ := Player.canStoreItemAt_fits hok
  rw [StoreRequest.positions, if_pos hok] at hpos
  obtain ⟨chosen, hchosen, rfl⟩ := List.mem_map.mp hpos
  cases Player.canStoreItemAt_reaches hfind hchosen with
  | asked hbag hslot hasked => exact htarget _ ⟨hbag, hslot, hok, hasked⟩
  | bag hbag hmain hplace =>
      by_cases hslot : r.slot = nullSlot
      · exact hother hslot (Player.bag_of_bagPositions hplace)
      · have hnamed := htarget _ ⟨hbag, hslot, hok, rfl⟩
        rw [carried_iff] at hnamed
        have hmain' : r.bag.toNat ≠ 255 := fun h => hmain (UInt8.toNat_inj.mp h)
        exact carried_of_bagPositions hplace (hnamed.resolve_left fun h => hmain' h.1)
  | keyring hplace => exact absurd hplace hkeyring
  | backpack hplace =>
      obtain ⟨hbag, hstart, hend⟩ := mem_slotRange.mp hplace
      have hfirst : inventorySlotItemStart.toNat = 23 := rfl
      have hlast : inventorySlotItemEnd.toNat = 39 := rfl
      rw [carried_iff]
      refine Or.inl ⟨by rw [hbag]; rfl, ?_⟩
      omega
  | carried bag hbag hplace =>
      refine carried_of_bagPositions hplace ?_
      simp only [inventoryBags, List.mem_cons, List.not_mem_nil, or_false] at hbag
      rcases hbag with rfl | rfl | rfl | rfl <;> decide

end Planned

/-- The positions of a message are carried if and only if it either comes to use none or its numbers name a slot
of the backpack or of one of the four bags, and nothing is planned for the keyring, nor, where no slot is named,
for a bag that is not carried. -/
theorem positionSafe_iff (se : Session) (w : World T) (op : ItemOp) (msg : List Char) :
    w.PositionSafe se op msg ↔ ((∃ pos, w.Uses se op msg pos) → NamesCarried op msg) ∧
      ∀ r, w.storeRequest (w.itemCall se op msg) = some r → r.Aside := by
  constructor
  · rintro ⟨hread, hplanned⟩
    refine ⟨fun ⟨pos, huses⟩ => ?_, fun r hrequest pos hpos => ?_⟩
    · rw [namesCarried_iff (namedPos_of_uses huses)]
      rcases huses with ⟨hlooks, hsome⟩ | ⟨r, hrequest, htarget⟩
      · obtain ⟨item, hitem⟩ := Option.isSome_iff_exists.mp hsome
        exact hread pos item hlooks hitem
      · exact hplanned r hrequest pos htarget.mem
    · have hcarried := hplanned r hrequest pos hpos
      exact ⟨hcarried.not_keyring, fun _ _ => hcarried⟩
  · rintro ⟨hnamed, haside⟩
    have huses : ∀ pos, w.Uses se op msg pos → Carried pos := fun pos huses =>
      (namesCarried_iff (namedPos_of_uses huses)).mp (hnamed ⟨pos, huses⟩)
    refine ⟨fun pos item hlooks hitem => huses pos (Or.inl ⟨hlooks, by rw [hitem]; rfl⟩),
      fun r hrequest pos hpos => ?_⟩
    exact carried_of_planned (fun place htarget => huses place (Or.inr ⟨r, hrequest, htarget⟩))
      (haside r hrequest) hpos

/-- A character with an empty herb pouch in the last bag slot, in front of a bank with one empty tab. -/
def bagWorld : World herbTable where
  bank :=
    { guildid := 1, infernoBank := false, tabs := 1, money := 0, items := []
      tabInfo := fun _ => ⟨"", "", 0, 4⟩, log := fun _ => [], moneyLog := [], itemUpdateQueue := []
      saveLock := false, tabsChanged := false, moneyChanged := false, moneyLogChanged := false
      logChanged := false }
  db := ⟨[], [], [], []⟩
  player := ⟨7, fun pos => if pos = ⟨255, 22⟩ then some emptyPouch else none, 0, 1000⟩
  out := []

/-- Slot 0 of the backpack is the slot of the last bag. -/
theorem deposit_bag : ¬ bagWorld.PositionSafe .guildMaster .deposit "DepositItem:0:0:1:1:1".toList := by
  intro h
  have hlooks : bagWorld.looksAt .guildMaster .deposit "DepositItem:0:0:1:1:1".toList = some ⟨255, 22⟩ := rfl
  exact absurd (h.1 ⟨255, 22⟩ _ hlooks rfl) (by decide)

/-- Nor is every `WithdrawItem` for a carried slot: a client slot of -7 is the main hand. -/
example : withdrawPos 0 (atoiWord "-7".toList) = ⟨255, 15⟩ := by decide

end World

end TwowCore
