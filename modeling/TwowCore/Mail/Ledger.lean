import TwowCore.Mail.Housed

/-!
# The ledger of the mails

`MailWorld.money` adds up the purses and the money in mails, `MailWorld.units` the units of an entry
in inventories and in mails. A handler changes one player and some mails; `Turn` is what such a change
has to satisfy, and every handler is a `Turn`. `run_mail` says that along a run whose events are
`Lossless` the money goes down by the postage only, no unit is lost and no item is in two places.

Money is lost where a purse is full when money is taken out of a mail, and where the sender of a mail
is 0: it cannot be returned, and its `COD` is paid to nobody.
-/

namespace TwowCore

namespace Mail

variable {T : ItemTable}

/-- The money in some mails. -/
def total (mails : List (Mail T)) : ℕ := (mails.map fun m => m.money.toNat).sum

/-- The items in some mails. -/
def contents (mails : List (Mail T)) : List (Item T) := mails.flatMap Mail.items

/-- The units of an entry in some mails. -/
def unitsIn (mails : List (Mail T)) (entry : UInt32) : ℕ :=
  ((contents mails).map fun item => Player.unitsOf entry (some item)).sum

theorem total_append (left right : List (Mail T)) :
    total (left ++ right) = total left + total right := by
  unfold total
  rw [List.map_append, List.sum_append]

theorem unitsIn_append (left right : List (Mail T)) (entry : UInt32) :
    unitsIn (left ++ right) entry = unitsIn left entry + unitsIn right entry := by
  unfold unitsIn contents
  rw [List.flatMap_append, List.map_append, List.sum_append]

end Mail

namespace MailWorld

variable {T : ItemTable} {w w' : MailWorld T}

/-- The items attached to mails. -/
def attached (w : MailWorld T) : List (Item T) := Mail.contents w.mails

/-- The money of all players and in all mails. -/
def money (w : MailWorld T) : ℕ :=
  (w.players.map fun p => p.money.toNat).sum + Mail.total w.mails

/-- The units of an entry that all players own and that are in all mails. -/
noncomputable def units (w : MailWorld T) (entry : UInt32) : ℕ :=
  (w.players.map fun p => p.units entry).sum + Mail.unitsIn w.mails entry

/-- What holds of a realm: every item is in one place, the mails are numbered, and their senders
exist, unless they are anonymous. -/
structure Sound (w : MailWorld T) : Prop where
  housed : Housed w.players w.attached w.nextItemGuid
  ids : (w.mails.map Mail.id).Nodup
  below : ∀ m ∈ w.mails, m.id < w.nextMailId
  senders : ∀ m ∈ w.mails, m.sender = 0 ∨ w.Exists m.sender

/-- Only the postage is gone. -/
structure Balanced (w w' : MailWorld T) : Prop where
  money : w'.money + 30 * w'.sent = w.money + 30 * w.sent
  units : ∀ entry, w'.units entry = w.units entry

theorem Balanced.refl (w : MailWorld T) : Balanced w w := ⟨rfl, fun _ => rfl⟩

theorem Balanced.trans {w'' : MailWorld T} (h : Balanced w w') (h' : Balanced w' w'') :
    Balanced w w'' :=
  ⟨h'.money.trans h.money, fun entry => (h'.units entry).trans (h.units entry)⟩

/-- The event loses nothing: the purse has room for the money taken out of a mail, and what has to go
to the sender of a mail has a sender. -/
def Lossless (w : MailWorld T) : MailEvent → Prop
  | .send _ _ _ _ => True
  | .takeMoney player mailId now =>
      ∀ pl m, w.findPlayer player = some pl → w.getMail player mailId = some m →
        m.deliverTime ≤ now → pl.money.toNat + m.money.toNat ≤ maxMoneyAmount.toNat
  | .takeItem player mailId now gmAllowsTrades =>
      ∀ pl m taken, w.findPlayer player = some pl → w.getMail player mailId = some m →
        takenItem pl m now gmAllowsTrades = some taken → m.cod ≠ 0 → m.sender ≠ 0
  | .returnToSender player mailId now =>
      ∀ m, w.getMail player mailId = some m → m.deliverTime ≤ now →
        m.money ≠ 0 ∨ m.items ≠ [] → m.sender ≠ 0

/-- A player is found by his guid. -/
theorem findPlayer_some {guid : UInt32} {pl : Player T} (h : w.findPlayer guid = some pl) :
    pl ∈ w.players ∧ pl.guid = guid :=
  ⟨List.mem_of_find?_eq_some h, by simpa using List.find?_some h⟩

/-- Who exists is one of the players. -/
theorem exists_iff {guid : UInt32} : w.Exists guid ↔ guid ∈ w.players.map Player.guid := by
  unfold Exists findPlayer
  rw [List.find?_isSome]
  constructor
  · rintro ⟨p, hp, hguid⟩
    exact List.mem_map.mpr ⟨p, hp, by simpa using hguid⟩
  · intro hmem
    obtain ⟨p, hp, hguid⟩ := List.mem_map.mp hmem
    exact ⟨p, hp, by simpa using hguid⟩

/-- A mail is found in the mailbox of its receiver. -/
theorem getMail_some {player : UInt32} {mailId : ℕ} {m : Mail T}
    (h : w.getMail player mailId = some m) : m ∈ w.mails ∧ m.id = mailId ∧ m.receiver = player :=
  ⟨List.mem_of_find?_eq_some h, by simpa using List.find?_some h⟩

/-- The player and the others. -/
theorem players_perm (h : Sound w) {pl : Player T} (hpl : pl ∈ w.players) :
    w.players.Perm (pl :: Lib.eraseKey Player.guid pl.guid w.players) :=
  Lib.perm_eraseKey h.housed.distinct hpl rfl

/-- The player written and the others. -/
theorem writePlayer_perm (h : Sound w) {pl pl' : Player T} (hpl : pl ∈ w.players)
    (hguid : pl'.guid = pl.guid) :
    (w.writePlayer pl').players.Perm (pl' :: Lib.eraseKey Player.guid pl.guid w.players) := by
  unfold writePlayer
  rw [hguid]
  exact Lib.perm_writeKey h.housed.distinct hpl rfl

/-- The mail and the others. -/
theorem mails_perm (h : Sound w) {m : Mail T} (hm : m ∈ w.mails) :
    w.mails.Perm ([m] ++ Lib.eraseKey Mail.id m.id w.mails) :=
  Lib.perm_eraseKey h.ids hm rfl

/-- The mail written and the others. -/
theorem writeMail_perm (h : Sound w) {m m' : Mail T} (hm : m ∈ w.mails) (hid : m'.id = m.id) :
    (w.writeMail m').mails.Perm ([m'] ++ Lib.eraseKey Mail.id m.id w.mails) := by
  unfold writeMail
  rw [hid]
  exact Lib.perm_writeKey h.ids hm rfl

/-- One player and some mails are changed. -/
structure Turn (w w' : MailWorld T) (pl pl' : Player T) (others : List (Player T))
    (old new rest : List (Mail T)) : Prop where
  before : w.players.Perm (pl :: others)
  after : w'.players.Perm (pl' :: others)
  guid : pl'.guid = pl.guid
  mailsBefore : w.mails.Perm (old ++ rest)
  mailsAfter : w'.mails.Perm (new ++ rest)
  housed : Housed (pl' :: others) (Mail.contents new ++ Mail.contents rest) w'.nextItemGuid
  ids : ((new ++ rest).map Mail.id).Nodup
  below : ∀ m ∈ new, m.id < w'.nextMailId
  next : w.nextMailId ≤ w'.nextMailId
  senders : ∀ m ∈ new, m.sender = 0 ∨ w.Exists m.sender
  money : pl'.money.toNat + Mail.total new + 30 * w'.sent =
    pl.money.toNat + Mail.total old + 30 * w.sent
  units : ∀ entry, pl'.units entry + Mail.unitsIn new entry =
    pl.units entry + Mail.unitsIn old entry

namespace Turn

variable {pl pl' : Player T} {others : List (Player T)} {old new rest : List (Mail T)}

/-- After a turn the realm is in order. -/
theorem sound (turn : Turn w w' pl pl' others old new rest) (h : Sound w) : Sound w' where
  housed := by
    refine turn.housed.perm turn.after.symm ?_
    unfold attached Mail.contents
    rw [← List.flatMap_append]
    exact (turn.mailsAfter.flatMap_right _).symm
  ids := (turn.mailsAfter.map _).nodup_iff.mpr turn.ids
  below m hm := by
    rcases List.mem_append.mp (turn.mailsAfter.mem_iff.mp hm) with hnew | hrest
    · exact turn.below m hnew
    · have hold := h.below m (turn.mailsBefore.mem_iff.mpr (List.mem_append_right _ hrest))
      exact Nat.lt_of_lt_of_le hold turn.next
  senders m hm := by
    -- nobody comes or goes
    have hexists : ∀ guid, w.Exists guid → w'.Exists guid := by
      intro guid hguid
      rw [exists_iff] at hguid ⊢
      rw [(turn.after.map Player.guid).mem_iff, List.map_cons, turn.guid, ← List.map_cons,
        ← (turn.before.map Player.guid).mem_iff]
      exact hguid
    have hsender : m.sender = 0 ∨ w.Exists m.sender := by
      rcases List.mem_append.mp (turn.mailsAfter.mem_iff.mp hm) with hnew | hrest
      · exact turn.senders m hnew
      · exact h.senders m (turn.mailsBefore.mem_iff.mpr (List.mem_append_right _ hrest))
    exact hsender.imp_right (hexists _)

/-- After a turn only the postage is gone. -/
theorem balanced (turn : Turn w w' pl pl' others old new rest) : Balanced w w' where
  money := by
    have hmails : Mail.total w.mails = Mail.total old + Mail.total rest := by
      rw [← Mail.total_append]
      exact (turn.mailsBefore.map _).sum_eq
    have hmails' : Mail.total w'.mails = Mail.total new + Mail.total rest := by
      rw [← Mail.total_append]
      exact (turn.mailsAfter.map _).sum_eq
    have hturn := turn.money
    unfold MailWorld.money
    rw [hmails, hmails', (turn.before.map _).sum_eq, (turn.after.map _).sum_eq, List.map_cons,
      List.map_cons, List.sum_cons, List.sum_cons]
    omega
  units entry := by
    have hmails : Mail.unitsIn w.mails entry = Mail.unitsIn old entry + Mail.unitsIn rest entry := by
      rw [← Mail.unitsIn_append]
      exact ((turn.mailsBefore.flatMap_right _).map _).sum_eq
    have hmails' : Mail.unitsIn w'.mails entry =
        Mail.unitsIn new entry + Mail.unitsIn rest entry := by
      rw [← Mail.unitsIn_append]
      exact ((turn.mailsAfter.flatMap_right _).map _).sum_eq
    have hturn := turn.units entry
    unfold MailWorld.units
    rw [hmails, hmails', (turn.before.map _).sum_eq, (turn.after.map _).sum_eq, List.map_cons,
      List.map_cons, List.sum_cons, List.sum_cons]
    omega

end Turn

/-- An item that may be mailed is shown where it lies, and nothing lies in it. -/
theorem mailedItem_some {pl : Player T} {req : SendRequest} {pos : ItemPos} {item : Item T}
    (h : pl.mailedItem req = some (pos, item)) :
    pl.getItemByPos pos = some item ∧ (pos.bag = inventorySlotBag0 → pl.EmptyBag pos.slot) := by
  unfold Player.mailedItem at h
  split at h
  · cases h
  · next found _ =>
    split at h
    · cases h
    · next there hthere =>
      split_ifs at h with hworld hbank hflags hboa hrefuse hconjured
      cases h
      refine ⟨hthere, fun hbag => ?_⟩
      -- `CanBeTraded` has asked for the bag to be empty
      have htraded : pl.canBeTraded pos item req = true := by
        simpa using (not_or.mp hrefuse).1
      by_contra hfull
      unfold Player.canBeTraded at htraded
      split_ifs at htraded with _ _ hempty
      exact hempty ⟨hbag, hfull⟩

/-- A purse after a payment. -/
theorem paid_money {pl : Player T} {cost : UInt32} (hcost : cost ≤ pl.money)
    (hpurse : pl.money ≤ maxMoneyAmount) :
    (pl.modifyMoney (-cost.toInt32)).money ≤ maxMoneyAmount ∧
      (pl.modifyMoney (-cost.toInt32)).money.toNat + cost.toNat = pl.money.toNat := by
  rw [Player.modifyMoney_money, Player.modifiedMoney_pay hcost hpurse]
  have hsub := UInt32.toNat_sub_of_le _ _ hcost
  rw [UInt32.le_iff_toNat_le] at hcost hpurse ⊢
  omega

/-- Paying for a mail and giving the item away. -/
theorem handOver_spec {pl : Player T} {others : List (Player T)} {attached : List (Item T)}
    {next cost : UInt32} (h : Housed (pl :: others) attached next) (hcost : cost ≤ pl.money)
    {item : Option (ItemPos × Item T)}
    (hitem : ∀ pos it, item = some (pos, it) → pl.getItemByPos pos = some it ∧
      (pos.bag = inventorySlotBag0 → pl.EmptyBag pos.slot)) :
    (handOver pl cost item).guid = pl.guid ∧
      Housed (handOver pl cost item :: others) ((item.map Prod.snd).toList ++ attached) next ∧
      (handOver pl cost item).money.toNat + cost.toNat = pl.money.toNat ∧
      ∀ entry, (handOver pl cost item).units entry +
        ((item.map Prod.snd).toList.map fun it => Player.unitsOf entry (some it)).sum =
          pl.units entry := by
  obtain ⟨hle, hmoney⟩ := paid_money hcost (h.purses pl List.mem_cons_self)
  have hpaid : Housed (pl.modifyMoney (-cost.toInt32) :: others) attached next := h.setMoney hle
  have hunits : ∀ entry, (pl.modifyMoney (-cost.toInt32)).units entry = pl.units entry :=
    fun entry => Player.units_congr (Player.modifyMoney_items _ _) entry
  cases item with
  | none => exact ⟨rfl, hpaid, hmoney, fun entry => hunits entry⟩
  | some found =>
      obtain ⟨pos, it⟩ := found
      obtain ⟨hshown, hempty⟩ := hitem pos it rfl
      have hshown' : (pl.modifyMoney (-cost.toInt32)).getItemByPos pos = some it := hshown
      have hmove : (pl.modifyMoney (-cost.toInt32)).moveItemFromInventory pos =
          (pl.modifyMoney (-cost.toInt32)).takeOut pos := by
        unfold Player.moveItemFromInventory Player.destroyItem
        rw [hshown']
      refine ⟨?_, hpaid.moveItemFromInventory hshown' hempty, ?_, fun entry => ?_⟩
      · show ((pl.modifyMoney (-cost.toInt32)).moveItemFromInventory pos).guid = _
        rw [hmove]
        rfl
      · show ((pl.modifyMoney (-cost.toInt32)).moveItemFromInventory pos).money.toNat + _ = _
        rw [hmove]
        exact hmoney
      · have hexact : (pl.modifyMoney (-cost.toInt32)).DestroysExactly pos :=
          Player.destroysExactly_of_empty hempty
        have hdestroy := hexact entry
        rw [Player.items_of_getItemByPos hshown'] at hdestroy
        show ((pl.modifyMoney (-cost.toInt32)).moveItemFromInventory pos).units entry +
          ([Player.unitsOf entry (some it)]).sum = _
        rw [hmove, List.sum_singleton, hdestroy, hunits]

/-- `HandleSendMailCallback` is a turn, or does nothing. -/
theorem turn_send (h : Sound w) (sender : UInt32) (req : SendRequest) (now mailDeliveryDelay : ℕ) :
    w.handleSendMailCallback sender req now mailDeliveryDelay = w ∨
      ∃ pl pl' others new, Turn w (w.handleSendMailCallback sender req now mailDeliveryDelay)
        pl pl' others [] new w.mails := by
  unfold handleSendMailCallback
  split
  · exact Or.inl rfl
  · next pl hpl =>
    obtain ⟨hmem, -⟩ := findPlayer_some hpl
    obtain ⟨item, hitem⟩ : ∃ item, item = if req.itemGuid = 0 then none else pl.mailedItem req :=
      ⟨_, rfl⟩
    dsimp only
    rw [← hitem]
    by_cases hoverflow : req.money + 30 < req.money
    · rw [if_pos hoverflow]
      exact Or.inl rfl
    by_cases hpoor : pl.money < req.money + 30
    · rw [if_neg hoverflow, if_pos hpoor]
      exact Or.inl rfl
    rw [if_neg hoverflow, if_neg hpoor]
    -- the other checks leave the world as it is, or let the mail through
    split
    · exact Or.inl rfl
    split
    · exact Or.inl rfl
    split
    · exact Or.inl rfl
    split
    · exact Or.inl rfl
    split
    · exact Or.inl rfl
    split
    · exact Or.inl rfl
    have hcost : req.money + 30 ≤ pl.money := UInt32.not_lt.mp hpoor
    have hreqmoney : (req.money + 30).toNat = req.money.toNat + 30 := by
      have hsum : (req.money + 30).toNat = (req.money.toNat + 30) % 2 ^ 32 :=
        UInt32.toNat_add _ _
      have hlt := req.money.toNat_lt
      rw [UInt32.not_lt, UInt32.le_iff_toNat_le] at hoverflow
      omega
    have hmailed : ∀ pos it, item = some (pos, it) → pl.getItemByPos pos = some it ∧
        (pos.bag = inventorySlotBag0 → pl.EmptyBag pos.slot) := by
      intro pos it hsome
      rw [hsome] at hitem
      split_ifs at hitem
      exact mailedItem_some hitem.symm
    have hhoused := h.housed.perm (players_perm h hmem) (List.Perm.refl _)
    obtain ⟨hguid, hover, hmoney, hunits⟩ := handOver_spec hhoused hcost hmailed
    refine Or.inr ⟨pl, handOver pl (req.money + 30) item, _, [_],
      { before := players_perm h hmem
        after := writePlayer_perm h hmem hguid
        guid := hguid
        mailsBefore := List.Perm.refl _
        mailsAfter := List.perm_append_comm
        housed := ?_
        ids := ?_
        below := ?_
        next := Nat.le_succ _
        senders := ?_
        money := ?_
        units := fun entry => ?_ }⟩
    · show Housed _ (List.flatMap Mail.items [_] ++ _) _
      rw [List.flatMap_singleton]
      exact hover
    · refine List.nodup_cons.mpr ⟨fun hin => ?_, h.ids⟩
      obtain ⟨m, hm, hid⟩ := List.mem_map.mp hin
      exact absurd hid (Nat.ne_of_lt (h.below m hm))
    · intro m hm
      rw [List.mem_singleton.mp hm]
      exact Nat.lt_succ_self _
    · intro m hm
      rw [List.mem_singleton.mp hm]
      show (if req.anonymous then 0 else pl.guid) = 0 ∨
        w.Exists (if req.anonymous then 0 else pl.guid)
      split
      · exact Or.inl rfl
      · exact Or.inr (exists_iff.mpr (List.mem_map_of_mem hmem))
    · show _ + ([req.money.toNat]).sum + 30 * (w.sent + 1) = _ + ([] : List ℕ).sum + 30 * w.sent
      rw [List.sum_singleton, List.sum_nil]
      omega
    · show _ + ((List.flatMap Mail.items [_]).map _).sum = _ + 0
      rw [List.flatMap_singleton]
      exact hunits entry

/-- `HandleMailTakeMoney` is a turn if it loses nothing, or does nothing. -/
theorem turn_takeMoney (h : Sound w) {player : UInt32} {mailId now : ℕ}
    (hlossless : Lossless w (.takeMoney player mailId now)) :
    w.handleMailTakeMoney player mailId now = w ∨
      ∃ pl pl' others old new rest,
        Turn w (w.handleMailTakeMoney player mailId now) pl pl' others old new rest := by
  unfold handleMailTakeMoney
  split
  · next pl m hpl hm =>
    obtain ⟨hmem, -⟩ := findPlayer_some hpl
    obtain ⟨hmail, -, -⟩ := getMail_some hm
    by_cases hnow : now < m.deliverTime
    · rw [if_pos hnow]
      exact Or.inl rfl
    · rw [if_neg hnow]
      have hroom := hlossless pl m hpl hm (Nat.not_lt.mp hnow)
      have hpurse := h.housed.purses pl hmem
      have hreceive := (Player.modifiedMoney_receive hpurse).mpr (Or.inl hroom)
      have hhoused := h.housed.perm (players_perm h hmem) ((mails_perm h hmail).flatMap_right _)
      have hids := ((mails_perm h hmail).map Mail.id).nodup_iff.mp h.ids
      refine Or.inr ⟨pl, pl.modifyMoney m.money.toInt32, _, [m], [{ m with money := 0 }], _,
        { before := players_perm h hmem
          after := writePlayer_perm h hmem rfl
          guid := rfl
          mailsBefore := mails_perm h hmail
          mailsAfter := writeMail_perm h hmail rfl
          housed := ?_
          ids := hids
          below := ?_
          next := Nat.le_refl _
          senders := ?_
          money := ?_
          units := fun entry => ?_ }⟩
      · have hle : Player.modifiedMoney pl.money m.money.toInt32 ≤ maxMoneyAmount := by
          rw [UInt32.le_iff_toNat_le, hreceive]
          exact hroom
        have hset := hhoused.setMoney hle
        rw [List.flatMap_append] at hset
        exact hset
      · intro m' hm'
        rw [List.mem_singleton.mp hm']
        exact h.below m hmail
      · intro m' hm'
        rw [List.mem_singleton.mp hm']
        exact h.senders m hmail
      · show (Player.modifiedMoney pl.money m.money.toInt32).toNat + ([0] : List ℕ).sum + _ =
          _ + ([m.money.toNat]).sum + _
        rw [hreceive, List.sum_singleton, List.sum_singleton]
        rfl
      · have hsame : (pl.modifyMoney m.money.toInt32).units entry = pl.units entry :=
          Player.units_congr (Player.modifyMoney_items _ _) entry
        rw [hsame]
        rfl
  · exact Or.inl rfl

/-- The payment of a `COD` is one more mail, if there is one to be paid. -/
theorem payCod_spec (pl : Player T) {m : Mail T} (now : ℕ) (h : m.cod ≠ 0 → w.Exists m.sender) :
    ∃ paid, w.payCod pl m now = { w with
        mails := w.mails ++ paid
        nextMailId := w.nextMailId + paid.length } ∧
      Mail.contents paid = [] ∧ Mail.total paid = m.cod.toNat ∧
      (paid = [] ∨ ∃ x, paid = [x] ∧ x.id = w.nextMailId ∧ x.sender = pl.guid) := by
  unfold payCod
  by_cases hcod : m.cod = 0
  · rw [if_pos hcod]
    refine ⟨[], ?_, rfl, by rw [hcod]; rfl, Or.inl rfl⟩
    rw [List.append_nil]
    rfl
  · rw [if_neg hcod, if_pos (h hcod)]
    refine ⟨[⟨w.nextMailId, pl.guid, m.sender, m.cod, 0, [], now⟩], rfl, rfl, ?_,
      Or.inr ⟨_, rfl, rfl, rfl⟩⟩
    show ([m.cod.toNat]).sum = _
    exact List.sum_singleton

/-- What `HandleMailTakeItem` takes out of a mail, and that there is room for it. -/
theorem takenItem_some {pl : Player T} {m : Mail T} {now : ℕ} {gmAllowsTrades : Bool}
    {it : Item T} {rest : List (Item T)} {dest : List ItemPosCount}
    (h : takenItem pl m now gmAllowsTrades = some (it, rest, dest)) :
    m.items = it :: rest ∧ m.cod ≤ pl.money ∧
      (pl.canStoreItem nullBag nullSlot ⟨it, none, false⟩ false).result = .ok ∧
      dest = (pl.canStoreItem nullBag nullSlot ⟨it, none, false⟩ false).dest := by
  unfold takenItem at h
  split at h
  · cases h
  · split at h
    · cases h
    · next item items hitems =>
      split at h
      · cases h
      · next hpoor =>
        split at h
        · cases h
        · dsimp only at h
          split at h
          · next hok =>
            cases h
            exact ⟨hitems, UInt32.not_lt.mp hpoor, hok, rfl⟩
          · cases h

/-- The purse of a player who pays the `COD` of a mail, if there is one. -/
theorem cod_money {pl : Player T} {cod : UInt32} (hcod : cod ≤ pl.money)
    (hpurse : pl.money ≤ maxMoneyAmount) :
    ∃ money, (if cod = 0 then pl else pl.modifyMoney (-cod.toInt32)) = pl.setMoney money ∧
      money ≤ maxMoneyAmount ∧ money.toNat + cod.toNat = pl.money.toNat := by
  split
  · next hzero =>
    subst hzero
    exact ⟨pl.money, rfl, hpurse, rfl⟩
  · obtain ⟨hle, hmoney⟩ := paid_money hcod hpurse
    exact ⟨_, rfl, hle, hmoney⟩

/-- An item in hand goes into the inventory it was planned into: the player has its units more, and every item is
in one place again. -/
theorem moveItemToInventory_housed {pl : Player T} {money nextItemGuid : UInt32} {rest : List (Player T)} {it : Item T}
    {attached : List (Item T)} {dest : List ItemPosCount}
    (hhand : Housed (pl.setMoney money :: rest) (it :: attached) nextItemGuid)
    (hok : (pl.canStoreItem nullBag nullSlot ⟨it, none, false⟩ false).result = .ok)
    (hdest : dest = (pl.canStoreItem nullBag nullSlot ⟨it, none, false⟩ false).dest)
    (hroom : nextItemGuid.toNat + dest.length < maxItemGuid) (hbounded : pl.Bounded) {pl' : Player T}
    (hpl' : pl' = ((pl.setMoney money).setNextItemGuid nextItemGuid).moveItemToInventory dest it) :
    pl'.guid = pl.guid ∧ pl'.money = money ∧
      (∀ entry, pl'.units entry = pl.units entry + Player.unitsOf entry (some it)) ∧
      Housed (pl' :: rest) attached pl'.nextItemGuid := by
  obtain ⟨hcarries, htakenBelow, hfree, hbelow⟩ := hhand.ready
  -- the plan was made for this inventory
  obtain ⟨proto, hfind, hfits⟩ := Player.canStoreItemAt_fits hok
  have hproto : proto = it.proto := by
    have hlisted := it.find_entry
    rw [hfind] at hlisted
    exact Option.some.inj hlisted
  subst hproto
  have hdest' : dest = (pl.canStoreItemAt nullBag nullSlot it.entry it.count
      (some ⟨it, none, false⟩) false).dest := hdest
  rw [← hdest'] at hfits
  have hcount : it.count ≠ 0 := by
    have hholds := (hhand.holds it List.mem_cons_self).1
    rintro hzero
    rw [hzero] at hholds
    exact absurd hholds (by decide)
  obtain ⟨hnonempty, hplanned, hready⟩ := hfits.ready rfl hcount
  have hshown : pl.ShowsAll dest := by
    rw [hdest']
    exact Player.canStoreItemAt_shows it.entry it.count
  obtain ⟨hguid, hkeeps, hunits, hbounded, hcarried, hnext⟩ :=
    Player.moveItemToInventory_spec (p := (pl.setMoney money).setNextItemGuid nextItemGuid)
      hnonempty hfits.nodup
      (fun chosen hchosen => ⟨(hready chosen hchosen).hosted, (hready chosen hchosen).room,
        (hready chosen hchosen).positive⟩)
      hshown hcarries htakenBelow hfree hbelow hroom hbounded
  subst hpl'
  refine ⟨hguid, hkeeps, fun entry => ?_, hhand.settle hguid hkeeps hbounded hcarried hnext⟩
  have hone := hunits entry
  rw [hplanned] at hone
  exact hone

/-- `HandleMailTakeItem` is a turn if it loses nothing, or does nothing. -/
theorem turn_takeItem (h : Sound w) {player : UInt32} {mailId now : ℕ} {gmAllowsTrades : Bool}
    (hlossless : Lossless w (.takeItem player mailId now gmAllowsTrades)) :
    w.handleMailTakeItem player mailId now gmAllowsTrades = w ∨
      ∃ pl pl' others old new rest,
        Turn w (w.handleMailTakeItem player mailId now gmAllowsTrades) pl pl' others old new
          rest := by
  unfold handleMailTakeItem
  split
  · next pl m hpl hm =>
    obtain ⟨hmem, -⟩ := findPlayer_some hpl
    obtain ⟨hmail, -, -⟩ := getMail_some hm
    split
    · exact Or.inl rfl
    · next it rest dest htaken =>
      by_cases hstop : maxItemGuid ≤ w.nextItemGuid.toNat + dest.length
      · rw [if_pos hstop]
        exact Or.inl rfl
      rw [if_neg hstop]
      obtain ⟨hitems, hcod, hok, hdest⟩ := takenItem_some htaken
      have hsender : m.cod ≠ 0 → (w.writeMail { m with items := rest, cod := 0 }).Exists m.sender :=
        fun hne => (h.senders m hmail).resolve_left (hlossless pl m _ hpl hm htaken hne)
      obtain ⟨paid, hpaid, hcontents, htotal, hone⟩ := payCod_spec pl now hsender
      obtain ⟨money, hmoney, hle, hpurse⟩ := cod_money hcod (h.housed.purses pl hmem)
      rw [hpaid, hmoney]
      -- the item is in hand, between the mail and the inventory
      have hmails := mails_perm h hmail
      have hhand : Housed (pl.setMoney money :: Lib.eraseKey Player.guid pl.guid w.players)
          (it :: (rest ++ Mail.contents (Lib.eraseKey Mail.id m.id w.mails))) w.nextItemGuid := by
        have hhoused := (h.housed.perm (players_perm h hmem) (hmails.flatMap_right _)).setMoney hle
        rw [List.flatMap_append, List.flatMap_singleton, hitems] at hhoused
        exact hhoused
      obtain ⟨pl', hpl'⟩ : ∃ pl', pl' = ((pl.setMoney money).setNextItemGuid
          w.nextItemGuid).moveItemToInventory dest it := ⟨_, rfl⟩
      obtain ⟨hguid, hkept, hunits, hsettled⟩ := moveItemToInventory_housed hhand hok hdest
        (Nat.not_le.mp hstop) (h.housed.bounded pl hmem) hpl'
      have hids := (hmails.map Mail.id).nodup_iff.mp h.ids
      refine Or.inr ⟨pl, pl', _, [m], { m with items := rest, cod := 0 } :: paid, _,
        { before := players_perm h hmem
          after := ?_
          guid := hguid
          mailsBefore := hmails
          mailsAfter := ?_
          housed := ?_
          ids := ?_
          below := fun m' hm' => ?_
          next := Nat.le_add_right _ _
          senders := fun m' hm' => ?_
          money := ?_
          units := fun entry => ?_ }⟩
      · rw [hpl'] at hguid ⊢
        exact writePlayer_perm h hmem hguid
      · have hwrite : (w.writeMail { m with items := rest, cod := 0 }).mails.Perm
            ([{ m with items := rest, cod := 0 }] ++ Lib.eraseKey Mail.id m.id w.mails) :=
          writeMail_perm h hmail rfl
        refine (hwrite.append_right paid).trans ?_
        rw [List.append_assoc]
        exact (List.perm_append_comm.append_left _)
      · rw [hpl'] at hsettled ⊢
        have hnew : Mail.contents ({ m with items := rest, cod := 0 } :: paid) = rest := by
          show rest ++ Mail.contents paid = _
          rw [hcontents, List.append_nil]
        rw [hnew]
        exact hsettled
      · rcases hone with rfl | ⟨x, rfl, hx, -⟩
        · exact hids
        · refine ((List.Perm.swap _ _ _).map Mail.id).nodup_iff.mp (List.nodup_cons.mpr ⟨?_, hids⟩)
          rw [hx]
          intro hin
          have hin' := (hmails.map Mail.id).mem_iff.mpr hin
          obtain ⟨m', hm', hid⟩ := List.mem_map.mp hin'
          exact absurd hid (Nat.ne_of_lt (h.below m' hm'))
      · rcases List.mem_cons.mp hm' with rfl | hm'
        · exact Nat.lt_of_lt_of_le (h.below m hmail) (Nat.le_add_right _ _)
        · rcases hone with rfl | ⟨x, rfl, hx, -⟩
          · cases hm'
          · rw [List.mem_singleton.mp hm', hx]
            exact Nat.lt_succ_self _
      · rcases List.mem_cons.mp hm' with rfl | hm'
        · exact h.senders m hmail
        · rcases hone with rfl | ⟨x, rfl, -, hx⟩
          · cases hm'
          · rw [List.mem_singleton.mp hm', hx]
            exact Or.inr (exists_iff.mpr (List.mem_map_of_mem hmem))
      · have hnew : Mail.total ({ m with items := rest, cod := 0 } :: paid) =
            m.money.toNat + m.cod.toNat := by
          rw [← htotal]
          rfl
        have hold : Mail.total [m] = m.money.toNat := List.sum_singleton
        rw [hnew, hold, hkept]
        show _ + 30 * w.sent = _
        omega
      · have hnew : Mail.unitsIn ({ m with items := rest, cod := 0 } :: paid) entry =
            (rest.map fun item => Player.unitsOf entry (some item)).sum := by
          unfold Mail.unitsIn
          show ((rest ++ Mail.contents paid).map _).sum = _
          rw [hcontents, List.append_nil]
        have hold : Mail.unitsIn [m] entry = Player.unitsOf entry (some it) +
            (rest.map fun item => Player.unitsOf entry (some item)).sum := by
          unfold Mail.unitsIn Mail.contents
          rw [List.flatMap_singleton, hitems, List.map_cons, List.sum_cons]
        rw [hnew, hold, hunits entry]
        omega
  · exact Or.inl rfl

/-- `HandleMailReturnToSender` is a turn if it loses nothing, or does nothing. -/
theorem turn_returnToSender (h : Sound w) {player : UInt32} {mailId now : ℕ}
    (hlossless : Lossless w (.returnToSender player mailId now)) :
    w.handleMailReturnToSender player mailId now = w ∨
      ∃ pl pl' others old new rest,
        Turn w (w.handleMailReturnToSender player mailId now) pl pl' others old new rest := by
  unfold handleMailReturnToSender
  split
  · next pl m hpl hm =>
    obtain ⟨hmem, hplayer⟩ := findPlayer_some hpl
    obtain ⟨hmail, hid, hreceiver⟩ := getMail_some hm
    by_cases hnow : now < m.deliverTime
    · rw [if_pos hnow]
      exact Or.inl rfl
    rw [if_neg hnow, ← hid]
    dsimp only
    have hmails := mails_perm h hmail
    have hids := (hmails.map Mail.id).nodup_iff.mp h.ids
    have hhoused := h.housed.perm (players_perm h hmem) (hmails.flatMap_right _)
    rw [List.flatMap_append] at hhoused
    refine Or.inr ?_
    split
    · next hback =>
      refine ⟨pl, pl, _, [m], [⟨w.nextMailId, m.receiver, m.sender, m.money, 0, m.items, now⟩], _,
        { before := players_perm h hmem
          after := players_perm h hmem
          guid := rfl
          mailsBefore := hmails
          mailsAfter := List.perm_append_comm
          housed := hhoused
          ids := ?_
          below := fun m' hm' => ?_
          next := Nat.le_succ _
          senders := fun m' hm' => ?_
          money := rfl
          units := fun entry => rfl }⟩
      · refine List.nodup_cons.mpr ⟨fun hin => ?_, (List.nodup_cons.mp hids).2⟩
        obtain ⟨m', hm', hsame⟩ := List.mem_map.mp hin
        exact absurd hsame (Nat.ne_of_lt (h.below m' (Lib.mem_eraseKey.mp hm').1))
      · rw [List.mem_singleton.mp hm']
        exact Nat.lt_succ_self _
      · rw [List.mem_singleton.mp hm']
        refine Or.inr (exists_iff.mpr ?_)
        rw [hreceiver, ← hplayer]
        exact List.mem_map_of_mem hmem
    · next hdrop =>
      -- without a sender there is nothing in the mail
      have hnone : m.money = 0 ∧ m.items = [] := by
        by_contra hfull
        have hsender := hlossless m hm (Nat.not_lt.mp hnow) (by
          by_cases hmoney : m.money = 0
          · exact Or.inr fun hitems => hfull ⟨hmoney, hitems⟩
          · exact Or.inl hmoney)
        exact hdrop ⟨hsender, (h.senders m hmail).resolve_left hsender⟩
      obtain ⟨hmoney, hitems⟩ := hnone
      refine ⟨pl, pl, _, [m], [], _,
        { before := players_perm h hmem
          after := players_perm h hmem
          guid := rfl
          mailsBefore := hmails
          mailsAfter := List.Perm.refl _
          housed := ?_
          ids := (List.nodup_cons.mp hids).2
          below := fun m' hm' => absurd hm' List.not_mem_nil
          next := Nat.le_refl _
          senders := fun m' hm' => absurd hm' List.not_mem_nil
          money := ?_
          units := fun entry => ?_ }⟩
      · rw [List.flatMap_singleton, hitems] at hhoused
        exact hhoused
      · have hold : Mail.total [m] = 0 := by
          show ([m.money.toNat]).sum = 0
          rw [hmoney]
          rfl
        rw [hold]
        rfl
      · have hold : Mail.unitsIn [m] entry = 0 := by
          unfold Mail.unitsIn Mail.contents
          rw [List.flatMap_singleton, hitems]
          rfl
        rw [hold]
        rfl
  · exact Or.inl rfl

/-- A lossless event keeps the realm in order, and only the postage is gone. -/
theorem mailStep_spec (h : Sound w) {event : MailEvent} (hlossless : Lossless w event) :
    Sound (mailStep w event) ∧ Balanced w (mailStep w event) := by
  cases event with
  | send sender req now mailDeliveryDelay =>
      rcases turn_send h sender req now mailDeliveryDelay with hsame | ⟨_, _, _, _, turn⟩
      · rw [mailStep, hsame]
        exact ⟨h, Balanced.refl w⟩
      · exact ⟨turn.sound h, turn.balanced⟩
  | takeMoney player mailId now =>
      rcases turn_takeMoney h hlossless with hsame | ⟨_, _, _, _, _, _, turn⟩
      · rw [mailStep, hsame]
        exact ⟨h, Balanced.refl w⟩
      · exact ⟨turn.sound h, turn.balanced⟩
  | takeItem player mailId now gmAllowsTrades =>
      rcases turn_takeItem h hlossless with hsame | ⟨_, _, _, _, _, _, turn⟩
      · rw [mailStep, hsame]
        exact ⟨h, Balanced.refl w⟩
      · exact ⟨turn.sound h, turn.balanced⟩
  | returnToSender player mailId now =>
      rcases turn_returnToSender h hlossless with hsame | ⟨_, _, _, _, _, _, turn⟩
      · rw [mailStep, hsame]
        exact ⟨h, Balanced.refl w⟩
      · exact ⟨turn.sound h, turn.balanced⟩

end MailWorld

/-- Since the start only the postage is gone, no unit is lost or made, no purse is over the cap, and
every item is in one mail or in one place of one inventory. -/
structure MailLaw {T : ItemTable} (start w : MailWorld T) : Prop where
  money : w.money + 30 * w.sent = start.money + 30 * start.sent
  units : ∀ entry, w.units entry = start.units entry
  purses : ∀ p ∈ w.players, p.money ≤ maxMoneyAmount
  oneMail : (w.attached.map Item.guid).Nodup
  notCarried : ∀ p ∈ w.players, ∀ guid, p.Has guid → guid ∉ w.attached.map Item.guid
  oneInventory : w.players.Pairwise fun p q => ∀ guid, p.Has guid → ¬q.Has guid
  onePosition : ∀ p ∈ w.players, ∀ pos pos' item item', p.items pos = some item →
    p.items pos' = some item' → item.guid = item'.guid → pos = pos'

/-- In every state of a run that loses nothing the law holds. -/
theorem run_mail {T : ItemTable} {start : MailWorld T} (h : start.Sound) {events : List MailEvent}
    (hlossless : Lib.Along MailWorld.Lossless mailStep start events) :
    MailLaw start (Lib.run mailStep start events) := by
  have hend : (Lib.run mailStep start events).Sound ∧
      start.Balanced (Lib.run mailStep start events) :=
    Lib.run_invariant (fun w => MailWorld.Sound w ∧ MailWorld.Balanced start w)
      (fun w event hok hw =>
        let hstep := MailWorld.mailStep_spec hw.1 hok
        ⟨hstep.1, hw.2.trans hstep.2⟩)
      ⟨h, MailWorld.Balanced.refl start⟩ hlossless
  obtain ⟨hsound, hbalanced⟩ := hend
  exact
    { money := hbalanced.money
      units := hbalanced.units
      purses := hsound.housed.purses
      oneMail := hsound.housed.single
      notCarried := by
        rintro p hp guid ⟨pos, item, hitem, rfl⟩
        exact (hsound.housed.carries p hp).apart pos item hitem
      oneInventory := hsound.housed.apart
      onePosition := fun p hp => (hsound.housed.carries p hp).unique }

/-- Two players: the first has 5 Linen Cloth in his backpack. -/
def twoPlayers (first second : UInt32) : MailWorld ItemTable.cloth where
  players :=
    [⟨1, fun pos => if pos = ⟨255, 23⟩ then some (Item.linen 10 5) else none, first, 0⟩,
      ⟨2, fun _ => none, second, 0⟩]
  mails := []
  nextMailId := 0
  nextItemGuid := 11
  sent := 0

/-- A request that every check lets through. -/
def plainRequest (receiver itemGuid money cod : UInt32) : SendRequest where
  receiver := receiver
  itemGuid := itemGuid
  money := money
  cod := cod
  mailsCount := 0
  teamAllowed := true
  sameAccount := false
  inWorld := true
  canUnequip := true
  isLooting := false
  boundByEnchant := false
  passesSpamCheck := true
  canMail := true
  scriptAllows := true
  anonymous := false

theorem twoPlayers_sound {first second : UInt32} (hfirst : first ≤ maxMoneyAmount)
    (hsecond : second ≤ maxMoneyAmount) : (twoPlayers first second).Sound where
  housed := by
    have hitem : ∀ pos item, (if pos = (⟨255, 23⟩ : ItemPos) then some (Item.linen 10 5) else none) =
        some item → pos = ⟨255, 23⟩ ∧ item = Item.linen 10 5 := by
      intro pos item h
      split_ifs at h with hpos
      exact ⟨hpos, (Option.some.inj h).symm⟩
    refine
      { distinct := (by decide : ([1, 2] : List UInt32).Nodup), purses := ?_, bounded := ?_, single := List.nodup_nil,
        holds := fun _ h => absurd h List.not_mem_nil, below := fun _ h => absurd h List.not_mem_nil,
        carries := ?_, apart := ?_ }
    · rintro p hp
      simp only [twoPlayers, List.mem_cons, List.not_mem_nil, or_false] at hp
      rcases hp with rfl | rfl
      · exact hfirst
      · exact hsecond
    · rintro p hp pos item h
      simp only [twoPlayers, List.mem_cons, List.not_mem_nil, or_false] at hp
      rcases hp with rfl | rfl
      · obtain ⟨-, rfl⟩ := hitem pos item h
        decide
      · cases h
    · rintro p hp
      simp only [twoPlayers, List.mem_cons, List.not_mem_nil, or_false] at hp
      rcases hp with rfl | rfl
      · refine ⟨fun pos pos' item item' h h' _ => ?_, fun _ _ _ h => List.not_mem_nil h,
          fun pos item h => ?_⟩
        · exact (hitem pos item h).1.trans (hitem pos' item' h').1.symm
        · obtain ⟨-, rfl⟩ := hitem pos item h
          exact (by decide : (10 : UInt32) < 11)
      · exact ⟨fun _ _ _ _ h => (by cases h), fun _ _ h => (by cases h), fun _ _ h => (by cases h)⟩
    · refine List.pairwise_cons.mpr ⟨fun q hq guid _ hhas => ?_, List.pairwise_singleton _ _⟩
      rw [List.mem_singleton.mp hq] at hhas
      obtain ⟨pos, item, h, -⟩ := hhas
      cases h
  ids := List.nodup_nil
  below := fun _ h => absurd h List.not_mem_nil
  senders := fun _ h => absurd h List.not_mem_nil

/-- The first player sends his cloth for 50, the second takes it and pays, and the first takes the
money. -/
def codEvents : List MailEvent :=
  [.send 1 (plainRequest 2 10 0 50) 0 3600, .takeItem 2 0 3600 true, .takeMoney 1 1 3600]

/-- The realm after the mail is sent, and after the item is taken out of it. -/
def codSent : MailWorld ItemTable.cloth :=
  mailStep (twoPlayers 100 100) (.send 1 (plainRequest 2 10 0 50) 0 3600)

def codPaid : MailWorld ItemTable.cloth := mailStep codSent (.takeItem 2 0 3600 true)

theorem run_mail_cod :
    (Lib.run mailStep (twoPlayers 100 100) codEvents).players.map Player.money = [120, 50] ∧
      MailLaw (twoPlayers 100 100) (Lib.run mailStep (twoPlayers 100 100) codEvents) := by
  refine ⟨by decide +kernel, run_mail (twoPlayers_sound (by decide) (by decide))
    ⟨trivial, ?_, ?_, trivial⟩⟩
  · intro pl m taken _ hm _ _
    have hsender : (codSent.getMail 2 0).map Mail.sender = some 1 := by decide +kernel
    have hsome : codSent.getMail 2 0 = some m := hm
    rw [hsome] at hsender
    rw [Option.some.inj hsender]
    decide
  · intro pl m hpl hm _
    have hpurse : (codPaid.findPlayer 1).map Player.money = some 70 := by decide +kernel
    have hmoney : (codPaid.getMail 1 1).map Mail.money = some 50 := by decide +kernel
    have hsomePlayer : codPaid.findPlayer 1 = some pl := hpl
    have hsome : codPaid.getMail 1 1 = some m := hm
    rw [hsomePlayer] at hpurse
    rw [hsome] at hmoney
    rw [Option.some.inj hpurse, Option.some.inj hmoney]
    decide

/-- The second player's purse is full when he takes 50 out of a mail, and they are gone. -/
theorem takeMoney_full :
    ¬MailLaw (twoPlayers 100 maxMoneyAmount) (Lib.run mailStep (twoPlayers 100 maxMoneyAmount)
      [.send 1 (plainRequest 2 0 50 0) 0 3600, .takeMoney 2 0 0]) := by
  intro h
  have hmoney := h.money
  revert hmoney
  decide +kernel

end TwowCore
