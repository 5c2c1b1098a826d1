import TwowCore.Auctions.Auction

/-!
# The escrow of an auction

What the bidders have paid for an auction is what they have been sent back and the bid that stands;
when the auction is over, the standing bid is in the mail of the seller or has been sent back too, and
the item has been sent once.

`Posted` says what a handler takes and sends for one auction, and that it leaves the entries alone.
`InOrder` is the invariant. An entry is listed, bid on, or closed, and each of the three keeps it.
-/

namespace TwowCore.Auctions

/-- What the bidders of a set have paid for an auction. -/
def paid (ds : List Debit) (id : ℕ) (p : UInt32 → Bool) : ℕ :=
  ((ds.filter fun d => d.auctionId = id ∧ p d.bidder).map Debit.amount).sum

/-- What the receivers of a set have been sent for an auction, the sale apart. -/
def refunded (ms : List AuctionMail) (id : ℕ) (p : UInt32 → Bool) : ℕ :=
  ((ms.filter fun m => m.auctionId = id ∧ m.kind ≠ .successful ∧ p m.receiver).map
    fun m => m.money.toNat).sum

/-- The mails of an auction with an item. -/
def itemMails (ms : List AuctionMail) (id : ℕ) : List AuctionMail :=
  ms.filter fun m => m.auctionId = id ∧ m.item.isSome

/-- The mails of an auction with what it was sold for. -/
def saleMails (ms : List AuctionMail) (id : ℕ) : List AuctionMail :=
  ms.filter fun m => m.auctionId = id ∧ m.kind = .successful

/-- The escrow of a live entry is its bid: of any set of bidders, and so of all of them and of each,
what was paid is what went back and the standing bid. Neither the item nor the sale was sent. -/
structure Escrowed (e : AuctionEntry) (ds : List Debit) (ms : List AuctionMail) : Prop where
  held : ∀ p, paid ds e.id p =
    refunded ms e.id p + if e.bidder ≠ 0 ∧ p e.bidder then e.bid.toNat else 0
  items : itemMails ms e.id = []
  sales : saleMails ms e.id = []

/-- An entry is settled: what was paid is what went back and the bid the item was sold for, the item
was sent once, to the winner or to the owner, and only a sale was sent to the owner, once. -/
structure Settled (c : HouseConfig) (e : AuctionEntry) (sold : Bool) (ds : List Debit)
    (ms : List AuctionMail) : Prop where
  held : ∀ p, paid ds e.id p = refunded ms e.id p + if sold ∧ p e.bidder then e.bid.toNat else 0
  items : (itemMails ms e.id).map (fun m => (m.receiver, m.item)) =
    [(if sold then e.bidder else e.owner, some e.itemGuid)]
  sales : (saleMails ms e.id).map (fun m => (m.receiver, m.money)) =
    if sold then [(e.owner, e.bid + e.deposit - e.getAuctionCut c)] else []
  within : e.bid.toNat + e.deposit.toNat < 2 ^ 32

section Records

variable {ds ds' : List Debit} {ms ms' : List AuctionMail} {id : ℕ} {p : UInt32 → Bool}

theorem paid_append : paid (ds ++ ds') id p = paid ds id p + paid ds' id p := by
  simp [paid]

theorem refunded_append : refunded (ms ++ ms') id p = refunded ms id p + refunded ms' id p := by
  simp [refunded]

/-- What one debit took. -/
theorem paid_singleton (d : Debit) :
    paid [d] id p = if d.auctionId = id ∧ p d.bidder then d.amount else 0 := by
  unfold paid
  by_cases h : d.auctionId = id ∧ p d.bidder <;> simp [h]

/-- What one mail sent back. -/
theorem refunded_singleton (m : AuctionMail) :
    refunded [m] id p =
      if m.auctionId = id ∧ m.kind ≠ .successful ∧ p m.receiver then m.money.toNat else 0 := by
  unfold refunded
  by_cases h : m.auctionId = id ∧ m.kind ≠ .successful ∧ p m.receiver <;>
    simp [h]

theorem itemMails_append : itemMails (ms ++ ms') id = itemMails ms id ++ itemMails ms' id := by
  simp [itemMails]

theorem saleMails_append : saleMails (ms ++ ms') id = saleMails ms id ++ saleMails ms' id := by
  simp [saleMails]

/-- Nothing was paid for another auction. -/
theorem paid_other (h : ∀ d ∈ ds, d.auctionId ≠ id) : paid ds id p = 0 := by
  unfold paid
  rw [List.filter_eq_nil_iff.mpr fun d hd => by simp [h d hd]]
  rfl

/-- Nothing was sent back for another auction. -/
theorem refunded_other (h : ∀ m ∈ ms, m.auctionId ≠ id) : refunded ms id p = 0 := by
  unfold refunded
  rw [List.filter_eq_nil_iff.mpr fun m hm => by simp [h m hm]]
  rfl

/-- No item was sent for another auction. -/
theorem itemMails_other (h : ∀ m ∈ ms, m.auctionId ≠ id) : itemMails ms id = [] :=
  List.filter_eq_nil_iff.mpr fun m hm => by simp [h m hm]

/-- No sale was sent for another auction. -/
theorem saleMails_other (h : ∀ m ∈ ms, m.auctionId ≠ id) : saleMails ms id = [] :=
  List.filter_eq_nil_iff.mpr fun m hm => by simp [h m hm]

variable {e : AuctionEntry}

/-- What is taken and sent for another auction leaves the escrow. -/
theorem Escrowed.frame (h : Escrowed e ds ms) (hds : ∀ d ∈ ds', d.auctionId ≠ e.id)
    (hms : ∀ m ∈ ms', m.auctionId ≠ e.id) : Escrowed e (ds ++ ds') (ms ++ ms') where
  held p := by
    rw [paid_append, refunded_append, paid_other hds, refunded_other hms]
    exact h.held p
  items := by rw [itemMails_append, itemMails_other hms, h.items, List.append_nil]
  sales := by rw [saleMails_append, saleMails_other hms, h.sales, List.append_nil]

/-- What is taken and sent for another auction leaves a settled entry settled. -/
theorem Settled.frame {c : HouseConfig} {sold : Bool} (h : Settled c e sold ds ms)
    (hds : ∀ d ∈ ds', d.auctionId ≠ e.id) (hms : ∀ m ∈ ms', m.auctionId ≠ e.id) :
    Settled c e sold (ds ++ ds') (ms ++ ms') where
  held p := by
    rw [paid_append, refunded_append, paid_other hds, refunded_other hms]
    exact h.held p
  items := by rw [itemMails_append, itemMails_other hms, List.append_nil, h.items]
  sales := by rw [saleMails_append, saleMails_other hms, List.append_nil, h.sales]
  within := h.within

/-- A bid is held when what was paid for it is what it is more than the one that was sent back. -/
theorem Escrowed.bid (h : Escrowed e ds ms) {bidder bid : UInt32}
    (hheld : ∀ p, paid ds' e.id p + (if e.bidder ≠ 0 ∧ p e.bidder then e.bid.toNat else 0) =
      refunded ms' e.id p + if bidder ≠ 0 ∧ p bidder then bid.toNat else 0)
    (hitems : itemMails ms' e.id = []) (hsales : saleMails ms' e.id = []) :
    Escrowed { e with bidder := bidder, bid := bid } (ds ++ ds') (ms ++ ms') where
  held p := by
    show paid (ds ++ ds') e.id p = refunded (ms ++ ms') e.id p +
      if bidder ≠ 0 ∧ p bidder then bid.toNat else 0
    have hbefore := h.held p
    have hnow := hheld p
    rw [paid_append, refunded_append]
    omega
  items := by rw [itemMails_append, h.items, hitems, List.append_nil]
  sales := by rw [saleMails_append, h.sales, hsales, List.append_nil]

/-- An entry is settled with the mail to the owner and the item to the winner. -/
theorem Escrowed.sold (c : HouseConfig) (h : Escrowed e ds ms) (hbidder : e.bidder ≠ 0)
    (hwithin : e.bid.toNat + e.deposit.toNat < 2 ^ 32) :
    Settled c e true ds
      (ms ++ [⟨e.id, .successful, e.owner, e.bid + e.deposit - e.getAuctionCut c, none⟩] ++
        [⟨e.id, .won, e.bidder, 0, some e.itemGuid⟩]) where
  held p := by
    rw [h.held p, refunded_append, refunded_append, refunded_singleton, refunded_singleton]
    simp [hbidder]
  items := by
    rw [itemMails_append, itemMails_append, h.items]
    simp [itemMails]
  sales := by
    rw [saleMails_append, saleMails_append, h.sales]
    simp [saleMails]
  within := hwithin

/-- An entry is settled with the item to the owner when the bid has gone back. -/
theorem Escrowed.unsold (c : HouseConfig) (h : Escrowed e ds ms) {kind : MailKind}
    (hkind : kind ≠ .successful) (hback : ∀ p, refunded ms' e.id p =
      if e.bidder ≠ 0 ∧ p e.bidder then e.bid.toNat else 0)
    (hitems : itemMails ms' e.id = []) (hsales : saleMails ms' e.id = [])
    (hwithin : e.bid.toNat + e.deposit.toNat < 2 ^ 32) :
    Settled c e false ds (ms ++ ms' ++ [⟨e.id, kind, e.owner, 0, some e.itemGuid⟩]) where
  held p := by
    rw [h.held p, refunded_append, refunded_append, hback p, refunded_singleton]
    simp
  items := by
    rw [itemMails_append, itemMails_append, h.items, hitems]
    simp [itemMails]
  sales := by
    rw [saleMails_append, saleMails_append, h.sales, hsales]
    simp [saleMails, hkind]
  within := hwithin

/-- A new entry holds nothing. -/
theorem escrowed_new (hbidder : e.bidder = 0) (hds : ∀ d ∈ ds, d.auctionId ≠ e.id)
    (hms : ∀ m ∈ ms, m.auctionId ≠ e.id) : Escrowed e ds ms where
  held p := by rw [paid_other hds, refunded_other hms, if_neg fun h => h.1 hbidder]
  items := itemMails_other hms
  sales := saleMails_other hms

end Records

/-- What has been taken and sent for an auction, and nothing else of the houses is changed. -/
structure Posted (id : ℕ) (ds : List Debit) (ms : List AuctionMail) (w w' : AuctionWorld) :
    Prop where
  same : w' = { w with
    characters := w'.characters, debits := w.debits ++ ds, mails := w.mails ++ ms }
  people : ∀ guid, (w'.findCharacter guid).isSome = (w.findCharacter guid).isSome
  purses : ∀ guid p', w'.findCharacter guid = some p' →
    ∃ p, w.findCharacter guid = some p ∧ p'.guid = p.guid ∧ p'.money ≤ p.money
  ofDebits : ∀ d ∈ ds, d.auctionId = id
  ofMails : ∀ m ∈ ms, m.auctionId = id

section Posting

variable {w w' w'' : AuctionWorld} {id : ℕ} {ds ds' : List Debit} {ms ms' : List AuctionMail}
  {e : AuctionEntry} {p : Character}

/-- One thing after the other. -/
theorem Posted.trans (h : Posted id ds ms w w') (h' : Posted id ds' ms' w' w'') :
    Posted id (ds ++ ds') (ms ++ ms') w w'' where
  same := by
    rw [h'.same, h.same]
    simp
  people guid := (h'.people guid).trans (h.people guid)
  purses guid p'' hp'' := by
    obtain ⟨p', hp', hguid', hle'⟩ := h'.purses guid p'' hp''
    obtain ⟨p, hp, hguid, hle⟩ := h.purses guid p' hp'
    exact ⟨p, hp, hguid'.trans hguid, UInt32.le_trans hle' hle⟩
  ofDebits d hd := (List.mem_append.mp hd).elim (h.ofDebits d) (h'.ofDebits d)
  ofMails m hm := (List.mem_append.mp hm).elim (h.ofMails m) (h'.ofMails m)

/-- Nothing is taken and nothing is sent. -/
theorem Posted.refl (id : ℕ) (w : AuctionWorld) : Posted id [] [] w w where
  same := by simp
  people _ := rfl
  purses _ p' hp' := ⟨p', hp', rfl, UInt32.le_refl _⟩
  ofDebits := by simp
  ofMails := by simp

/-- The items stay with the auctions. -/
theorem Posted.aItems (h : Posted id ds ms w w') : w'.aItems = w.aItems := by
  rw [h.same]

/-- The debits that are added. -/
theorem Posted.debits (h : Posted id ds ms w w') : w'.debits = w.debits ++ ds := by
  rw [h.same]

/-- The mails that are added. -/
theorem Posted.mails (h : Posted id ds ms w w') : w'.mails = w.mails ++ ms := by
  rw [h.same]

/-- Who is found has the guid. -/
theorem findCharacter_guid {guid : UInt32} (h : w.findCharacter guid = some p) : p.guid = guid := by
  simpa using List.find?_some h

/-- Finding a character after one is written. -/
theorem findCharacter_writeCharacter {f : Character → Character} (hf : ∀ p, (f p).guid = p.guid)
    (guid k : UInt32) :
    (w.writeCharacter k f).findCharacter guid =
      if guid = k then (w.findCharacter guid).map f else w.findCharacter guid :=
  Lib.find_writeKey hf guid

/-- A character is there after one is written if he was before. -/
theorem isSome_writeCharacter {f : Character → Character} (hf : ∀ p, (f p).guid = p.guid)
    (guid k : UInt32) :
    ((w.writeCharacter k f).findCharacter guid).isSome = (w.findCharacter guid).isSome := by
  rw [findCharacter_writeCharacter hf]
  split
  · exact Option.isSome_map
  · rfl

/-- Finding a character after money is taken or given. -/
theorem findCharacter_modifyMoney (amount : Int32) (guid : UInt32) :
    (w.modifyMoney p amount).findCharacter guid =
      if guid = p.guid then
        (w.findCharacter guid).map fun p =>
          { p with money := Player.modifiedMoney p.money amount }
      else w.findCharacter guid :=
  findCharacter_writeCharacter (fun _ => by rfl) guid p.guid

/-- Taking money a character has changes his purse alone. -/
theorem posted_modifyMoney {amount : UInt32} (hp : w.findCharacter p.guid = some p)
    (hcap : p.money ≤ maxMoneyAmount) (hpay : amount ≤ p.money) :
    Posted id [] [] w (w.modifyMoney p (-amount.toInt32)) where
  same := by simp [AuctionWorld.modifyMoney, AuctionWorld.writeCharacter]
  people guid := by
    unfold AuctionWorld.modifyMoney
    exact isSome_writeCharacter (fun _ => by rfl) guid p.guid
  purses guid p' hp' := by
    rw [findCharacter_modifyMoney] at hp'
    split at hp'
    · next hguid =>
      rw [hguid, hp] at hp'
      cases hp'
      refine ⟨p, hguid ▸ hp, rfl, ?_⟩
      show Player.modifiedMoney p.money (-amount.toInt32) ≤ p.money
      rw [Player.modifiedMoney_pay hpay hcap]
      rw [UInt32.le_iff_toNat_le, UInt32.toNat_sub_of_le _ _ hpay]
      exact Nat.sub_le _ _
    · exact ⟨p', hp', rfl, UInt32.le_refl _⟩
  ofDebits := by simp
  ofMails := by simp

/-- A bidder pays what he has. -/
theorem posted_pay {amount : UInt32} (hp : w.findCharacter p.guid = some p)
    (hcap : p.money ≤ maxMoneyAmount) (hpay : amount ≤ p.money) :
    Posted e.id [⟨e.id, p.guid, amount.toNat⟩] [] w (w.pay p e amount) := by
  have hposted : Posted e.id [] [] w _ := posted_modifyMoney hp hcap hpay
  have htaken : p.money.toNat - (Player.modifiedMoney p.money (-amount.toInt32)).toNat =
      amount.toNat := by
    rw [Player.modifiedMoney_pay hpay hcap, UInt32.toNat_sub_of_le _ _ hpay]
    rw [UInt32.le_iff_toNat_le] at hpay
    omega
  exact
    { same := by
        simp [AuctionWorld.pay, AuctionWorld.modifyMoney, AuctionWorld.writeCharacter, htaken]
      people := hposted.people
      purses := hposted.purses
      ofDebits := by simp
      ofMails := by simp }

/-- A mail to who exists is sent. -/
theorem posted_sendMail {m : AuctionMail} (hid : m.auctionId = id)
    (hexists : w.Exists m.receiver) : Posted id [] [m] w (w.sendMail m) := by
  unfold AuctionWorld.sendMail
  rw [if_pos hexists]
  exact
    { same := by simp
      people := fun _ => rfl
      purses := fun guid p' hp' => ⟨p', hp', rfl, UInt32.le_refl _⟩
      ofDebits := by simp
      ofMails := by simp [hid] }

/-- Who existed exists. -/
theorem Posted.exists_iff (h : Posted id ds ms w w') (guid : UInt32) :
    w'.Exists guid ↔ w.Exists guid := by
  unfold AuctionWorld.Exists
  rw [h.people guid]

end Posting

/-- The ids of all entries that are or were listed. -/
def AuctionWorld.listed (w : AuctionWorld) : List ℕ :=
  w.auctions.map AuctionEntry.id ++ w.closed.map fun x => x.1.id

/-- The law of the escrow: every entry is listed once, money is taken and mails are sent for what is
listed, each live entry holds its bid, and each closed one is settled. -/
structure EscrowLaw (c : HouseConfig) (w : AuctionWorld) : Prop where
  once : w.listed.Nodup
  debits : ∀ d ∈ w.debits, d.auctionId ∈ w.listed
  mails : ∀ m ∈ w.mails, m.auctionId ∈ w.listed
  escrowed : ∀ e ∈ w.auctions, Escrowed e w.debits w.mails
  settled : ∀ x ∈ w.closed, Settled c x.1 x.2 w.debits w.mails

/-- What is known of a live entry. -/
structure Standing (w : AuctionWorld) (e : AuctionEntry) : Prop where
  owner : w.Exists e.owner
  bidder : e.bidder ≠ 0 → w.Exists e.bidder
  bid : e.bid ≤ maxMoneyAmount
  deposit : e.deposit ≤ maxMoneyAmount
  below : e.buyout ≠ 0 → e.bid < e.buyout

/-- The law, with what it takes to keep it: the next id is free, no item is in two auctions, each is
with the auctions, and the characters have guids and purses within the cap. -/
structure InOrder (c : HouseConfig) (w : AuctionWorld) : Prop extends EscrowLaw c w where
  fresh : ∀ id ∈ w.listed, id < w.nextAuctionId
  used : ∀ id ∈ w.auctionIds, id < w.nextAuctionId
  items : (w.auctions.map AuctionEntry.itemGuid).Nodup
  kept : ∀ e ∈ w.auctions, e.itemGuid ∈ w.aItems
  people : ∀ guid p, w.findCharacter guid = some p → guid ≠ 0 ∧ p.money ≤ maxMoneyAmount
  standing : ∀ e ∈ w.auctions, Standing w e

section Transitions

variable {c : HouseConfig} {w w' : AuctionWorld} {ds : List Debit} {ms : List AuctionMail}
  {e : AuctionEntry} {p : Character}

/-- An entry stands while nobody goes away. -/
theorem Standing.mono (h : Standing w e) (hexists : ∀ guid, w.Exists guid → w'.Exists guid) :
    Standing w' e where
  owner := hexists _ h.owner
  bidder hbidder := hexists _ (h.bidder hbidder)
  bid := h.bid
  deposit := h.deposit
  below := h.below

/-- The ids of live entries differ. -/
theorem EscrowLaw.ids (h : EscrowLaw c w) : (w.auctions.map AuctionEntry.id).Nodup :=
  h.once.of_append_left

/-- A live entry is found by its id. -/
theorem EscrowLaw.eq_of_id (h : EscrowLaw c w) {e' : AuctionEntry} (he : e ∈ w.auctions)
    (he' : e' ∈ w.auctions) (hid : e'.id = e.id) : e' = e :=
  List.inj_on_of_nodup_map h.ids he' he hid

/-- A live entry is listed. -/
theorem mem_listed (he : e ∈ w.auctions) : e.id ∈ w.listed :=
  List.mem_append_left _ (List.mem_map_of_mem he)

/-- A closed entry has another id than a live one. -/
theorem EscrowLaw.closed_ne (h : EscrowLaw c w) (he : e ∈ w.auctions) {x : AuctionEntry × Bool}
    (hx : x ∈ w.closed) : x.1.id ≠ e.id := by
  intro hid
  have hdisjoint := List.disjoint_of_nodup_append h.once
  exact hdisjoint (List.mem_map_of_mem he) (hid ▸ List.mem_map_of_mem hx)

/-- The id of a new auction is the next one. -/
theorem InOrder.generateAuctionID_eq (h : InOrder c w) : w.generateAuctionID = w.nextAuctionId := by
  refine Lib.nextFree_of_notMem (fun hused => ?_) _
  exact Nat.lt_irrefl _ (h.used _ hused)

/-- Writing a bid keeps the ids. -/
theorem listed_writeBid (id : ℕ) (bidder bid : UInt32) :
    (w.writeBid id bidder bid).listed = w.listed := by
  show (Lib.writeKey AuctionEntry.id id _ w.auctions).map AuctionEntry.id ++ _ = _
  rw [Lib.writeKey_keys fun _ _ => by rfl]
  rfl

/-- A bid that was paid, and whose forerunner was sent back, keeps the order. -/
theorem InOrder.bid (h : InOrder c w) (he : e ∈ w.auctions) (hposted : Posted e.id ds ms w w')
    {bidder bid : UInt32} (hstanding : Standing w' { e with bidder := bidder, bid := bid })
    (hescrowed : Escrowed { e with bidder := bidder, bid := bid } w'.debits w'.mails) :
    InOrder c (w'.writeBid e.id bidder bid) := by
  have hexists := hposted.exists_iff
  have hpurses := hposted.purses
  obtain ⟨characters, rfl⟩ : ∃ characters, w' = { w with
    characters := characters, debits := w.debits ++ ds, mails := w.mails ++ ms } :=
    ⟨_, hposted.same⟩
  have hlisted := listed_writeBid (w := { w with
    characters := characters, debits := w.debits ++ ds, mails := w.mails ++ ms }) e.id bidder bid
  -- an entry after the bid is the entry that was bid on, or one that was there
  have hmem : ∀ e' ∈ Lib.writeKey AuctionEntry.id e.id
      (fun e => { e with bidder := bidder, bid := bid }) w.auctions,
      e' = { e with bidder := bidder, bid := bid } ∨ (e' ∈ w.auctions ∧ e'.id ≠ e.id) := by
    intro e' he'
    obtain ⟨old, hold, rfl⟩ := Lib.mem_writeKey.mp he'
    by_cases hid : old.id = e.id
    · rw [if_pos hid, h.eq_of_id he hold hid]
      exact Or.inl rfl
    · rw [if_neg hid]
      exact Or.inr ⟨hold, hid⟩
  have hdebit : ∀ {id : ℕ}, id ≠ e.id → ∀ d ∈ ds, d.auctionId ≠ id := fun hne d hd heq =>
    hne (heq.symm.trans (hposted.ofDebits d hd))
  have hmail : ∀ {id : ℕ}, id ≠ e.id → ∀ m ∈ ms, m.auctionId ≠ id := fun hne m hm heq =>
    hne (heq.symm.trans (hposted.ofMails m hm))
  refine
    { once := hlisted ▸ h.once
      debits := fun d hd => ?_
      mails := fun m hm => ?_
      escrowed := fun e' he' => ?_
      settled := fun x hx =>
        (h.settled x hx).frame (hdebit (h.closed_ne he hx)) (hmail (h.closed_ne he hx))
      fresh := fun id hid => h.fresh id (hlisted ▸ hid)
      used := h.used
      items := ?_
      kept := fun e' he' => ?_
      people := fun guid p' hp' => ?_
      standing := fun e' he' => ?_ }
  · rw [hlisted]
    rcases List.mem_append.mp hd with hbefore | hnow
    · exact h.debits d hbefore
    · exact hposted.ofDebits d hnow ▸ mem_listed he
  · rw [hlisted]
    rcases List.mem_append.mp hm with hbefore | hnow
    · exact h.mails m hbefore
    · exact hposted.ofMails m hnow ▸ mem_listed he
  · rcases hmem e' he' with rfl | ⟨hthere, hid⟩
    · exact hescrowed
    · exact (h.escrowed e' hthere).frame (hdebit hid) (hmail hid)
  · show ((Lib.writeKey AuctionEntry.id e.id _ w.auctions).map AuctionEntry.itemGuid).Nodup
    unfold Lib.writeKey
    rw [List.map_map]
    have hsame : AuctionEntry.itemGuid ∘ (fun old : AuctionEntry =>
        if old.id = e.id then { old with bidder := bidder, bid := bid } else old) =
        AuctionEntry.itemGuid := by
      funext old
      show AuctionEntry.itemGuid (if old.id = e.id then _ else _) = _
      split <;> rfl
    rw [hsame]
    exact h.items
  · rcases hmem e' he' with rfl | ⟨hthere, -⟩
    · exact h.kept e he
    · exact h.kept e' hthere
  · obtain ⟨p, hp, -, hle⟩ := hpurses guid p' hp'
    exact ⟨(h.people guid p hp).1, UInt32.le_trans hle (h.people guid p hp).2⟩
  · rcases hmem e' he' with rfl | ⟨hthere, -⟩
    · exact hstanding.mono fun _ hthere => hthere
    · exact (h.standing e' hthere).mono fun guid hthere => (hexists guid).mpr hthere

/-- Closing an entry that is settled keeps the order. -/
theorem InOrder.close (h : InOrder c w) (he : e ∈ w.auctions) (hposted : Posted e.id ds ms w w')
    {bidder bid : UInt32} {sold : Bool}
    (hsettled : Settled c { e with bidder := bidder, bid := bid } sold w'.debits w'.mails) :
    InOrder c (w'.removeAuction { e with bidder := bidder, bid := bid } sold) := by
  have hexists := hposted.exists_iff
  have hpurses := hposted.purses
  obtain ⟨characters, rfl⟩ : ∃ characters, w' = { w with
    characters := characters, debits := w.debits ++ ds, mails := w.mails ++ ms } :=
    ⟨_, hposted.same⟩
  have hperm := Lib.perm_eraseKey h.ids he rfl
  have hlisted : List.Perm (AuctionWorld.removeAuction { w with
      characters := characters, debits := w.debits ++ ds, mails := w.mails ++ ms }
      { e with bidder := bidder, bid := bid } sold).listed w.listed := by
    show List.Perm ((Lib.eraseKey AuctionEntry.id e.id w.auctions).map AuctionEntry.id ++
      (w.closed ++ [({ e with bidder := bidder, bid := bid }, sold)]).map
        fun x : AuctionEntry × Bool => x.1.id) _
    unfold AuctionWorld.listed
    rw [List.map_append, ← List.append_assoc]
    refine (List.perm_append_singleton _ _).trans ?_
    exact ((hperm.map AuctionEntry.id).append_right _).symm
  have hdebit : ∀ {id : ℕ}, id ≠ e.id → ∀ d ∈ ds, d.auctionId ≠ id := fun hne d hd heq =>
    hne (heq.symm.trans (hposted.ofDebits d hd))
  have hmail : ∀ {id : ℕ}, id ≠ e.id → ∀ m ∈ ms, m.auctionId ≠ id := fun hne m hm heq =>
    hne (heq.symm.trans (hposted.ofMails m hm))
  have hsub : ∀ e' ∈ Lib.eraseKey AuctionEntry.id e.id w.auctions,
      e' ∈ w.auctions ∧ e'.id ≠ e.id := fun e' he' => Lib.mem_eraseKey.mp he'
  refine
    { once := hlisted.nodup_iff.mpr h.once
      debits := fun d hd => hlisted.mem_iff.mpr ?_
      mails := fun m hm => hlisted.mem_iff.mpr ?_
      escrowed := fun e' he' => ?_
      settled := fun x hx => ?_
      fresh := fun id hid => h.fresh id (hlisted.mem_iff.mp hid)
      used := fun id hid => h.used id (List.mem_filter.mp hid).1
      items := h.items.sublist (List.Sublist.map _ List.filter_sublist)
      kept := fun e' he' => ?_
      people := fun guid p' hp' => ?_
      standing := fun e' he' => ?_ }
  · rcases List.mem_append.mp hd with hbefore | hnow
    · exact h.debits d hbefore
    · exact hposted.ofDebits d hnow ▸ mem_listed he
  · rcases List.mem_append.mp hm with hbefore | hnow
    · exact h.mails m hbefore
    · exact hposted.ofMails m hnow ▸ mem_listed he
  · obtain ⟨hthere, hid⟩ := hsub e' he'
    exact (h.escrowed e' hthere).frame (hdebit hid) (hmail hid)
  · rcases List.mem_append.mp hx with hbefore | hnow
    · exact (h.settled x hbefore).frame (hdebit (h.closed_ne he hbefore))
        (hmail (h.closed_ne he hbefore))
    · rw [List.mem_singleton.mp hnow]
      exact hsettled
  · obtain ⟨hthere, hid⟩ := hsub e' he'
    refine List.mem_filter.mpr ⟨h.kept e' hthere, ?_⟩
    -- the item of another entry is another item
    have hne : e'.itemGuid ≠ e.itemGuid := fun heq =>
      hid (congrArg AuctionEntry.id (List.inj_on_of_nodup_map h.items hthere he heq))
    simpa using hne
  · obtain ⟨p, hp, -, hle⟩ := hpurses guid p' hp'
    exact ⟨(h.people guid p hp).1, UInt32.le_trans hle (h.people guid p hp).2⟩
  · exact (h.standing e' (hsub e' he').1).mono fun guid hthere => (hexists guid).mpr hthere

end Transitions

end TwowCore.Auctions
