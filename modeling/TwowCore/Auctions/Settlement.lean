import TwowCore.Auctions.Escrow

/-!
# The settlement of auctions

Each handler and the expiry list, bid on or close an entry, and so keep the order of the houses. Over
every run from the first auction on the law of the escrow holds: each live entry holds its bid, and
each closed one has paid the seller or the bidder, once, and has sent the item, once.
-/

namespace TwowCore.Auctions

variable {c : HouseConfig} {w : AuctionWorld} {e : AuctionEntry} {p : Character}

/-- What the checks of a sale leave. -/
theorem maySell_spec {req : SellRequest} (h : w.maySell c p req = true) :
    req.itemGuid ∉ w.aItems ∧ req.deposit ≤ p.money := by
  unfold AuctionWorld.maySell at h
  split at h
  · cases h
  split at h
  · cases h
  split at h
  · cases h
  split at h
  · cases h
  split at h
  · cases h
  split at h
  · cases h
  · next hitem =>
    rw [Bool.and_eq_true, decide_eq_true_eq] at h
    exact ⟨fun hmem => hitem (Or.inr hmem), h.2⟩

/-- What the checks of a bid leave. -/
theorem mayBid_spec {price : UInt32} (h : w.mayBid p e price = true) :
    e.bid < price ∧ price ≤ p.money := by
  unfold AuctionWorld.mayBid at h
  split at h
  · cases h
  split at h
  · cases h
  split at h
  · cases h
  split at h
  · cases h
  · next hmore =>
    split at h
    · cases h
    · exact ⟨UInt32.not_le.mp hmore, by simpa using h⟩

/-- The entry that is found is there. -/
theorem getAuction_mem {houseId auctionId : ℕ} (h : w.getAuction houseId auctionId = some e) :
    e ∈ w.auctions := List.mem_of_find?_eq_some h

/-- The bid and the deposit of a standing entry make no more than a word. -/
theorem within_word {bid deposit : UInt32} (hbid : bid ≤ maxMoneyAmount)
    (hdeposit : deposit ≤ maxMoneyAmount) : bid.toNat + deposit.toNat < 2 ^ 32 := by
  have hmax : maxMoneyAmount.toNat = 2 ^ 31 - 2 := rfl
  rw [UInt32.le_iff_toNat_le] at hbid hdeposit
  omega

/-- A character is written within the cap. -/
theorem InOrder.writeCharacter (h : InOrder c w) (guid : UInt32) {f : Character → Character}
    (hguid : ∀ p, (f p).guid = p.guid)
    (hmoney : ∀ p, p.money ≤ maxMoneyAmount → (f p).money ≤ maxMoneyAmount) :
    InOrder c (w.writeCharacter guid f) where
  once := h.once
  debits := h.debits
  mails := h.mails
  escrowed := h.escrowed
  settled := h.settled
  fresh := h.fresh
  used := h.used
  items := h.items
  kept := h.kept
  people k p hp := by
    rw [findCharacter_writeCharacter hguid] at hp
    split at hp
    · obtain ⟨old, hold, rfl⟩ := Option.map_eq_some_iff.mp hp
      exact ⟨(h.people k old hold).1, hmoney old (h.people k old hold).2⟩
    · exact h.people k p hp
  standing e he := (h.standing e he).mono fun k hthere => by
    show ((w.writeCharacter guid f).findCharacter k).isSome = true
    rw [isSome_writeCharacter hguid]
    exact hthere

/-- A new auction keeps the order. -/
theorem InOrder.handleAuctionSellItem (h : InOrder c w) (player : UInt32) (req : SellRequest)
    (now : ℕ) : InOrder c (w.handleAuctionSellItem c player req now) := by
  unfold AuctionWorld.handleAuctionSellItem
  split
  · exact h
  · next p hp =>
    split
    · next hsell =>
      obtain ⟨hitem, hdeposit⟩ := maySell_spec hsell
      have hguid := findCharacter_guid hp
      have hp' : w.findCharacter p.guid = some p := hguid ▸ hp
      have hcap := (h.people _ p hp').2
      have hposted : Posted 0 [] [] w _ := posted_modifyMoney hp' hcap hdeposit
      have hid := h.generateAuctionID_eq
      have hnew : w.nextAuctionId ∉ w.listed := fun hmem => Nat.lt_irrefl _ (h.fresh _ hmem)
      have hne : ∀ {id : ℕ}, id ∈ w.listed → id ≠ (w.newEntry c p req now).id := by
        intro id hmem heq
        have hnext : (w.newEntry c p req now).id = w.nextAuctionId := hid
        exact hnew (hnext ▸ heq ▸ hmem)
      have hlisted : List.Perm
          ((w.auctions ++ [w.newEntry c p req now]).map AuctionEntry.id ++
            w.closed.map fun x => x.1.id)
          (w.nextAuctionId :: w.listed) := by
        rw [List.map_append, List.append_assoc]
        refine List.perm_middle.trans ?_
        show List.Perm (w.generateAuctionID :: w.listed) _
        rw [hid]
      have hstanding : Standing w (w.newEntry c p req now) :=
        { owner := by
            show (w.findCharacter p.guid).isSome = true
            rw [hp']
            rfl
          bidder := fun hne => absurd rfl hne
          bid := by
            show (0 : UInt32) ≤ _
            decide
          deposit := UInt32.le_trans hdeposit hcap
          below := fun hne => UInt32.pos_iff_ne_zero.mpr hne }
      have hmono : ∀ guid, w.Exists guid → (w.modifyMoney p (-req.deposit.toInt32)).Exists guid :=
        fun guid hthere => (hposted.exists_iff guid).mpr hthere
      exact
        { once := hlisted.nodup_iff.mpr (List.nodup_cons.mpr ⟨hnew, h.once⟩)
          debits := fun d hd => hlisted.mem_iff.mpr (List.mem_cons_of_mem _ (h.debits d hd))
          mails := fun m hm => hlisted.mem_iff.mpr (List.mem_cons_of_mem _ (h.mails m hm))
          escrowed := fun e he => by
            rcases List.mem_append.mp he with hold | hlast
            · exact h.escrowed e hold
            · rw [List.mem_singleton.mp hlast]
              exact escrowed_new rfl (fun d hd => hne (h.debits d hd))
                fun m hm => hne (h.mails m hm)
          settled := h.settled
          fresh := fun id hmem => by
            show id < w.generateAuctionID + 1
            rw [hid]
            rcases List.mem_cons.mp (hlisted.mem_iff.mp hmem) with rfl | hold
            · exact Nat.lt_succ_self _
            · exact Nat.lt_succ_of_lt (h.fresh id hold)
          used := fun id hmem => by
            show id < w.generateAuctionID + 1
            rcases List.mem_append.mp hmem with hold | hlast
            · rw [hid]
              exact Nat.lt_succ_of_lt (h.used id hold)
            · rw [List.mem_singleton.mp hlast]
              exact Nat.lt_succ_self _
          items := by
            show ((w.auctions ++ [w.newEntry c p req now]).map AuctionEntry.itemGuid).Nodup
            rw [List.map_append]
            refine h.items.append (List.nodup_singleton _) fun guid hold hlast => ?_
            obtain ⟨e, he, rfl⟩ := List.mem_map.mp hold
            have heq : e.itemGuid = req.itemGuid := List.mem_singleton.mp hlast
            exact hitem (heq ▸ h.kept e he)
          kept := fun e he => by
            rcases List.mem_append.mp he with hold | hlast
            · exact List.mem_append_left _ (h.kept e hold)
            · rw [List.mem_singleton.mp hlast]
              exact List.mem_append_right _ (List.mem_singleton.mpr rfl)
          people := fun guid p' hp' => by
            obtain ⟨old, hold, -, hle⟩ := hposted.purses guid p' hp'
            exact ⟨(h.people guid old hold).1, UInt32.le_trans hle (h.people guid old hold).2⟩
          standing := fun e he => by
            rcases List.mem_append.mp he with hold | hlast
            · exact (h.standing e hold).mono hmono
            · rw [List.mem_singleton.mp hlast]
              exact hstanding.mono hmono }
    · exact h

/-- A bidder pays what a bid is more than his own, or all of it, and who is outbidden gets his bid
back. -/
theorem takeBid_spec {price : UInt32} (hp : w.findCharacter p.guid = some p)
    (hcap : p.money ≤ maxMoneyAmount) (hguid : p.guid ≠ 0) (hstanding : Standing w e)
    (hmore : e.bid < price) (hprice : price ≤ p.money) :
    ∃ ds ms, Posted e.id ds ms w (w.takeBid p e price) ∧ itemMails ms e.id = [] ∧
      saleMails ms e.id = [] ∧
      ∀ q, paid ds e.id q + (if e.bidder ≠ 0 ∧ q e.bidder then e.bid.toNat else 0) =
        refunded ms e.id q + if p.guid ≠ 0 ∧ q p.guid then price.toNat else 0 := by
  have hlt := UInt32.lt_iff_toNat_lt.mp hmore
  unfold AuctionWorld.takeBid
  split
  · next hown =>
    have hsub := UInt32.toNat_sub_of_le price e.bid (UInt32.le_iff_toNat_le.mpr hlt.le)
    have hless : price - e.bid ≤ p.money := by
      rw [UInt32.le_iff_toNat_le] at hprice ⊢
      omega
    refine ⟨_, _, posted_pay hp hcap hless, rfl, rfl, fun q => ?_⟩
    rw [paid_singleton, ← hown]
    show (if e.id = e.id ∧ q p.guid then (price - e.bid).toNat else 0) + _ = 0 + _
    by_cases hq : q p.guid = true
    · simp only [hq, hguid, ne_eq, not_false_eq_true, and_self, if_true]
      omega
    · simp [hq]
  · split
    · next hold =>
      have hpay := posted_pay (e := e) hp hcap hprice
      have hexists := (hpay.exists_iff e.bidder).mpr (hstanding.bidder hold)
      refine ⟨_, _, hpay.trans (posted_sendMail rfl hexists), by simp [itemMails], by simp [saleMails],
        fun q => ?_⟩
      rw [List.append_nil, List.nil_append, paid_singleton, refunded_singleton]
      by_cases hq : q p.guid = true <;> by_cases hq' : q e.bidder = true <;>
        simp [hq, hq', hguid, hold, Nat.add_comm]
    · next hnone =>
      refine ⟨_, _, posted_pay hp hcap hprice, rfl, rfl, fun q => ?_⟩
      rw [paid_singleton]
      by_cases hq : q p.guid = true
      · simp [hq, hguid, hnone, refunded]
      · simp [hq, hnone, refunded]

/-- Selling an entry to who has paid for it keeps the order. -/
theorem InOrder.sell {ds : List Debit} {ms : List AuctionMail} {w' : AuctionWorld}
    (h : InOrder c w) (he : e ∈ w.auctions) (hposted : Posted e.id ds ms w w')
    {bidder bid : UInt32} (hbidder : bidder ≠ 0) (hexists : w.Exists bidder)
    (hcap : bid ≤ maxMoneyAmount)
    (hescrowed : Escrowed { e with bidder := bidder, bid := bid } w'.debits w'.mails) :
    InOrder c (((w'.sendAuctionSuccessfulMail c { e with bidder := bidder, bid := bid })
      |>.sendAuctionWonMail { e with bidder := bidder, bid := bid })
      |>.removeAuction { e with bidder := bidder, bid := bid } true) := by
  have hstanding := h.standing e he
  have hsale : Posted e.id [] [_] w'
      (w'.sendAuctionSuccessfulMail c { e with bidder := bidder, bid := bid }) :=
    posted_sendMail rfl ((hposted.exists_iff e.owner).mpr hstanding.owner)
  have hboth := hposted.trans hsale
  have hitem : e.itemGuid ∈ (w'.sendAuctionSuccessfulMail c
      { e with bidder := bidder, bid := bid }).aItems := by
    rw [hboth.aItems]
    exact h.kept e he
  have hwon : Posted e.id [] [⟨e.id, .won, bidder, 0, some e.itemGuid⟩]
      (w'.sendAuctionSuccessfulMail c { e with bidder := bidder, bid := bid })
      ((w'.sendAuctionSuccessfulMail c { e with bidder := bidder, bid := bid }).sendAuctionWonMail
        { e with bidder := bidder, bid := bid }) := by
    unfold AuctionWorld.sendAuctionWonMail
    rw [if_neg (not_not.mpr hitem)]
    exact posted_sendMail rfl ((hboth.exists_iff bidder).mpr hexists)
  refine h.close he (hboth.trans hwon) ?_
  have hdone := hescrowed.sold c hbidder (within_word hcap hstanding.deposit)
  rw [hwon.debits, hwon.mails, hsale.debits, hsale.mails, List.append_nil, List.append_nil]
  exact hdone

/-- Giving the item back, once the bid has gone back, keeps the order. -/
theorem InOrder.giveBack {ms : List AuctionMail} {w' : AuctionWorld} (h : InOrder c w)
    (he : e ∈ w.auctions) (hposted : Posted e.id [] ms w w') {kind : MailKind}
    (hkind : kind ≠ .successful) (hback : ∀ q, refunded ms e.id q =
      if e.bidder ≠ 0 ∧ q e.bidder then e.bid.toNat else 0)
    (hitems : itemMails ms e.id = []) (hsales : saleMails ms e.id = []) :
    InOrder c ((w'.sendMail ⟨e.id, kind, e.owner, 0, some e.itemGuid⟩).removeAuction e false) := by
  have hstanding := h.standing e he
  have hreturn : Posted e.id [] [⟨e.id, kind, e.owner, 0, some e.itemGuid⟩] w' _ :=
    posted_sendMail rfl ((hposted.exists_iff e.owner).mpr hstanding.owner)
  refine h.close he (hposted.trans hreturn) ?_
  have hdone := (h.escrowed e he).unsold c hkind hback hitems hsales
    (within_word hstanding.bid hstanding.deposit)
  rw [hreturn.debits, hreturn.mails, hposted.debits, hposted.mails, List.append_nil,
    List.append_nil]
  exact hdone

/-- A bid and a buyout keep the order. -/
theorem InOrder.handleAuctionPlaceBid (h : InOrder c w) (player : UInt32)
    (houseId auctionId : ℕ) (price : UInt32) (allowed : Bool) :
    InOrder c (w.handleAuctionPlaceBid c player houseId auctionId price allowed) := by
  unfold AuctionWorld.handleAuctionPlaceBid
  split
  · exact h
  · split
    · next p e hp hauction =>
      have he := getAuction_mem hauction
      have hguid := findCharacter_guid hp
      have hp' : w.findCharacter p.guid = some p := hguid ▸ hp
      obtain ⟨hne, hcap⟩ := h.people _ p hp'
      have hstanding := h.standing e he
      have hthere : w.Exists p.guid := by
        show (w.findCharacter p.guid).isSome = true
        rw [hp']
        rfl
      split
      · exact h
      · next hmay =>
        obtain ⟨hmore, hprice⟩ := mayBid_spec (Bool.not_eq_false _ ▸ hmay)
        split
        · next hbid =>
          obtain ⟨ds, ms, hposted, hitems, hsales, hheld⟩ :=
            takeBid_spec hp' hcap hne hstanding hmore hprice
          have hescrowed := (h.escrowed e he).bid hheld hitems hsales
          rw [← hposted.debits, ← hposted.mails] at hescrowed
          refine h.bid he hposted ?_ hescrowed
          exact
            { owner := (hposted.exists_iff _).mpr hstanding.owner
              bidder := fun _ => (hposted.exists_iff _).mpr hthere
              bid := UInt32.le_trans hprice hcap
              deposit := hstanding.deposit
              below := fun hbuyout => hbid.resolve_right hbuyout }
        · next hbuyout =>
          rw [not_or, UInt32.not_lt] at hbuyout
          -- the bid that stands is below the buyout, and the bidder has that much
          have hafford := UInt32.le_trans hbuyout.1 hprice
          obtain ⟨ds, ms, hposted, hitems, hsales, hheld⟩ :=
            takeBid_spec hp' hcap hne hstanding (hstanding.below hbuyout.2) hafford
          have hescrowed := (h.escrowed e he).bid hheld hitems hsales
          rw [← hposted.debits, ← hposted.mails] at hescrowed
          exact h.sell he hposted hne hthere (UInt32.le_trans hafford hcap) hescrowed
    · exact h

/-- Cancelling an auction keeps the order. -/
theorem InOrder.handleAuctionRemoveItem (h : InOrder c w) (player : UInt32)
    (houseId auctionId : ℕ) : InOrder c (w.handleAuctionRemoveItem c player houseId auctionId) := by
  unfold AuctionWorld.handleAuctionRemoveItem
  split
  · next p e hp hauction =>
    have he := getAuction_mem hauction
    have hguid := findCharacter_guid hp
    have hp' : w.findCharacter p.guid = some p := hguid ▸ hp
    have hstanding := h.standing e he
    split
    · exact h
    · next howner =>
      rw [← not_not.mp howner]
      split
      · exact h
      · split
        · next hnone =>
          exact h.giveBack he (.refl _ _) (by simp) (fun q => by simp [hnone, refunded]) rfl rfl
        · next hbidder =>
          split
          · exact h
          · next hcut =>
            have hback : Posted e.id [] [⟨e.id, .cancelledToBidder, e.bidder, e.bid, none⟩] w
                (w.sendAuctionCancelledToBidderMail e) :=
              posted_sendMail rfl (hstanding.bidder hbidder)
            have hsame : (w.sendAuctionCancelledToBidderMail e).findCharacter p.guid = some p := by
              unfold AuctionWorld.findCharacter
              unfold AuctionWorld.sendAuctionCancelledToBidderMail AuctionWorld.sendMail
              rw [if_pos (hstanding.bidder hbidder)]
              exact hp'
            have htaken := hback.trans (posted_modifyMoney hsame (h.people _ p hp').2
              (UInt32.not_lt.mp hcut))
            refine h.giveBack he htaken (by simp) (fun q => ?_) (by simp [itemMails])
              (by simp [saleMails])
            rw [List.append_nil, refunded_singleton]
            simp [hbidder]
  · exact h

/-- An entry that expires, or does not yet, keeps the order. -/
theorem InOrder.expire (h : InOrder c w) (he : e ∈ w.auctions) (curTime : ℕ) :
    InOrder c (AuctionWorld.expire c curTime w e) := by
  have hstanding := h.standing e he
  unfold AuctionWorld.expire
  split
  · split
    · next hnone =>
      unfold AuctionWorld.sendAuctionExpiredMail
      rw [if_neg (not_not.mpr (h.kept e he))]
      exact h.giveBack he (.refl _ _) (by simp) (fun q => by simp [hnone, refunded]) rfl rfl
    · next hbidder =>
      exact h.sell he (.refl _ _) hbidder (hstanding.bidder hbidder) hstanding.bid
        (h.escrowed e he)
  · exact h

@[simp] theorem sendMail_auctions (m : AuctionMail) : (w.sendMail m).auctions = w.auctions := by
  unfold AuctionWorld.sendMail
  split <;> rfl

/-- The other entries stay when one expires. -/
theorem mem_expire {e' : AuctionEntry} (curTime : ℕ) (he' : e' ∈ w.auctions) (hne : e'.id ≠ e.id) :
    e' ∈ (AuctionWorld.expire c curTime w e).auctions := by
  have hremoved : ∀ {w' : AuctionWorld} {sold : Bool}, w'.auctions = w.auctions →
      e' ∈ (w'.removeAuction e sold).auctions := by
    intro w' sold hsame
    show e' ∈ Lib.eraseKey AuctionEntry.id e.id w'.auctions
    rw [hsame]
    exact Lib.mem_eraseKey.mpr ⟨he', hne⟩
  unfold AuctionWorld.expire
  split
  · split
    · refine hremoved ?_
      unfold AuctionWorld.sendAuctionExpiredMail
      split <;> simp
    · refine hremoved ?_
      unfold AuctionWorld.sendAuctionWonMail AuctionWorld.sendAuctionSuccessfulMail
      split <;> simp
  · exact he'

/-- The loop of the update, over entries that are there. -/
theorem InOrder.expireAll (h : InOrder c w) (curTime : ℕ) {es : List AuctionEntry}
    (hids : (es.map AuctionEntry.id).Nodup) (hthere : ∀ e ∈ es, e ∈ w.auctions) :
    InOrder c (es.foldl (AuctionWorld.expire c curTime) w) := by
  induction es generalizing w with
  | nil => exact h
  | cons e rest ih =>
      rw [List.map_cons, List.nodup_cons] at hids
      refine ih (h.expire (hthere e List.mem_cons_self) curTime) hids.2 fun e' he' => ?_
      refine mem_expire curTime (hthere e' (List.mem_cons_of_mem _ he')) fun heq => ?_
      exact hids.1 (heq ▸ List.mem_map_of_mem he')

/-- The update keeps the order. -/
theorem InOrder.update (h : InOrder c w) (houseId curTime : ℕ) :
    InOrder c (w.update c houseId curTime) :=
  h.expireAll curTime (h.ids.sublist (List.Sublist.map _ List.filter_sublist))
    fun _ he => (List.mem_filter.mp he).1

/-- Every event keeps the order. -/
theorem InOrder.auctionStep (h : InOrder c w) (event : AuctionEvent) :
    InOrder c (auctionStep c w event) := by
  cases event with
  | sell player req now => exact h.handleAuctionSellItem player req now
  | placeBid player houseId auctionId price allowed =>
      exact h.handleAuctionPlaceBid player houseId auctionId price allowed
  | removeItem player houseId auctionId => exact h.handleAuctionRemoveItem player houseId auctionId
  | update houseId curTime => exact h.update houseId curTime
  | session player online => exact h.writeCharacter player (fun _ => rfl) fun _ hcap => hcap
  | purse player balance =>
      refine h.writeCharacter player (fun _ => rfl) fun p _ => ?_
      show min balance maxMoneyAmount ≤ maxMoneyAmount
      rw [UInt32.le_iff_toNat_le, UInt32.toNat_min]
      exact Nat.min_le_right _ _

/-- Characters as `LoadFromDB` leaves them: they have guids, and purses within the cap. -/
def Loaded (characters : List Character) : Prop :=
  ∀ p ∈ characters, p.guid ≠ 0 ∧ p.money ≤ maxMoneyAmount

/-- The houses are in order before the first auction. -/
theorem inOrder_opened {characters : List Character} (h : Loaded characters) :
    InOrder c (opened characters) where
  once := List.nodup_nil
  debits := by simp [opened]
  mails := by simp [opened]
  escrowed := by simp [opened]
  settled := by simp [opened]
  fresh := by simp [opened, AuctionWorld.listed]
  used := by simp [opened]
  items := List.nodup_nil
  kept := by simp [opened]
  people guid p hp := by
    have hmem : p ∈ characters := List.mem_of_find?_eq_some hp
    exact findCharacter_guid hp ▸ h p hmem
  standing := by simp [opened]

/-- The law of the escrow holds after every run. -/
theorem run_escrow (c : HouseConfig) {characters : List Character} (h : Loaded characters)
    (events : List AuctionEvent) :
    EscrowLaw c (Lib.run (auctionStep c) (opened characters) events) := by
  have hrun : InOrder c (Lib.run (auctionStep c) (opened characters) events) :=
    Lib.run_invariant (InOrder c) (fun _ event _ hw => hw.auctionStep event) (inOrder_opened h)
      (Lib.along_of_forall (fun _ _ => trivial) _ _)
  exact hrun.toEscrowLaw

/-- A seller and two bidders. -/
def threeCharacters : List Character :=
  [⟨1, 1, 1000, true⟩, ⟨2, 2, 1000, true⟩, ⟨3, 3, 1000, true⟩]

/-- A bid, a higher one that is raised, and the end of the auction. -/
def fourBids : List AuctionEvent :=
  [.sell 1 ⟨7, 50, 100, 800, 120, 10, true, true⟩ 0, .placeBid 2 7 1 100 true,
    .placeBid 3 7 1 200 true, .placeBid 3 7 1 300 true, .update 7 100000]

/-- A house that cuts ten copper and leaves a request its time. -/
def tenCopper : HouseConfig := ⟨fun _ _ => 10, UInt32.toNat, 0⟩

/-- The second bidder gets the item for 300 and the first one his 100 back; the seller gets the bid and
his deposit, less the cut. -/
theorem run_escrow_fourBids :
    EscrowLaw tenCopper (Lib.run (auctionStep tenCopper) (opened threeCharacters) fourBids) ∧
      (Lib.run (auctionStep tenCopper) (opened threeCharacters) fourBids).mails.map
          (fun m => (m.kind, m.receiver, m.money)) =
        [(.outbidded, 2, 100), (.successful, 1, 300), (.won, 3, 0)] :=
  ⟨run_escrow tenCopper (by unfold Loaded; decide) fourBids, by decide +kernel⟩

end TwowCore.Auctions
