import TwowCore.Trade.TradeData

/-!
# The integrity of a trade

Every change of what a side offers takes back the acceptance of the other, so that what a side has
accepted is what it is still offered. That holds of the trade data; it fails for the items behind it:
`SwapItem`, `DestroyItem` and `SplitItem` onto a stack change an item in the trade window without a
word to `TradeData`.
-/

namespace TwowCore.Trade

variable {trade trade' trade'' : Side → TradeData} {side : Side}

@[simp] theorem Side.trader_trader (side : Side) : side.trader.trader = side := by
  cases side <;> rfl

theorem Side.ne_trader (side : Side) : side ≠ side.trader := by
  cases side <;> exact Side.noConfusion

theorem Side.eq_or (side other : Side) : other = side ∨ other = side.trader := by
  cases side <;> cases other <;> first | exact Or.inl rfl | exact Or.inr rfl

section Kept

/-- A side offers the same, as far as `TradeData` says it. -/
def SameOffer (data data' : TradeData) : Prop :=
  data'.items = data.items ∧ data'.money = data.money ∧ data'.spell = data.spell

theorem SameOffer.trans {data data' data'' : TradeData} (h : SameOffer data data')
    (h' : SameOffer data' data'') : SameOffer data data'' :=
  ⟨h'.1.trans h.1, h'.2.1.trans h.2.1, h'.2.2.trans h.2.2⟩

/-- What a handler does to the trade data: nobody accepts any more, or the offers are the same and
nobody has newly accepted. -/
def Kept (trade trade' : Side → TradeData) : Prop :=
  (∀ side, (trade' side).accepted = false) ∨
    ∀ side, SameOffer (trade side) (trade' side) ∧
      ((trade' side).accepted → (trade side).accepted)

theorem Kept.refl (trade : Side → TradeData) : Kept trade trade :=
  Or.inr fun _ => ⟨⟨rfl, rfl, rfl⟩, id⟩

theorem Kept.trans (h : Kept trade trade') (h' : Kept trade' trade'') : Kept trade trade'' := by
  rcases h' with hnone' | hsame'
  · exact Or.inl hnone'
  · rcases h with hnone | hsame
    · refine Or.inl fun side => Bool.eq_false_iff.mpr fun haccepted => ?_
      have hbefore := (hsame' side).2 haccepted
      rw [hnone side] at hbefore
      cases hbefore
    · exact Or.inr fun side =>
        ⟨(hsame side).1.trans (hsame' side).1, fun h => (hsame side).2 ((hsame' side).2 h)⟩

/-- An acceptance is taken back. -/
theorem kept_setAccepted (trade : Side → TradeData) (side : Side) :
    Kept trade (setAccepted trade side false) := by
  refine Or.inr fun other => ?_
  unfold setAccepted
  by_cases hother : other = side
  · subst hother
    rw [Function.update_self]
    exact ⟨⟨rfl, rfl, rfl⟩, fun h => Bool.noConfusion h⟩
  · rw [Function.update_of_ne hother]
    exact ⟨⟨rfl, rfl, rfl⟩, id⟩

theorem kept_setLastModificationTime (trade : Side → TradeData) (side : Side) (now : ℕ) :
    Kept trade (setLastModificationTime trade side now) := by
  refine Or.inr fun other => ?_
  unfold setLastModificationTime
  by_cases hother : other = side
  · subst hother
    rw [Function.update_self]
    exact ⟨⟨rfl, rfl, rfl⟩, id⟩
  · rw [Function.update_of_ne hother]
    exact ⟨⟨rfl, rfl, rfl⟩, id⟩

/-- Nobody accepts, whatever has been written. -/
theorem kept_unacceptBoth (trade trade' : Side → TradeData) (side : Side) :
    Kept trade (unacceptBoth trade' side) := by
  refine Or.inl fun other => ?_
  unfold unacceptBoth setAccepted
  rcases side.eq_or other with rfl | rfl
  · rw [Function.update_of_ne other.ne_trader, Function.update_self]
  · rw [Function.update_self]

theorem kept_setSpell (trade : Side → TradeData) (side : Side) (spell castItem : UInt32) :
    Kept trade (setSpell trade side spell castItem) := by
  unfold setSpell
  split_ifs
  · exact Kept.refl trade
  · exact kept_unacceptBoth trade _ side

theorem kept_setMoney (trade : Side → TradeData) (side : Side) (money : UInt32) :
    Kept trade (setMoney trade side money) := by
  unfold setMoney
  split_ifs
  · exact Kept.refl trade
  · exact kept_unacceptBoth trade _ side

theorem kept_setItem (trade : Side → TradeData) (side : Side) (slot : TradeSlots) (guid : UInt32) :
    Kept trade (setItem trade side slot guid) := by
  unfold setItem
  dsimp only
  split_ifs with hsame hnontraded
  · exact Kept.refl trade
  · exact ((kept_unacceptBoth trade _ side).trans (kept_setSpell _ side.trader 0 0)).trans
      (kept_setSpell _ side 0 0)
  · exact (kept_unacceptBoth trade _ side).trans (kept_setSpell _ side 0 0)

theorem kept_modified (trade : Side → TradeData) (side : Side) (now : ℕ) :
    Kept trade (modified trade side now) :=
  ((kept_setAccepted trade side.trader).trans
    (kept_setLastModificationTime _ side.trader now)).trans
      (kept_setLastModificationTime _ side now)

end Kept

namespace Traders

variable {T : ItemTable} {s s' : Traders T} {env : AcceptEnv}

/-- Who has accepted is offered what he has seen. -/
def Promise (s : Traders T) : Prop :=
  ∀ trade, s.trade = some trade → ∀ side, (trade side).accepted →
    s.seen side = some (s.offerOf trade side.trader)

/-- What a side offers is read from its trade data and from its items. -/
theorem offerOf_congr (hdata : SameOffer (trade side) (trade' side))
    (hitems : ∀ slot, (s'.trader side).items ((trade' side).items (tradedSlot slot)) =
      (s.trader side).items ((trade' side).items (tradedSlot slot))) :
    s'.offerOf trade' side = s.offerOf trade side := by
  obtain ⟨hslots, hmoney, hspell⟩ := hdata
  unfold offerOf itemOf
  rw [hmoney, hspell]
  congr 1
  funext slot
  rw [hitems, hslots]

section TradeData

/-- The handlers of the trade data keep the promise. -/
theorem Promise.setTrade (h : s.Promise) (htrade : s.trade = some trade)
    (hkept : Kept trade trade') : (s.setTrade trade').Promise := by
  intro current hcurrent other haccepted
  obtain rfl : trade' = current := Option.some.inj hcurrent
  rcases hkept with hnone | hsame
  · rw [hnone other] at haccepted
    cases haccepted
  · have hbefore := h trade htrade other ((hsame other).2 haccepted)
    have hoffer : (s.setTrade trade').offerOf trade' other.trader = s.offerOf trade other.trader :=
      offerOf_congr (hsame other.trader).1 fun _ => rfl
    rw [hoffer]
    exact hbefore

theorem Promise.handleSetTradeGold (h : s.Promise) (side : Side) (gold : UInt32) (now : ℕ) :
    (s.handleSetTradeGold side gold now).Promise := by
  unfold Traders.handleSetTradeGold
  cases htrade : s.trade with
  | none => exact h
  | some trade =>
      simp only
      split_ifs
      · exact h
      · exact h.setTrade htrade ((kept_modified trade side now).trans (kept_setMoney _ side gold))

theorem Promise.handleSetTradeItem (h : s.Promise) (side : Side) (slot : TradeSlots)
    (guid : UInt32) (allowed : Bool) (now : ℕ) :
    (s.handleSetTradeItem side slot guid allowed now).Promise := by
  unfold Traders.handleSetTradeItem
  cases htrade : s.trade with
  | none => exact h
  | some trade =>
      simp only
      split_ifs
      · exact h
      · exact h.setTrade htrade
          ((kept_modified trade side now).trans (kept_setItem _ side slot guid))

theorem Promise.handleClearTradeItem (h : s.Promise) (side : Side) (slot : TradeSlots) (now : ℕ) :
    (s.handleClearTradeItem side slot now).Promise := by
  unfold Traders.handleClearTradeItem
  cases htrade : s.trade with
  | none => exact h
  | some trade =>
      exact h.setTrade htrade ((kept_modified trade side now).trans (kept_setItem _ side slot 0))

theorem Promise.castOnTradeItem (h : s.Promise) (side : Side) (spell castItem : UInt32) :
    (s.castOnTradeItem side spell castItem).Promise := by
  unfold Traders.castOnTradeItem
  cases htrade : s.trade with
  | none => exact h
  | some trade => exact h.setTrade htrade (kept_setSpell trade side spell castItem)

theorem Promise.handleUnacceptTrade (h : s.Promise) (side : Side) :
    (s.handleUnacceptTrade side).Promise := by
  unfold Traders.handleUnacceptTrade
  cases htrade : s.trade with
  | none => exact h
  | some trade => exact h.setTrade htrade (kept_setAccepted trade side)

theorem Promise.beginTrade (h : s.Promise) : s.beginTrade.Promise := by
  unfold Traders.beginTrade
  split_ifs
  · intro trade htrade other haccepted
    obtain rfl := Option.some.inj htrade
    cases haccepted
  · exact h

theorem promise_tradeCancel : s.tradeCancel.Promise := by
  intro trade htrade
  cases htrade

end TradeData

section Inventory

/-- The item is not offered to a trader who has accepted. -/
def Unpromised (s : Traders T) (side : Side) (guid : UInt32) : Prop :=
  ∀ trade, s.trade = some trade → (trade side.trader).accepted →
    ∀ slot, (trade side).items (tradedSlot slot) ≠ guid

/-- Items that are not promised to anybody change. -/
theorem Promise.setTrader (h : s.Promise) {trader : Trader T}
    (hitems : ∀ guid, trader.items guid ≠ (s.trader side).items guid → s.Unpromised side guid) :
    (s.setTrader side trader).Promise := by
  intro trade htrade other haccepted
  have hseen := h trade htrade other haccepted
  have hoffer : (s.setTrader side trader).offerOf trade other.trader =
      s.offerOf trade other.trader := by
    refine offerOf_congr ⟨rfl, rfl, rfl⟩ fun slot => ?_
    show (Function.update s.trader side trader other.trader).items _ = _
    by_cases hside : other.trader = side
    · subst hside
      rw [Function.update_self]
      by_contra hchanged
      refine hitems _ hchanged trade htrade ?_ slot rfl
      rw [Side.trader_trader]
      exact haccepted
    · rw [Function.update_of_ne hside]
  rw [hoffer]
  exact hseen

theorem setItem_items_of_ne (trader : Trader T) {guid other : UInt32} (item : Option (Item T))
    (hne : other ≠ guid) : (trader.setItem guid item).items other = trader.items other :=
  Function.update_of_ne hne _ _

/-- `StoreItem` changes the items of its plan. -/
theorem storeItem_items (plan : StorePlan) (trader : Trader T) (item : Item T) {guid : UInt32}
    (hguid : ∀ place ∈ plan, place.1 ≠ guid) :
    (trader.storeItem plan item).items guid = trader.items guid := by
  unfold Trader.storeItem
  induction plan generalizing trader with
  | nil => rfl
  | cons place rest ih =>
      have hrest : ∀ other ∈ rest, other.1 ≠ guid := fun other hother =>
        hguid other (List.mem_cons_of_mem _ hother)
      have hne : guid ≠ place.1 := (hguid place List.mem_cons_self).symm
      rw [List.foldl_cons, ih _ hrest]
      unfold Trader.storeAt
      split
      · exact setItem_items_of_ne trader _ hne
      · exact setItem_items_of_ne trader _ hne

/-- `SplitItem`, when it stores onto no stack that is promised. -/
theorem Promise.splitItem (h : s.Promise) (side : Side) (src count : UInt32) (lootGenerated : Bool)
    (places : List UInt32)
    (hplan : ∀ item, (s.trader side).items src = some item →
      ∀ place ∈ (s.splitPlan side item src count places).1, s.Unpromised side place.1) :
    (s.splitItem side src count lootGenerated places).Promise := by
  unfold Traders.splitItem
  cases hitem : (s.trader side).items src with
  | none => exact h
  | some item =>
      simp only
      split_ifs with hrefused hroom
      · exact h
      · refine h.setTrader fun guid hchanged => ?_
        by_cases hsrc : guid = src
        · -- the item that is split does not lie in the trade window
          subst hsrc
          intro trade htrade _ slot hslot
          refine hrefused (Or.inr (Or.inr (Or.inr ?_)))
          unfold InTradeSlot
          rw [htrade]
          exact ⟨tradedSlot slot, hslot⟩
        · by_cases hstored : ∃ place ∈ (s.splitPlan side item src count places).1, place.1 = guid
          · obtain ⟨place, hplace, rfl⟩ := hstored
            exact hplan item hitem place hplace
          · refine absurd ?_ hchanged
            rw [storeItem_items _ _ _ fun place hplace heq => hstored ⟨place, hplace, heq⟩]
            exact setItem_items_of_ne _ _ hsrc
      · exact h

/-- `SwapItem`, when it merges no items that are promised. -/
theorem Promise.swapItem (h : s.Promise) (side : Side) (src dst : UInt32) (merges : Bool)
    (hitems : merges → s.Unpromised side src ∧ s.Unpromised side dst) :
    (s.swapItem side src dst merges).Promise := by
  -- both branches write these two items
  have hwrites : merges = true → ∀ first second : Option (Item T),
      (s.setTrader side (((s.trader side).setItem src first).setItem dst second)).Promise := by
    intro hmerges first second
    obtain ⟨hsrc, hdst⟩ := hitems hmerges
    refine h.setTrader fun guid hchanged => ?_
    by_cases hguid : guid = dst
    · exact hguid ▸ hdst
    · by_cases hguid' : guid = src
      · exact hguid' ▸ hsrc
      · refine absurd ?_ hchanged
        rw [setItem_items_of_ne _ _ hguid, setItem_items_of_ne _ _ hguid']
  unfold Traders.swapItem
  cases hsrc : (s.trader side).items src with
  | none => exact h
  | some srcItem =>
      cases hdst : (s.trader side).items dst with
      | none => exact h
      | some dstItem =>
          simp only
          split_ifs with hrefused
          · exact h
          · exact hwrites (by simpa using fun heq => hrefused (Or.inl heq)) _ _
          · exact hwrites (by simpa using fun heq => hrefused (Or.inl heq)) _ _

/-- `HandleDestroyItemOpcode`, when the item is not promised. -/
theorem Promise.destroyItem (h : s.Promise) (side : Side) (guid count : UInt32) (allowed : Bool)
    (hitem : allowed → s.Unpromised side guid) :
    (s.destroyItem side guid count allowed).Promise := by
  have hwrites : allowed = true → ∀ item : Option (Item T),
      (s.setTrader side ((s.trader side).setItem guid item)).Promise := by
    intro hallowed item
    refine h.setTrader fun other hchanged => ?_
    by_cases hother : other = guid
    · exact hother ▸ hitem hallowed
    · exact absurd (setItem_items_of_ne _ _ hother) hchanged
  unfold Traders.destroyItem
  cases hfound : (s.trader side).items guid with
  | none => exact h
  | some item =>
      simp only
      split_ifs with hrefused
      · exact h
      · exact hwrites (by simpa using hrefused) _
      · exact hwrites (by simpa using hrefused) _

end Inventory

section Accept

/-- The purse of a side can take what it gets for what it gives. -/
def PurseHolds (s : Traders T) (trade : Side → TradeData) (side : Side) : Prop :=
  (s.trader side).money ≤ maxMoneyAmount ∧
    (s.trader side).money.toNat + (trade side.trader).money.toNat ≤
      maxMoneyAmount.toNat + (trade side).money.toNat

instance (trade : Side → TradeData) (side : Side) : Decidable (s.PurseHolds trade side) :=
  inferInstanceAs (Decidable (_ ∧ _))

/-- What `HandleAcceptTradeOpcode` does when the side has accepted: nothing more, some acceptance is
taken back, or the exchange. -/
structure Exchanged (s : Traders T) (side : Side) (env : AcceptEnv) (trade : Side → TradeData)
    (result : Traders T × Option (Side → Offer)) : Prop where
  accepted : (trade side.trader).accepted
  canStore : env.canStoreItems side
  canStore' : env.canStoreItems side.trader
  pays : (trade side).money ≤ (s.trader side).money
  pays' : (trade side.trader).money ≤ (s.trader side.trader).money
  done : result =
    ({ s with trader := s.afterExchange env trade, trade := none }, some (s.receipt env trade))

theorem completeTrade_cases {s : Traders T} {side : Side} {result : Traders T × Option (Side → Offer)}
    (hresult : s.completeTrade side env trade = result) :
    (∃ trade', Kept trade trade' ∧ result = (s.setTrade trade', none)) ∨
      (env.canStoreItems side ∧ env.canStoreItems side.trader ∧ result =
        ({ s with trader := s.afterExchange env trade, trade := none },
          some (s.receipt env trade))) := by
  unfold completeTrade at hresult
  split at hresult
  · exact Or.inl ⟨_, kept_setSpell trade side 0 0, hresult.symm⟩
  split at hresult
  · exact Or.inl ⟨_, kept_setSpell trade side.trader 0 0, hresult.symm⟩
  split at hresult
  · exact Or.inl ⟨_, (kept_unacceptBoth trade trade side).trans
      (kept_setLastModificationTime _ side.trader env.now), hresult.symm⟩
  · rename_i hroom
    rw [not_or, Bool.not_eq_false, Bool.not_eq_false] at hroom
    exact Or.inr ⟨hroom.1, hroom.2, hresult.symm⟩

theorem acceptedTrade_cases {s : Traders T} {side : Side} {result : Traders T × Option (Side → Offer)}
    (hresult : s.acceptedTrade side env trade = result) :
    result = (s, none) ∨ (∃ trade', Kept trade trade' ∧ result = (s.setTrade trade', none)) ∨
      s.Exchanged side env trade result := by
  unfold acceptedTrade at hresult
  split at hresult
  · exact Or.inl hresult.symm
  split at hresult
  · exact Or.inr (Or.inl ⟨_, kept_setAccepted trade side, hresult.symm⟩)
  rename_i hpays
  split at hresult
  · exact Or.inr (Or.inl ⟨_, kept_setAccepted trade side.trader, hresult.symm⟩)
  rename_i hpays'
  split at hresult
  · exact Or.inl hresult.symm
  split at hresult
  · exact Or.inl hresult.symm
  split at hresult
  · exact Or.inr (Or.inl ⟨_, kept_setAccepted trade side, hresult.symm⟩)
  split at hresult
  · rename_i haccepted
    rcases completeTrade_cases hresult with hset | ⟨hroom, hroom', hdone⟩
    · exact Or.inr (Or.inl hset)
    · exact Or.inr (Or.inr ⟨haccepted, hroom, hroom', UInt32.not_lt.mp hpays,
        UInt32.not_lt.mp hpays', hdone⟩)
  · exact Or.inl hresult.symm

/-- The storing does not touch the gold. -/
theorem storeItem_money (trader : Trader T) (plan : StorePlan) (item : Item T) :
    (trader.storeItem plan item).money = trader.money := by
  unfold Trader.storeItem
  induction plan generalizing trader with
  | nil => rfl
  | cons place rest ih =>
      rw [List.foldl_cons, ih]
      unfold Trader.storeAt
      split <;> rfl

theorem receive_money (trader : Trader T) (plan : StorePlan) (item : Option (Item T)) :
    (receive trader plan item).money = trader.money := by
  unfold receive
  split
  · rfl
  · exact storeItem_money _ _ _

theorem moveItem_money (s : Traders T) (env : AcceptEnv) (trade : Side → TradeData)
    (traders : Side → Trader T) (slot : Fin 6) (side : Side) :
    (s.moveItem env trade traders slot side).money = (traders side).money := by
  unfold moveItem
  split_ifs
  · exact receive_money _ _ _
  · unfold takeBack
    split
    · rfl
    · dsimp only
      split_ifs
      · exact storeItem_money _ _ _
      · rfl

/-- Nothing but `ModifyMoney` touches the gold. -/
theorem moved_money (s : Traders T) (env : AcceptEnv) (trade : Side → TradeData) (turns : ℕ)
    (side : Side) : (s.moved env trade turns side).money = (s.trader side).money := by
  have hremoved : (s.removed trade side).money = (s.trader side).money := by
    unfold removed
    generalize List.finRange 6 = slots
    generalize s.trader side = trader
    induction slots generalizing trader with
    | nil => rfl
    | cons slot rest ih => exact ih _
  rw [← hremoved]
  unfold moved
  generalize (List.finRange 6).take turns = slots
  generalize s.removed trade = traders
  induction slots generalizing traders with
  | nil => rfl
  | cons slot rest ih => exact (ih _).trans (moveItem_money s env trade traders slot side)

/-- The gold after the exchange. -/
theorem afterExchange_money (s : Traders T) (env : AcceptEnv) (trade : Side → TradeData)
    (side : Side) : (s.afterExchange env trade side).money =
      Player.modifiedMoney
        (Player.modifiedMoney (s.trader side).money (-(trade side).money.toInt32))
        (trade side.trader).money.toInt32 := by
  unfold afterExchange
  dsimp only
  rw [moved_money]

section Storing

variable {trader : Trader T} {item : Item T} {places : List UInt32}

/-- What is planned: places of the search, each once and with room, and all units with those that are left. -/
structure Planned (trader : Trader T) (item : Item T) (places : List UInt32) (dest : StorePlan × UInt32) :
    Prop where
  nodup : (dest.1.map Prod.fst).Nodup
  within : ∀ place ∈ dest.1, place.1 ∈ places
  fits : ∀ place ∈ dest.1, ∃ room, trader.room item place.1 = some room ∧ place.2 ≤ room
  sum : StorePlan.units dest.1 + dest.2.toNat = item.count.toNat

theorem Planned.planPlace {dest : StorePlan × UInt32} (h : Planned trader item places dest) {guid : UInt32}
    (hguid : guid ∈ places) : Planned trader item places (trader.planPlace item dest guid) := by
  unfold Trader.planPlace
  split_ifs with hpassed
  · exact h
  · obtain ⟨-, hnew⟩ := not_or.mp hpassed
    cases hroom : trader.room item guid with
    | none => exact h
    | some room =>
        dsimp only
        generalize hneed : (if dest.2 < room then dest.2 else room) = need
        have hle : need ≤ dest.2 ∧ need ≤ room := by
          rw [← hneed]
          simp only [UInt32.lt_iff_toNat_lt, UInt32.le_iff_toNat_le]
          split_ifs <;> omega
        have hcases : ∀ place ∈ dest.1 ++ [(guid, need)], place ∈ dest.1 ∨ place = (guid, need) := by
          intro place hplace
          rcases List.mem_append.mp hplace with hold | hadded
          · exact Or.inl hold
          · exact Or.inr (List.mem_singleton.mp hadded)
        refine ⟨?_, fun place hplace => ?_, fun place hplace => ?_, ?_⟩
        · rw [List.map_append, List.nodup_append]
          refine ⟨h.nodup, List.nodup_singleton _, fun other hother new hadded heq => hnew ?_⟩
          rw [List.map_singleton, List.mem_singleton] at hadded
          have hsame : other = guid := heq.trans hadded
          exact hsame ▸ hother
        · rcases hcases place hplace with hold | rfl
          · exact h.within place hold
          · exact hguid
        · rcases hcases place hplace with hold | rfl
          · exact h.fits place hold
          · exact ⟨room, hroom, hle.2⟩
        · have hsum := h.sum
          have hleft := UInt32.toNat_sub_of_le _ _ hle.1
          have hneedLe := UInt32.le_iff_toNat_le.mp hle.1
          unfold StorePlan.units at hsum ⊢
          rw [List.map_append, List.sum_append, List.map_singleton, List.sum_singleton, hleft]
          dsimp only
          omega

/-- What `CanStoreItem` plans. -/
theorem planned_canStoreItem (trader : Trader T) (item : Item T) (places : List UInt32) :
    Planned trader item places (trader.canStoreItem item places []) := by
  have hgo : ∀ (rest : List UInt32), (∀ guid ∈ rest, guid ∈ places) → ∀ dest : StorePlan × UInt32,
      Planned trader item places dest → Planned trader item places (rest.foldl (trader.planPlace item) dest) := by
    intro rest
    induction rest with
    | nil => exact fun _ _ h => h
    | cons guid rest ih =>
        intro hrest dest h
        exact ih (fun other hother => hrest other (List.mem_cons_of_mem _ hother)) _
          (h.planPlace (hrest guid List.mem_cons_self))
  refine hgo places (fun _ h => h) _ ⟨List.nodup_nil, ?_, ?_, ?_⟩
  · exact fun place hplace => absurd hplace List.not_mem_nil
  · exact fun place hplace => absurd hplace List.not_mem_nil
  · exact Nat.zero_add _

/-- Storing at a place with room adds the units there. -/
theorem unitsAt_storeAt {place : UInt32 × UInt32} (hin : place.1 ∈ places) {room : UInt32}
    (hroom : trader.room item place.1 = some room) (hle : place.2 ≤ room) :
    (trader.storeAt item place).unitsAt item.entry places =
      trader.unitsAt item.entry places + place.2.toNat := by
  have hwrite : ∀ new : Item T, unitsOf item.entry (some new) =
      unitsOf item.entry (trader.items place.1) + place.2.toNat →
      (trader.setItem place.1 (some new)).unitsAt item.entry places =
        trader.unitsAt item.entry places + place.2.toNat := by
    intro new hnew
    have hmem : place.1 ∈ places.toFinset := List.mem_toFinset.mpr hin
    unfold Trader.unitsAt
    rw [← Finset.add_sum_erase _ _ hmem, ← Finset.add_sum_erase _ _ hmem]
    have hself : (trader.setItem place.1 (some new)).items place.1 = some new := Function.update_self _ _ _
    have hothers : ∑ guid ∈ places.toFinset.erase place.1,
          unitsOf item.entry ((trader.setItem place.1 (some new)).items guid) =
        ∑ guid ∈ places.toFinset.erase place.1, unitsOf item.entry (trader.items guid) := by
      refine Finset.sum_congr rfl fun guid hguid => ?_
      rw [setItem_items_of_ne _ _ (Finset.ne_of_mem_erase hguid)]
    rw [hself, hothers, hnew]
    omega
  unfold Trader.room at hroom
  unfold Trader.storeAt
  cases hfound : trader.items place.1 with
  | none =>
      refine hwrite _ ?_
      rw [hfound]
      show (if item.entry = item.entry then place.2.toNat else 0) = 0 + place.2.toNat
      rw [if_pos rfl, Nat.zero_add]
  | some stack =>
      rw [hfound] at hroom
      dsimp only at hroom
      split_ifs at hroom with hmerge
      obtain ⟨hentry, hless, -⟩ := Item.canBeMergedPartlyWith_ok.mp hmerge
      have hentry : stack.entry = item.entry := hentry
      obtain rfl := Option.some.inj hroom
      refine hwrite _ ?_
      rw [hfound]
      show (if stack.entry = item.entry then (stack.count + place.2).toNat else 0) =
        (if stack.entry = item.entry then stack.count.toNat else 0) + place.2.toNat
      rw [if_pos hentry, if_pos hentry]
      -- a stack with room does not overflow
      have hbelow := UInt32.lt_iff_toNat_lt.mp hless
      have hmax : item.getMaxStackCount = item.proto.stackable := rfl
      have hfits := UInt32.le_iff_toNat_le.mp hle
      rw [hmax, UInt32.toNat_sub_of_le _ _ (UInt32.le_of_lt hless)] at hfits
      have hbound := item.proto.stackable.toNat_lt
      rw [UInt32.toNat_add, Nat.mod_eq_of_lt]
      omega

/-- `StoreItem` adds the units of its plan. -/
theorem unitsAt_storeItem {plan : StorePlan} (hnodup : (plan.map Prod.fst).Nodup)
    (hwithin : ∀ place ∈ plan, place.1 ∈ places)
    (hfits : ∀ place ∈ plan, ∃ room, trader.room item place.1 = some room ∧ place.2 ≤ room) :
    (trader.storeItem plan item).unitsAt item.entry places =
      trader.unitsAt item.entry places + plan.units := by
  induction plan generalizing trader with
  | nil => rfl
  | cons place rest ih =>
      obtain ⟨hnew, hrest⟩ := List.nodup_cons.mp (List.map_cons ▸ hnodup)
      obtain ⟨room, hroom, hle⟩ := hfits place List.mem_cons_self
      have hstored : trader.storeItem (place :: rest) item = (trader.storeAt item place).storeItem rest item := rfl
      have hunits : StorePlan.units (place :: rest) = place.2.toNat + StorePlan.units rest := List.sum_cons
      rw [hstored, ih hrest (fun other hother => hwithin other (List.mem_cons_of_mem _ hother)) ?_,
        unitsAt_storeAt (hwithin place List.mem_cons_self) hroom hle, hunits, Nat.add_assoc]
      intro other hother
      have hne : other.1 ≠ place.1 := fun heq => hnew (heq ▸ List.mem_map_of_mem hother)
      have hsame : (trader.storeAt item place).room item other.1 = trader.room item other.1 := by
        have hitems : (trader.storeAt item place).items other.1 = trader.items other.1 := by
          unfold Trader.storeAt
          split
          · exact setItem_items_of_ne _ _ hne
          · exact setItem_items_of_ne _ _ hne
        unfold Trader.room
        rw [hitems]
      rw [hsame]
      exact hfits other (List.mem_cons_of_mem _ hother)

/-- The inventory grows by the item, wherever `CanStoreItem` finds room for all of it. -/
theorem unitsAt_received (hroom : (trader.canStoreItem item places []).2 = 0) :
    (trader.storeItem (trader.canStoreItem item places []).1 item).unitsAt item.entry places =
      trader.unitsAt item.entry places + item.count.toNat := by
  have hplanned := planned_canStoreItem trader item places
  have hsum := hplanned.sum
  rw [hroom] at hsum
  rw [unitsAt_storeItem hplanned.nodup hplanned.within hplanned.fits, ← hsum]
  rfl

end Storing

/-- One turn of `moveItems` after the other. -/
theorem moved_succ (s : Traders T) (env : AcceptEnv) (trade : Side → TradeData) (slot : Fin 6) :
    s.moved env trade (slot + 1) = s.moveItem env trade (s.moved env trade slot) slot := by
  fin_cases slot <;> rfl

/-- When `moveItems` finds room for all and the purse holds, a side receives what it is offered. -/
theorem receipt_eq {trade : Side → TradeData}
    (hall : ∀ slot : Fin 6, s.exchanged env trade (s.moved env trade slot) slot)
    (hpays : (trade side).money ≤ (s.trader side).money) (hpurse : s.PurseHolds trade side) :
    s.receipt env trade side = s.offerOf trade side.trader := by
  obtain ⟨hmax, hsum⟩ := hpurse
  have hmaximum : maxMoneyAmount.toNat = 2 ^ 31 - 2 := rfl
  have hpaid := Player.modifiedMoney_pay hpays hmax
  have hless : (s.trader side).money - (trade side).money ≤ maxMoneyAmount := by
    rw [UInt32.le_iff_toNat_le, UInt32.toNat_sub_of_le _ _ hpays]
    rw [UInt32.le_iff_toNat_le] at hmax
    omega
  have hreceived : (Player.modifiedMoney ((s.trader side).money - (trade side).money)
      (trade side.trader).money.toInt32).toNat =
        ((s.trader side).money - (trade side).money).toNat + (trade side.trader).money.toNat := by
    refine (Player.modifiedMoney_receive hless).mpr (Or.inl ?_)
    rw [UInt32.toNat_sub_of_le _ _ hpays]
    rw [UInt32.le_iff_toNat_le] at hpays
    omega
  unfold receipt offerOf
  congr 1
  · funext slot
    show (s.given side.trader trade slot).map _ = (s.given side.trader trade slot).map _
    cases hgiven : s.given side.trader trade slot with
    | none => rfl
    | some item =>
        have hroom : (s.dst env trade (s.moved env trade slot) slot side).2 = 0 := by
          obtain ⟨hmine, hhis⟩ := of_decide_eq_true (hall slot)
          cases side with
          | mine => exact hmine
          | his => exact hhis
        have hdst : s.dst env trade (s.moved env trade slot) slot side =
            (s.moved env trade slot side).canStoreItem item (env.places side slot) [] := by
          unfold dst
          rw [hgiven]
        have hmoved : s.moved env trade (slot + 1) side =
            (s.moved env trade slot side).storeItem
              ((s.moved env trade slot side).canStoreItem item (env.places side slot) []).1 item := by
          rw [moved_succ]
          unfold moveItem
          rw [if_pos (hall slot), hgiven, hdst]
          rfl
        rw [hdst] at hroom
        rw [Option.map_some, Option.map_some, hmoved, unitsAt_received hroom, Nat.add_sub_cancel_left,
          UInt32.ofNat_toNat]
  · rw [afterExchange_money, hpaid]
    refine UInt32.toNat.inj ?_
    rw [UInt32.toNat_sub_of_le, hreceived, Nat.add_sub_cancel_left]
    rw [UInt32.le_iff_toNat_le, hreceived]
    exact Nat.le_add_right _ _

/-- Accepting changes no offer. -/
theorem sameOffer_accept (side : Side) (env : AcceptEnv) (trade : Side → TradeData) (other : Side) :
    SameOffer (trade other) (accept side env trade other) := by
  unfold accept setAccepted setLastModificationTime
  by_cases hother : other = side
  · subst hother
    rw [Function.update_self, Function.update_self]
    exact ⟨rfl, rfl, rfl⟩
  · rw [Function.update_of_ne hother, Function.update_of_ne hother]
    exact ⟨rfl, rfl, rfl⟩

theorem accepted_accept (side : Side) (env : AcceptEnv) (trade : Side → TradeData) :
    (accept side env trade side.trader).accepted = (trade side.trader).accepted := by
  unfold accept setAccepted setLastModificationTime
  rw [Function.update_of_ne side.ne_trader.symm, Function.update_of_ne side.ne_trader.symm]

/-- The side has accepted and remembers what it is offered. -/
def acceptedBy (s : Traders T) (side : Side) (env : AcceptEnv) (trade : Side → TradeData) :
    Traders T :=
  { s with
    trade := some (accept side env trade)
    seen := Function.update s.seen side (some (s.offerOf trade side.trader)) }

theorem Promise.acceptedBy (h : s.Promise) (side : Side) (env : AcceptEnv)
    (htrade : s.trade = some trade) : (s.acceptedBy side env trade).Promise := by
  intro current hcurrent other haccepted
  obtain rfl : accept side env trade = current := Option.some.inj hcurrent
  have hoffer : (s.acceptedBy side env trade).offerOf (accept side env trade) other.trader =
      s.offerOf trade other.trader :=
    offerOf_congr (sameOffer_accept side env trade other.trader) fun _ => rfl
  rw [hoffer]
  show Function.update s.seen side _ other = _
  rcases side.eq_or other with rfl | rfl
  · rw [Function.update_self]
  · rw [Function.update_of_ne side.ne_trader.symm]
    rw [accepted_accept] at haccepted
    exact h trade htrade side.trader haccepted

/-- `moveItems` finds room in the inventories as they are when the side accepts. -/
theorem exchanged_accept (side : Side) (env : AcceptEnv) (slot : Fin 6) :
    (s.acceptedBy side env trade).exchanged env (accept side env trade)
        ((s.acceptedBy side env trade).moved env (accept side env trade) slot) slot =
      s.exchanged env trade (s.moved env trade slot) slot := by
  have hgiven : ∀ other slot, (s.acceptedBy side env trade).given other (accept side env trade) slot =
      s.given other trade slot := by
    intro other slot
    unfold given itemOf
    rw [(sameOffer_accept side env trade other).1]
    rfl
  have hdst : ∀ traders slot other, (s.acceptedBy side env trade).dst env (accept side env trade) traders slot
      other = s.dst env trade traders slot other := by
    intro traders slot other
    unfold dst
    rw [hgiven]
  have hexchanged : ∀ traders slot, (s.acceptedBy side env trade).exchanged env (accept side env trade)
      traders slot = s.exchanged env trade traders slot := by
    intro traders slot
    unfold exchanged
    rw [hdst, hdst]
  have hmove : (s.acceptedBy side env trade).moveItem env (accept side env trade) =
      s.moveItem env trade := by
    funext traders slot other
    unfold moveItem takeBack
    rw [hexchanged, hgiven, hgiven, hdst]
  have hremoved : (s.acceptedBy side env trade).removed (accept side env trade) = s.removed trade := by
    funext other
    unfold removed
    rw [(sameOffer_accept side env trade other).1]
    rfl
  have hmoved : (s.acceptedBy side env trade).moved env (accept side env trade) slot =
      s.moved env trade slot := by
    unfold moved
    rw [hmove, hremoved]
  rw [hmoved, hexchanged]

/-- What the condition says of an event. -/
def Keeps (s : Traders T) : TradeEvent → Prop
  | .acceptTrade _ env =>
      ∀ trade, s.trade = some trade → env.canStoreItems .mine → env.canStoreItems .his →
        (∀ slot : Fin 6, s.exchanged env trade (s.moved env trade slot) slot) ∧
          ∀ side, s.PurseHolds trade side
  | .splitItem side src count _ places =>
      ∀ item, (s.trader side).items src = some item →
        ∀ place ∈ (s.splitPlan side item src count places).1, s.Unpromised side place.1
  | .swapItem side src dst merges => merges → s.Unpromised side src ∧ s.Unpromised side dst
  | .destroyItem side guid _ allowed => allowed → s.Unpromised side guid
  | _ => True

/-- Each side receives what it was offered when it last accepted. -/
def Honest (s : Traders T) (event : TradeEvent) : Prop :=
  ∀ received, (event.run s).2 = some received → ∀ side, (event.apply s).seen side = some (received side)

/-- The acceptance that completes a trade. -/
theorem acceptTrade_spec (h : s.Promise) (side : Side) (env : AcceptEnv)
    (hkeeps : s.Keeps (.acceptTrade side env)) :
    ((TradeEvent.acceptTrade side env).apply s).Promise ∧ s.Honest (.acceptTrade side env) := by
  unfold Honest
  show (s.handleAcceptTrade side env).1.Promise ∧
    ∀ received, (s.handleAcceptTrade side env).2 = some received →
      ∀ other, (s.handleAcceptTrade side env).1.seen other = some (received other)
  unfold handleAcceptTrade
  cases htrade : s.trade with
  | none => exact ⟨h, fun received hnone => by cases hnone⟩
  | some trade =>
      simp only
      split_ifs with hblocked
      · exact ⟨h, fun received hnone => by cases hnone⟩
      · have hpromise := h.acceptedBy side env htrade
        show ((s.acceptedBy side env trade).acceptedTrade side env (accept side env trade)).1.Promise ∧
          ∀ received, ((s.acceptedBy side env trade).acceptedTrade side env
              (accept side env trade)).2 = some received →
            ∀ other, ((s.acceptedBy side env trade).acceptedTrade side env
              (accept side env trade)).1.seen other = some (received other)
        generalize hresult :
          (s.acceptedBy side env trade).acceptedTrade side env (accept side env trade) = result
        rcases acceptedTrade_cases hresult with rfl | ⟨trade', hkept, rfl⟩ | hdone
        · exact ⟨hpromise, fun received hnone => by cases hnone⟩
        · exact ⟨hpromise.setTrade rfl hkept, fun received hnone => by cases hnone⟩
        · obtain ⟨haccepted, hroom, hroom', hpays, hpays', rfl⟩ := hdone
          refine ⟨?_, fun received hreceived other => ?_⟩
          · intro current hcurrent
            cases hcurrent
          obtain rfl := Option.some.inj hreceived
          have hstores : env.canStoreItems .mine ∧ env.canStoreItems .his := by
            cases side with
            | mine => exact ⟨hroom, hroom'⟩
            | his => exact ⟨hroom', hroom⟩
          obtain ⟨hall, hpurses⟩ := hkeeps trade htrade hstores.1 hstores.2
          -- both have accepted: one now, the other before
          have hboth : (accept side env trade other).accepted = true := by
            rcases side.eq_or other with rfl | rfl
            · unfold accept setAccepted
              rw [Function.update_self]
            · exact haccepted
          have hmoney : ∀ other, (accept side env trade other).money ≤ (s.trader other).money := by
            intro other
            rcases side.eq_or other with rfl | rfl
            · exact hpays
            · exact hpays'
          have hpurse : (s.acceptedBy side env trade).PurseHolds (accept side env trade) other := by
            obtain ⟨hmax, hsum⟩ := hpurses other
            refine ⟨hmax, ?_⟩
            rw [(sameOffer_accept side env trade other).2.1,
              (sameOffer_accept side env trade other.trader).2.1]
            exact hsum
          have hreceipt := receipt_eq
            (fun slot => (exchanged_accept side env slot).trans (hall slot)) (hmoney other) hpurse
          rw [hreceipt]
          exact hpromise _ rfl other hboth

/-- An event that meets the condition keeps the promise, and is honest if it ends the trade. -/
theorem event_spec (h : s.Promise) (event : TradeEvent) (hkeeps : s.Keeps event) :
    (event.apply s).Promise ∧ s.Honest event := by
  have hquiet : ∀ {s' : Traders T}, s'.Promise → s'.Promise ∧
      ∀ received : Side → Offer, none = some received → ∀ side, s'.seen side = some (received side) :=
    fun hp => ⟨hp, fun received hnone => by cases hnone⟩
  cases event with
  | beginTrade => exact hquiet h.beginTrade
  | tradeCancel => exact hquiet promise_tradeCancel
  | setTradeGold side gold now => exact hquiet (h.handleSetTradeGold side gold now)
  | setTradeItem side slot guid allowed now =>
      exact hquiet (h.handleSetTradeItem side slot guid allowed now)
  | clearTradeItem side slot now => exact hquiet (h.handleClearTradeItem side slot now)
  | castOnTradeItem side spell castItem => exact hquiet (h.castOnTradeItem side spell castItem)
  | acceptTrade side env => exact acceptTrade_spec h side env hkeeps
  | unacceptTrade side => exact hquiet (h.handleUnacceptTrade side)
  | splitItem side src count lootGenerated places =>
      exact hquiet (h.splitItem side src count lootGenerated places hkeeps)
  | swapItem side src dst merges => exact hquiet (h.swapItem side src dst merges hkeeps)
  | destroyItem side guid count allowed => exact hquiet (h.destroyItem side guid count allowed hkeeps)

end Accept

end Traders

section Run

variable {T : ItemTable}

/-- One player has a full stack of linen and a smaller one; both have gold. -/
def linenTraders (side : Side) : Trader ItemTable.cloth where
  items guid :=
    if side = .mine ∧ guid = 1 then some (Item.linen 1 20)
    else if side = .mine ∧ guid = 2 then some (Item.linen 2 10)
    else none
  money := 500

/-- Nothing keeps the players from accepting, and everything finds room. -/
def willing (now : ℕ) (places : List UInt32) : AcceptEnv where
  now := now
  blocked := false
  tooFar := false
  gmRefused := false
  luaRefused := false
  canBeTraded _ := true
  castable _ := true
  canStoreItems _ := true
  places _ _ := places
  placesBack _ _ := []

/-- Both accept the full stack. -/
def linenTrade (slot : TradeSlots) : List TradeEvent :=
  [.beginTrade, .setTradeItem .mine slot 1 true 10, .acceptTrade .his (willing 20 [9]),
    .acceptTrade .mine (willing 20 [9])]

/-- The full stack fills the smaller one after it has been accepted, and half of it is received. -/
def filledTrade (slot : TradeSlots) : List TradeEvent :=
  [.beginTrade, .setTradeItem .mine slot 1 true 10, .acceptTrade .his (willing 20 [9]),
    .swapItem .mine 1 2 true, .acceptTrade .mine (willing 20 [9])]

end Run

end TwowCore.Trade
