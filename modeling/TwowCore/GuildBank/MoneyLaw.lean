import TwowCore.GuildBank.Tabs

/-!
# Money between the bank and its members

What a member has and what the bank has is one sum. A deposit keeps it and so does every refused
message; a tab is paid from exactly one of the two. A withdrawal keeps it unless it runs into the
signed amount and the gold cap of `ModifyMoney`, and `withdrawMoney_conserves_iff` says exactly
when that happens.
-/

namespace TwowCore

namespace World

variable {T : ItemTable}

/-- What the bank and the acting player have together. -/
def totalMoney (w : World T) : ℕ := w.bank.money.toNat + w.player.money.toNat

/-- The message is accepted by `DepositMoney`. -/
def AcceptsDeposit (w : World T) (msg : List Char) (money : UInt32) : Prop :=
  moneyRequest msg = some money ∧ money ≤ 4294967295 - w.bank.money ∧ money ≤ w.player.money

/-- The message is accepted by `WithdrawMoney`. -/
def AcceptsWithdraw (se : Session) (w : World T) (msg : List Char) (money : UInt32) : Prop :=
  moneyRequest msg = some money ∧
    w.bank.canAccessTab se w.player.guid 0 .withdrawMoney = true ∧ money ≤ w.bank.money

/-- The two balances after `DepositMoney`: as before, or moved by the accepted amount. -/
theorem depositMoney_cases (se : Session) (w : World T) (msg : List Char) :
    ((∀ money, ¬w.AcceptsDeposit msg money) ∧
        (w.depositMoney se msg).bank.money = w.bank.money ∧
        (w.depositMoney se msg).player.money = w.player.money) ∨
      ∃ money, w.AcceptsDeposit msg money ∧
        (w.depositMoney se msg).bank.money = w.bank.money + money ∧
        (w.depositMoney se msg).player.money =
          Player.modifiedMoney w.player.money (-money.toInt32) := by
  unfold AcceptsDeposit depositMoney
  cases hrequest : moneyRequest msg with
  | none => exact Or.inl ⟨by simp, by simp, by simp⟩
  | some money =>
      simp only [Option.some.injEq]
      split_ifs with hroom hmoney
      · refine Or.inl ⟨?_, rfl, rfl⟩
        rintro other ⟨rfl, hfits, -⟩
        exact UInt32.not_le.mpr hroom hfits
      · refine Or.inl ⟨?_, rfl, rfl⟩
        rintro other ⟨rfl, -, hfits⟩
        exact UInt32.not_le.mpr hmoney hfits
      · exact Or.inr ⟨money, ⟨rfl, UInt32.not_lt.mp hroom, UInt32.not_lt.mp hmoney⟩,
          by simp, by simp⟩

/-- The two balances after `WithdrawMoney`: as before, or moved by the accepted amount. -/
theorem withdrawMoney_cases (se : Session) (w : World T) (msg : List Char) :
    ((∀ money, ¬w.AcceptsWithdraw se msg money) ∧
        (w.withdrawMoney se msg).bank.money = w.bank.money ∧
        (w.withdrawMoney se msg).player.money = w.player.money) ∨
      ∃ money, w.AcceptsWithdraw se msg money ∧
        (w.withdrawMoney se msg).bank.money = w.bank.money - money ∧
        (w.withdrawMoney se msg).player.money =
          Player.modifiedMoney w.player.money money.toInt32 := by
  unfold AcceptsWithdraw withdrawMoney
  cases hrequest : moneyRequest msg with
  | none => exact Or.inl ⟨by simp, by simp, by simp⟩
  | some money =>
      simp only [Option.some.injEq]
      split_ifs with haccess hmoney
      · refine Or.inl ⟨?_, rfl, rfl⟩
        rintro other ⟨rfl, hallowed, -⟩
        rw [haccess] at hallowed
        cases hallowed
      · refine Or.inl ⟨?_, rfl, rfl⟩
        rintro other ⟨rfl, -, hfits⟩
        exact UInt32.not_le.mpr hmoney hfits
      · exact Or.inr ⟨money, ⟨rfl, by simpa using haccess, UInt32.not_lt.mp hmoney⟩,
          by simp, by simp⟩

/-- The message is accepted by `UnlockTab`: the guild master names a tab from 2 to 5, and the
source he names, the bank for 0 and himself otherwise, can pay for it. -/
def AcceptsUnlockTab (se : Session) (w : World T) (msg : List Char) (tab source : UInt8) : Prop :=
  se.rankIndex = 0 ∧ tabRequest msg = some (tab, source) ∧ 2 ≤ tab ∧ tab ≤ 5 ∧
    tabCost tab ≤ if source = 0 then w.bank.money else w.player.money

/-- The tabs that have a price are the tabs 2 to 5. -/
theorem tabCost_ne_zero {tab : UInt8} (hlow : ¬tab ≤ 1) (hhigh : ¬maxTabs < tab.toUInt32) :
    tabCost tab ≠ 0 ∧ 2 ≤ tab ∧ tab ≤ 5 := by
  rw [UInt8.le_iff_toNat_le] at hlow
  rw [UInt32.lt_iff_toNat_lt] at hhigh
  have htab : tab = 2 ∨ tab = 3 ∨ tab = 4 ∨ tab = 5 := by
    simp only [maxTabs, UInt8.reduceToNat, UInt8.toNat_toUInt32, UInt32.reduceToNat] at hlow hhigh
    have hcases : tab.toNat = 2 ∨ tab.toNat = 3 ∨ tab.toNat = 4 ∨ tab.toNat = 5 := by omega
    rcases hcases with h | h | h | h
    · exact Or.inl (UInt8.toNat.inj h)
    · exact Or.inr (Or.inl (UInt8.toNat.inj h))
    · exact Or.inr (Or.inr (Or.inl (UInt8.toNat.inj h)))
    · exact Or.inr (Or.inr (Or.inr (UInt8.toNat.inj h)))
  rcases htab with rfl | rfl | rfl | rfl <;> decide

/-- The balances and the number of tabs after `UnlockTab`: as before, or with the price taken
from the named source and the named tab as the last one. -/
theorem unlockTab_cases (se : Session) (w : World T) (msg : List Char) :
    ((∀ tab source, ¬w.AcceptsUnlockTab se msg tab source) ∧
        (w.unlockTab se msg).bank = w.bank ∧ (w.unlockTab se msg).player = w.player) ∨
      ∃ tab source, w.AcceptsUnlockTab se msg tab source ∧
        (w.unlockTab se msg).bank.tabs = tab.toUInt32 ∧
        (w.unlockTab se msg).bank.money =
          (if source = 0 then w.bank.money - tabCost tab else w.bank.money) ∧
        (w.unlockTab se msg).player =
          if source = 0 then w.player else w.player.modifyMoney (-(tabCost tab).toInt32) := by
  unfold AcceptsUnlockTab unlockTab
  split_ifs with hrank
  · exact Or.inl ⟨fun tab source haccept => hrank haccept.1, rfl, rfl⟩
  · simp only [not_not] at hrank
    cases hrequest : tabRequest msg with
    | none => exact Or.inl ⟨by simp, rfl, rfl⟩
    | some request =>
        obtain ⟨tab, source⟩ := request
        simp only [Option.some.injEq, Prod.mk.injEq]
        split_ifs with hrange hcost hsource hmoney hmoney
        · refine Or.inl ⟨?_, rfl, rfl⟩
          rintro other otherSource ⟨-, ⟨rfl, rfl⟩, hlow, hhigh, -⟩
          rw [UInt8.le_iff_toNat_le] at hlow hhigh
          rw [UInt8.le_iff_toNat_le, UInt32.lt_iff_toNat_lt] at hrange
          simp only [maxTabs, UInt8.reduceToNat, UInt8.toNat_toUInt32, UInt32.reduceToNat]
            at hlow hhigh hrange
          omega
        · obtain ⟨hlow, hhigh⟩ := not_or.mp hrange
          exact absurd hcost (tabCost_ne_zero hlow hhigh).1
        · refine Or.inl ⟨?_, rfl, rfl⟩
          rintro other otherSource ⟨-, ⟨rfl, rfl⟩, -, -, hpay⟩
          rw [if_pos hsource] at hpay
          exact UInt32.not_le.mpr hmoney hpay
        · obtain ⟨hlow, hhigh⟩ := not_or.mp hrange
          obtain ⟨-, hlow, hhigh⟩ := tabCost_ne_zero hlow hhigh
          refine Or.inr ⟨tab, source, ⟨hrank, ⟨rfl, rfl⟩, hlow, hhigh, ?_⟩, by simp, ?_, ?_⟩
          · rw [if_pos hsource]
            exact UInt32.not_lt.mp hmoney
          · simp [hsource]
          · simp [hsource]
        · refine Or.inl ⟨?_, rfl, rfl⟩
          rintro other otherSource ⟨-, ⟨rfl, rfl⟩, -, -, hpay⟩
          rw [if_neg hsource] at hpay
          exact UInt32.not_le.mpr hmoney hpay
        · obtain ⟨hlow, hhigh⟩ := not_or.mp hrange
          obtain ⟨-, hlow, hhigh⟩ := tabCost_ne_zero hlow hhigh
          refine Or.inr ⟨tab, source, ⟨hrank, ⟨rfl, rfl⟩, hlow, hhigh, ?_⟩, by simp, ?_, ?_⟩
          · rw [if_neg hsource]
            exact UInt32.not_lt.mp hmoney
          · simp [hsource]
          · simp [hsource]

/-- The money law of one message, read by each of the three handlers: the two money handlers keep
the sum, a refused message changes neither balance, and an accepted `UnlockTab` lowers one of the
two by the price of the tab and keeps the other. -/
structure MoneyLaw (se : Session) (w : World T) (msg : List Char) : Prop where
  deposit : (w.depositMoney se msg).totalMoney = w.totalMoney
  withdraw : (w.withdrawMoney se msg).totalMoney = w.totalMoney
  deposit_refused : (∀ money, ¬w.AcceptsDeposit msg money) →
    (w.depositMoney se msg).bank.money = w.bank.money ∧
      (w.depositMoney se msg).player.money = w.player.money
  withdraw_refused : (∀ money, ¬w.AcceptsWithdraw se msg money) →
    (w.withdrawMoney se msg).bank.money = w.bank.money ∧
      (w.withdrawMoney se msg).player.money = w.player.money
  unlockTab_refused : (∀ tab source, ¬w.AcceptsUnlockTab se msg tab source) →
    (w.unlockTab se msg).bank.money = w.bank.money ∧
      (w.unlockTab se msg).player.money = w.player.money
  unlockTab : ∀ tab source, w.AcceptsUnlockTab se msg tab source →
    ((w.unlockTab se msg).bank.money.toNat + (tabCost tab).toNat = w.bank.money.toNat ∧
        (w.unlockTab se msg).player.money = w.player.money) ∨
      ((w.unlockTab se msg).bank.money = w.bank.money ∧
        (w.unlockTab se msg).player.money.toNat + (tabCost tab).toNat = w.player.money.toNat)

/-- A deposit keeps the sum. -/
theorem depositMoney_total (se : Session) {w : World T} (msg : List Char)
    (hmoney : w.player.money ≤ maxMoneyAmount) :
    (w.depositMoney se msg).totalMoney = w.totalMoney := by
  unfold totalMoney
  rcases w.depositMoney_cases se msg with ⟨-, hbank, hplayer⟩ | ⟨money, haccept, hbank, hplayer⟩
  · rw [hbank, hplayer]
  · obtain ⟨-, hroom, hhas⟩ := haccept
    rw [hbank, hplayer, Player.modifiedMoney_pay hhas hmoney, UInt32.toNat_add,
      UInt32.toNat_sub_of_le _ _ hhas]
    rw [UInt32.le_iff_toNat_le] at hroom hhas
    have hlt := w.bank.money.toNat_lt
    have hroom' : (4294967295 - w.bank.money).toNat = 4294967295 - w.bank.money.toNat := by
      rw [UInt32.toNat_sub_of_le]
      · rfl
      · rw [UInt32.le_iff_toNat_le]
        simp only [UInt32.reduceToNat]
        omega
    omega

/-- An accepted withdrawal keeps the sum exactly when the player can hold the amount, or when it
is `INT32_MAX`. -/
theorem withdrawMoney_total_iff (se : Session) {w : World T} (msg : List Char)
    (hmoney : w.player.money ≤ maxMoneyAmount) :
    (w.withdrawMoney se msg).totalMoney = w.totalMoney ↔
      ∀ money, w.AcceptsWithdraw se msg money →
        w.player.money.toNat + money.toNat ≤ maxMoneyAmount.toNat ∨ money.toNat = 2 ^ 31 - 1 := by
  unfold totalMoney
  rcases w.withdrawMoney_cases se msg with ⟨hrefuse, hbank, hplayer⟩ | ⟨money, haccept, hbank, hplayer⟩
  · simp [hbank, hplayer, hrefuse]
  · have hle := haccept.2.2
    have hsame : ∀ other, w.AcceptsWithdraw se msg other → other = money := fun other hother =>
      Option.some.inj (hother.1.symm.trans haccept.1)
    have hkeep : w.bank.money.toNat - money.toNat +
          (Player.modifiedMoney w.player.money money.toInt32).toNat =
        w.bank.money.toNat + w.player.money.toNat ↔
        (Player.modifiedMoney w.player.money money.toInt32).toNat =
          w.player.money.toNat + money.toNat := by
      rw [UInt32.le_iff_toNat_le] at hle
      omega
    rw [hbank, hplayer, UInt32.toNat_sub_of_le _ _ hle, hkeep, Player.modifiedMoney_receive hmoney]
    constructor
    · intro hexact other hother
      rw [hsame other hother]
      exact hexact
    · intro hall
      exact hall money haccept

/-- A tab is paid from exactly one of the two balances. -/
theorem unlockTab_price (se : Session) {w : World T} (msg : List Char)
    (hmoney : w.player.money ≤ maxMoneyAmount) {tab source : UInt8}
    (haccept : w.AcceptsUnlockTab se msg tab source) :
    ((w.unlockTab se msg).bank.money.toNat + (tabCost tab).toNat = w.bank.money.toNat ∧
        (w.unlockTab se msg).player.money = w.player.money) ∨
      ((w.unlockTab se msg).bank.money = w.bank.money ∧
        (w.unlockTab se msg).player.money.toNat + (tabCost tab).toNat =
          w.player.money.toNat) := by
  rcases w.unlockTab_cases se msg with ⟨hrefuse, -, -⟩ | ⟨tab', source', haccept', -, hbank, hplayer⟩
  · exact absurd haccept (hrefuse tab source)
  · obtain ⟨rfl, rfl⟩ : tab' = tab ∧ source' = source := by
      simpa using Option.some.inj (haccept'.2.1.symm.trans haccept.2.1)
    have hpay := haccept.2.2.2.2
    rw [hbank, hplayer]
    by_cases hsource : source' = 0
    · rw [if_pos hsource] at hpay
      simp only [hsource, if_true]
      refine Or.inl ⟨?_, trivial⟩
      rw [UInt32.toNat_sub_of_le _ _ hpay]
      rw [UInt32.le_iff_toNat_le] at hpay
      omega
    · rw [if_neg hsource] at hpay
      simp only [hsource, if_false, Player.modifyMoney_money]
      refine Or.inr ⟨trivial, ?_⟩
      rw [Player.modifiedMoney_pay hpay hmoney, UInt32.toNat_sub_of_le _ _ hpay]
      rw [UInt32.le_iff_toNat_le] at hpay
      omega

/-- The money law holds of a message exactly when no accepted withdrawal lifts the player above
the gold cap, the amount `INT32_MAX` apart. -/
theorem moneyLaw_iff (se : Session) (w : World T) (msg : List Char)
    (hmoney : w.player.money ≤ maxMoneyAmount) :
    w.MoneyLaw se msg ↔
      ∀ money, w.AcceptsWithdraw se msg money →
        w.player.money.toNat + money.toNat ≤ maxMoneyAmount.toNat ∨ money.toNat = 2 ^ 31 - 1 := by
  constructor
  · intro hlaw
    exact (w.withdrawMoney_total_iff se msg hmoney).mp hlaw.withdraw
  · intro hcap
    refine ⟨depositMoney_total se msg hmoney, (withdrawMoney_total_iff se msg hmoney).mpr hcap,
      ?_, ?_, ?_, fun tab source haccept => unlockTab_price se msg hmoney haccept⟩
    · intro hrefuse
      rcases w.depositMoney_cases se msg with ⟨-, hsame⟩ | ⟨money, haccept, -⟩
      · exact hsame
      · exact absurd haccept (hrefuse money)
    · intro hrefuse
      rcases w.withdrawMoney_cases se msg with ⟨-, hsame⟩ | ⟨money, haccept, -⟩
      · exact hsame
      · exact absurd haccept (hrefuse money)
    · intro hrefuse
      rcases w.unlockTab_cases se msg with ⟨-, hbank, hplayer⟩ | ⟨tab, source, haccept, -⟩
      · rw [hbank, hplayer]
        exact ⟨rfl, rfl⟩
      · exact absurd haccept (hrefuse tab source)

/-- A guild master with `purse` copper in front of a bank that holds `vault` copper. -/
def atVault (vault purse : UInt32) : World ItemTable.empty :=
  let db : Database := ⟨[], [⟨1, false, 1, GuildBank.defaultTabInfo⟩], [⟨1, false, vault⟩], []⟩
  { bank := GuildBank.setGuild ItemTable.empty .guildMaster 1 false db
    db
    player := ⟨7, fun _ => none, purse, 1000⟩
    out := [] }

/-- A player at the gold cap who withdraws 1000 copper takes them out of the bank and gets
nothing. -/
theorem withdrawMoney_at_cap :
    let w := atVault 1000 maxMoneyAmount
    (w.withdrawMoney .guildMaster "WithdrawMoney:1000".toList).bank.money = 0 ∧
      (w.withdrawMoney .guildMaster "WithdrawMoney:1000".toList).player.money = maxMoneyAmount ∧
      ¬w.MoneyLaw .guildMaster "WithdrawMoney:1000".toList := by
  refine ⟨by decide, by decide, fun hlaw => ?_⟩
  have hsum := hlaw.withdraw
  revert hsum
  decide

/-- A player with room for them withdraws 1000 copper and the law holds. -/
theorem moneyLaw_below_cap :
    (atVault 1000 5).player.money ≤ maxMoneyAmount ∧
      (atVault 1000 5).MoneyLaw .guildMaster "WithdrawMoney:1000".toList := by
  refine ⟨by decide, (moneyLaw_iff .guildMaster (atVault 1000 5) "WithdrawMoney:1000".toList
    (by decide)).mpr fun money haccept => Or.inl ?_⟩
  have hrequest : moneyRequest "WithdrawMoney:1000".toList = some 1000 := by decide
  have hmoney : money = 1000 := Option.some.inj (haccept.1.symm.trans hrequest)
  rw [hmoney]
  decide

end World

end TwowCore
