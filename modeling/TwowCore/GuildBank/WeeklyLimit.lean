import TwowCore.GuildBank.Requests

/-!
# The weekly limit

What `GetTabWithdrawalsLeft` answers against the number of withdrawals in the log, and what `CanAccessTab`
makes of it for a player of the lowest rank that has the tab: it refuses his `WithdrawItem`, and his
`DepositItem` too, which can swap. The withdrawals are counted in a `uint8`.
-/

namespace TwowCore

namespace GuildBank

/-- The withdrawals of a player from a tab since the start of the week. -/
def weekWithdrawals (bank : GuildBank) (se : Session) (playerGuid : UInt32) (tab : UInt8) : ℕ :=
  (bank.log tab.toUInt32).countP fun line =>
    line.action = BankAction.withdrawItem.code && line.player = playerGuid && line.tab = tab &&
      decide (weekStart se ≤ (line.stamp.toNat : ℤ))

/-- The limit is met by the withdrawals, counted up to a byte. -/
theorem toNat_getTabWithdrawalsLeft (bank : GuildBank) (se : Session) (playerGuid : UInt32) {tab : UInt8}
    (hfirst : tab ≠ 0) (hlast : tab.toUInt32 ≤ maxTabs) :
    (bank.getTabWithdrawalsLeft se playerGuid tab).toNat =
      (bank.tabInfo tab.toUInt32).withdrawals.toNat - bank.weekWithdrawals se playerGuid tab % 2 ^ 8 := by
  have htab : ¬ (tab = 0 ∨ maxTabs < tab.toUInt32) := fun h => h.elim hfirst fun hbeyond => by
    rw [UInt32.lt_iff_toNat_lt] at hbeyond
    rw [UInt32.le_iff_toNat_le] at hlast
    omega
  unfold getTabWithdrawalsLeft
  rw [if_neg htab, ← List.countP_eq_length_filter]
  show (if _ ≤ (bank.weekWithdrawals se playerGuid tab).toUInt8 then (0 : UInt8)
    else _ - (bank.weekWithdrawals se playerGuid tab).toUInt8).toNat = _
  have hbyte : (bank.weekWithdrawals se playerGuid tab).toUInt8.toNat =
      bank.weekWithdrawals se playerGuid tab % 2 ^ 8 := by
    rw [Nat.toUInt8, UInt8.toNat_ofNat']
  split
  · next hmet =>
      rw [UInt8.le_iff_toNat_le, hbyte] at hmet
      exact (Nat.sub_eq_zero_of_le hmet).symm
  · next hleft =>
      rw [UInt8.le_iff_toNat_le, hbyte] at hleft
      rw [UInt8.toNat_sub_of_le _ _ (UInt8.le_iff_toNat_le.mpr (by omega)), hbyte]

/-- With none left a player of the lowest rank may neither withdraw nor deposit. -/
theorem canAccessTab_of_none_left {bank : GuildBank} {se : Session} {playerGuid : UInt32} {tab : UInt8}
    {action : BankAction} (haction : action = .withdrawItem ∨ action = .depositItem)
    (hlimit : 0 < (bank.tabInfo tab.toUInt32).withdrawals)
    (hrank : se.rankIndex = (bank.tabInfo tab.toUInt32).minrank.toUInt32)
    (hnone : bank.getTabWithdrawalsLeft se playerGuid tab = 0) :
    bank.canAccessTab se playerGuid tab action = false := by
  have hgated : (action = .withdrawItem ∨ action = .depositItem) ∧
      0 < (bank.tabInfo tab.toUInt32).withdrawals ∧
      se.rankIndex = (bank.tabInfo tab.toUInt32).minrank.toUInt32 ∧
      bank.getTabWithdrawalsLeft se playerGuid tab = 0 := ⟨haction, hlimit, hrank, hnone⟩
  have hmoney : action ≠ .withdrawMoney := by rintro rfl; simp at haction
  have hother : ¬ ((action = .splitItem ∨ action = .destroyItem) ∧
      (bank.tabInfo tab.toUInt32).minrank.toUInt32 < se.rankIndex) := fun h => by
    rcases haction with rfl | rfl <;> simp at h
  unfold canAccessTab
  rw [if_neg hmoney, if_neg hother, if_pos hgated]

end GuildBank

namespace World

variable {T : ItemTable} {w : World T} {se : Session} {tab : UInt8}

/-- The tab that a `WithdrawItem` or a `DepositItem` names. -/
def requestedTab (op : ItemOp) (msg : List Char) : Option UInt32 :=
  match op, tokenizer msg ':' with
  | .withdraw, [_, tabText, _, _, _, _] => some (atoiWord tabText)
  | .deposit, [_, _, _, tabText, _, _] => some (atoiByte tabText).toUInt32
  | _, _ => none

/-- The message is refused: nothing is done but to answer. -/
def Refused (se : Session) (w : World T) (op : ItemOp) (msg : List Char) : Prop :=
  ∃ answers, w.itemCall se op msg = .refuse answers

/-- Who has no access to withdraw from a tab or to deposit in it is refused there. -/
theorem refused_of_no_access (hwithdraw : w.bank.canAccessTab se w.player.guid tab .withdrawItem = false)
    (hdeposit : w.bank.canAccessTab se w.player.guid tab .depositItem = false) {op : ItemOp}
    {msg : List Char} (hrequested : requestedTab op msg = some tab.toUInt32) : w.Refused se op msg := by
  unfold requestedTab at hrequested
  split at hrequested
  · next tabText slotText bagText placeText countText htokens =>
      -- a withdrawal reads the tab as a word, a deposit as a byte
      have htab : atoiWord tabText = tab.toUInt32 := Option.some.inj hrequested
      unfold Refused itemCall withdrawCall
      simp only [htokens, htab, UInt8.toUInt8_toUInt32, hwithdraw]
      split
      · exact ⟨_, rfl⟩
      · exact ⟨_, rfl⟩
  · next bagText placeText tabText slotText countText htokens =>
      have htab : atoiByte tabText = tab := UInt8.toUInt32_inj.mp (Option.some.inj hrequested)
      unfold Refused itemCall depositCall
      simp only [htokens, htab, hdeposit]
      split
      · exact ⟨_, rfl⟩
      · exact ⟨_, rfl⟩
  · exact absurd hrequested (by simp)

/-- The limit of a tab holds for the player: the answer is what is left of it, and once it is used up the lowest
rank gets nothing more. -/
def LimitHolds (se : Session) (w : World T) (tab : UInt8) : Prop :=
  (w.bank.getTabWithdrawalsLeft se w.player.guid tab).toNat =
      (w.bank.tabInfo tab.toUInt32).withdrawals.toNat - w.bank.weekWithdrawals se w.player.guid tab ∧
    (se.rankIndex = (w.bank.tabInfo tab.toUInt32).minrank.toUInt32 →
      (w.bank.tabInfo tab.toUInt32).withdrawals.toNat ≤ w.bank.weekWithdrawals se w.player.guid tab →
      ∀ op msg, requestedTab op msg = some tab.toUInt32 → w.Refused se op msg)

/-- The limit of a tab holds as long as the withdrawals of the week fit into their byte, or the byte has reached
the limit again. -/
theorem limitHolds_iff (se : Session) (w : World T) (tab : UInt8) (hfirst : tab ≠ 0)
    (hlast : tab.toUInt32 ≤ maxTabs) (hlimit : 0 < (w.bank.tabInfo tab.toUInt32).withdrawals) :
    w.LimitHolds se tab ↔ w.bank.weekWithdrawals se w.player.guid tab < 2 ^ 8 ∨
      (w.bank.tabInfo tab.toUInt32).withdrawals.toNat ≤
        w.bank.weekWithdrawals se w.player.guid tab % 2 ^ 8 := by
  have hleft := w.bank.toNat_getTabWithdrawalsLeft se w.player.guid hfirst hlast
  have hbyte := (w.bank.tabInfo tab.toUInt32).withdrawals.toNat_lt
  unfold LimitHolds
  constructor
  · rintro ⟨hanswer, -⟩
    omega
  · intro hcount
    refine ⟨by rcases hcount with hsmall | hmet <;> omega, fun hrank hused op msg hrequested => ?_⟩
    -- the limit is reached in the count and in its byte, so nothing is left
    have hnone : w.bank.getTabWithdrawalsLeft se w.player.guid tab = 0 := by
      rw [← UInt8.toNat_inj, hleft]
      show _ = 0
      rcases hcount with hsmall | hmet <;> omega
    exact refused_of_no_access
      (GuildBank.canAccessTab_of_none_left (Or.inl rfl) hlimit hrank hnone)
      (GuildBank.canAccessTab_of_none_left (Or.inr rfl) hlimit hrank hnone) hrequested

/-- A guild member of rank 4, at the vault on a Monday at midnight. -/
def member : Session := { Session.guildMaster with rankIndex := 4 }

/-- A tab for rank 4 with a limit of one withdrawal a week, and a log of so many by the player. -/
def withLog (withdrawals : ℕ) : World ItemTable.cloth where
  bank :=
    { guildid := 1, infernoBank := false, tabs := 1, money := 0, items := []
      tabInfo := fun _ => ⟨"Tab1", "inv_misc_bag_08", 1, 4⟩
      log := fun _ => List.replicate withdrawals
        ⟨1, BankAction.withdrawItem.code, 1, 2589, 0, 0, 1, 345600, "Member", "Linen Cloth", "1", .new⟩
      moneyLog := [], itemUpdateQueue := [], saveLock := false, tabsChanged := false
      moneyChanged := false, moneyLogChanged := false, logChanged := false }
  db := ⟨[], [], [], []⟩
  player := ⟨1, fun _ => none, 0, 0⟩
  out := []

theorem weekWithdrawals_withLog (withdrawals : ℕ) :
    (withLog withdrawals).bank.weekWithdrawals member (withLog withdrawals).player.guid 1 = withdrawals := by
  show List.countP _ (List.replicate withdrawals _) = withdrawals
  rw [List.countP_replicate]
  rfl

/-- After his one withdrawal nothing is left for the member. -/
theorem limitHolds_withLog : (withLog 1).LimitHolds member 1 :=
  (limitHolds_iff member (withLog 1) 1 (by decide) (by decide) (by decide)).mpr
    (Or.inl (by rw [weekWithdrawals_withLog]; decide))

/-- After 256 withdrawals one is left again. -/
theorem limitHolds_wraps : ¬ (withLog 256).LimitHolds member 1 := by
  intro h
  have hanswer := h.1
  rw [weekWithdrawals_withLog, GuildBank.toNat_getTabWithdrawalsLeft _ _ _ (by decide) (by decide),
    weekWithdrawals_withLog] at hanswer
  exact absurd hanswer (by decide)

end World

end TwowCore
