import TwowCore.Player.Inventory

/-!
# The purse of a player

`Player::ModifyMoney` takes a signed amount and keeps the balance between nothing and
`MAX_MONEY_AMOUNT`. Its callers hand it a `uint32` cast to `int32`, so the lemmas here say what
the cast amount does to the balance: paying what one has is exact, receiving is exact up to the
cap, and an amount from 2^31 on is received as a payment.
-/

namespace TwowCore

/-- `MAX_MONEY_AMOUNT`. -/
def maxMoneyAmount : UInt32 := 0x7FFFFFFF - 1

namespace Player

variable {T : ItemTable}

/-- `Player::SetMoney`. -/
def setMoney (p : Player T) (money : UInt32) : Player T := { p with money }

/-- The balance `Player::ModifyMoney` leaves. -/
def modifiedMoney (money : UInt32) (amount : Int32) : UInt32 :=
  if amount < 0 then
    if (-amount).toUInt32 < money then money + amount.toUInt32 else 0
  else if money < maxMoneyAmount - amount.toUInt32 then money + amount.toUInt32
  else maxMoneyAmount

/-- `Player::ModifyMoney`. -/
def modifyMoney (p : Player T) (amount : Int32) : Player T :=
  p.setMoney (modifiedMoney p.money amount)

@[simp] theorem setMoney_money (p : Player T) (money : UInt32) : (p.setMoney money).money = money :=
  rfl

@[simp] theorem setMoney_items (p : Player T) (money : UInt32) : (p.setMoney money).items = p.items :=
  rfl

@[simp] theorem setMoney_guid (p : Player T) (money : UInt32) : (p.setMoney money).guid = p.guid :=
  rfl

@[simp] theorem modifyMoney_items (p : Player T) (amount : Int32) :
    (p.modifyMoney amount).items = p.items := rfl

@[simp] theorem modifyMoney_guid (p : Player T) (amount : Int32) :
    (p.modifyMoney amount).guid = p.guid := rfl

@[simp] theorem modifyMoney_money (p : Player T) (amount : Int32) :
    (p.modifyMoney amount).money = modifiedMoney p.money amount := rfl

/-- A signed amount is negative when its pattern is 2^31 or more. -/
theorem int32_neg_iff (amount : Int32) : amount < 0 ↔ 2 ^ 31 ≤ amount.toUInt32.toNat := by
  have hnat : amount.toUInt32.toNat = amount.toBitVec.toNat := rfl
  rw [Int32.lt_iff_toInt_lt, hnat]
  have hint : amount.toInt = amount.toBitVec.toInt := rfl
  rw [hint, BitVec.toInt_eq_toNat_cond]
  have hlt := amount.toBitVec.isLt
  simp only [Int32.toInt_zero]
  split <;> omega

/-- The balance after a payment the purse can make. -/
theorem modifiedMoney_pay {money cost : UInt32} (hcost : cost ≤ money)
    (hmoney : money ≤ maxMoneyAmount) : modifiedMoney money (-cost.toInt32) = money - cost := by
  have hmax : maxMoneyAmount.toNat = 2 ^ 31 - 2 := rfl
  rw [UInt32.le_iff_toNat_le] at hcost hmoney
  have hpattern : (-cost.toInt32).toUInt32 = -cost := by simp
  have hneg : (-cost).toNat = (2 ^ 32 - cost.toNat) % 2 ^ 32 := UInt32.toNat_neg cost
  unfold modifiedMoney
  split_ifs with hsign hmore hroom
  · rw [hpattern, UInt32.sub_eq_add_neg]
  · simp only [Int32.neg_neg, UInt32.toUInt32_toInt32, UInt32.not_lt] at hmore
    rw [UInt32.le_iff_toNat_le] at hmore
    have heq : money = cost := UInt32.toNat.inj (by omega)
    rw [heq, UInt32.sub_self]
  · rw [hpattern, UInt32.sub_eq_add_neg]
  · rw [int32_neg_iff, hpattern, hneg] at hsign
    have hzero : cost = 0 := UInt32.toNat.inj (by simp; omega)
    subst hzero
    rw [hpattern, UInt32.not_lt, UInt32.le_iff_toNat_le] at hroom
    have hroom' : maxMoneyAmount.toNat ≤ money.toNat := by simpa using hroom
    rw [UInt32.sub_zero]
    exact UInt32.toNat.inj (by omega)

/-- Receiving an amount adds it exactly when the sum stays within the cap, or when the amount is
`INT32_MAX`, for which the cap test wraps around. -/
theorem modifiedMoney_receive {money amount : UInt32} (hmoney : money ≤ maxMoneyAmount) :
    (modifiedMoney money amount.toInt32).toNat = money.toNat + amount.toNat ↔
      money.toNat + amount.toNat ≤ maxMoneyAmount.toNat ∨ amount.toNat = 2 ^ 31 - 1 := by
  have hmax : maxMoneyAmount.toNat = 2 ^ 31 - 2 := rfl
  rw [UInt32.le_iff_toNat_le] at hmoney
  have hlt := amount.toNat_lt
  have hroom : (maxMoneyAmount - amount).toNat =
      (2 ^ 32 - amount.toNat + maxMoneyAmount.toNat) % 2 ^ 32 := UInt32.toNat_sub _ _
  have hsum : (money + amount).toNat = (money.toNat + amount.toNat) % 2 ^ 32 :=
    UInt32.toNat_add _ _
  have hneg : (-amount).toNat = (2 ^ 32 - amount.toNat) % 2 ^ 32 := UInt32.toNat_neg amount
  unfold modifiedMoney
  simp only [Int32.toUInt32_neg, UInt32.toUInt32_toInt32]
  split_ifs with hsign hmore hfits
  all_goals rw [int32_neg_iff, UInt32.toUInt32_toInt32] at hsign
  · rw [UInt32.lt_iff_toNat_lt, hneg] at hmore
    omega
  · rw [UInt32.lt_iff_toNat_lt, hneg] at hmore
    simp only [UInt32.reduceToNat]
    omega
  · rw [UInt32.lt_iff_toNat_lt] at hfits
    omega
  · rw [UInt32.lt_iff_toNat_lt] at hfits
    omega

end Player

end TwowCore
