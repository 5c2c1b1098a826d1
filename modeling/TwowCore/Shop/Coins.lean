import Mathlib.Tactic.Linarith
import TwowCore.Lib.Run

/-!
# Shop coins

The coins of one account are a row of `shop_coins`. `BuyItem` runs on the thread of the shop: it
reads the row, writes an absolute balance, inserts a log row and reads the row again. Awards and
refunds are relative statements that wait in the asynchronous queue, and the database thread may
run the next of them between any two steps of a purchase.

Read `Shop.Balanced` first: it says what the row, the waiting statements and the purchase under
way add up to. `step_balanced` is the step, and `run_balanced` the law for runs in which no
statement changes the row under a purchase.
-/

namespace TwowCore.Shop

/-- `INT_MAX`, also the largest value of the column `coins`. -/
def intMax : ℤ := 2147483647

/-- The asynchronous statements on the row of the account. -/
inductive Statement where
  /-- `GetBalance` finds no row: `INSERT INTO shop_coins VALUES (id, 0)`. -/
  | insertZero
  /-- `AwardCoins`: insert the amount, or add it to the row there is. -/
  | insertOrAdd (amount : UInt32)
  /-- `RefundPurchase`: add the price to the row. -/
  | add (price : UInt32)
  deriving DecidableEq, Repr

/-- How far `BuyItem` has come. -/
inductive Purchase where
  | none
  /-- The balance was read and is enough; the new balance is about to be written. -/
  | read (price : UInt32) (newBalance : ℤ)
  /-- The new balance is written; the log row is about to be inserted. -/
  | written (price : UInt32) (newBalance : ℤ)
  /-- The log row is inserted; the balance is about to be read again. -/
  | logged (price : UInt32) (newBalance : ℤ)
  deriving DecidableEq, Repr

/-- The shop and its database, as far as they are about one account. The last three numbers are
history: what was awarded, what was refunded, and the prices of the purchases for which a
`ShopSendItemTask` was queued. -/
structure State where
  coins : Option ℤ
  queue : List Statement
  purchase : Purchase
  tasks : List UInt32
  awarded : ℕ
  refunded : ℕ
  sold : ℕ
  deriving DecidableEq, Repr

/-- What can happen next. -/
inductive Event where
  /-- The shop thread takes a request for an item of this price. -/
  | buy (price : UInt32)
  /-- The absolute `UPDATE` of the purchase, which succeeds or fails. -/
  | write (ok : Bool)
  /-- The `INSERT` of the log row, which succeeds or fails. -/
  | log (ok : Bool)
  /-- The second read of the balance. -/
  | verify
  | award (amount : UInt32)
  /-- The world thread runs a `ShopSendItemTask`, which delivers the item or refunds it. -/
  | deliver (task : ℕ) (refund : Bool)
  /-- The database thread runs the next statement. -/
  | execute
  deriving DecidableEq, Repr

/-- Writing a value to the column; what does not fit is an error and leaves the row. -/
def writeCoins (coins : Option ℤ) (value : ℤ) : Option ℤ :=
  if -intMax - 1 ≤ value ∧ value ≤ intMax then some value else coins

/-- The row after a statement. -/
def Statement.execute (coins : Option ℤ) : Statement → Option ℤ
  | .insertZero => some (coins.getD 0)
  | .insertOrAdd amount => writeCoins coins (coins.getD 0 + amount.toNat)
  | .add price =>
      match coins with
      | .none => .none
      | some value => writeCoins coins (value + price.toNat)

/-- What a statement adds. -/
def Statement.amount : Statement → ℕ
  | .insertZero => 0
  | .insertOrAdd amount => amount.toNat
  | .add price => price.toNat

namespace State

/-- `ShopMgr::GetBalance`: the balance, and the row inserted if there is none. -/
def getBalance (s : State) : ℤ × State :=
  match s.coins with
  | some value => (value, s)
  | none => (0, { s with queue := s.queue ++ [.insertZero] })

/-- `ShopMgr::BuyItem` up to its first write. -/
def buyItem (s : State) (price : UInt32) : State :=
  let (coins, s) := s.getBalance
  if 0 < coins then
    let newBalance := coins - price.toNat
    if 0 ≤ newBalance ∧ newBalance < intMax then { s with purchase := .read price newBalance }
    else s
  else s

/-- The absolute `UPDATE` of a purchase; it touches the row there is. -/
def writeBalance (s : State) (price : UInt32) (newBalance : ℤ) (ok : Bool) : State :=
  if ok then
    { s with
      coins := s.coins.map fun _ => newBalance
      purchase := .written price newBalance }
  else { s with purchase := .none }

/-- The verification at the end of a purchase, which queues the task or gives up. -/
def verify (s : State) (price : UInt32) (newBalance : ℤ) : State :=
  let (balance, s) := s.getBalance
  if balance = newBalance then
    { s with
      purchase := .none
      tasks := s.tasks ++ [price]
      sold := s.sold + price.toNat }
  else { s with purchase := .none }

/-- `ShopMgr::AwardCoins`. -/
def awardCoins (s : State) (amount : UInt32) : State :=
  if amount = 0 then s
  else { s with queue := s.queue ++ [.insertOrAdd amount], awarded := s.awarded + amount.toNat }

/-- `ShopSendItemTask`: the item is delivered, or `RefundPurchase` is run. -/
def sendItem (s : State) (task : ℕ) (refund : Bool) : State :=
  match s.tasks[task]? with
  | none => s
  | some price =>
      let s := { s with tasks := s.tasks.eraseIdx task }
      if refund then
        { s with queue := s.queue ++ [.add price], refunded := s.refunded + price.toNat }
      else s

/-- The database thread runs the next statement of the queue. -/
def execute (s : State) : State :=
  match s.queue with
  | [] => s
  | statement :: rest => { s with coins := statement.execute s.coins, queue := rest }

end State

/-- One step of the shop; an event that cannot happen now does nothing. -/
def step (s : State) : Event → State
  | .buy price => if s.purchase = .none then s.buyItem price else s
  | .write ok =>
      match s.purchase with
      | .read price newBalance => s.writeBalance price newBalance ok
      | _ => s
  | .log ok =>
      match s.purchase with
      | .written price newBalance =>
          { s with purchase := if ok then .logged price newBalance else .none }
      | _ => s
  | .verify =>
      match s.purchase with
      | .logged price newBalance => s.verify price newBalance
      | _ => s
  | .award amount => s.awardCoins amount
  | .deliver task refund => s.sendItem task refund
  | .execute => s.execute

/-- The shop with a balance and nothing under way. -/
def State.start (coins : Option ℤ) : State := ⟨coins, [], .none, [], 0, 0, 0⟩

/-- What the waiting statements will add. -/
def State.waiting (s : State) : ℕ := (s.queue.map Statement.amount).sum

/-- What a purchase under way has taken out of the row without having been sold yet. -/
def Purchase.taken : Purchase → ℕ
  | .written price _ | .logged price _ => price.toNat
  | _ => 0

/-- A balance that a purchase relies on. -/
def Purchase.Relies (coins : Option ℤ) : Purchase → Prop
  | .none => True
  | .read price newBalance => coins = some (newBalance + price.toNat) ∧ 0 ≤ newBalance
  | .written _ newBalance | .logged _ newBalance => coins = some newBalance

/-- The row is there for the statements that only update it. -/
def State.HasRow (s : State) : Prop :=
  s.tasks = [] ∧ (∀ price, Statement.add price ∉ s.queue) ∨ s.coins.isSome

/-- The accounts are balanced: the row, the waiting statements and the purchase under way add up
to the first balance with what was awarded and refunded less what was sold. -/
structure Balanced (initial : ℤ) (s : State) : Prop where
  sum : s.coins.getD 0 + s.waiting + s.purchase.taken = initial + s.awarded + s.refunded - s.sold
  relies : s.purchase.Relies s.coins
  hasRow : s.HasRow
  low : -intMax - 1 ≤ s.coins.getD 0

/-- The events that leave the accounts balanced: a statement that adds something does not run under
a purchase, its sum fits the column, and a balance that was written is logged. -/
def Undisturbed (s : State) : Event → Prop
  | .execute => ∀ statement rest, s.queue = statement :: rest →
      (s.purchase = .none ∨ statement.amount = 0) ∧
        s.coins.getD 0 + statement.amount ≤ intMax
  | .log ok => ok = true ∨ s.purchase.taken = 0
  | _ => True

section Steps

variable {initial : ℤ} {s : State}

/-- A statement whose sum fits adds its amount. -/
theorem execute_adds {coins : Option ℤ} {statement : Statement}
    (hrow : (∃ price, statement = .add price) → coins.isSome)
    (hlow : -intMax - 1 ≤ coins.getD 0) (hfits : coins.getD 0 + statement.amount ≤ intMax) :
    statement.execute coins = some (coins.getD 0 + statement.amount) := by
  cases statement with
  | insertZero => simp [Statement.execute, Statement.amount]
  | insertOrAdd amount =>
      have hfit : -intMax - 1 ≤ coins.getD 0 + (amount.toNat : ℤ) := by omega
      show writeCoins coins (coins.getD 0 + amount.toNat) = _
      rw [writeCoins, if_pos ⟨hfit, hfits⟩]
      rfl
  | add price =>
      obtain ⟨value, rfl⟩ := Option.isSome_iff_exists.mp (hrow ⟨price, rfl⟩)
      have hfit : -intMax - 1 ≤ value + (price.toNat : ℤ) := by
        simp only [Option.getD_some] at hlow
        omega
      show writeCoins (some value) (value + price.toNat) = _
      rw [writeCoins, if_pos ⟨hfit, hfits⟩]
      rfl

/-- Reading the balance changes nothing but the queue, to which it adds no coins. -/
theorem getBalance_spec (s : State) :
    s.getBalance.1 = s.coins.getD 0 ∧
      ∃ queue, s.getBalance.2 = { s with queue } ∧
        (queue.map Statement.amount).sum = s.waiting ∧
        ∀ price, Statement.add price ∈ queue → Statement.add price ∈ s.queue := by
  unfold State.getBalance
  split
  · rename_i value hcoins
    exact ⟨by simp [hcoins], s.queue, rfl, rfl, fun _ h => h⟩
  · rename_i hcoins
    refine ⟨by simp [hcoins], s.queue ++ [.insertZero], rfl, ?_, fun price hmem => ?_⟩
    · simp [State.waiting, Statement.amount]
    · simpa using hmem

/-- Reading the balance keeps the accounts balanced. -/
theorem Balanced.getBalance (h : Balanced initial s) : Balanced initial s.getBalance.2 := by
  obtain ⟨-, queue, hqueue, hwaiting, hadd⟩ := getBalance_spec s
  rw [hqueue]
  refine ⟨?_, h.relies, ?_, h.low⟩
  · show _ + ((queue.map Statement.amount).sum : ℤ) + _ = _
    rw [hwaiting]
    exact h.sum
  · rcases h.hasRow with ⟨htasks, hnone⟩ | hrow
    · exact Or.inl ⟨htasks, fun price hmem => hnone price (hadd price hmem)⟩
    · exact Or.inr hrow

/-- A purchase that starts reads a balance it relies on. -/
theorem Balanced.buyItem (h : Balanced initial s) (hnone : s.purchase = .none) (price : UInt32) :
    Balanced initial (s.buyItem price) := by
  have hread := h.getBalance
  obtain ⟨hbalance, queue, hqueue, -, -⟩ := getBalance_spec s
  unfold State.buyItem
  simp only
  rw [hqueue] at hread ⊢
  rw [hbalance]
  split_ifs with hpositive henough
  · obtain ⟨value, hcoins⟩ : ∃ value, s.coins = some value := by
      cases hc : s.coins with
      | none => simp [hc] at hpositive
      | some value => exact ⟨value, rfl⟩
    have hsum := hread.sum
    simp only [hnone] at hsum
    refine ⟨hsum, ?_, Or.inr (by simp [hcoins]), hread.low⟩
    show s.coins = some (s.coins.getD 0 - price.toNat + price.toNat) ∧ _
    exact ⟨by simp [hcoins], henough.1⟩
  · exact hread
  · exact hread

/-- Writing the balance takes the price out of the row. -/
theorem Balanced.writeBalance (h : Balanced initial s) {price : UInt32} {newBalance : ℤ}
    (hpurchase : s.purchase = .read price newBalance) (ok : Bool) :
    Balanced initial (s.writeBalance price newBalance ok) := by
  have hrelies := h.relies
  have hsum := h.sum
  have hlow := h.low
  simp only [hpurchase, Purchase.Relies] at hrelies
  obtain ⟨hrelies, henough⟩ := hrelies
  simp only [hpurchase, hrelies, Option.getD_some, Purchase.taken] at hsum
  unfold State.writeBalance
  split_ifs
  · refine ⟨?_, ?_, Or.inr ?_, ?_⟩
    · simp only [hrelies, Option.map_some, Option.getD_some, Purchase.taken, State.waiting]
        at hsum ⊢
      omega
    · simp [hrelies, Purchase.Relies]
    · simp [hrelies]
    · simp only [hrelies, Option.map_some, Option.getD_some, intMax]
      omega
  · refine ⟨?_, trivial, h.hasRow, h.low⟩
    simpa [hrelies, Purchase.taken, State.waiting] using hsum

/-- The log row of a balance that was written is inserted, or the purchase ends before it has
taken anything. -/
theorem Balanced.logPurchase (h : Balanced initial s) {price : UInt32} {newBalance : ℤ}
    (hpurchase : s.purchase = .written price newBalance) {ok : Bool}
    (hok : ok = true ∨ s.purchase.taken = 0) :
    Balanced initial { s with purchase := if ok then .logged price newBalance else .none } := by
  have hrelies := h.relies
  have hsum := h.sum
  simp only [hpurchase] at hrelies hsum hok
  cases ok with
  | true => exact ⟨hsum, hrelies, h.hasRow, h.low⟩
  | false =>
      have hfree : (Purchase.written price newBalance).taken = 0 := by simpa using hok
      rw [hfree] at hsum
      exact ⟨hsum, trivial, h.hasRow, h.low⟩

/-- The balance is found as it was written, and the price becomes a sale. -/
theorem Balanced.verify (h : Balanced initial s) {price : UInt32} {newBalance : ℤ}
    (hpurchase : s.purchase = .logged price newBalance) :
    Balanced initial (s.verify price newBalance) := by
  have hread := h.getBalance
  obtain ⟨hbalance, queue, hqueue, -, -⟩ := getBalance_spec s
  have hrelies := h.relies
  simp only [hpurchase, Purchase.Relies] at hrelies
  unfold State.verify
  simp only
  rw [hqueue] at hread ⊢
  rw [hbalance, if_pos (by simp [hrelies])]
  have hsum := hread.sum
  simp only [hpurchase, Purchase.taken] at hsum
  refine ⟨?_, trivial, Or.inr (by simp [hrelies]), hread.low⟩
  simp only [Purchase.taken, State.waiting] at hsum ⊢
  omega

/-- An award waits in the queue. -/
theorem Balanced.awardCoins (h : Balanced initial s) (amount : UInt32) :
    Balanced initial (s.awardCoins amount) := by
  unfold State.awardCoins
  split_ifs
  · exact h
  · have hsum := h.sum
    refine ⟨?_, h.relies, ?_, h.low⟩
    · simp only [State.waiting, List.map_append, List.sum_append, List.map_cons, List.map_nil,
        List.sum_cons, List.sum_nil, Statement.amount] at hsum ⊢
      omega
    · rcases h.hasRow with ⟨htasks, hnone⟩ | hrow
      · exact Or.inl ⟨htasks, fun price hmem => hnone price (by simpa using hmem)⟩
      · exact Or.inr hrow

/-- A refund waits in the queue. -/
theorem Balanced.sendItem (h : Balanced initial s) (task : ℕ) (refund : Bool) :
    Balanced initial (s.sendItem task refund) := by
  unfold State.sendItem
  split
  · exact h
  · rename_i price htask
    have hrow : s.coins.isSome := by
      rcases h.hasRow with ⟨htasks, -⟩ | hrow
      · rw [htasks] at htask
        cases htask
      · exact hrow
    have hsum := h.sum
    simp only
    split_ifs
    · refine ⟨?_, h.relies, Or.inr hrow, h.low⟩
      simp only [State.waiting, List.map_append, List.sum_append, List.map_cons, List.map_nil,
        List.sum_cons, List.sum_nil, Statement.amount] at hsum ⊢
      omega
    · exact ⟨hsum, h.relies, Or.inr hrow, h.low⟩

/-- A statement that leaves the purchase undisturbed. -/
theorem Balanced.execute (h : Balanced initial s) (hok : Undisturbed s .execute) :
    Balanced initial s.execute := by
  unfold State.execute
  split
  · exact h
  · rename_i statement rest hqueue
    obtain ⟨hquiet, hfits⟩ := hok statement rest hqueue
    have hrow : (∃ price, statement = .add price) → s.coins.isSome := by
      rintro ⟨price, rfl⟩
      rcases h.hasRow with ⟨-, hnone⟩ | hrow
      · exact absurd (by simp [hqueue]) (hnone price)
      · exact hrow
    have hnew := execute_adds hrow h.low hfits
    have hsum := h.sum
    rw [hnew]
    refine ⟨?_, ?_, Or.inr rfl, ?_⟩
    · simp only [State.waiting, hqueue, List.map_cons, List.sum_cons, Option.getD_some]
        at hsum ⊢
      omega
    · rcases hquiet with hnone | hzero
      · show s.purchase.Relies _
        rw [hnone]
        trivial
      · -- nothing is added, and a purchase that relies on a balance has a row
        have hrelies := h.relies
        show s.purchase.Relies _
        rw [hzero, Nat.cast_zero, add_zero]
        cases hp : s.purchase with
        | none => trivial
        | read price newBalance =>
            rw [hp] at hrelies
            exact ⟨by rw [hrelies.1]; rfl, hrelies.2⟩
        | written price newBalance =>
            rw [hp] at hrelies
            show some _ = some _
            rw [show s.coins = some newBalance from hrelies]
            rfl
        | logged price newBalance =>
            rw [hp] at hrelies
            show some _ = some _
            rw [show s.coins = some newBalance from hrelies]
            rfl
    · have hlow := h.low
      simp only [Option.getD_some]
      omega

/-- An undisturbed step keeps the accounts balanced. -/
theorem step_balanced (h : Balanced initial s) {event : Event} (hok : Undisturbed s event) :
    Balanced initial (step s event) := by
  cases event with
  | buy price =>
      simp only [step]
      split_ifs with hnone
      · exact h.buyItem hnone price
      · exact h
  | write ok =>
      simp only [step]
      split
      · rename_i price newBalance hpurchase
        exact h.writeBalance hpurchase ok
      · exact h
  | log ok =>
      simp only [step]
      split
      · rename_i price newBalance hpurchase
        exact h.logPurchase hpurchase hok
      · exact h
  | verify =>
      simp only [step]
      split
      · rename_i price newBalance hpurchase
        exact h.verify hpurchase
      · exact h
  | award amount => exact h.awardCoins amount
  | deliver task refund => exact h.sendItem task refund
  | execute => exact h.execute hok

/-- The start is balanced. -/
theorem start_balanced {coins : Option ℤ} (hlow : -intMax - 1 ≤ coins.getD 0) :
    Balanced (coins.getD 0) (.start coins) :=
  ⟨by simp [State.start, State.waiting, Purchase.taken], trivial, Or.inl ⟨rfl, by simp [State.start]⟩, hlow⟩

end Steps

/-- The law of the coins at the end of a run, when no statement waits and no purchase is under
way: the coins are the first ones with what was awarded and refunded less what was sold. -/
def CoinLaw (initial : ℤ) (s : State) : Prop :=
  s.purchase = .none → s.queue = [] →
    s.coins.getD 0 = initial + s.awarded + s.refunded - s.sold

/-- The coins of an undisturbed run. -/
theorem run_coins (coins : Option ℤ) (events : List Event) (hlow : -intMax - 1 ≤ coins.getD 0)
    (hok : Lib.Along Undisturbed step (.start coins) events) :
    CoinLaw (coins.getD 0) (Lib.run step (.start coins) events) := by
  intro hnone hqueue
  have hbalanced := Lib.run_invariant (Balanced (coins.getD 0))
    (fun _ _ hstep h => step_balanced h hstep) (start_balanced hlow) hok
  have hsum := hbalanced.sum
  simpa [hnone, hqueue, State.waiting, Purchase.taken] using hsum

/-- An award that arrives between the read and the write of a purchase is lost, and the
verification does not notice it. -/
theorem award_lost :
    ¬CoinLaw 100 (Lib.run step (.start (some 100))
      [.buy 30, .award 50, .execute, .write true, .log true, .verify]) := by
  intro hlaw
  have hsum := hlaw (by decide) (by decide)
  revert hsum
  decide

/-- The same award after the purchase, and a refund. -/
theorem run_coins_refund :
    (-intMax - 1 ≤ (some (100 : ℤ)).getD 0 ∧
      Lib.Along Undisturbed step (.start (some 100))
        [.buy 30, .write true, .log true, .verify, .award 50, .execute, .deliver 0 true, .execute]) ∧
      CoinLaw 100 (Lib.run step (.start (some 100))
        [.buy 30, .write true, .log true, .verify, .award 50, .execute, .deliver 0 true,
          .execute]) := by
  have hok : Lib.Along Undisturbed step (.start (some 100))
      [.buy 30, .write true, .log true, .verify, .award 50, .execute, .deliver 0 true,
        .execute] := by
    refine ⟨trivial, trivial, Or.inl rfl, trivial, trivial, ?_, trivial, ?_, trivial⟩
    · intro statement rest hqueue
      cases hqueue
      exact ⟨Or.inl rfl, by decide⟩
    · intro statement rest hqueue
      cases hqueue
      exact ⟨Or.inl rfl, by decide⟩
  exact ⟨⟨by decide, hok⟩, run_coins (some 100) _ (by decide) hok⟩

end TwowCore.Shop
