import TwowCore.Mail.Mail
import TwowCore.Player.Guids

/-!
# Where the items are

`Housed` says of the players and of the items attached to mails that every item is in one place only:
the guids of the attached items are distinct, no player carries one of them, no player carries a guid
twice, and no two players carry the same. An item in the hands of a handler counts as attached. The
lemmas are the moves of the handlers: a purse is written, an item goes out of an inventory, an item
goes into one.
-/

namespace TwowCore

namespace Player

variable {T : ItemTable}

/-- The player has an item of the guid. -/
def Has (p : Player T) (guid : UInt32) : Prop := ∃ pos item, p.items pos = some item ∧ item.guid = guid

end Player

/-- Every item is in one place, and every stack and every purse within its bounds. -/
structure Housed {T : ItemTable} (players : List (Player T)) (attached : List (Item T))
    (nextItemGuid : UInt32) : Prop where
  distinct : (players.map Player.guid).Nodup
  purses : ∀ p ∈ players, p.money ≤ maxMoneyAmount
  bounded : ∀ p ∈ players, p.Bounded
  single : (attached.map Item.guid).Nodup
  holds : ∀ item ∈ attached, item.Holds item.count
  below : ∀ item ∈ attached, item.guid < nextItemGuid
  carries : ∀ p ∈ players,
    (p.setNextItemGuid nextItemGuid).Carries fun guid => guid ∈ attached.map Item.guid
  apart : players.Pairwise fun p q => ∀ guid, p.Has guid → ¬q.Has guid

namespace Housed

variable {T : ItemTable} {p : Player T} {players rest : List (Player T)} {item : Item T}
  {attached : List (Item T)} {next : UInt32}

/-- The order of the players and of the items does not matter. -/
theorem perm (h : Housed players attached next) {players' : List (Player T)}
    {attached' : List (Item T)} (hplayers : players.Perm players')
    (hattached : attached.Perm attached') : Housed players' attached' next where
  distinct := (hplayers.map _).nodup_iff.mp h.distinct
  purses p hp := h.purses p (hplayers.mem_iff.mpr hp)
  bounded p hp := h.bounded p (hplayers.mem_iff.mpr hp)
  single := (hattached.map _).nodup_iff.mp h.single
  holds item hitem := h.holds item (hattached.mem_iff.mpr hitem)
  below item hitem := h.below item (hattached.mem_iff.mpr hitem)
  carries p hp :=
    let hold := h.carries p (hplayers.mem_iff.mpr hp)
    ⟨hold.unique, fun pos item hitem hmem =>
      hold.apart pos item hitem ((hattached.map _).mem_iff.mpr hmem), hold.below⟩
  apart := by
    refine (hplayers.pairwise_iff ?_).mp h.apart
    exact fun hpq guid hq hp => hpq guid hp hq

/-- A purse is written. -/
theorem setMoney (h : Housed (p :: rest) attached next) {money : UInt32}
    (hmoney : money ≤ maxMoneyAmount) : Housed (p.setMoney money :: rest) attached next :=
  { h with
    purses := fun q hq => by
      rcases List.mem_cons.mp hq with rfl | hq
      · exact hmoney
      · exact h.purses q (List.mem_cons_of_mem _ hq)
    bounded := fun q hq => by
      rcases List.mem_cons.mp hq with rfl | hq
      · exact h.bounded p List.mem_cons_self
      · exact h.bounded q (List.mem_cons_of_mem _ hq)
    carries := fun q hq => by
      rcases List.mem_cons.mp hq with rfl | hq
      · have hold := h.carries p List.mem_cons_self
        exact ⟨hold.unique, hold.apart, hold.below⟩
      · exact h.carries q (List.mem_cons_of_mem _ hq)
    apart := by
      obtain ⟨hhere, hrest⟩ := List.pairwise_cons.mp h.apart
      exact List.pairwise_cons.mpr ⟨hhere, hrest⟩ }

/-- An item goes out of an inventory. -/
theorem moveItemFromInventory (h : Housed (p :: rest) attached next) {pos : ItemPos}
    (hshown : p.getItemByPos pos = some item)
    (hempty : pos.bag = inventorySlotBag0 → p.EmptyBag pos.slot) :
    Housed (p.moveItemFromInventory pos :: rest) (item :: attached) next := by
  have hitem := Player.items_of_getItemByPos hshown
  have hmove : p.moveItemFromInventory pos = p.setItem pos none := by
    unfold Player.moveItemFromInventory Player.destroyItem
    rw [hshown]
    exact Player.takeOut_of_empty hempty
  rw [hmove]
  have hold := h.carries p List.mem_cons_self
  obtain ⟨hhere, hrest⟩ := List.pairwise_cons.mp h.apart
  -- what is left was there before, and not at the position
  have hwas : ∀ other found, (p.setItem pos none).items other = some found →
      other ≠ pos ∧ p.items other = some found := by
    intro other found hfound
    rw [Player.setItem_items] at hfound
    by_cases hother : other = pos
    · subst hother
      rw [Function.update_self] at hfound
      cases hfound
    · rw [Function.update_of_ne hother] at hfound
      exact ⟨hother, hfound⟩
  have hhas : p.Has item.guid := ⟨pos, item, hitem, rfl⟩
  refine
    { distinct := h.distinct, purses := fun q hq => ?_, bounded := fun q hq => ?_, single := ?_,
      holds := fun other hother => ?_, below := fun other hother => ?_,
      carries := fun q hq => ?_, apart := ?_ }
  · rcases List.mem_cons.mp hq with rfl | hq
    · exact h.purses p List.mem_cons_self
    · exact h.purses q (List.mem_cons_of_mem _ hq)
  · rcases List.mem_cons.mp hq with rfl | hq
    · exact fun other found hfound => h.bounded p List.mem_cons_self other found (hwas _ _ hfound).2
    · exact h.bounded q (List.mem_cons_of_mem _ hq)
  · exact List.nodup_cons.mpr ⟨hold.apart pos item hitem, h.single⟩
  · rcases List.mem_cons.mp hother with rfl | hother
    · exact h.bounded p List.mem_cons_self pos _ hitem
    · exact h.holds other hother
  · rcases List.mem_cons.mp hother with rfl | hother
    · exact hold.below pos _ hitem
    · exact h.below other hother
  · rcases List.mem_cons.mp hq with rfl | hq
    · refine ⟨fun i j left right hi hj hsame => ?_, fun i found hi hmem => ?_,
        fun i found hi => hold.below i found (hwas i found hi).2⟩
      · exact hold.unique i j left right (hwas i left hi).2 (hwas j right hj).2 hsame
      · obtain ⟨hne, hfound⟩ := hwas i found hi
        rcases List.mem_cons.mp hmem with heq | hmem
        · exact hne (hold.unique i pos found item hfound hitem heq)
        · exact hold.apart i found hfound hmem
    · have hother := h.carries q (List.mem_cons_of_mem _ hq)
      refine ⟨hother.unique, fun i found hi hmem => ?_, hother.below⟩
      rcases List.mem_cons.mp hmem with heq | hmem
      · exact hhere q hq item.guid hhas ⟨i, found, hi, heq⟩
      · exact hother.apart i found hi hmem
  · refine List.pairwise_cons.mpr ⟨fun q hq guid hguid => ?_, hrest⟩
    obtain ⟨i, found, hi, hsame⟩ := hguid
    exact hhere q hq guid ⟨i, found, (hwas i found hi).2, hsame⟩

/-- The guids that are taken when an item is to go into the inventory of a player. -/
def Taken (rest : List (Player T)) (attached : List (Item T)) (guid : UInt32) : Prop :=
  guid ∈ attached.map Item.guid ∨ ∃ q ∈ rest, q.Has guid

/-- What holds of a player and an item that is to go into his inventory. -/
theorem ready (h : Housed (p :: rest) (item :: attached) next) :
    (p.setNextItemGuid next).Carries (fun guid => Taken rest attached guid ∨ guid = item.guid) ∧
      (∀ guid, Taken rest attached guid → guid < next) ∧ ¬Taken rest attached item.guid ∧
      item.guid < next := by
  have hold := h.carries p List.mem_cons_self
  obtain ⟨hhere, hrest⟩ := List.pairwise_cons.mp h.apart
  have hnodup := List.nodup_cons.mp h.single
  refine ⟨⟨hold.unique, fun pos found hfound htaken => ?_, hold.below⟩, fun guid htaken => ?_, ?_,
    h.below item List.mem_cons_self⟩
  · rcases htaken with (hmem | ⟨q, hq, hhas⟩) | heq
    · exact hold.apart pos found hfound (List.mem_cons_of_mem _ hmem)
    · exact hhere q hq found.guid ⟨pos, found, hfound, rfl⟩ hhas
    · exact hold.apart pos found hfound (List.mem_cons.mpr (Or.inl heq))
  · rcases htaken with hmem | ⟨q, hq, pos, found, hfound, rfl⟩
    · obtain ⟨other, hother, rfl⟩ := List.mem_map.mp hmem
      exact h.below other (List.mem_cons_of_mem _ hother)
    · exact (h.carries q (List.mem_cons_of_mem _ hq)).below pos found hfound
  · rintro (hmem | ⟨q, hq, pos, found, hfound, hsame⟩)
    · exact hnodup.1 hmem
    · exact (h.carries q (List.mem_cons_of_mem _ hq)).apart pos found hfound
        (List.mem_cons.mpr (Or.inl hsame))

/-- An item goes into an inventory. -/
theorem settle (h : Housed (p :: rest) (item :: attached) next) {p' : Player T}
    (hguid : p'.guid = p.guid) (hmoney : p'.money = p.money) (hbounded : p'.Bounded)
    (hcarries : p'.Carries (Taken rest attached)) (hnext : next ≤ p'.nextItemGuid) :
    Housed (p' :: rest) attached p'.nextItemGuid where
  distinct := by
    have hplayers := h.distinct
    rw [List.map_cons] at hplayers ⊢
    rw [hguid]
    exact hplayers
  purses q hq := by
    rcases List.mem_cons.mp hq with rfl | hq
    · rw [hmoney]
      exact h.purses p List.mem_cons_self
    · exact h.purses q (List.mem_cons_of_mem _ hq)
  bounded q hq := by
    rcases List.mem_cons.mp hq with rfl | hq
    · exact hbounded
    · exact h.bounded q (List.mem_cons_of_mem _ hq)
  single := (List.nodup_cons.mp h.single).2
  holds other hother := h.holds other (List.mem_cons_of_mem _ hother)
  below other hother := UInt32.lt_of_lt_of_le (h.below other (List.mem_cons_of_mem _ hother)) hnext
  carries q hq := by
    rcases List.mem_cons.mp hq with rfl | hq
    · exact ⟨hcarries.unique, fun pos found hfound hmem =>
        hcarries.apart pos found hfound (Or.inl hmem), hcarries.below⟩
    · have hold := h.carries q (List.mem_cons_of_mem _ hq)
      exact ⟨hold.unique, fun pos found hfound hmem =>
        hold.apart pos found hfound (List.mem_cons_of_mem _ hmem), fun pos found hfound =>
        UInt32.lt_of_lt_of_le (hold.below pos found hfound) hnext⟩
  apart := by
    refine List.pairwise_cons.mpr ⟨fun q hq guid hguid hother => ?_,
      (List.pairwise_cons.mp h.apart).2⟩
    obtain ⟨pos, found, hfound, rfl⟩ := hguid
    exact hcarries.apart pos found hfound (Or.inr ⟨q, hq, hother⟩)

end Housed

end TwowCore
