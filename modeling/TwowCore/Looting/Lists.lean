import Mathlib
import TwowCore.Looting.Loot
import TwowCore.Lib.ListUpdate

/-!
# The lists of a loot

What the operations on the items and on the lists of the players do to a count: writing one item,
writing some items one after the other, marking an item as looted in the list of one player, moving
items to the overflow and back.
-/

namespace TwowCore.Looting

/-- A list of one player per guid, and every item in it once. -/
structure QuestItemMap.Ok (m : QuestItemMap) : Prop where
  players : (m.map Prod.fst).Nodup
  indices : ∀ e ∈ m, (e.2.map QuestItem.index).Nodup

/-- How many entries of the lists pass a test. -/
def QuestItemMap.count (m : QuestItemMap) (test : QuestItem → Bool) : ℕ :=
  (List.map (fun e => e.2.countP test) m).sum

namespace QuestItemMap

variable {m : QuestItemMap} {guid index : ℕ} {test : QuestItem → Bool}

/-- The list that is found is the list of the player. -/
theorem find_some {ql : List QuestItem} (h : m.find guid = some ql) : (guid, ql) ∈ m := by
  obtain ⟨e, hfind, rfl⟩ := Option.map_eq_some_iff.mp h
  have hguid : e.1 = guid := by simpa using List.find?_some hfind
  rw [← hguid]
  exact List.mem_of_find?_eq_some hfind

/-- Who has no list has none. -/
theorem find_none (h : m.find guid = none) : guid ∉ m.map Prod.fst := by
  intro hmem
  obtain ⟨e, he, rfl⟩ := List.mem_map.mp hmem
  have hnone := List.find?_eq_none.mp (Option.map_eq_none_iff.mp h) e he
  simp at hnone

/-- The item that is found stands in the list of the player. -/
theorem findItem_some {q : QuestItem} (h : m.findItem guid index = some q) :
    ∃ ql, m.find guid = some ql ∧ q ∈ ql ∧ q.index = index := by
  obtain ⟨ql, hql, hq⟩ := Option.bind_eq_some_iff.mp h
  exact ⟨ql, hql, List.mem_of_find?_eq_some hq, by simpa using List.find?_some hq⟩

/-- Marking an item takes the entry out of a count of those not looted. -/
theorem count_setLooted (test : QuestItem → Bool) (h : m.Ok) {ql : List QuestItem} (hql : (guid, ql) ∈ m) {q : QuestItem}
    (hq : q ∈ ql) (htest : test { q with isLooted := true } = false) :
    (m.setLooted guid q.index).count test + (if test q then 1 else 0) = m.count test := by
  have hinner := Lib.countP_writeKey (f := fun q : QuestItem => { q with isLooted := true }) test
    (h.indices _ hql) hq rfl
  rw [htest] at hinner
  have houter := Lib.sum_writeKey (f := fun e : ℕ × List QuestItem =>
    (e.1, Lib.writeKey QuestItem.index q.index (fun q => { q with isLooted := true }) e.2))
    (fun e => e.2.countP test) h.players hql rfl
  simp only [Bool.false_eq_true, if_false, Nat.add_zero] at hinner
  unfold count setLooted
  dsimp only at houter
  omega

/-- Marking an item keeps the lists in order. -/
theorem Ok.setLooted (h : m.Ok) (guid index : ℕ) : (m.setLooted guid index).Ok where
  players := by
    have hkeys : (m.setLooted guid index).map Prod.fst = m.map Prod.fst :=
      Lib.writeKey_keys fun _ _ => rfl
    rw [hkeys]
    exact h.players
  indices e he := by
    obtain ⟨old, hold, rfl⟩ := Lib.mem_writeKey.mp he
    split_ifs
    · have hkeys : (Lib.writeKey QuestItem.index index
          (fun q : QuestItem => { q with isLooted := true }) old.2).map QuestItem.index =
          old.2.map QuestItem.index := Lib.writeKey_keys fun _ _ => rfl
      show ((Lib.writeKey QuestItem.index index _ old.2).map QuestItem.index).Nodup
      rw [hkeys]
      exact h.indices old hold
    · exact h.indices old hold

/-- An entry after an item is marked was an entry before. -/
theorem mem_setLooted {e : ℕ × List QuestItem} (he : e ∈ m.setLooted guid index) {q : QuestItem}
    (hq : q ∈ e.2) : ∃ old ∈ m, old.1 = e.1 ∧ ∃ q' ∈ old.2, q'.index = q.index ∧
      (q'.isLooted = true → q.isLooted = true) := by
  obtain ⟨old, hold, rfl⟩ := Lib.mem_writeKey.mp he
  split_ifs at hq ⊢
  · obtain ⟨q', hq', rfl⟩ := Lib.mem_writeKey.mp hq
    refine ⟨old, hold, rfl, q', hq', ?_⟩
    split_ifs
    · exact ⟨rfl, fun _ => rfl⟩
    · exact ⟨rfl, id⟩
  · exact ⟨old, hold, rfl, q, hq, rfl, id⟩

/-- A new list of a player who had none. -/
theorem Ok.concat (h : m.Ok) (hnone : m.find guid = none) {indices : List ℕ}
    (hnodup : indices.Nodup) : QuestItemMap.Ok (m ++ [(guid, Loot.marks indices)]) where
  players := Lib.nodup_map_concat Prod.fst h.players (find_none hnone)
  indices e he := by
    rcases List.mem_append.mp he with hold | hnew
    · exact h.indices e hold
    · rw [List.mem_singleton.mp hnew]
      show ((indices.map fun i => (⟨i, false⟩ : QuestItem)).map QuestItem.index).Nodup
      rw [List.map_map]
      exact (List.map_id indices).symm ▸ hnodup

/-- The count with a new list. -/
theorem count_concat (indices : List ℕ) :
    QuestItemMap.count (m ++ [(guid, Loot.marks indices)]) test =
      m.count test + indices.countP fun i => test ⟨i, false⟩ := by
  unfold count
  rw [List.map_append, List.sum_append]
  show _ + ([(Loot.marks indices).countP test]).sum = _
  rw [List.sum_singleton]
  unfold Loot.marks
  rw [List.countP_map]
  rfl

/-- Tests that agree on the entries. -/
theorem count_congr {test' : QuestItem → Bool} (h : ∀ e ∈ m, ∀ q ∈ e.2, test q = test' q) :
    m.count test = m.count test' := by
  unfold count
  congr 1
  refine List.map_congr_left fun e he => List.countP_congr fun q hq => ?_
  rw [h e he q hq]

end QuestItemMap

namespace Loot

variable {items overflow : List LootItem} {test : LootItem → Bool}

/-- Counting after an item is written. -/
theorem countP_set (test : LootItem → Bool) {i : ℕ} {old : LootItem} (h : items[i]? = some old) (new : LootItem) :
    (items.set i new).countP test + (if test old then 1 else 0) =
      items.countP test + (if test new then 1 else 0) := by
  have hsum := Lib.sum_map_set (fun item => if test item then 1 else 0) h new
  have hcount : ∀ l : List LootItem,
      (l.map fun item => if test item then 1 else 0).sum = l.countP test := by
    intro l
    induction l with
    | nil => rfl
    | cons item rest ih =>
        rw [List.map_cons, List.sum_cons, ih, List.countP_cons]
        omega
  rw [hcount, hcount] at hsum
  exact hsum

/-- The indices of items that pass a test. -/
theorem mem_indices {i : ℕ} : i ∈ indices test items ↔ ∃ item, items[i]? = some item ∧ test item := by
  unfold indices
  rw [List.mem_filter, List.mem_range, Option.any_eq_true]
  constructor
  · exact fun h => h.2
  · rintro ⟨item, hitem, htest⟩
    exact ⟨(List.getElem?_eq_some_iff.mp hitem).1, item, hitem, htest⟩

theorem indices_nodup (test : LootItem → Bool) (items : List LootItem) :
    (indices test items).Nodup :=
  List.nodup_range.filter _

/-- An item after some have been rewritten. -/
theorem getElem?_modifyAt {f : LootItem → LootItem} {indices : List ℕ} (hnodup : indices.Nodup)
    (items : List LootItem) (j : ℕ) :
    (modifyAt f indices items)[j]? = if j ∈ indices then items[j]?.map f else items[j]? := by
  induction indices generalizing items with
  | nil => rfl
  | cons i rest ih =>
      rw [List.nodup_cons] at hnodup
      unfold modifyAt
      cases hitem : items[i]? with
      | none =>
          show (modifyAt f rest items)[j]? = _
          rw [ih hnodup.2]
          by_cases hj : j = i
          · subst hj
            rw [if_neg hnodup.1, if_pos List.mem_cons_self, hitem]
            rfl
          · simp [hj]
      | some item =>
          show (modifyAt f rest (items.set i (f item)))[j]? = _
          rw [ih hnodup.2]
          by_cases hj : j = i
          · subst hj
            rw [if_neg hnodup.1, if_pos List.mem_cons_self, hitem]
            rw [List.getElem?_set_self (List.getElem?_eq_some_iff.mp hitem).1]
            rfl
          · rw [List.getElem?_set_ne fun h => hj h.symm]
            simp [hj]

/-- Counting after some items are rewritten. -/
theorem countP_modifyAt (test : LootItem → Bool) {f : LootItem → LootItem} {indices : List ℕ} (hnodup : indices.Nodup)
    (items : List LootItem) :
    (modifyAt f indices items).countP test + indices.countP (fun i => items[i]?.any test) =
      items.countP test + indices.countP fun i => items[i]?.any fun item => test (f item) := by
  induction indices generalizing items with
  | nil => rfl
  | cons i rest ih =>
      rw [List.nodup_cons] at hnodup
      unfold modifyAt
      cases hitem : items[i]? with
      | none =>
          have hrest := ih hnodup.2 items
          simp only [List.countP_cons, hitem, Option.any_none, Bool.false_eq_true, if_false]
          omega
      | some item =>
          have hrest := ih hnodup.2 (items.set i (f item))
          have hset := countP_set test hitem (f item)
          have hsame : ∀ test' : LootItem → Bool,
              rest.countP (fun j => (items.set i (f item))[j]?.any test') =
                rest.countP fun j => items[j]?.any test' := by
            intro test'
            refine List.countP_congr fun j hj => ?_
            have hne : i ≠ j := by
              rintro rfl
              exact hnodup.1 hj
            rw [List.getElem?_set_ne hne]
          rw [hsame, hsame] at hrest
          simp only [List.countP_cons, hitem, Option.any_some]
          omega

/-- What stays and what is moved to the overflow are the items. -/
theorem splitExcess_perm (room : ℕ) (items : List LootItem) :
    ((splitExcess room items).1 ++ (splitExcess room items).2).Perm items := by
  induction items generalizing room with
  | nil => exact List.Perm.refl _
  | cons item rest ih =>
      unfold splitExcess
      split
      · exact (ih (room - 1)).cons item
      · exact List.perm_middle.trans ((ih room).cons item)

/-- Refilling keeps the count of items that are not looted. -/
theorem countP_refillSlots (test : LootItem → Bool)
    (htest : ∀ item : LootItem, item.isLooted = true → test item = false)
    (items overflow : List LootItem) :
    (refillSlots items overflow).1.countP test + (refillSlots items overflow).2.countP test =
      items.countP test + overflow.countP test := by
  induction items generalizing overflow with
  | nil => simp [refillSlots]
  | cons old rest ih =>
      cases overflow with
      | nil => rfl
      | cons next overflow =>
          unfold refillSlots
          split
          · have hih := ih (next :: overflow)
            simp only [List.countP_cons] at hih ⊢
            omega
          · next hslot =>
            have hlooted : old.isLooted = true := by
              by_contra hnot
              exact hslot (Or.inl (Bool.eq_false_iff.mpr hnot))
            have hih := ih overflow
            have hold := htest old hlooted
            simp only [List.countP_cons, hold, Bool.false_eq_true, if_false] at hih ⊢
            omega

/-- A slot after the refill holds the old item, or the old item was looted and plain. -/
theorem getElem?_refillSlots {items overflow : List LootItem} {i : ℕ} {item : LootItem}
    (h : (refillSlots items overflow).1[i]? = some item) :
    items[i]? = some item ∨ item ∈ overflow ∧ ∃ old, items[i]? = some old ∧
      old.isLooted = true ∧ old.plain = true := by
  induction items generalizing overflow i with
  | nil =>
      cases overflow <;> cases h
  | cons old rest ih =>
      cases overflow with
      | nil => exact Or.inl h
      | cons next overflow =>
          unfold refillSlots at h
          split at h
          · cases i with
            | zero => exact Or.inl h
            | succ i =>
                rw [List.getElem?_cons_succ] at h
                exact ih h
          · next hslot =>
            obtain ⟨hlooted, hplain⟩ := not_or.mp hslot
            cases i with
            | zero =>
                rw [List.getElem?_cons_zero] at h
                cases h
                exact Or.inr ⟨List.mem_cons_self, old, rfl, by simpa using hlooted,
                  by simpa using hplain⟩
            | succ i =>
                rw [List.getElem?_cons_succ] at h
                rcases ih h with hsame | ⟨hmem, hold⟩
                · exact Or.inl hsame
                · exact Or.inr ⟨List.mem_cons_of_mem _ hmem, hold⟩

/-- Where an item is that `LootItemInSlot` finds, and what it says of being looted. -/
def FoundAt (loot : Loot) (lootSlot playerGuid : ℕ) (item : LootItem) : Found → Prop
  | .quest index => loot.questItems[index]? = some item ∧ item.isLooted = false ∧
      ∃ ql q, (playerGuid, ql) ∈ loot.playerQuestItems ∧ q ∈ ql ∧ q.index = index ∧
        q.isLooted = false
  | .ffa => loot.items[lootSlot]? = some item ∧ item.freeforall = true ∧
      ∃ ql q, (playerGuid, ql) ∈ loot.playerFFAItems ∧ q ∈ ql ∧ q.index = lootSlot ∧
        q.isLooted = false
  | .conditional => loot.items[lootSlot]? = some item ∧ item.isLooted = false ∧
      item.freeforall = false
  | .plain => loot.items[lootSlot]? = some item ∧ item.isLooted = false ∧
      (item.freeforall = true → loot.playerFFAItems.findItem playerGuid lootSlot = none)

theorem lootItemInSlot_some {loot : Loot} {lootSlot playerGuid : ℕ} {item : LootItem} {found : Found}
    (h : loot.lootItemInSlot lootSlot playerGuid = some (item, found)) :
    loot.FoundAt lootSlot playerGuid item found := by
  unfold lootItemInSlot at h
  split at h
  · unfold questItemInSlot at h
    split at h
    · cases h
    · next q hq =>
      split at h
      · cases h
      · next questItem hitem =>
        split at h
        · cases h
        · next hlooted =>
          cases h
          obtain ⟨hitemLooted, hqLooted⟩ := not_or.mp hlooted
          obtain ⟨ql, hql, hget⟩ := Option.bind_eq_some_iff.mp hq
          exact ⟨hitem, Bool.eq_false_iff.mpr hitemLooted, ql, q,
            QuestItemMap.find_some hql, List.mem_of_getElem? hget, rfl,
            Bool.eq_false_iff.mpr hqLooted⟩
  · next there hthere =>
    split at h
    · next hffa =>
      split at h
      · next hnone =>
        split at h
        · cases h
        · next hlooted =>
          cases h
          exact ⟨hthere, Bool.eq_false_iff.mpr hlooted, fun _ => hnone⟩
      · next q hq =>
        split at h
        · cases h
        · next hlooted =>
          cases h
          obtain ⟨ql, hql, hmem, hindex⟩ := QuestItemMap.findItem_some hq
          exact ⟨hthere, hffa, ql, q, QuestItemMap.find_some hql, hmem, hindex,
            Bool.eq_false_iff.mpr hlooted⟩
    · next hffa =>
      have hffa : there.freeforall = false := Bool.eq_false_iff.mpr hffa
      split at h
      · cases h
      · next hlooted =>
        have hlooted : there.isLooted = false := Bool.eq_false_iff.mpr hlooted
        split at h
        · cases h
          exact ⟨hthere, hlooted, fun htrue => by simp [hffa] at htrue⟩
        · split at h
          · cases h
            exact ⟨hthere, hlooted, fun htrue => by simp [hffa] at htrue⟩
          · split at h
            · cases h
            · cases h
              exact ⟨hthere, hlooted, hffa⟩

end Loot

/-- Counts that balance entry by entry balance. -/
theorem countP_balance {α : Type*} {l : List α} {a b c d : α → Bool}
    (h : ∀ x ∈ l, (if a x then 1 else 0) + (if b x then 1 else 0) =
      (if c x then 1 else 0) + if d x then 1 else 0) :
    l.countP a + l.countP b = l.countP c + l.countP d := by
  induction l with
  | nil => rfl
  | cons x rest ih =>
      have hx := h x List.mem_cons_self
      have hrest := ih fun y hy => h y (List.mem_cons_of_mem _ hy)
      simp only [List.countP_cons]
      omega

end TwowCore.Looting
