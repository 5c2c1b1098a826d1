import Mathlib.Data.List.Perm.Subperm
import TwowCore.Looting.Lists

/-!
# Handing out once

`HandedOut` says where the state of a loot keeps that an item has been handed out: on the item, if it
is not free-for-all, and in the list of the player if it is. `HandedOut.step` keeps it along every run
whose steps are `Untaken`, and with it the record `stored` has an item once, or once per player.

Two paths ask too little. `HandleLootMasterGiveOpcode` and `CountTheRoll` do not ask whether the item
has been looted, nor by whom, and `LootItemInSlot` finds a free-for-all item for a player whose list
does not have it, as often as he asks.
-/

namespace TwowCore.Looting

/-- All items of a loot. -/
def Loot.entries (loot : Loot) : List LootItem :=
  loot.items ++ loot.overflowItems ++ loot.questItems

/-- The list of a player has the item of an index as looted. -/
def QuestItemMap.LootedBy (m : QuestItemMap) (guid index : ℕ) : Prop :=
  ∃ ql q, (guid, ql) ∈ m ∧ q ∈ ql ∧ q.index = index ∧ q.isLooted = true

/-- An item keeps its number and whether it is free-for-all; once looted it stays so, and once
without units too. -/
structure Later (old new : LootItem) : Prop where
  number : new.number = old.number
  freeforall : new.freeforall = old.freeforall
  looted : old.isLooted = true → new.isLooted = true
  gone : old.count = 0 → new.count = 0

/-- The items of a list, one by one, later. -/
structure Evolves (items items' : List LootItem) : Prop where
  length : items'.length = items.length
  later : ∀ (i : ℕ) (new : LootItem), items'[i]? = some new → ∃ old, items[i]? = some old ∧ Later old new

/-- What holds of the items and lists of a loot. -/
structure Numbered (loot : Loot) : Prop where
  numbers : (loot.entries.map LootItem.number).Nodup
  below : ∀ item ∈ loot.entries, item.number < loot.nextNumber
  overflow : ∀ item ∈ loot.overflowItems, item.plain = true
  ffaLists : loot.playerFFAItems.Ok
  questLists : loot.playerQuestItems.Ok

/-- What holds of a loot and of the record of what has been handed out. -/
structure HandedOut (s : Corpse) : Prop where
  numbered : Numbered s.loot
  awarded : ∀ a ∈ s.stored, a.number < s.loot.nextNumber
  rolled : ∀ roll ∈ s.rolls, roll.number < s.loot.nextNumber ∧
    ∀ item ∈ s.loot.entries, item.number = roll.number → item.freeforall = false
  kind : ∀ a ∈ s.stored, ∀ item ∈ s.loot.entries, item.number = a.number →
    item.freeforall = a.freeforall
  taken : ∀ a ∈ s.stored, a.freeforall = false → ∀ item ∈ s.loot.entries,
    item.number = a.number → item.isLooted = true
  ffa : ∀ a ∈ s.stored, a.freeforall = true → ∀ (i : ℕ) (item : LootItem), s.loot.items[i]? = some item →
    item.number = a.number → item.count = 0 ∨ s.loot.playerFFAItems.LootedBy a.player i
  quest : ∀ a ∈ s.stored, a.freeforall = true → ∀ (i : ℕ) (item : LootItem), s.loot.questItems[i]? = some item →
    item.number = a.number → s.loot.playerQuestItems.LootedBy a.player i
  once : ((s.stored.filter fun a => !a.freeforall).map Award.number).Nodup
  perPlayer : ((s.stored.filter Award.freeforall).map fun a => (a.number, a.player)).Nodup

/-- What is handed out has not been handed out: a free-for-all item is found in the list of the
player; what the master looter gives is not looted, nor taken already by the target if it is
free-for-all; and a roll is won for the item that was rolled for, which is not looted. Without units
nothing is handed out. -/
def Untaken (c : Catalogue) (s : Corpse) : LootEvent → Prop
  | .autostore player lootSlot isCreature canStore =>
      ∀ item found, s.loot.lootItemInSlot lootSlot player.guid = some (item, found) →
        Corpse.mayAutostore c player item found isCreature canStore = true →
        found = .plain → item.freeforall = false
  | .masterGive slotid target canStore =>
      ∀ item, s.loot.items[slotid]? = some item → target ∈ s.loot.allowedLooters →
        canStore = true → item.count ≠ 0 → item.isLooted = false ∧
          (item.freeforall = true → ¬s.loot.playerFFAItems.LootedBy target slotid)
  | .countTheRoll k (.won _ true) =>
      ∀ roll item, s.rolls[k]? = some roll → s.loot.items[roll.itemSlot]? = some item →
        item.count ≠ 0 → item.number = roll.number ∧ item.isLooted = false
  | _ => True

namespace QuestItemMap

variable {m : QuestItemMap} {guid index : ℕ}

/-- What is looted stays looted. -/
theorem LootedBy.setLooted (h : m.LootedBy guid index) (guid' index' : ℕ) :
    (m.setLooted guid' index').LootedBy guid index := by
  obtain ⟨ql, q, hql, hq, hindex, hlooted⟩ := h
  by_cases hguid : guid = guid'
  · subst hguid
    refine ⟨Lib.writeKey QuestItem.index index' (fun q => { q with isLooted := true }) ql,
      if q.index = index' then { q with isLooted := true } else q, ?_, ?_, ?_, ?_⟩
    · exact Lib.mem_writeKey.mpr ⟨(guid, ql), hql, if_pos rfl⟩
    · exact Lib.mem_writeKey.mpr ⟨q, hq, rfl⟩
    · split_ifs <;> exact hindex
    · split_ifs
      · rfl
      · exact hlooted
  · exact ⟨ql, q, Lib.mem_writeKey.mpr ⟨(guid, ql), hql, if_neg hguid⟩, hq, hindex, hlooted⟩

/-- What is marked is looted. -/
theorem lootedBy_setLooted {ql : List QuestItem} (hql : (guid, ql) ∈ m) {q : QuestItem}
    (hq : q ∈ ql) : (m.setLooted guid q.index).LootedBy guid q.index :=
  ⟨_, _, Lib.mem_writeKey.mpr ⟨(guid, ql), hql, if_pos rfl⟩,
    Lib.mem_writeKey.mpr ⟨q, hq, if_pos rfl⟩, rfl, rfl⟩

/-- What is looted stays looted when another list is added. -/
theorem LootedBy.concat (h : m.LootedBy guid index) (e : ℕ × List QuestItem) :
    QuestItemMap.LootedBy (m ++ [e]) guid index := by
  obtain ⟨ql, q, hql, hrest⟩ := h
  exact ⟨ql, q, List.mem_append_left _ hql, hrest⟩

/-- An item stands once in a list, so it is not looted where it is found not to be. -/
theorem not_lootedBy (h : m.Ok) {ql : List QuestItem} (hql : (guid, ql) ∈ m) {q : QuestItem}
    (hq : q ∈ ql) (hlooted : q.isLooted = false) : ¬m.LootedBy guid q.index := by
  rintro ⟨ql', q', hql', hq', hindex, hlooted'⟩
  have hlist : (guid, ql') = (guid, ql) := List.inj_on_of_nodup_map h.players hql' hql rfl
  cases hlist
  have hitem : q' = q := List.inj_on_of_nodup_map (h.indices _ hql) hq' hq hindex
  rw [hitem, hlooted] at hlooted'
  cases hlooted'

end QuestItemMap

namespace Later

theorem refl (item : LootItem) : Later item item := ⟨rfl, rfl, id, id⟩

/-- Blocking an item, or counting it, keeps what it says of being handed out. -/
theorem blocked (item : LootItem) : Later item { item with isBlocked := true } :=
  ⟨rfl, rfl, id, id⟩

theorem counted (item : LootItem) : Later item { item with isCounted := true } :=
  ⟨rfl, rfl, id, id⟩

end Later

namespace Evolves

variable {items items' : List LootItem}

theorem refl (items : List LootItem) : Evolves items items :=
  ⟨rfl, fun _ new h => ⟨new, h, Later.refl new⟩⟩

/-- Writing an item. -/
theorem set {i : ℕ} {old new : LootItem} (hold : items[i]? = some old) (hnew : Later old new) :
    Evolves items (items.set i new) where
  length := List.length_set
  later j item hitem := by
    by_cases hj : i = j
    · subst hj
      rw [List.getElem?_set_self (List.getElem?_eq_some_iff.mp hold).1] at hitem
      cases hitem
      exact ⟨old, hold, hnew⟩
    · rw [List.getElem?_set_ne hj] at hitem
      exact ⟨item, hitem, Later.refl item⟩

/-- Rewriting some items. -/
theorem modifyAt {f : LootItem → LootItem} (hf : ∀ item, Later item (f item)) {indices : List ℕ}
    (hnodup : indices.Nodup) : Evolves items (Loot.modifyAt f indices items) where
  length := by
    clear hnodup
    induction indices generalizing items with
    | nil => rfl
    | cons i rest ih =>
        unfold Loot.modifyAt
        split
        · exact ih
        · exact ih.trans List.length_set
  later j item hitem := by
    rw [Loot.getElem?_modifyAt hnodup] at hitem
    split_ifs at hitem
    · obtain ⟨old, hold, rfl⟩ := Option.map_eq_some_iff.mp hitem
      exact ⟨old, hold, hf old⟩
    · exact ⟨item, hitem, Later.refl item⟩

/-- The numbers stay. -/
theorem numbers (h : Evolves items items') :
    items'.map LootItem.number = items.map LootItem.number := by
  refine List.ext_getElem? fun i => ?_
  rw [List.getElem?_map, List.getElem?_map]
  cases hnew : items'[i]? with
  | none =>
      have hlt : items[i]? = none := by
        rw [List.getElem?_eq_none_iff] at hnew ⊢
        rw [← h.length]
        exact hnew
      rw [hlt]
  | some new =>
      obtain ⟨old, hold, hlater⟩ := h.later i new hnew
      rw [hold]
      exact congrArg some hlater.number

/-- Every item was there before. -/
theorem mem (h : Evolves items items') {new : LootItem} (hnew : new ∈ items') :
    ∃ old ∈ items, Later old new := by
  obtain ⟨i, hi⟩ := List.getElem?_of_mem hnew
  obtain ⟨old, hold, hlater⟩ := h.later i new hi
  exact ⟨old, List.mem_of_getElem? hold, hlater⟩

end Evolves

namespace Loot

/-- The item in a slot is one of the items. -/
theorem mem_entries_item {loot : Loot} {i : ℕ} {item : LootItem} (h : loot.items[i]? = some item) :
    item ∈ loot.entries :=
  List.mem_append_left _ (List.mem_append_left _ (List.mem_of_getElem? h))

/-- A quest item is one of the items. -/
theorem mem_entries_quest {loot : Loot} {i : ℕ} {item : LootItem}
    (h : loot.questItems[i]? = some item) : item ∈ loot.entries :=
  List.mem_append_right _ (List.mem_of_getElem? h)

/-- After the refill there is no item that was not there before. -/
theorem refillSlots_subperm (items overflow : List LootItem) :
    ((refillSlots items overflow).1 ++ (refillSlots items overflow).2).Subperm
      (items ++ overflow) := by
  induction items generalizing overflow with
  | nil => exact List.Subperm.refl _
  | cons old rest ih =>
      cases overflow with
      | nil => exact List.Subperm.refl _
      | cons next overflow =>
          unfold refillSlots
          split
          · exact (List.subperm_cons old).mpr (ih (next :: overflow))
          · have hih := (List.subperm_cons next).mpr (ih overflow)
            refine hih.trans ?_
            have hperm : (next :: (rest ++ overflow)).Perm (rest ++ next :: overflow) :=
              List.perm_middle.symm
            exact hperm.subperm.trans (List.sublist_cons_self old _).subperm

/-- What still waits waited before. -/
theorem refillSlots_left (items overflow : List LootItem) :
    ∀ item ∈ (refillSlots items overflow).2, item ∈ overflow := by
  induction items generalizing overflow with
  | nil => exact fun _ h => h
  | cons old rest ih =>
      cases overflow with
      | nil => exact fun _ h => h
      | cons next overflow =>
          unfold refillSlots
          split
          · exact ih (next :: overflow)
          · exact fun item hitem => List.mem_cons_of_mem _ (ih overflow item hitem)

/-- Only plain items are moved to the overflow. -/
theorem splitExcess_moved (room : ℕ) (items : List LootItem) :
    ∀ item ∈ (splitExcess room items).2, item.plain = true := by
  induction items generalizing room with
  | nil => exact fun _ h => absurd h List.not_mem_nil
  | cons old rest ih =>
      unfold splitExcess
      split
      · exact ih (room - 1)
      · next hplain =>
        intro item hitem
        rcases List.mem_cons.mp hitem with rfl | hitem
        · simpa using (not_or.mp hplain).2
        · exact ih room item hitem

/-- A slot after an item is added. -/
theorem addItem_slot {c : Catalogue} {loot : Loot} {item : LootStoreItem} {i : ℕ} {new : LootItem}
    (h : (loot.addItem c item).items[i]? = some new) :
    loot.items[i]? = some new ∨ new = loot.newItem c item := by
  unfold addItem at h
  split at h
  · split at h <;> exact Or.inl h
  · split at h
    · have hmem : (loot.items ++ [loot.newItem c item])[i]? = some new := h
      rw [List.getElem?_append] at hmem
      split at hmem
      · exact Or.inl hmem
      · exact Or.inr (List.mem_singleton.mp (List.mem_of_getElem? hmem))
    · exact Or.inl h

/-- A quest item after an item is added. -/
theorem addItem_questSlot {c : Catalogue} {loot : Loot} {item : LootStoreItem} {i : ℕ}
    {new : LootItem} (h : (loot.addItem c item).questItems[i]? = some new) :
    loot.questItems[i]? = some new ∨ new = loot.newItem c item := by
  unfold addItem at h
  split at h
  · split at h
    · have hmem : (loot.questItems ++ [loot.newItem c item])[i]? = some new := h
      rw [List.getElem?_append] at hmem
      split at hmem
      · exact Or.inl hmem
      · exact Or.inr (List.mem_singleton.mp (List.mem_of_getElem? hmem))
    · exact Or.inl h
  · split at h <;> exact Or.inl h

end Loot

namespace Numbered

variable {c : Catalogue} {loot loot' : Loot}

/-- An item of a number is one item. -/
theorem unique (h : Numbered loot) {item item' : LootItem} (hitem : item ∈ loot.entries)
    (hitem' : item' ∈ loot.entries) (hnumber : item.number = item'.number) : item = item' :=
  List.inj_on_of_nodup_map h.numbers hitem hitem' hnumber

/-- The items are as they were, later. -/
theorem evolve (h : Numbered loot) (hitems : Evolves loot.items loot'.items)
    (hoverflow : loot'.overflowItems = loot.overflowItems)
    (hquest : Evolves loot.questItems loot'.questItems)
    (hnext : loot'.nextNumber = loot.nextNumber) (hffaLists : loot'.playerFFAItems.Ok)
    (hquestLists : loot'.playerQuestItems.Ok) : Numbered loot' := by
  have hnumbers : loot'.entries.map LootItem.number = loot.entries.map LootItem.number := by
    unfold Loot.entries
    simp only [List.map_append, hitems.numbers, hquest.numbers, hoverflow]
  refine ⟨hnumbers ▸ h.numbers, fun item hitem => ?_, hoverflow ▸ h.overflow, hffaLists,
    hquestLists⟩
  have hmem : item.number ∈ loot.entries.map LootItem.number :=
    hnumbers ▸ List.mem_map_of_mem hitem
  obtain ⟨old, hold, hsame⟩ := List.mem_map.mp hmem
  rw [hnext, ← hsame]
  exact h.below old hold

/-- The items are some of those there were. -/
theorem subperm (h : Numbered loot) (hentries : loot'.entries.Subperm loot.entries)
    (hoverflow : ∀ item ∈ loot'.overflowItems, item.plain = true)
    (hnext : loot'.nextNumber = loot.nextNumber) (hffaLists : loot'.playerFFAItems.Ok)
    (hquestLists : loot'.playerQuestItems.Ok) : Numbered loot' where
  numbers := by
    obtain ⟨l, hperm, hsub⟩ := hentries
    exact (hperm.map LootItem.number).nodup_iff.mp (h.numbers.sublist (hsub.map _))
  below item hitem := by
    rw [hnext]
    exact h.below item (hentries.subset hitem)
  overflow := hoverflow
  ffaLists := hffaLists
  questLists := hquestLists

/-- The looted slots are refilled. -/
theorem refill (h : Numbered loot) : Numbered loot.refillFromOverflow := by
  refine h.subperm ?_ ?_ rfl h.ffaLists h.questLists
  · exact (List.subperm_append_right loot.questItems).mpr (Loot.refillSlots_subperm _ _)
  · exact fun item hitem => h.overflow item (Loot.refillSlots_left _ _ item hitem)

/-- A new item has a new number. -/
theorem fresh (h : Numbered loot) {item : LootItem} (hnumber : item.number = loot.nextNumber)
    (hentries : loot'.entries.Perm (item :: loot.entries))
    (hoverflow : loot'.overflowItems = loot.overflowItems)
    (hnext : loot'.nextNumber = loot.nextNumber + 1) (hffaLists : loot'.playerFFAItems.Ok)
    (hquestLists : loot'.playerQuestItems.Ok) : Numbered loot' where
  numbers := by
    refine (hentries.map LootItem.number).nodup_iff.mpr (List.nodup_cons.mpr ⟨?_, h.numbers⟩)
    intro hmem
    obtain ⟨old, hold, hsame⟩ := List.mem_map.mp hmem
    have hlt := h.below old hold
    omega
  below other hother := by
    rw [hnext]
    rcases List.mem_cons.mp (hentries.subset hother) with rfl | hold
    · omega
    · exact Nat.lt_succ_of_lt (h.below other hold)
  overflow := hoverflow ▸ h.overflow
  ffaLists := hffaLists
  questLists := hquestLists

/-- What `AddItem` does to the items. -/
theorem addItem_entries (c : Catalogue) (loot : Loot) (item : LootStoreItem) :
    loot.addItem c item = loot ∨
      (loot.addItem c item).entries.Perm (loot.newItem c item :: loot.entries) ∧
        (loot.addItem c item).overflowItems = loot.overflowItems ∧
        (loot.addItem c item).nextNumber = loot.nextNumber + 1 ∧
        (loot.addItem c item).playerFFAItems = loot.playerFFAItems ∧
        (loot.addItem c item).playerQuestItems = loot.playerQuestItems := by
  unfold Loot.addItem
  split
  · split
    · refine Or.inr ⟨?_, rfl, rfl, rfl, rfl⟩
      show (loot.items ++ loot.overflowItems ++ (loot.questItems ++ [loot.newItem c item])).Perm _
      rw [← List.append_assoc]
      exact List.perm_append_singleton _ _
    · exact Or.inl rfl
  · split
    · refine Or.inr ⟨?_, rfl, rfl, rfl, rfl⟩
      show (loot.items ++ [loot.newItem c item] ++ loot.overflowItems ++ loot.questItems).Perm _
      rw [List.append_assoc, List.append_assoc, List.singleton_append]
      refine List.perm_middle.trans ?_
      rw [← List.append_assoc]
      rfl
    · exact Or.inl rfl

theorem addItem (h : Numbered loot) (item : LootStoreItem) : Numbered (loot.addItem c item) := by
  rcases addItem_entries c loot item with hsame | ⟨hentries, hoverflow, hnext, hffa, hquest⟩
  · rw [hsame]
    exact h
  · exact h.fresh rfl hentries hoverflow hnext (hffa ▸ h.ffaLists) (hquest ▸ h.questLists)

/-- A loot that is filled. -/
theorem fillLoot (c : Catalogue) (gold : ℕ) (drawn : List LootStoreItem) (trimmed : List ℕ) :
    Numbered (Loot.fillLoot c gold drawn trimmed) := by
  have hdrawn : ∀ loot, Numbered loot → Numbered (drawn.foldl (Loot.addItem c) loot) := by
    induction drawn with
    | nil => exact fun _ h => h
    | cons item rest ih => exact fun loot h => ih _ (h.addItem item)
  have htrim : ∀ loot i, Numbered loot → Numbered (loot.trim i) := by
    intro loot i h
    unfold Loot.trim
    split
    · exact h
    · split
      · exact h
      · refine h.subperm ?_ h.overflow rfl h.ffaLists h.questLists
        exact (((List.eraseIdx_sublist _ i).append_right _).append_right _).subperm
  have htrimmed : ∀ loot, Numbered loot → Numbered (trimmed.foldl Loot.trim loot) := by
    induction trimmed with
    | nil => exact fun _ h => h
    | cons i rest ih => exact fun loot h => ih _ (htrim loot i h)
  have hmove : ∀ loot, Numbered loot → Numbered loot.moveExcessToOverflow := by
    intro loot h
    unfold Loot.moveExcessToOverflow
    dsimp only
    split
    · exact h
    · refine h.subperm ?_ ?_ rfl h.ffaLists h.questLists
      · refine (List.subperm_append_right loot.questItems).mpr (List.Perm.subperm ?_)
        have hperm := Loot.splitExcess_perm
          (maxNrLootClientSlots - min loot.questItems.length maxNrLootClientSlots) loot.items
        refine List.Perm.trans ?_ (hperm.append_right loot.overflowItems)
        rw [List.append_assoc]
        exact List.Perm.append_left _ List.perm_append_comm
      · intro item hitem
        rcases List.mem_append.mp hitem with hold | hmoved
        · exact h.overflow item hold
        · exact Loot.splitExcess_moved _ _ item hmoved
  have hempty : Numbered (Loot.empty gold) :=
    ⟨List.nodup_nil, fun item hitem => absurd hitem List.not_mem_nil,
      fun item hitem => absurd hitem List.not_mem_nil,
      ⟨List.nodup_nil, fun e he => absurd he List.not_mem_nil⟩,
      ⟨List.nodup_nil, fun e he => absurd he List.not_mem_nil⟩⟩
  exact hmove _ (htrimmed _ (hdrawn _ hempty))

/-- An item stands in one slot. -/
theorem slot (h : Numbered loot) {i j : ℕ} {item : LootItem} (hi : loot.items[i]? = some item)
    (hj : loot.items[j]? = some item) : i = j := by
  have hnodup : loot.items.Nodup :=
    List.Nodup.of_map LootItem.number (h.numbers.sublist
      (((List.sublist_append_left _ _).trans (List.sublist_append_left _ _)).map _))
  exact (List.getElem?_inj (List.getElem?_eq_some_iff.mp hi).1 hnodup).mp (hi.trans hj.symm)

/-- A quest item has one index. -/
theorem questSlot (h : Numbered loot) {i j : ℕ} {item : LootItem}
    (hi : loot.questItems[i]? = some item) (hj : loot.questItems[j]? = some item) : i = j := by
  have hnodup : loot.questItems.Nodup :=
    List.Nodup.of_map LootItem.number (h.numbers.sublist ((List.sublist_append_right _ _).map _))
  exact (List.getElem?_inj (List.getElem?_eq_some_iff.mp hi).1 hnodup).mp (hi.trans hj.symm)

/-- No item is a quest item too. -/
theorem apart (h : Numbered loot) {item : LootItem} (hitem : item ∈ loot.items)
    (hquest : item ∈ loot.questItems) : False := by
  have hnumbers := h.numbers
  unfold Loot.entries at hnumbers
  rw [List.map_append, List.map_append] at hnumbers
  have hdisjoint := List.disjoint_of_nodup_append hnumbers
  exact hdisjoint (List.mem_append_left _ (List.mem_map_of_mem hitem)) (List.mem_map_of_mem hquest)

end Numbered

/-- What every step does: an item was there before, was waiting and is not free-for-all, or has a
new number; and no list forgets what is looted. -/
structure Progress (loot loot' : Loot) : Prop where
  next : loot.nextNumber ≤ loot'.nextNumber
  entries : ∀ new ∈ loot'.entries,
    (∃ old ∈ loot.entries, Later old new) ∨ loot.nextNumber ≤ new.number
  items : ∀ (i : ℕ) (new : LootItem), loot'.items[i]? = some new →
    (∃ old, loot.items[i]? = some old ∧ Later old new) ∨ new.freeforall = false ∨
      loot.nextNumber ≤ new.number
  questItems : ∀ (i : ℕ) (new : LootItem), loot'.questItems[i]? = some new →
    (∃ old, loot.questItems[i]? = some old ∧ Later old new) ∨ loot.nextNumber ≤ new.number
  ffaLists : ∀ guid i, loot.playerFFAItems.LootedBy guid i → loot'.playerFFAItems.LootedBy guid i
  questLists : ∀ guid i, loot.playerQuestItems.LootedBy guid i →
    loot'.playerQuestItems.LootedBy guid i

namespace Progress

variable {c : Catalogue} {loot loot' : Loot}

/-- The items are as they were, later. -/
theorem evolve (hitems : Evolves loot.items loot'.items)
    (hoverflow : loot'.overflowItems = loot.overflowItems)
    (hquest : Evolves loot.questItems loot'.questItems)
    (hnext : loot'.nextNumber = loot.nextNumber)
    (hffaLists : ∀ guid i, loot.playerFFAItems.LootedBy guid i →
      loot'.playerFFAItems.LootedBy guid i)
    (hquestLists : ∀ guid i, loot.playerQuestItems.LootedBy guid i →
      loot'.playerQuestItems.LootedBy guid i) : Progress loot loot' where
  next := Nat.le_of_eq hnext.symm
  entries new hnew := by
    refine Or.inl ?_
    unfold Loot.entries at hnew ⊢
    rcases List.mem_append.mp hnew with hnew | hnew
    · rcases List.mem_append.mp hnew with hnew | hnew
      · obtain ⟨old, hold, hlater⟩ := hitems.mem hnew
        exact ⟨old, List.mem_append_left _ (List.mem_append_left _ hold), hlater⟩
      · rw [hoverflow] at hnew
        exact ⟨new, List.mem_append_left _ (List.mem_append_right _ hnew), Later.refl new⟩
    · obtain ⟨old, hold, hlater⟩ := hquest.mem hnew
      exact ⟨old, List.mem_append_right _ hold, hlater⟩
  items i new hnew := Or.inl (hitems.later i new hnew)
  questItems i new hnew := Or.inl (hquest.later i new hnew)
  ffaLists := hffaLists
  questLists := hquestLists

/-- Adding an item. -/
theorem addItem (c : Catalogue) (loot : Loot) (item : LootStoreItem) :
    Progress loot (loot.addItem c item) := by
  rcases Numbered.addItem_entries c loot item with hsame | ⟨hentries, -, hnext, hffa, hquest⟩
  · rw [hsame]
    exact evolve (Evolves.refl _) rfl (Evolves.refl _) rfl (fun _ _ h => h) fun _ _ h => h
  · refine ⟨by omega, fun new hnew => ?_, fun i new hnew => ?_, fun i new hnew => ?_,
      fun _ _ h => hffa ▸ h, fun _ _ h => hquest ▸ h⟩
    · rcases List.mem_cons.mp (hentries.subset hnew) with rfl | hold
      · exact Or.inr (Nat.le_refl _)
      · exact Or.inl ⟨new, hold, Later.refl new⟩
    · rcases Loot.addItem_slot hnew with hold | rfl
      · exact Or.inl ⟨new, hold, Later.refl new⟩
      · exact Or.inr (Or.inr (Nat.le_refl _))
    · rcases Loot.addItem_questSlot hnew with hold | rfl
      · exact Or.inl ⟨new, hold, Later.refl new⟩
      · exact Or.inr (Nat.le_refl _)

/-- Refilling: what comes out of the overflow is not free-for-all. -/
theorem refill (h : Numbered loot) : Progress loot loot.refillFromOverflow where
  next := Nat.le_refl _
  entries new hnew := by
    have hsub : loot.refillFromOverflow.entries.Subperm loot.entries :=
      (List.subperm_append_right loot.questItems).mpr (Loot.refillSlots_subperm _ _)
    exact Or.inl ⟨new, hsub.subset hnew, Later.refl new⟩
  items i new hnew := by
    rcases Loot.getElem?_refillSlots hnew with hold | ⟨hmem, -⟩
    · exact Or.inl ⟨new, hold, Later.refl new⟩
    · refine Or.inr (Or.inl ?_)
      have hplain := h.overflow new hmem
      unfold LootItem.plain at hplain
      simp only [Bool.and_eq_true, Bool.not_eq_true'] at hplain
      exact hplain.1
  questItems i new hnew := Or.inl ⟨new, hnew, Later.refl new⟩
  ffaLists _ _ h := h
  questLists _ _ h := h

end Progress

/-- The lists stay. -/
theorem lists_same (m : QuestItemMap) : ∀ guid i, m.LootedBy guid i → m.LootedBy guid i :=
  fun _ _ hby => hby

/-- A list is added. -/
theorem lists_concat (m : QuestItemMap) (e : ℕ × List QuestItem) :
    ∀ guid i, m.LootedBy guid i → QuestItemMap.LootedBy (m ++ [e]) guid i :=
  fun _ _ hby => hby.concat e

/-- The award has not been made: no other of the same item, or, if it is free-for-all, none to the
same player. -/
def Corpse.Fresh (s : Corpse) (a : Award) : Prop :=
  ∀ a' ∈ s.stored, a'.number = a.number → a.freeforall = true ∧ a'.player ≠ a.player

/-- No item of 0 units is stored. -/
theorem Corpse.count_of_mayAutostore {c : Catalogue} {player : Looter} {item : LootItem}
    {found : Loot.Found} {isCreature canStore : Bool}
    (h : Corpse.mayAutostore c player item found isCreature canStore = true) : item.count ≠ 0 := by
  unfold Corpse.mayAutostore at h
  split_ifs at h
  simp only [Bool.and_eq_true, bne_iff_ne] at h
  exact h.2

namespace HandedOut

variable {c : Catalogue} {s : Corpse}

/-- Every step keeps what has been handed out. -/
theorem progress (h : HandedOut s) {loot : Loot} (hloot : Progress s.loot loot)
    (hnumbered : Numbered loot) {rolls : List Roll} (hrolls : ∀ roll ∈ rolls, roll ∈ s.rolls) :
    HandedOut ⟨loot, rolls, s.stored⟩ where
  numbered := hnumbered
  awarded a ha := Nat.lt_of_lt_of_le (h.awarded a ha) hloot.next
  rolled roll hroll := by
    obtain ⟨hlt, hkind⟩ := h.rolled roll (hrolls roll hroll)
    refine ⟨Nat.lt_of_lt_of_le hlt hloot.next, fun new hnew hnumber => ?_⟩
    rcases hloot.entries new hnew with ⟨old, hold, hlater⟩ | hfresh
    · rw [hlater.freeforall]
      exact hkind old hold (hlater.number ▸ hnumber)
    · omega
  kind a ha new hnew hnumber := by
    rcases hloot.entries new hnew with ⟨old, hold, hlater⟩ | hfresh
    · rw [hlater.freeforall]
      exact h.kind a ha old hold (hlater.number ▸ hnumber)
    · have hlt := h.awarded a ha
      omega
  taken a ha hffa new hnew hnumber := by
    rcases hloot.entries new hnew with ⟨old, hold, hlater⟩ | hfresh
    · exact hlater.looted (h.taken a ha hffa old hold (hlater.number ▸ hnumber))
    · have hlt := h.awarded a ha
      omega
  ffa a ha hffa i new hnew hnumber := by
    have hlt := h.awarded a ha
    rcases hloot.items i new hnew with ⟨old, hold, hlater⟩ | hplain | hfresh
    · rcases h.ffa a ha hffa i old hold (hlater.number ▸ hnumber) with hgone | hlooted
      · exact Or.inl (hlater.gone hgone)
      · exact Or.inr (hloot.ffaLists _ _ hlooted)
    · -- an item awarded as free-for-all has not become another kind
      have hmem : new ∈ loot.entries := Loot.mem_entries_item hnew
      rcases hloot.entries new hmem with ⟨old, hold, hlater⟩ | hfresh
      · have hkind := h.kind a ha old hold (hlater.number ▸ hnumber)
        rw [← hlater.freeforall, hplain, hffa] at hkind
        cases hkind
      · omega
    · omega
  quest a ha hffa i new hnew hnumber := by
    have hlt := h.awarded a ha
    rcases hloot.questItems i new hnew with ⟨old, hold, hlater⟩ | hfresh
    · exact hloot.questLists _ _ (h.quest a ha hffa i old hold (hlater.number ▸ hnumber))
    · omega
  once := h.once
  perPlayer := h.perPlayer

/-- A new award. -/
theorem award (h : HandedOut s) {new : LootItem} (hnew : new ∈ s.loot.entries) {player : ℕ}
    (hfresh : s.Fresh ⟨new.number, new.freeforall, player⟩)
    (htaken : new.freeforall = false → new.isLooted = true)
    (hffa : new.freeforall = true → ∀ i : ℕ, s.loot.items[i]? = some new →
      new.count = 0 ∨ s.loot.playerFFAItems.LootedBy player i)
    (hquest : new.freeforall = true → ∀ i : ℕ, s.loot.questItems[i]? = some new →
      s.loot.playerQuestItems.LootedBy player i) :
    HandedOut { s with stored := s.stored ++ [⟨new.number, new.freeforall, player⟩] } where
  numbered := h.numbered
  awarded a ha := by
    rcases List.mem_append.mp ha with hold | hadded
    · exact h.awarded a hold
    · rw [List.mem_singleton.mp hadded]
      exact h.numbered.below new hnew
  rolled := h.rolled
  kind a ha item hitem hnumber := by
    rcases List.mem_append.mp ha with hold | hadded
    · exact h.kind a hold item hitem hnumber
    · rw [List.mem_singleton.mp hadded] at hnumber ⊢
      rw [h.numbered.unique hitem hnew hnumber]
  taken a ha hplain item hitem hnumber := by
    rcases List.mem_append.mp ha with hold | hadded
    · exact h.taken a hold hplain item hitem hnumber
    · rw [List.mem_singleton.mp hadded] at hnumber hplain
      rw [h.numbered.unique hitem hnew hnumber]
      exact htaken hplain
  ffa a ha hkind i item hitem hnumber := by
    rcases List.mem_append.mp ha with hold | hadded
    · exact h.ffa a hold hkind i item hitem hnumber
    · rw [List.mem_singleton.mp hadded] at hnumber hkind ⊢
      have hmem : item ∈ s.loot.entries := Loot.mem_entries_item hitem
      have hsame := h.numbered.unique hmem hnew hnumber
      subst hsame
      exact hffa hkind i hitem
  quest a ha hkind i item hitem hnumber := by
    rcases List.mem_append.mp ha with hold | hadded
    · exact h.quest a hold hkind i item hitem hnumber
    · rw [List.mem_singleton.mp hadded] at hnumber hkind ⊢
      have hmem : item ∈ s.loot.entries := Loot.mem_entries_quest hitem
      have hsame := h.numbered.unique hmem hnew hnumber
      subst hsame
      exact hquest hkind i hitem
  -- only the list the new award belongs to grows
  once := by
    rw [List.filter_append, List.map_append]
    cases hkind : new.freeforall with
    | true =>
        show (_ ++ []).Nodup
        rw [List.append_nil]
        exact h.once
    | false =>
        show (_ ++ [new.number]).Nodup
        refine List.nodup_append.mpr ⟨h.once, List.nodup_singleton _, fun n hn m hm hsame => ?_⟩
        obtain ⟨a, ha, rfl⟩ := List.mem_map.mp hn
        rw [List.mem_singleton.mp hm] at hsame
        have hffa := (hfresh a (List.mem_filter.mp ha).1 hsame).1
        dsimp only at hffa
        rw [hkind] at hffa
        cases hffa
  perPlayer := by
    rw [List.filter_append, List.map_append]
    cases hkind : new.freeforall with
    | false =>
        show (_ ++ []).Nodup
        rw [List.append_nil]
        exact h.perPlayer
    | true =>
        show (_ ++ [(new.number, player)]).Nodup
        refine List.nodup_append.mpr
          ⟨h.perPlayer, List.nodup_singleton _, fun n hn m hm hsame => ?_⟩
        obtain ⟨a, ha, rfl⟩ := List.mem_map.mp hn
        rw [List.mem_singleton.mp hm] at hsame
        obtain ⟨hnumber, hplayer⟩ := Prod.mk.injEq .. ▸ hsame
        exact (hfresh a (List.mem_filter.mp ha).1 hnumber).2 hplayer

/-- An item of `items` that is there for a player has not been handed out to him. -/
theorem fresh_item (h : HandedOut s) {slot player : ℕ} {item : LootItem}
    (hitem : s.loot.items[slot]? = some item) (hcount : item.count ≠ 0)
    (hlooted : item.freeforall = false → item.isLooted = false)
    (hlist : item.freeforall = true → ¬s.loot.playerFFAItems.LootedBy player slot) :
    s.Fresh ⟨item.number, item.freeforall, player⟩ := by
  intro a ha hnumber
  have hmem : item ∈ s.loot.entries := Loot.mem_entries_item hitem
  have hkind := h.kind a ha item hmem hnumber.symm
  cases hffa : item.freeforall with
  | false =>
      have htaken := h.taken a ha (hkind.symm.trans hffa) item hmem hnumber.symm
      rw [hlooted hffa] at htaken
      cases htaken
  | true =>
      refine ⟨rfl, fun hplayer => ?_⟩
      rcases h.ffa a ha (hkind.symm.trans hffa) slot item hitem hnumber.symm with hgone | htaken
      · exact hcount hgone
      · rw [hplayer] at htaken
        exact hlist hffa htaken

/-- A quest item that is there for a player has not been handed out to him. -/
theorem fresh_quest (h : HandedOut s) {index player : ℕ} {item : LootItem}
    (hitem : s.loot.questItems[index]? = some item) (hlooted : item.isLooted = false)
    (hlist : ¬s.loot.playerQuestItems.LootedBy player index) :
    s.Fresh ⟨item.number, item.freeforall, player⟩ := by
  intro a ha hnumber
  have hmem : item ∈ s.loot.entries := Loot.mem_entries_quest hitem
  have hkind := h.kind a ha item hmem hnumber.symm
  cases hffa : item.freeforall with
  | false =>
      have htaken := h.taken a ha (hkind.symm.trans hffa) item hmem hnumber.symm
      rw [hlooted] at htaken
      cases htaken
  | true =>
      refine ⟨rfl, fun hplayer => ?_⟩
      have htaken := h.quest a ha (hkind.symm.trans hffa) index item hitem hnumber.symm
      rw [hplayer] at htaken
      exact hlist htaken

/-- An item of `items` is written, and the lists of free-for-all items with it. -/
theorem setItem (h : HandedOut s) {slot : ℕ} {item new : LootItem}
    (hitem : s.loot.items[slot]? = some item) (hlater : Later item new) {count : UInt8}
    {ffaLists conditionalLists : QuestItemMap} (hok : ffaLists.Ok)
    (hlists : ∀ guid i, s.loot.playerFFAItems.LootedBy guid i → ffaLists.LootedBy guid i)
    {rolls : List Roll} (hrolls : ∀ roll ∈ rolls, roll ∈ s.rolls) :
    HandedOut ⟨{ s.loot with
      items := s.loot.items.set slot new
      unlootedCount := count
      playerFFAItems := ffaLists
      playerNonQuestNonFFAConditionalItems := conditionalLists }, rolls, s.stored⟩ := by
  have hitems : Evolves s.loot.items (s.loot.items.set slot new) := Evolves.set hitem hlater
  refine h.progress ?_ ?_ hrolls
  · exact Progress.evolve hitems rfl (Evolves.refl _) rfl hlists fun _ _ h => h
  · exact h.numbered.evolve hitems rfl (Evolves.refl _) rfl hok h.numbered.questLists

/-- An item of `items` is handed out. -/
theorem handItem (h : HandedOut s) {slot player : ℕ} {item new : LootItem}
    (hitem : s.loot.items[slot]? = some item) (hlater : Later item new) {count : UInt8}
    {ffaLists conditionalLists : QuestItemMap} (hok : ffaLists.Ok)
    (hlists : ∀ guid i, s.loot.playerFFAItems.LootedBy guid i → ffaLists.LootedBy guid i)
    {rolls : List Roll} (hrolls : ∀ roll ∈ rolls, roll ∈ s.rolls)
    (hfresh : s.Fresh ⟨item.number, item.freeforall, player⟩)
    (htaken : item.freeforall = false → new.isLooted = true)
    (hffa : item.freeforall = true → new.count = 0 ∨ ffaLists.LootedBy player slot) :
    HandedOut ⟨{ s.loot with
      items := s.loot.items.set slot new
      unlootedCount := count
      playerFFAItems := ffaLists
      playerNonQuestNonFFAConditionalItems := conditionalLists }, rolls,
      s.stored ++ [⟨item.number, item.freeforall, player⟩]⟩ := by
  have hset : HandedOut ⟨{ s.loot with
      items := s.loot.items.set slot new
      unlootedCount := count
      playerFFAItems := ffaLists
      playerNonQuestNonFFAConditionalItems := conditionalLists }, rolls, s.stored⟩ :=
    h.setItem hitem hlater hok hlists hrolls
  have hthere : (s.loot.items.set slot new)[slot]? = some new :=
    List.getElem?_set_self (List.getElem?_eq_some_iff.mp hitem).1
  rw [← hlater.number, ← hlater.freeforall] at hfresh ⊢
  rw [← hlater.freeforall] at htaken hffa
  refine hset.award ?_ hfresh htaken (fun hkind i hi => ?_) fun hkind i hi => ?_
  · exact Loot.mem_entries_item hthere
  · rw [hset.numbered.slot hi hthere]
    exact hffa hkind
  · exact (hset.numbered.apart (List.mem_of_getElem? hthere) (List.mem_of_getElem? hi)).elim

/-- A quest item is handed out. -/
theorem handQuest (h : HandedOut s) {index player : ℕ} {item new : LootItem}
    (hitem : s.loot.questItems[index]? = some item) (hlater : Later item new) {count : UInt8}
    {lists : QuestItemMap} (hok : lists.Ok)
    (hlists : ∀ guid i, s.loot.playerQuestItems.LootedBy guid i → lists.LootedBy guid i)
    (hfresh : s.Fresh ⟨item.number, item.freeforall, player⟩)
    (htaken : item.freeforall = false → new.isLooted = true)
    (hquest : item.freeforall = true → lists.LootedBy player index) :
    HandedOut ⟨{ s.loot with
      questItems := s.loot.questItems.set index new
      unlootedCount := count
      playerQuestItems := lists }, s.rolls,
      s.stored ++ [⟨item.number, item.freeforall, player⟩]⟩ := by
  have hitems : Evolves s.loot.questItems (s.loot.questItems.set index new) :=
    Evolves.set hitem hlater
  have hset : HandedOut ⟨{ s.loot with
      questItems := s.loot.questItems.set index new
      unlootedCount := count
      playerQuestItems := lists }, s.rolls, s.stored⟩ := by
    refine h.progress ?_ ?_ fun _ hroll => hroll
    · exact Progress.evolve (Evolves.refl _) rfl hitems rfl (fun _ _ h => h) hlists
    · exact h.numbered.evolve (Evolves.refl _) rfl hitems rfl h.numbered.ffaLists hok
  have hthere : (s.loot.questItems.set index new)[index]? = some new :=
    List.getElem?_set_self (List.getElem?_eq_some_iff.mp hitem).1
  rw [← hlater.number, ← hlater.freeforall] at hfresh ⊢
  rw [← hlater.freeforall] at htaken hquest
  refine hset.award ?_ hfresh htaken (fun hkind i hi => ?_) fun hkind i hi => ?_
  · exact Loot.mem_entries_quest hthere
  · exact (hset.numbered.apart (List.mem_of_getElem? hi) (List.mem_of_getElem? hthere)).elim
  · rw [hset.numbered.questSlot hi hthere]
    exact hquest hkind

/-- The mark that an item gets when it is stored. -/
theorem later_marked (item : LootItem) :
    Later item { item with isLooted := item.isLooted || !item.freeforall } where
  number := rfl
  freeforall := rfl
  looted hlooted := by simp [hlooted]
  gone := id

/-- An item that is not free-for-all is marked. -/
theorem marked_of_plain {item : LootItem} (hffa : item.freeforall = false) :
    (item.isLooted || !item.freeforall) = true := by simp [hffa]

/-- `HandleAutostoreLootItemOpcode` stores an item. -/
theorem autostore (h : HandedOut s) {lootSlot player : ℕ} {item : LootItem} {found : Loot.Found}
    (hfound : s.loot.FoundAt lootSlot player item found) (hcount : item.count ≠ 0)
    (huntaken : found = .plain → item.freeforall = false) :
    HandedOut ⟨(s.loot.markLooted lootSlot player item found).countDown, s.rolls,
      s.stored ++ [⟨item.number, item.freeforall, player⟩]⟩ := by
  cases found with
  | quest index =>
      obtain ⟨hitem, hlooted, ql, q, hql, hq, rfl, hqLooted⟩ := hfound
      refine h.handQuest hitem (later_marked item) (h.numbered.questLists.setLooted player q.index)
        (fun _ _ hby => hby.setLooted _ _) ?_ marked_of_plain fun _ =>
        QuestItemMap.lootedBy_setLooted hql hq
      exact h.fresh_quest hitem hlooted
        (QuestItemMap.not_lootedBy h.numbered.questLists hql hq hqLooted)
  | ffa =>
      obtain ⟨hitem, hffa, ql, q, hql, hq, rfl, hqLooted⟩ := hfound
      refine h.handItem hitem (later_marked item) (h.numbered.ffaLists.setLooted player q.index)
        (fun _ _ hby => hby.setLooted _ _) (fun _ hroll => hroll) ?_ marked_of_plain fun _ =>
        Or.inr (QuestItemMap.lootedBy_setLooted hql hq)
      refine h.fresh_item hitem hcount (fun hplain => ?_) fun _ =>
        QuestItemMap.not_lootedBy h.numbered.ffaLists hql hq hqLooted
      rw [hffa] at hplain
      cases hplain
  | conditional =>
      obtain ⟨hitem, hlooted, hffa⟩ := hfound
      have hnot : item.freeforall = true → False := fun htrue => by simp [hffa] at htrue
      exact h.handItem hitem (later_marked item) h.numbered.ffaLists (lists_same _)
        (fun _ hroll => hroll)
        (h.fresh_item hitem hcount (fun _ => hlooted) fun htrue => (hnot htrue).elim)
        marked_of_plain fun htrue => (hnot htrue).elim
  | plain =>
      obtain ⟨hitem, hlooted, -⟩ := hfound
      have hffa := huntaken rfl
      have hnot : item.freeforall = true → False := fun htrue => by simp [hffa] at htrue
      exact h.handItem hitem (later_marked item) h.numbered.ffaLists (lists_same _)
        (fun _ hroll => hroll)
        (h.fresh_item hitem hcount (fun _ => hlooted) fun htrue => (hnot htrue).elim)
        marked_of_plain fun htrue => (hnot htrue).elim

/-- `HandleLootMasterGiveOpcode`. -/
theorem masterGive (h : HandedOut s) {slotid target : ℕ} {canStore : Bool}
    (huntaken : Untaken c s (.masterGive slotid target canStore)) :
    HandedOut (s.handleLootMasterGive slotid target canStore) := by
  unfold Corpse.handleLootMasterGive
  split
  · exact h
  · next item hitem =>
    by_cases htarget : target ∈ s.loot.allowedLooters
    · rw [if_neg (not_not.mpr htarget)]
      cases canStore with
      | false => exact h
      | true =>
          have hlater : Later item { item with count := 0, isLooted := true } :=
            ⟨rfl, rfl, fun _ => rfl, fun _ => rfl⟩
          by_cases hcount : item.count = 0
          · -- nothing is left to be stored
            have hstore : s.store item target = s := if_pos hcount
            rw [hstore]
            exact h.setItem hitem hlater h.numbered.ffaLists (lists_same _) fun _ hroll =>
              hroll
          · have hstore : s.store item target = { s with
                stored := s.stored ++ [⟨item.number, item.freeforall, target⟩] } := if_neg hcount
            rw [hstore]
            obtain ⟨hlooted, hlist⟩ := huntaken item hitem htarget rfl hcount
            exact h.handItem hitem hlater h.numbered.ffaLists (lists_same _)
              (fun _ hroll => hroll) (h.fresh_item hitem hcount (fun _ => hlooted) hlist)
              (fun _ => rfl) fun _ => Or.inl rfl
    · rw [if_pos htarget]
      exact h

/-- `StartLootRoll`. -/
theorem startLootRoll (h : HandedOut s) (itemSlot : ℕ) : HandedOut (s.startLootRoll itemSlot) := by
  unfold Corpse.startLootRoll
  split
  · exact h
  · next item hitem =>
    split
    · exact h
    · next hffa =>
      have hset : HandedOut ⟨{ s.loot with
          items := s.loot.items.set itemSlot { item with isBlocked := true } }, s.rolls, s.stored⟩ :=
        h.setItem hitem (Later.blocked item) h.numbered.ffaLists (lists_same _)
          fun _ hroll => hroll
      refine { hset with rolled := fun roll hroll => ?_ }
      rcases List.mem_append.mp hroll with hold | hnew
      · exact hset.rolled roll hold
      · rw [List.mem_singleton.mp hnew]
        have hthere : (s.loot.items.set itemSlot { item with isBlocked := true })[itemSlot]? =
            some { item with isBlocked := true } :=
          List.getElem?_set_self (List.getElem?_eq_some_iff.mp hitem).1
        have hmem : _ ∈ Loot.entries { s.loot with items := s.loot.items.set itemSlot _ } :=
          Loot.mem_entries_item hthere
        have hbelow := hset.numbered.below _ hmem
        refine ⟨hbelow, fun other hother hnumber => ?_⟩
        rw [hset.numbered.unique hother hmem hnumber]
        exact Bool.eq_false_iff.mpr hffa

/-- `CountTheRoll`. -/
theorem countTheRoll (h : HandedOut s) {k : ℕ} {outcome : Corpse.Outcome}
    (huntaken : Untaken c s (.countTheRoll k outcome)) : HandedOut (s.countTheRoll k outcome) := by
  have hrolls : ∀ roll ∈ s.rolls.eraseIdx k, roll ∈ s.rolls := fun _ hroll =>
    List.mem_of_mem_eraseIdx hroll
  have herased : HandedOut ⟨s.loot, s.rolls.eraseIdx k, s.stored⟩ :=
    h.progress (Progress.evolve (Evolves.refl _) rfl (Evolves.refl _) rfl (lists_same _) (lists_same _))
      h.numbered hrolls
  unfold Corpse.countTheRoll
  split
  · exact h
  · next roll hroll =>
    dsimp only
    split
    · exact herased
    · next item hitem =>
      -- whatever is written back, the roll is over
      have hwrite : ∀ new : LootItem, Later item new →
          HandedOut ⟨{ s.loot with items := s.loot.items.set roll.itemSlot new },
            s.rolls.eraseIdx k, s.stored⟩ := fun new hlater =>
        h.setItem hitem hlater h.numbered.ffaLists (lists_same _) hrolls
      cases outcome with
      | won winner canStore =>
          cases canStore with
          | true =>
              have hlater : Later item { item with isLooted := true } :=
                ⟨rfl, rfl, fun _ => rfl, id⟩
              by_cases hcount : item.count = 0
              · have hstore : Corpse.store ⟨s.loot, s.rolls.eraseIdx k, s.stored⟩
                    { item with number := roll.number } winner =
                    ⟨s.loot, s.rolls.eraseIdx k, s.stored⟩ := if_pos hcount
                dsimp only
                rw [hstore]
                exact h.setItem hitem hlater h.numbered.ffaLists (lists_same _) hrolls
              · obtain ⟨hnumber, hlooted⟩ := huntaken roll item hroll hitem hcount
                have hstore : Corpse.store ⟨s.loot, s.rolls.eraseIdx k, s.stored⟩
                    { item with number := roll.number } winner =
                    ⟨s.loot, s.rolls.eraseIdx k,
                      s.stored ++ [⟨roll.number, item.freeforall, winner⟩]⟩ := if_neg hcount
                dsimp only
                rw [hstore, ← hnumber]
                have hmem : item ∈ s.loot.entries := Loot.mem_entries_item hitem
                -- no roll is for a free-for-all item
                have hffa := (h.rolled roll (List.mem_of_getElem? hroll)).2 item hmem hnumber
                have hnot : item.freeforall = true → False := fun htrue => by simp [hffa] at htrue
                exact h.handItem hitem hlater h.numbered.ffaLists (lists_same _) hrolls
                  (h.fresh_item hitem hcount (fun _ => hlooted) fun htrue => (hnot htrue).elim)
                  (fun _ => rfl) fun htrue => (hnot htrue).elim
          | false => exact hwrite _ ⟨rfl, rfl, id, id⟩
      | wonByNeedOffline winner => exact hwrite _ ⟨rfl, rfl, id, id⟩
      | wonByGreedOffline winner => exact herased
      | allPassed => exact hwrite _ ⟨rfl, rfl, id, id⟩

/-- A player is allowed to loot. -/
theorem allowLooter (h : HandedOut s) (player : Looter) :
    HandedOut (s.modifyLoot fun loot => loot.allowLooter player) := by
  unfold Corpse.modifyLoot Loot.allowLooter
  dsimp only
  split
  · exact { h with numbered := { h.numbered with } }
  · exact h

/-- A player is shown his quest items. -/
theorem fillQuest (h : HandedOut s) (c : Catalogue) (player : Looter) :
    HandedOut (s.modifyLoot (Loot.fillQuest c player)) := by
  unfold Corpse.modifyLoot Loot.fillQuest
  split
  · next hnone =>
    unfold Loot.fillQuestLoot
    split
    · exact h
    · have hnodup : (s.loot.questFor c player).Nodup :=
        (Loot.indices_nodup _ _).sublist (List.take_sublist _ _)
      have hitems : Evolves s.loot.questItems (Loot.modifyAt
          (fun item => { item with isBlocked := true }) (s.loot.questFor c player)
          s.loot.questItems) := Evolves.modifyAt Later.blocked hnodup
      refine h.progress ?_ ?_ fun _ hroll => hroll
      · exact Progress.evolve (Evolves.refl _) rfl hitems rfl (lists_same _) (lists_concat _ _)
      · exact h.numbered.evolve (Evolves.refl _) rfl hitems rfl h.numbered.ffaLists
          (h.numbered.questLists.concat hnone hnodup)
  · exact h

/-- A player is shown his free-for-all items. -/
theorem fillFFA (h : HandedOut s) (c : Catalogue) (player : Looter) :
    HandedOut (s.modifyLoot (Loot.fillFFA c player)) := by
  unfold Corpse.modifyLoot Loot.fillFFA
  split
  · next hnone =>
    unfold Loot.fillFFALoot
    split
    · exact h
    · refine h.progress ?_ ?_ fun _ hroll => hroll
      · exact Progress.evolve (Evolves.refl _) rfl (Evolves.refl _) rfl (lists_concat _ _)
          (lists_same _)
      · exact h.numbered.evolve (Evolves.refl _) rfl (Evolves.refl _) rfl
          (h.numbered.ffaLists.concat hnone (Loot.indices_nodup _ _)) h.numbered.questLists
  · exact h

/-- A player is shown his conditional items. -/
theorem fillConditional (h : HandedOut s) (c : Catalogue) (player : Looter) :
    HandedOut (s.modifyLoot (Loot.fillConditional c player)) := by
  unfold Corpse.modifyLoot Loot.fillConditional
  split
  · unfold Loot.fillNonQuestNonFFAConditionalLoot
    split
    · exact h
    · have hitems : Evolves s.loot.items (Loot.modifyAt
          (fun item => { item with isCounted := true }) (s.loot.conditionalFor c player)
          s.loot.items) :=
        Evolves.modifyAt Later.counted (Loot.indices_nodup _ _)
      refine h.progress ?_ ?_ fun _ hroll => hroll
      · exact Progress.evolve hitems rfl (Evolves.refl _) rfl (lists_same _) (lists_same _)
      · exact h.numbered.evolve hitems rfl (Evolves.refl _) rfl h.numbered.ffaLists
          h.numbered.questLists
  · exact h

/-- A player is shown the loot. -/
theorem fillNotNormalLootFor (h : HandedOut s) (c : Catalogue) (player : Looter) :
    HandedOut (s.modifyLoot fun loot => loot.fillNotNormalLootFor c player) :=
  (((h.allowLooter player).fillQuest c player).fillFFA c player).fillConditional c player

/-- An event that hands out only what is untaken keeps what has been handed out. -/
theorem step (h : HandedOut s) {event : LootEvent} (huntaken : Untaken c s event) :
    HandedOut (lootStep c s event) := by
  cases event with
  | addItem item =>
      exact h.progress (Progress.addItem c s.loot item) (h.numbered.addItem item)
        fun _ hroll => hroll
  | fillNotNormalLootFor player => exact h.fillNotNormalLootFor c player
  | autostore player lootSlot isCreature canStore =>
      show HandedOut (s.handleAutostoreLootItem c player lootSlot isCreature canStore)
      unfold Corpse.handleAutostoreLootItem
      split
      · exact h
      · next item found hfound =>
        split
        · next hmay =>
          have hcount : item.count ≠ 0 := Corpse.count_of_mayAutostore hmay
          have hstore : s.store item player.guid = { s with
              stored := s.stored ++ [⟨item.number, item.freeforall, player.guid⟩] } :=
            if_neg hcount
          rw [hstore]
          exact h.autostore (Loot.lootItemInSlot_some hfound) hcount
            (huntaken item found hfound hmay)
        · exact h
  | masterGive slotid target canStore => exact h.masterGive huntaken
  | startRoll itemSlot => exact h.startLootRoll itemSlot
  | countTheRoll k outcome => exact h.countTheRoll huntaken
  | setUnderthreshold slot =>
      show HandedOut (s.setUnderthreshold slot)
      unfold Corpse.setUnderthreshold
      split
      · exact h
      · next item hitem =>
        have hlater : Later item { item with isUnderthreshold := true } := ⟨rfl, rfl, id, id⟩
        exact h.setItem hitem hlater h.numbered.ffaLists (lists_same _) fun _ hroll => hroll
  | refill =>
      exact h.progress (Progress.refill h.numbered) h.numbered.refill fun _ hroll => hroll

end HandedOut

/-- An item is handed out once, or once per player if it is free-for-all. -/
structure OnceLaw (stored : List Award) : Prop where
  once : ((stored.filter fun a => !a.freeforall).map Award.number).Nodup
  perPlayer : ((stored.filter Award.freeforall).map fun a => (a.number, a.player)).Nodup

/-- In every state of a run that hands out only what is untaken, every item has been handed out at
most once, or at most once per player. -/
theorem run_once (c : Catalogue) (gold : ℕ) (drawn : List LootStoreItem) (trimmed : List ℕ)
    {events : List LootEvent}
    (huntaken : Lib.Along (Untaken c) (lootStep c) (Corpse.filled c gold drawn trimmed) events) :
    OnceLaw (afterLoot c gold drawn trimmed events).stored := by
  have hstart : HandedOut (Corpse.filled c gold drawn trimmed) :=
    ⟨Numbered.fillLoot c gold drawn trimmed, fun _ ha => absurd ha List.not_mem_nil,
      fun _ hroll => absurd hroll List.not_mem_nil, fun _ ha => absurd ha List.not_mem_nil,
      fun _ ha => absurd ha List.not_mem_nil, fun _ ha => absurd ha List.not_mem_nil,
      fun _ ha => absurd ha List.not_mem_nil, List.nodup_nil, List.nodup_nil⟩
  have hend : HandedOut (afterLoot c gold drawn trimmed events) :=
    Lib.run_invariant HandedOut (fun _ _ hok h => h.step hok) hstart huntaken
  exact ⟨hend.once, hend.perPlayer⟩

/-- Two players are shown a plain and a free-for-all item. Both take the latter, and the master looter
gives the former to the second. -/
def handedEvents : List LootEvent :=
  [.fillNotNormalLootFor (looter 1), .fillNotNormalLootFor (looter 2),
    .autostore (looter 1) 1 true true, .autostore (looter 2) 1 true true, .masterGive 0 2 true]

/-- The loot after the first `k` of these events. -/
def handedBefore (k : ℕ) : Loot :=
  (afterLoot catalogue 0 [⟨1, 0, 1, false⟩, ⟨2, 0, 1, false⟩] [] (handedEvents.take k)).loot

theorem run_once_handed :
    (afterLoot catalogue 0 [⟨1, 0, 1, false⟩, ⟨2, 0, 1, false⟩] [] handedEvents).stored =
        [⟨1, true, 1⟩, ⟨1, true, 2⟩, ⟨0, false, 2⟩] ∧
      OnceLaw
        (afterLoot catalogue 0 [⟨1, 0, 1, false⟩, ⟨2, 0, 1, false⟩] [] handedEvents).stored := by
  refine ⟨by decide +kernel, run_once catalogue 0 _ [] ⟨trivial, trivial, ?_, ?_, ?_, trivial⟩⟩
  · intro item found hfound _ hplain
    have hsome : (handedBefore 2).lootItemInSlot 1 1 = some (item, found) := hfound
    have hffa : ((handedBefore 2).lootItemInSlot 1 1).map Prod.snd = some .ffa := by decide +kernel
    rw [hsome] at hffa
    cases hplain.symm.trans (Option.some.inj hffa)
  · intro item found hfound _ hplain
    have hsome : (handedBefore 3).lootItemInSlot 1 2 = some (item, found) := hfound
    have hffa : ((handedBefore 3).lootItemInSlot 1 2).map Prod.snd = some .ffa := by decide +kernel
    rw [hsome] at hffa
    cases hplain.symm.trans (Option.some.inj hffa)
  · intro item hitem _ _ _
    have hsome : (handedBefore 4).items[0]? = some item := hitem
    have hthere : ((handedBefore 4).items[0]?).map (fun item => (item.isLooted, item.freeforall)) =
        some (false, false) := by decide +kernel
    rw [hsome] at hthere
    obtain ⟨hlooted, hffa⟩ := Prod.mk.injEq .. ▸ Option.some.inj hthere
    exact ⟨hlooted, fun htrue => by simp [hffa] at htrue⟩

/-- The first player takes the only item, and the master looter gives it to the second. -/
theorem masterGive_twice :
    ¬OnceLaw (afterLoot catalogue 0 [⟨1, 0, 1, false⟩] []
      [.fillNotNormalLootFor (looter 1), .fillNotNormalLootFor (looter 2),
        .autostore (looter 1) 0 true true, .masterGive 0 2 true]).stored := by
  intro h
  have honce := h.once
  revert honce
  decide +kernel

end TwowCore.Looting
