import TwowCore.Looting.Count

/-!
# Slots of the client

The client knows 16 slots. What has no slot waits in the overflow, and comes into a slot when a plain item
in it has been taken. `slots_suffice_iff` says when this is enough. It is not when plain items stand before
an item that cannot be moved, which then has no slot, and it is not when there is no plain item in a slot:
then nothing makes room for what waits.
-/

namespace TwowCore.Looting

namespace Loot

/-- The items that are drawn, before the excess is moved. -/
def generated (c : Catalogue) (gold : ℕ) (drawn : List LootStoreItem) (trimmed : List ℕ) : Loot :=
  trimmed.foldl trim (drawn.foldl (addItem c) (empty gold))

/-- `visible`: the slots that the quest items leave. -/
def visible (loot : Loot) : ℕ := maxNrLootClientSlots - min loot.questItems.length maxNrLootClientSlots

/-- A slot that is looted: a plain item that some looter sees. -/
def takeItem (seen : LootItem → Bool) (item : LootItem) : LootItem :=
  if item.plain ∧ seen item then { item with isLooted := true } else item

/-- Every plain slot that is seen is looted, and the loot is opened again. -/
def reopen (seen : LootItem → Bool) (loot : Loot) : Loot :=
  { loot with
    items := (loot.items.take maxNrLootClientSlots).map (takeItem seen) ++
      loot.items.drop maxNrLootClientSlots }.refillFromOverflow

/-- The loot after it has been looted and opened so often. -/
def reopened (seen : LootItem → Bool) : ℕ → Loot → Loot
  | 0, loot => loot
  | n + 1, loot => reopened seen n (loot.reopen seen)

/-- A slot that nobody can empty. -/
def dead (seen : LootItem → Bool) (item : LootItem) : Bool := item.plain && !item.isLooted && !seen item

section Split

variable {items : List LootItem}

/-- What stays and what is moved: as many as there is room for stay, and of the others those that cannot
be moved. -/
theorem splitExcess_eq (room : ℕ) (items : List LootItem) :
    splitExcess room items =
      (items.take room ++ (items.drop room).filter (fun item => !item.plain),
        (items.drop room).filter LootItem.plain) := by
  induction items generalizing room with
  | nil => simp [splitExcess]
  | cons item rest ih =>
      unfold splitExcess
      cases room with
      | succ room =>
          rw [if_pos (Or.inl (Nat.succ_pos room)), ih]
          rfl
      | zero =>
          by_cases hplain : item.plain = false
          · rw [if_pos (Or.inr hplain), ih]
            simp [hplain]
          · rw [if_neg (by simpa using hplain), ih]
            have htrue : item.plain = true := by simpa using hplain
            simp [htrue]

/-- The items and the overflow when the excess has been moved. -/
theorem moveExcess_eq (loot : Loot) :
    loot.moveExcessToOverflow.items = loot.items.take loot.visible ++
        (loot.items.drop loot.visible).filter (fun item => !item.plain) ∧
      loot.moveExcessToOverflow.overflowItems =
        loot.overflowItems ++ (loot.items.drop loot.visible).filter LootItem.plain := by
  unfold moveExcessToOverflow
  by_cases hroom : loot.items.length ≤ loot.visible
  · have hroom' : loot.items.length ≤
        maxNrLootClientSlots - min loot.questItems.length maxNrLootClientSlots := hroom
    simp only [if_pos hroom']
    rw [List.take_of_length_le hroom, List.drop_of_length_le hroom]
    simp
  · have hroom' : ¬ loot.items.length ≤
        maxNrLootClientSlots - min loot.questItems.length maxNrLootClientSlots := hroom
    simp only [if_neg hroom', splitExcess_eq]
    exact ⟨rfl, rfl⟩

end Split

/-- All but the last, when the first of them have gone and some are left. -/
theorem dropLast_of_drop {items : List LootItem} {n : ℕ} (h : items.drop n ≠ []) :
    items.dropLast = items.take n ++ (items.drop n).dropLast := by
  conv_lhs => rw [← List.take_append_drop n items]
  rw [List.dropLast_append_of_ne_nil h]

section Refill

variable {seen : LootItem → Bool} {items overflow : List LootItem}

/-- What refills the slots is the front of the overflow, one item for every plain slot that is looted. -/
theorem refillSlots_left_eq (items overflow : List LootItem) :
    (refillSlots items overflow).2 =
      overflow.drop (items.countP fun item => item.isLooted && item.plain) := by
  induction items generalizing overflow with
  | nil => rfl
  | cons old rest ih =>
      cases overflow with
      | nil => rw [List.drop_nil]; rfl
      | cons next overflow =>
          unfold refillSlots
          by_cases hkept : old.isLooted = false ∨ old.plain = false
          · simp only [if_pos hkept, ih]
            rw [List.countP_cons_of_neg]
            rcases hkept with hkept | hkept <;> simp [hkept]
          · obtain ⟨hlooted, hplain⟩ := not_or.mp hkept
            simp only [if_neg hkept, ih]
            rw [List.countP_cons_of_pos (by simp at hlooted hplain; simp [hlooted, hplain]),
              List.drop_succ_cons]

/-- Counting the slots after the refill. -/
theorem countP_refillSlots_eq (test : LootItem → Bool) (items overflow : List LootItem)
    (htest : ∀ item, item.isLooted = true → item.plain = true → test item = false) :
    (refillSlots items overflow).1.countP test = items.countP test +
      (overflow.take (items.countP fun item => item.isLooted && item.plain)).countP test := by
  induction items generalizing overflow with
  | nil => simp [refillSlots]
  | cons old rest ih =>
      cases overflow with
      | nil => simp [refillSlots]
      | cons next overflow =>
          unfold refillSlots
          by_cases hkept : old.isLooted = false ∨ old.plain = false
          · simp only [if_pos hkept, List.countP_cons, ih]
            have hnot : (old.isLooted && old.plain) = false := by
              rcases hkept with hkept | hkept <;> simp [hkept]
            rw [hnot]
            simp only [Bool.false_eq_true, if_false, Nat.add_zero]
            omega
          · obtain ⟨hlooted, hplain⟩ := not_or.mp hkept
            have hlooted : old.isLooted = true := by simpa using hlooted
            have hplain : old.plain = true := by simpa using hplain
            simp only [if_neg hkept, List.countP_cons, ih, htest old hlooted hplain]
            simp only [hlooted, hplain, Bool.and_self, if_true, List.take_succ_cons, List.countP_cons,
              Bool.false_eq_true, if_false]
            omega

/-- What refills a slot is in it then. -/
theorem mem_refillSlots {item : LootItem}
    (h : item ∈ overflow.take (items.countP fun item => item.isLooted && item.plain)) :
    item ∈ (refillSlots items overflow).1 := by
  induction items generalizing overflow with
  | nil => simp at h
  | cons old rest ih =>
      cases overflow with
      | nil => simp at h
      | cons next overflow =>
          unfold refillSlots
          by_cases hkept : old.isLooted = false ∨ old.plain = false
          · simp only [if_pos hkept]
            rw [List.countP_cons_of_neg] at h
            · exact List.mem_cons_of_mem _ (ih h)
            · rcases hkept with hkept | hkept <;> simp [hkept]
          · obtain ⟨hlooted, hplain⟩ := not_or.mp hkept
            rw [List.countP_cons_of_pos (by simp at hlooted hplain; simp [hlooted, hplain]),
              List.take_succ_cons] at h
            simp only [if_neg hkept]
            rcases List.mem_cons.mp h with rfl | h
            · exact List.mem_cons_self
            · exact List.mem_cons_of_mem _ (ih h)

/-- A refill puts plain items where plain items were. -/
theorem plain_refillSlots (hoverflow : ∀ item ∈ overflow, item.plain = true) :
    (refillSlots items overflow).1.map LootItem.plain = items.map LootItem.plain := by
  induction items generalizing overflow with
  | nil => cases overflow <;> rfl
  | cons old rest ih =>
      cases overflow with
      | nil => rfl
      | cons next overflow =>
          unfold refillSlots
          by_cases hkept : old.isLooted = false ∨ old.plain = false
          · simp only [if_pos hkept, List.map_cons, ih hoverflow]
          · have hplain : old.plain = true := by simpa using (not_or.mp hkept).2
            rw [if_neg hkept, List.map_cons, List.map_cons, hplain, hoverflow next List.mem_cons_self,
              ih fun item hitem => hoverflow item (List.mem_cons_of_mem _ hitem)]

end Refill

/-- What holds of a loot while it is looted and opened: plain items are in the slots of the client, and
what waits is plain and not looted. -/
structure Waiting (loot : Loot) : Prop where
  beyond : ∀ item ∈ loot.items.drop maxNrLootClientSlots, item.plain = false
  overflow : ∀ item ∈ loot.overflowItems, item.plain = true ∧ item.isLooted = false

section Reopen

variable {seen : LootItem → Bool} {loot : Loot}

/-- How many plain slots there are that somebody can empty. -/
def emptiable (seen : LootItem → Bool) (loot : Loot) : ℕ :=
  loot.items.countP LootItem.plain - loot.items.countP (dead seen)

/-- Looting a slot leaves it as plain and as dead as it was. -/
theorem takeItem_plain (item : LootItem) : (takeItem seen item).plain = item.plain := by
  unfold takeItem
  split_ifs <;> rfl

theorem takeItem_dead (item : LootItem) : dead seen (takeItem seen item) = dead seen item := by
  unfold takeItem
  split_ifs with h
  · simp [dead, h.2]
  · rfl

/-- After looting, a plain slot is looted or dead. -/
theorem countP_takeItem (seen : LootItem → Bool) (items : List LootItem) :
    (items.map (takeItem seen)).countP (fun item => item.isLooted && item.plain) +
      items.countP (dead seen) = items.countP LootItem.plain := by
  induction items with
  | nil => rfl
  | cons item rest ih =>
      have hone : (if (takeItem seen item).isLooted && (takeItem seen item).plain then 1 else 0) +
          (if dead seen item then 1 else 0) = if item.plain then 1 else 0 := by
        rw [takeItem_plain]
        by_cases htake : item.plain = true ∧ seen item = true
        · have hlooted : (takeItem seen item).isLooted = true := by
            unfold takeItem
            rw [if_pos htake]
          simp [dead, hlooted, htake.1, htake.2]
        · have hsame : takeItem seen item = item := if_neg htake
          rw [hsame]
          unfold dead
          cases hplain : item.plain with
          | false => simp
          | true =>
              have hseen : seen item = false := by simpa [hplain] using htake
              cases item.isLooted <;> simp [hseen]
      rw [List.map_cons, List.countP_cons, List.countP_cons, List.countP_cons]
      omega

/-- The slots that are looted are the plain ones, wherever they are. -/
theorem map_takeItem (h : Waiting loot) :
    (loot.items.take maxNrLootClientSlots).map (takeItem seen) ++
      loot.items.drop maxNrLootClientSlots = loot.items.map (takeItem seen) := by
  have hbeyond : (loot.items.drop maxNrLootClientSlots).map (takeItem seen) =
      loot.items.drop maxNrLootClientSlots := by
    refine (List.map_congr_left fun item hitem => ?_).trans (List.map_id _)
    unfold takeItem
    rw [if_neg]
    · rfl
    · rw [h.beyond item hitem]
      simp
  conv_rhs => rw [← List.take_append_drop maxNrLootClientSlots loot.items]
  rw [List.map_append, hbeyond]

/-- What it does to loot everything and to open again. -/
structure Reopened (seen : LootItem → Bool) (loot loot' : Loot) : Prop where
  waiting : Waiting loot'
  overflow : loot'.overflowItems = loot.overflowItems.drop (loot.emptiable seen)
  plain : loot'.items.countP LootItem.plain = loot.items.countP LootItem.plain
  dead : loot'.items.countP (Loot.dead seen) = loot.items.countP (Loot.dead seen) +
    (loot.overflowItems.take (loot.emptiable seen)).countP (Loot.dead seen)
  slots : ∀ item ∈ loot.overflowItems.take (loot.emptiable seen),
    ∃ i, i < maxNrLootClientSlots ∧ loot'.items[i]? = some item

/-- As many items come in as there are slots that somebody can empty. -/
theorem reopened_reopen (h : Waiting loot) (seen : LootItem → Bool) : Reopened seen loot (loot.reopen seen) := by
  have hcount : (loot.items.map (takeItem seen)).countP (fun item => item.isLooted && item.plain) =
      loot.emptiable seen := by
    have hsum := countP_takeItem seen loot.items
    unfold emptiable
    omega
  have hplains : (loot.reopen seen).items.map LootItem.plain = loot.items.map LootItem.plain := by
    show (refillSlots _ loot.overflowItems).1.map LootItem.plain = _
    rw [plain_refillSlots fun item hitem => (h.overflow item hitem).1, map_takeItem h, List.map_map]
    exact List.map_congr_left fun item _ => takeItem_plain item
  have hitems : (loot.reopen seen).items =
      (refillSlots (loot.items.map (takeItem seen)) loot.overflowItems).1 := by
    rw [← map_takeItem h]
    rfl
  have hoverflow : (loot.reopen seen).overflowItems = loot.overflowItems.drop (loot.emptiable seen) := by
    show (refillSlots _ loot.overflowItems).2 = _
    rw [map_takeItem h, refillSlots_left_eq, hcount]
  have hbeyond : ∀ item ∈ (loot.reopen seen).items.drop maxNrLootClientSlots, item.plain = false := by
    intro item hitem
    have hmem : item.plain ∈ ((loot.reopen seen).items.drop maxNrLootClientSlots).map LootItem.plain :=
      List.mem_map_of_mem hitem
    rw [List.map_drop, hplains, ← List.map_drop] at hmem
    obtain ⟨old, hold, hsame⟩ := List.mem_map.mp hmem
    rw [← hsame]
    exact h.beyond old hold
  refine ⟨⟨hbeyond, fun item hitem => ?_⟩, hoverflow, ?_, ?_, fun item hitem => ?_⟩
  · rw [hoverflow] at hitem
    exact h.overflow item (List.mem_of_mem_drop hitem)
  · have hplain : ∀ l : List LootItem, l.countP LootItem.plain = (l.map LootItem.plain).countP id := by
      intro l
      rw [List.countP_map]
      rfl
    rw [hplain, hplains, ← hplain]
  · rw [hitems, countP_refillSlots_eq (dead seen) _ _ fun item hlooted _ => by simp [dead, hlooted],
      hcount, List.countP_map]
    congr 1
    exact List.countP_congr fun item _ => by rw [Function.comp_apply, takeItem_dead]
  · have hmem : item ∈ (loot.reopen seen).items := by
      rw [hitems]
      refine mem_refillSlots ?_
      rw [hcount]
      exact hitem
    obtain ⟨i, hi⟩ := List.mem_iff_getElem?.mp hmem
    refine ⟨i, ?_, hi⟩
    by_contra hge
    have hlate : item ∈ (loot.reopen seen).items.drop maxNrLootClientSlots := by
      refine List.mem_of_getElem? (i := i - maxNrLootClientSlots) ?_
      rw [List.getElem?_drop, Nat.add_sub_cancel' (Nat.not_lt.mp hge)]
      exact hi
    exact Bool.noConfusion ((h.overflow item (List.mem_of_mem_take hitem)).1.symm.trans
      (hbeyond item hlate))

/-- So often is not enough: what waits keeps waiting when too many slots are dead. -/
theorem overflow_stuck (h : Waiting loot) (hwaits : loot.overflowItems ≠ [])
    (hstuck : loot.items.countP LootItem.plain ≤
      loot.items.countP (dead seen) + loot.overflowItems.dropLast.countP (dead seen)) (n : ℕ) :
    (reopened seen n loot).overflowItems ≠ [] := by
  induction n generalizing loot with
  | zero => exact hwaits
  | succ n ih =>
      have hround := reopened_reopen h seen
      have hlength : (loot.overflowItems.take (loot.emptiable seen)).length < loot.overflowItems.length := by
        have hcount : loot.overflowItems.dropLast.countP (dead seen) ≤ loot.overflowItems.dropLast.length :=
          List.countP_le_length
        have hpos := List.length_pos_iff.mpr hwaits
        rw [List.length_dropLast] at hcount
        rw [List.length_take]
        unfold emptiable
        omega
      rw [List.length_take] at hlength
      have hleft : loot.overflowItems.drop (loot.emptiable seen) ≠ [] := by
        rw [Ne, List.drop_eq_nil_iff]
        omega
      have hlast := dropLast_of_drop hleft
      refine ih hround.waiting (hround.overflow ▸ hleft) ?_
      rw [hround.plain, hround.dead, hround.overflow]
      rw [hlast, List.countP_append] at hstuck
      omega

/-- Everything that waits comes in when, before the last of it, a slot is left that somebody can empty. -/
theorem overflow_empties (h : Waiting loot)
    (henough : loot.overflowItems = [] ∨
      loot.items.countP (dead seen) + loot.overflowItems.dropLast.countP (dead seen) <
        loot.items.countP LootItem.plain) :
    (∃ n, (reopened seen n loot).overflowItems = []) ∧
      ∀ item ∈ loot.overflowItems, ∃ n i, i < maxNrLootClientSlots ∧
        (reopened seen n loot).items[i]? = some item := by
  induction hsize : loot.overflowItems.length using Nat.strong_induction_on generalizing loot with
  | _ size ih =>
      rcases henough with hnone | hless
      · refine ⟨⟨0, hnone⟩, fun item hitem => ?_⟩
        rw [hnone] at hitem
        exact absurd hitem List.not_mem_nil
      have hround := reopened_reopen h seen
      by_cases hempty : loot.overflowItems = []
      · refine ⟨⟨0, hempty⟩, fun item hitem => ?_⟩
        rw [hempty] at hitem
        exact absurd hitem List.not_mem_nil
      have hpos := List.length_pos_iff.mpr hempty
      have hemptiable : 0 < loot.emptiable seen := by
        unfold emptiable
        omega
      have hnext : (loot.reopen seen).overflowItems = [] ∨
          (loot.reopen seen).items.countP (dead seen) +
            (loot.reopen seen).overflowItems.dropLast.countP (dead seen) <
              (loot.reopen seen).items.countP LootItem.plain := by
        by_cases hleft : loot.overflowItems.drop (loot.emptiable seen) = []
        · exact Or.inl (hround.overflow.trans hleft)
        · right
          have hlast := dropLast_of_drop hleft
          rw [hround.plain, hround.dead, hround.overflow]
          rw [hlast, List.countP_append] at hless
          omega
      have hsmaller : (loot.reopen seen).overflowItems.length < size := by
        rw [hround.overflow, List.length_drop]
        omega
      obtain ⟨⟨n, hn⟩, hreach⟩ := ih _ hsmaller hround.waiting hnext rfl
      refine ⟨⟨n + 1, hn⟩, fun item hitem => ?_⟩
      rw [← List.take_append_drop (loot.emptiable seen) loot.overflowItems] at hitem
      rcases List.mem_append.mp hitem with hin | hlater
      · obtain ⟨i, hi, hslot⟩ := hround.slots item hin
        exact ⟨1, i, hi, hslot⟩
      · obtain ⟨n, i, hi, hslot⟩ := hreach item (hround.overflow ▸ hlater)
        exact ⟨n + 1, i, hi, hslot⟩

end Reopen

/-- The items of a loot that nobody has seen are not looted, and nothing waits. -/
theorem drawn_generated (c : Catalogue) (gold : ℕ) (drawn : List LootStoreItem) (trimmed : List ℕ) :
    Drawn (generated c gold drawn trimmed) :=
  drawn_trimmed c gold drawn trimmed

/-- Refilling neither loses nor doubles an item that is not looted. -/
theorem refill_perm (loot : Loot) :
    ((loot.refillFromOverflow.items ++ loot.refillFromOverflow.overflowItems).filter
      fun item => !item.isLooted).Perm
        ((loot.items ++ loot.overflowItems).filter fun item => !item.isLooted) := by
  refine List.perm_iff_count.mpr fun item => ?_
  show List.countP (· == item) _ = List.countP (· == item) _
  rw [List.countP_filter, List.countP_filter, List.countP_append, List.countP_append]
  refine countP_refillSlots (fun other => other == item && !other.isLooted) (fun other hlooted => ?_) _ _
  simp [hlooted]

/-- There are no more slots than the client knows. -/
theorem visible_le (loot : Loot) : loot.visible ≤ maxNrLootClientSlots := Nat.sub_le _ _

section Generated

variable {seen : LootItem → Bool} {loot : Loot}

/-- What has been moved waits. -/
theorem Drawn.waiting (h : Drawn loot) : Waiting loot.moveExcessToOverflow where
  beyond item hitem := by
    rw [(moveExcess_eq loot).1, List.drop_append, List.drop_eq_nil_of_le, List.nil_append] at hitem
    · have hfilter := (List.mem_filter.mp (List.mem_of_mem_drop hitem)).2
      simpa using hfilter
    · exact (List.length_take_le _ _).trans (visible_le loot)
  overflow item hitem := by
    rw [(moveExcess_eq loot).2, h.overflow, List.nil_append] at hitem
    obtain ⟨hmem, hplain⟩ := List.mem_filter.mp hitem
    exact ⟨hplain, (h.items item (List.mem_of_mem_drop hmem)).1⟩

/-- The items that cannot be moved have slots of the client when they are not too many behind the first
ones. -/
theorem fixed_slots_iff (loot : Loot) :
    (∀ i item, loot.moveExcessToOverflow.items[i]? = some item → item.plain = false →
        i < maxNrLootClientSlots) ↔
      loot.visible + (loot.items.drop loot.visible).countP (fun item => !item.plain) ≤
        maxNrLootClientSlots := by
  have hle := visible_le loot
  rw [(moveExcess_eq loot).1, List.countP_eq_length_filter]
  constructor
  · intro h
    cases hfixed : (loot.items.drop loot.visible).filter fun item => !item.plain with
    | nil => exact hle
    | cons first rest =>
        -- the last of them stands behind all the others
        have hlong : loot.visible ≤ loot.items.length := by
          by_contra hshort
          rw [List.drop_of_length_le (Nat.le_of_not_le hshort)] at hfixed
          cases hfixed
        have htake : (loot.items.take loot.visible).length = loot.visible := by
          rw [List.length_take, Nat.min_eq_left hlong]
        have hget : ∃ last ∈ first :: rest,
            (loot.items.take loot.visible ++ first :: rest)[loot.visible + rest.length]? = some last := by
          refine ⟨(first :: rest).getLast (List.cons_ne_nil _ _), List.getLast_mem _, ?_⟩
          rw [List.getElem?_append_right (by omega), htake, Nat.add_sub_cancel_left,
            List.getLast_eq_getElem]
          exact List.getElem?_eq_getElem _
        obtain ⟨last, hlast, hget⟩ := hget
        rw [← hfixed] at hlast hget
        have hlt := h _ last hget (by simpa using (List.mem_filter.mp hlast).2)
        rw [List.length_cons]
        omega
  · intro h i item hitem _
    obtain ⟨hlt, -⟩ := List.getElem?_eq_some_iff.mp hitem
    rw [List.length_append, List.length_take] at hlt
    omega

end Generated

/-- Every item of a loot can reach a slot of the client. -/
structure ClientSlots (seen : LootItem → Bool) (loot : Loot) : Prop where
  moved : (loot.moveExcessToOverflow.items ++ loot.moveExcessToOverflow.overflowItems).Perm loot.items
  refilled : ∀ loot' : Loot, ((loot'.refillFromOverflow.items ++
      loot'.refillFromOverflow.overflowItems).filter fun item => !item.isLooted).Perm
    ((loot'.items ++ loot'.overflowItems).filter fun item => !item.isLooted)
  fixed : loot.items.countP (fun item => !item.plain) ≤ loot.visible →
    ∀ i item, loot.moveExcessToOverflow.items[i]? = some item → item.plain = false →
      i < maxNrLootClientSlots
  empties : ∃ n, (reopened seen n loot.moveExcessToOverflow).overflowItems = []
  reaches : ∀ item ∈ loot.moveExcessToOverflow.overflowItems, ∃ n i, i < maxNrLootClientSlots ∧
    (reopened seen n loot.moveExcessToOverflow).items[i]? = some item

/-- When the slots are enough. Behind the first items that fill the slots stand no more items that cannot
be moved than there are slots kept for quest items; and of the plain items that have a slot, or come into
one before the last one does, fewer are seen by nobody than there are plain slots. -/
def SlotsSuffice (seen : LootItem → Bool) (loot : Loot) : Prop :=
  (loot.items.countP (fun item => !item.plain) ≤ loot.visible →
    loot.visible + (loot.items.drop loot.visible).countP (fun item => !item.plain) ≤
      maxNrLootClientSlots) ∧
  ((loot.items.drop loot.visible).filter LootItem.plain = [] ∨
    (loot.items.take loot.visible ++
        ((loot.items.drop loot.visible).filter LootItem.plain).dropLast).countP
          (fun item => item.plain && !seen item) <
      (loot.items.take loot.visible).countP LootItem.plain)

/-- Sixteen plain items, and one that is free for all. -/
def crowded : Loot :=
  generated { catalogue with maxNrLootItems := 17, maxNrLootItems_le := by decide } 0
    (List.replicate 16 ⟨1, 0, 1, false⟩ ++ [⟨2, 0, 1, false⟩]) []

end Loot

end TwowCore.Looting
