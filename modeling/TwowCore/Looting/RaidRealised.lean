import TwowCore.Looting.RaidPlan

/-!
# When a raid's loot plan is realised

A loop that draws is described by the items it asks `AddItem` for (`Asks`), `TrimNormal482` by what stays,
and the plan by closed forms of what `Trim` leaves. `processRules_realised` puts them together: the plan is
realised when and only when there is `Room`.
-/

namespace TwowCore.Looting

/-! ## The counters -/

/-- What `Trim` leaves of every part. -/
theorem trimCounts_spec (counts : LootCounts) (limit setNeed : ℕ) :
    (trimCounts counts limit setNeed).ownMin = counts.ownMin ∧
      (trimCounts counts limit setNeed).normal = counts.normal - (counts.total - limit) ∧
      (trimCounts counts limit setNeed).set = max (min setNeed counts.set)
        (counts.set - (counts.total - counts.normal - limit)) ∧
      (trimCounts counts limit setNeed).ownExtra = counts.ownExtra -
        (counts.mandatory + counts.fixedSet + counts.ownMin + (trimCounts counts limit setNeed).set +
          counts.ownExtra - limit) := by
  obtain ⟨mandatory, fixedSet, ownMin, set, ownExtra, normal⟩ := counts
  have hcut : ∀ total part floor, floor ≤ part →
      cutPart total limit part floor = max floor (part - (total - limit)) := by
    intro total part floor hfloor
    unfold cutPart
    split <;> omega
  have hnormal : cutPart (mandatory + fixedSet + ownMin + set + ownExtra + normal) limit normal 0 =
      normal - (mandatory + fixedSet + ownMin + set + ownExtra + normal - limit) := by
    rw [hcut _ _ _ (Nat.zero_le _), Nat.zero_max]
  simp only [trimCounts, LootCounts.total, hnormal]
  rw [hcut _ set _ (min_le_right _ _), hcut _ ownExtra 0 (Nat.zero_le _), Nat.zero_max]
  refine ⟨trivial, trivial, ?_, ?_⟩ <;> omega

/-! ## The draws -/

theorem pickDown_lt {roll : ℚ} {weights : List ℚ} {pick : ℕ} (h : pickDown roll weights = some pick) :
    pick < weights.length := by
  induction weights generalizing roll pick with
  | nil => cases h
  | cons weight rest ih =>
      rw [pickDown] at h
      split at h
      · cases h
        exact Nat.succ_pos _
      · obtain ⟨below, hbelow, rfl⟩ := Option.map_eq_some_iff.mp h
        exact Nat.succ_lt_succ (ih hbelow)

/-- Where some weight is left, an entry is picked. -/
theorem pickWeighted_lt (roll : ℚ) {weights : List ℚ} (h : 0 < weights.sum) :
    pickWeighted roll weights < weights.length := by
  rw [pickWeighted, if_neg (not_le.mpr h)]
  cases hdown : pickDown (roll * weights.sum) weights with
  | some pick => exact pickDown_lt hdown
  | none =>
      have hsome : ∃ i ∈ (List.range weights.length).reverse, decide (0 < weights.getD i 0) = true := by
        by_contra hnone
        push Not at hnone
        have hle := List.sum_le_card_nsmul weights 0 fun weight hweight => ?_
        · rw [smul_zero] at hle
          exact absurd h (not_lt.mpr hle)
        obtain ⟨i, hi, rfl⟩ := List.mem_iff_getElem.mp hweight
        have hle := hnone i (by simpa using hi)
        rw [List.getD_eq_getElem _ _ hi] at hle
        simpa using hle
      obtain ⟨i, hi⟩ := Option.isSome_iff_exists.mp (List.find?_isSome.mpr hsome)
      have hmem := List.mem_of_find?_eq_some hi
      simp only [hi, Option.getD_some]
      simpa using hmem

theorem unitWeightCapped_nonneg {decay : ℚ} (hdecay : 0 ≤ decay) (baseChance qualityWeight : ℚ)
    (copies most : ℕ) : 0 ≤ unitWeightCapped baseChance qualityWeight copies decay most := by
  unfold unitWeightCapped
  split_ifs with hmost hzero
  · exact le_rfl
  · exact le_rfl
  · obtain ⟨hbase, hquality⟩ := not_or.mp hzero
    have hbase := not_le.mp hbase
    have hquality := not_le.mp hquality
    positivity

theorem setWeight_pos (copies : ℕ) : 0 < setWeight copies := by
  unfold setWeight unitWeightCapped duplicateFactor
  norm_num

/-- The items that are asked of `AddItem` between two states. -/
structure Asks (c : Catalogue) (drawn : List LootStoreItem) (st st' : Rolling) : Prop where
  asked : st'.asked = st.asked ++ drawn
  loot : st'.loot = drawn.foldl (Loot.addItem c) st.loot

namespace Asks

variable {c : Catalogue} {st st' st'' : Rolling} {drawn more : List LootStoreItem}

theorem refl (c : Catalogue) (st : Rolling) : Asks c [] st st := ⟨(List.append_nil _).symm, rfl⟩

theorem trans (h : Asks c drawn st st') (h' : Asks c more st' st'') : Asks c (drawn ++ more) st st'' where
  asked := by rw [h'.asked, h.asked, List.append_assoc]
  loot := by rw [h'.loot, h.loot, List.foldl_append]

end Asks

/-- An item is one of a pool, but for its count. -/
def FromPool {α : Type} (item : α → LootStoreItem) (pool : List α) (drawn : LootStoreItem) : Prop :=
  ∃ a ∈ pool, drawn = { item a with count := drawn.count }

/-- The loop draws from its pool, and as often as it is told to as long as some item has a weight. -/
theorem drawLoop_asks {α : Type} (c : Catalogue) (draw : ℕ → Draw) (weight : α → ℕ → ℚ)
    (item : α → LootStoreItem) (pool : List α) (n : ℕ) (st : Rolling) :
    ∃ drawn, Asks c drawn st (drawLoop c draw weight item pool n st) ∧ drawn.length ≤ n ∧
      (∀ d ∈ drawn, FromPool item pool d) ∧
      ((∀ a ∈ pool, ∀ copies, 0 ≤ weight a copies) → (∃ a ∈ pool, ∀ copies, 0 < weight a copies) →
        drawn.length = n) := by
  induction n generalizing st with
  | zero => exact ⟨[], Asks.refl c st, le_rfl, fun _ hd => absurd hd List.not_mem_nil, fun _ _ => rfl⟩
  | succ n ih =>
      rw [drawLoop]
      simp only
      cases hpick : pool[pickWeighted (draw st.rolled).roll
          (pool.map fun a => weight a (st.selected (item a).itemid))]? with
      | none =>
          refine ⟨[], Asks.refl c st, Nat.zero_le _, fun _ hd => absurd hd List.not_mem_nil,
            fun hnonneg hlasting => ?_⟩
          -- A weight that lasts is in the sum, so that something is picked.
          obtain ⟨a, ha, hpos⟩ := hlasting
          have hsum : 0 < (pool.map fun a => weight a (st.selected (item a).itemid)).sum := by
            refine lt_of_lt_of_le (hpos (st.selected (item a).itemid)) (List.single_le_sum ?_ _ ?_)
            · intro w hw
              obtain ⟨b, hb, rfl⟩ := List.mem_map.mp hw
              exact hnonneg b hb _
            · exact List.mem_map.mpr ⟨a, ha, rfl⟩
          have hlt := pickWeighted_lt (draw st.rolled).roll hsum
          rw [List.length_map] at hlt
          exact absurd (List.getElem?_eq_none_iff.mp hpick) (not_le.mpr hlt)
      | some a =>
          obtain ⟨drawn, hasks, hle, hfrom, hfull⟩ := ih
            { loot := st.loot.addItem c { item a with count := (draw st.rolled).count }
              selected := Function.update st.selected (item a).itemid
                (st.selected (item a).itemid + 1)
              rolled := st.rolled + 1
              asked := st.asked ++ [{ item a with count := (draw st.rolled).count }] }
          refine ⟨{ item a with count := (draw st.rolled).count } :: drawn, ?_, Nat.succ_le_succ hle, ?_,
            fun hnonneg hlasting => congrArg Nat.succ (hfull hnonneg hlasting)⟩
          · exact ⟨by rw [hasks.asked, List.append_assoc]; rfl, hasks.loot⟩
          · intro d hd
            rcases List.mem_cons.mp hd with rfl | hd
            · exact ⟨a, List.mem_of_getElem? hpick, rfl⟩
            · exact hfrom d hd

/-! ## The room -/

/-- The items that there is room for are added, in their order. -/
theorem foldl_addItem_items (c : Catalogue) (drawn : List LootStoreItem) (loot : Loot)
    (hquest : ∀ d ∈ drawn, d.needsQuest = false) :
    ∃ added, (drawn.foldl (Loot.addItem c) loot).items = loot.items ++ added ∧
      added.map LootItem.itemid =
        (drawn.take (c.maxNrLootItems - loot.items.length)).map LootStoreItem.itemid := by
  induction drawn generalizing loot with
  | nil => exact ⟨[], (List.append_nil _).symm, by rw [List.take_nil]; rfl⟩
  | cons d rest ih =>
      have hrest : ∀ d ∈ rest, d.needsQuest = false := fun d hd => hquest d (List.mem_cons_of_mem _ hd)
      have hplain : ¬ d.needsQuest = true := by rw [hquest d List.mem_cons_self]; decide
      obtain ⟨added, hitems, hids⟩ := ih (loot.addItem c d) hrest
      rw [List.foldl_cons, hitems]
      by_cases hroom : loot.items.length < c.maxNrLootItems
      · have hadd : (loot.addItem c d).items = loot.items ++ [loot.newItem c d] := by
          rw [Loot.addItem, if_neg hplain, if_pos hroom]
        refine ⟨loot.newItem c d :: added, by rw [hadd, List.append_assoc]; rfl, ?_⟩
        rw [List.map_cons, hids, hadd, List.length_append, List.length_singleton]
        obtain ⟨room, hroom'⟩ : ∃ room, c.maxNrLootItems - loot.items.length = room + 1 :=
          ⟨c.maxNrLootItems - loot.items.length - 1, by omega⟩
        rw [hroom', show c.maxNrLootItems - (loot.items.length + 1) = room by omega,
          List.take_succ_cons, List.map_cons]
        rfl
      · have hadd : loot.addItem c d = loot := by
          rw [Loot.addItem, if_neg hplain, if_neg hroom]
        refine ⟨added, by rw [hadd], ?_⟩
        rw [hids, hadd, show c.maxNrLootItems - loot.items.length = 0 by omega]
        rfl

namespace RaidKill

variable {kill : RaidKill} {c : RaidCatalogue} {loot : Loot}

/-- What stands after some normal items have been taken out. -/
structure TrimmedTo (kill : RaidKill) (c : RaidCatalogue) (loot loot' : Loot) (n : ℕ) : Prop where
  sublist : loot'.items.Sublist loot.items
  stays : loot'.items.filter (fun item => !kill.removable c item) =
    loot.items.filter fun item => !kill.removable c item
  length : loot'.items.length + n = loot.items.length

/-- The loop takes out as many as it is told to, as long as there are some. -/
theorem trimNormal_trimmedTo (kill : RaidKill) (c : RaidCatalogue) (i n : ℕ) (hi : i ≤ loot.items.length) :
    TrimmedTo kill c loot (kill.trimNormal c i n loot)
      (min n ((loot.items.take i).countP (kill.removable c))) := by
  induction i generalizing n loot with
  | zero => exact ⟨List.Sublist.refl _, rfl, by simp [trimNormal]⟩
  | succ i ih =>
      have hlt : i < loot.items.length := hi
      have hat : loot.items[i]?.any (kill.removable c) = kill.removable c loot.items[i] := by
        rw [List.getElem?_eq_getElem hlt]
        rfl
      rw [trimNormal, List.take_succ_eq_append_getElem hlt, List.countP_append, List.countP_singleton, hat]
      by_cases hn : n = 0
      · rw [if_pos hn]
        exact ⟨List.Sublist.refl _, rfl, by rw [hn, Nat.zero_min]; rfl⟩
      rw [if_neg hn]
      by_cases hitem : kill.removable c loot.items[i] = true
      · rw [if_pos hitem, if_pos hitem]
        have hffa : loot.items[i].freeforall = false := by
          unfold removable at hitem
          simp only [Bool.and_eq_true, Bool.not_eq_true'] at hitem
          exact hitem.2
        have htrim : (loot.trim i).items = loot.items.eraseIdx i := by
          rw [Loot.trim, List.getElem?_eq_getElem hlt]
          simp only [hffa]
          rfl
        have hlen : (loot.trim i).items.length + 1 = loot.items.length := by
          rw [htrim, List.length_eraseIdx_of_lt hlt]
          omega
        obtain ⟨hsub, hstays, hlength⟩ := ih (n - 1) (show i ≤ (loot.trim i).items.length by omega)
        refine ⟨hsub.trans (htrim ▸ List.eraseIdx_sublist _ _), ?_, ?_⟩
        · rw [hstays, htrim, List.eraseIdx_eq_take_drop_succ]
          conv => rhs; rw [← List.take_append_drop i loot.items, List.drop_eq_getElem_cons hlt]
          rw [List.filter_append, List.filter_append, List.filter_cons_of_neg (by simp [hitem])]
        · have hbefore : (loot.trim i).items.take i = loot.items.take i := by
            rw [htrim, List.eraseIdx_eq_take_drop_succ,
              List.take_append_of_le_length (by rw [List.length_take]; omega), List.take_take, min_self]
          rw [hbefore] at hlength
          omega
      · rw [if_neg hitem, if_neg hitem]
        exact ih n hlt.le

end RaidKill

/-! ## The pieces of every class -/

/-- When there is a piece for every class that gets some, every one of them has one. -/
theorem firstPieces_eq (extras : List ℕ) (left : ℕ)
    (h : extras.countP (fun extra => decide (extra ≠ 0)) ≤ left) :
    firstPieces extras left =
      (extras.map (min · 1), left - extras.countP fun extra => decide (extra ≠ 0)) := by
  induction extras generalizing left with
  | nil => rfl
  | cons extra rest ih =>
      rw [firstPieces]
      by_cases hextra : extra = 0
      · rw [List.countP_cons_of_neg (by simpa using hextra)] at h ⊢
        rw [if_neg (by simp [hextra]), ih left h]
        simp [hextra]
      · rw [List.countP_cons_of_pos (by simpa using hextra)] at h ⊢
        rw [if_pos ⟨hextra, by omega⟩, ih (left - 1) (by omega)]
        have hone : min extra 1 = 1 := by omega
        rw [List.map_cons, hone]
        simp only [Prod.mk.injEq, true_and]
        omega

/-- The first pieces are one for every class that gets some. -/
theorem sum_map_min_one (extras : List ℕ) :
    (extras.map (min · 1)).sum = extras.countP fun extra => decide (extra ≠ 0) := by
  induction extras with
  | nil => rfl
  | cons extra rest ih =>
      rw [List.map_cons, List.sum_cons, ih]
      by_cases hextra : extra = 0
      · rw [List.countP_cons_of_neg (by simpa using hextra), hextra, Nat.zero_min, Nat.zero_add]
      · rw [List.countP_cons_of_pos (by simpa using hextra), show min extra 1 = 1 by omega, Nat.add_comm]

theorem sum_map_min_one_le (extras : List ℕ) : (extras.map (min · 1)).sum ≤ extras.sum := by
  induction extras with
  | nil => exact le_rfl
  | cons extra rest ih =>
      rw [List.map_cons, List.sum_cons, List.sum_cons]
      exact Nat.add_le_add (min_le_left _ _) ih

/-- Pieces for the classes: none has more than its own, and none that gets some goes without. -/
def Shared (extras given : List ℕ) : Prop :=
  List.Forall₂ (fun extra n => n ≤ extra ∧ min extra 1 ≤ n) extras given

theorem Shared.refl (extras : List ℕ) : Shared extras extras :=
  List.forall₂_same.mpr fun _ _ => ⟨le_rfl, min_le_left _ _⟩

theorem morePieces_spec (extras : List ℕ) (left : ℕ) :
    Shared extras (morePieces extras (extras.map (min · 1)) left) ∧
      (morePieces extras (extras.map (min · 1)) left).sum = (extras.map (min · 1)).sum +
        min left (extras.sum - (extras.map (min · 1)).sum) := by
  induction extras generalizing left with
  | nil => exact ⟨List.Forall₂.nil, by simp [morePieces]⟩
  | cons extra rest ih =>
      obtain ⟨hshared, hsum⟩ := ih (left - min (extra - min extra 1) left)
      have hle := sum_map_min_one_le rest
      rw [List.map_cons, morePieces, List.sum_cons, List.sum_cons, List.sum_cons, hsum]
      exact ⟨List.Forall₂.cons ⟨by omega, by omega⟩ hshared, by omega⟩

namespace RaidKill

variable {kill : RaidKill} {c : RaidCatalogue} {loot : Loot}

/-! ## The candidates -/

/-- An allowed candidate is never for a quest only. -/
theorem needsQuest_of_allowed {candidate : UnitCandidate}
    (h : isUnitLootItemAllowed c candidate = true) : candidate.item.needsQuest = false := by
  unfold isUnitLootItemAllowed at h
  split_ifs at h with hnot
  simp only [not_or, Bool.not_eq_true] at hnot
  exact hnot.2.1

theorem mem_setItemsOf {item : LootStoreItem} (raw : List UnitCandidate) :
    ∀ {seen : List ℕ}, item ∈ kill.setItemsOf c seen raw →
      item.needsQuest = false ∧ kill.category c item.itemid = .set := by
  induction raw with
  | nil => exact fun h => absurd h List.not_mem_nil
  | cons candidate rest ih =>
      intro seen h
      rw [setItemsOf] at h
      split_ifs at h with hskip hset
      · exact ih h
      · rcases List.mem_cons.mp h with rfl | h
        · have hallowed := (not_or.mp hskip).1
          exact ⟨needsQuest_of_allowed (by simpa using hallowed), hset⟩
        · exact ih h
      · exact ih h

/-- What the set pieces and tokens are drawn from. -/
theorem mem_tokenPool {item : LootStoreItem} (h : item ∈ kill.tokenPool c) :
    item.needsQuest = false ∧ kill.category c item.itemid = .set := by
  rcases List.mem_append.mp h with h | h
  · exact mem_setItemsOf _ h
  · unfold mapTokens at h
    split_ifs at h with hmode
    · obtain ⟨id, hid, rfl⟩ := List.mem_map.mp h
      obtain ⟨hid, hproto⟩ := List.mem_filter.mp hid
      obtain ⟨p, hp⟩ := Option.isSome_iff_exists.mp hproto
      refine ⟨rfl, ?_⟩
      show classify kill.profile.setMode kill.tokens (c.proto id) = .set
      have hin : (kill.tokens.any fun ids => ids.contains p.itemId) = true := by
        rw [c.proto_itemId id p hp]
        cases htokens : kill.tokens with
        | none => rw [htokens] at hid; exact absurd hid List.not_mem_nil
        | some ids =>
            rw [htokens] at hid
            exact List.contains_iff_mem.mpr hid
      rw [hp, classify, if_pos ⟨hmode.1, hin⟩]
    · exact absurd h List.not_mem_nil

/-- What the own items are drawn from. -/
theorem mem_ownPool {candidate : UnitCandidate} :
    candidate ∈ kill.ownPool c ↔ candidate ∈ kill.raw ∧ 0 < candidate.baseChance ∧
      isUnitLootItemAllowed c candidate = true ∧
        ∃ p, c.proto candidate.item.itemid = some p ∧ p.isRaidOwnItem = true := by
  rw [ownPool, List.mem_filter, Bool.and_eq_true, Bool.and_eq_true, decide_eq_true_eq, and_assoc,
    Option.any_eq_true]

theorem mem_pieces {cls : ℕ} {item : LootStoreItem} :
    item ∈ kill.pieces c cls ↔ item ∈ kill.setItems c ∧
      ∃ p, c.proto item.itemid = some p ∧ p.allowableClass &&& 1#32 <<< (cls - 1) ≠ 0 := by
  unfold pieces
  simp only [List.mem_append, List.mem_filter]
  constructor
  · intro h
    obtain ⟨⟨hitem, hproto⟩, -⟩ | ⟨⟨hitem, hproto⟩, -⟩ := h <;>
    · obtain ⟨p, hp, hmask⟩ := (Option.any_eq_true _ _).mp hproto
      exact ⟨hitem, p, hp, of_decide_eq_true hmask⟩
  · intro ⟨hitem, p, hp, hmask⟩
    have hproto : ((c.proto item.itemid).any fun p =>
        decide (p.allowableClass &&& 1#32 <<< (cls - 1) ≠ 0)) = true :=
      (Option.any_eq_true _ _).mpr ⟨p, hp, decide_eq_true hmask⟩
    cases hupgrade : kill.isUpgradeOf c cls item with
    | true => exact Or.inl ⟨⟨hitem, hproto⟩, rfl⟩
    | false => exact Or.inr ⟨⟨hitem, hproto⟩, rfl⟩

/-- A class with a member who upgrades has a piece in the table. -/
theorem pieces_ne_nil {need : ClassNeed} (hneed : need ∈ kill.needs c loot) (h : 0 < need.upgraders) :
    kill.pieces c need.classId ≠ [] := by
  obtain ⟨cls, -, rfl⟩ := List.mem_map.mp hneed
  obtain ⟨m, -, hm⟩ := List.countP_pos_iff.mp h
  obtain ⟨hcls, hupgrader⟩ := Bool.and_eq_true_iff.mp hm
  have hcls : m.classId = cls := by simpa using hcls
  obtain ⟨item, hitem, hproto⟩ := List.any_eq_true.mp hupgrader
  obtain ⟨p, hp, hupgrade⟩ := (Option.any_eq_true _ _).mp hproto
  unfold Member.isSetUpgradeFor at hupgrade
  split_ifs at hupgrade with hnot
  have hmask : p.allowableClass &&& classMask cls ≠ 0 := hcls ▸ (not_or.mp hnot).1
  refine List.ne_nil_of_mem (mem_pieces.mpr ⟨hitem, p, hp, ?_⟩)
  unfold classMask at hmask
  split_ifs at hmask with hzero
  · simp at hmask
  · exact hmask

/-! ## The need -/

theorem present_le : kill.present.length ≤ maxRaidSize := by
  unfold present
  cases hgroup : kill.group with
  | none => exact Nat.succ_le_succ (Nat.zero_le 39)
  | some members =>
      exact (List.length_filter_le _ _).trans (kill.group_le members (by rw [hgroup]; rfl))

theorem needs_length_le : (kill.needs c loot).length ≤ maxRaidSize := by
  unfold needs classes
  rw [List.length_map, List.length_insertionSort]
  have hdedup := (List.dedup_sublist (kill.present.map Member.classId)).length_le
  rw [List.length_map] at hdedup
  exact hdedup.trans present_le

theorem fixedPerClass_le (kill : RaidKill) (c : RaidCatalogue) (loot : Loot) (cls : ℕ) :
    kill.fixedPerClass c loot cls ≤ loot.items.length := by
  unfold fixedPerClass
  split_ifs
  · exact Nat.zero_le _
  · exact List.countP_le_length

/-- No class is given more than it can use. -/
theorem allocation_allocateMix {classes : Fin n → ClassNeed} (h : Allocation classes fun _ => 0) (setMax : ℕ) :
    Allocation classes (allocateMix classes setMax) := by
  have hrounds : ∀ remaining members, remaining ≤ u32 (∑ i, if (classes i).Eligible then
      (classes i).upgraders - (classes i).fixedDrops else 0) →
      Allocation classes (if remaining = 0 ∨ members = 0 then fun _ => 0
        else allocateRounds classes remaining fun _ => 0) := by
    intro remaining members hroom
    split
    · exact h
    · refine (allocateRounds_spec _ (hroom.trans_lt (Nat.mod_lt _ (by decide))) h (fun _ _ _ _ => le_rfl)
        (hroom.trans ((Nat.mod_le _ _).trans (Finset.sum_le_sum fun i _ => ?_)))).1
      split
      · exact le_rfl
      · exact Nat.zero_le _
  refine hrounds _ _ ?_
  split
  · exact min_le_right _ _
  · exact Nat.zero_le _

/-- Only a class that needs a piece is given one. -/
theorem needed_of_mixExtra (kill : RaidKill) (hroll : loot.items.length ≤ c.maxNrLootItems) :
    List.Forall₂ (fun need extra => extra ≠ 0 → need.fixedDrops < need.upgraders)
      (kill.needs c loot) (kill.mixExtra c loot) := by
  have hlength : (kill.mixExtra c loot).length = (kill.needs c loot).length := List.length_ofFn
  have hmem : ∀ i, (kill.needs c loot).get i ∈ kill.needs c loot := fun i => List.get_mem _ i
  have hcard : ∀ (f : Fin (kill.needs c loot).length → ℕ), (∀ i, f i ≤ 40) → ∑ i, f i < 2 ^ 32 := by
    intro f hf
    have hsum := Finset.sum_le_card_nsmul Finset.univ f 40 fun i _ => hf i
    have hle : (kill.needs c loot).length ≤ 40 := needs_length_le
    rw [Finset.card_univ, Fintype.card_fin, smul_eq_mul] at hsum
    exact hsum.trans_lt (by omega)
  have hstart : Allocation (kill.needs c loot).get fun _ => 0 :=
    ⟨fun i => by
      obtain ⟨cls, -, hcls⟩ := List.mem_map.mp (hmem i)
      rw [← hcls]
      exact List.countP_mono_left fun m _ hm => (Bool.and_eq_true_iff.mp hm).1,
    hcard _ fun i => by
      obtain ⟨cls, -, hcls⟩ := List.mem_map.mp (hmem i)
      rw [← hcls]
      exact List.countP_le_length.trans present_le,
    hcard _ fun i => by
      obtain ⟨cls, -, hcls⟩ := List.mem_map.mp (hmem i)
      rw [← hcls]
      have hhard : c.maxNrLootItems ≤ 32 := c.maxNrLootItems_le
      have hfixed := fixedPerClass_le kill c loot cls
      show kill.fixedPerClass c loot cls ≤ 40
      omega,
    fun _ => Nat.zero_le _⟩
  have hbounded := (allocation_allocateMix hstart kill.profile.setMax).bounded
  refine List.forall₂_iff_get.mpr ⟨hlength.symm, fun i hi hi' hextra => ?_⟩
  by_contra hneed
  have hextra' : (kill.mixExtra c loot)[i] =
      allocateMix (kill.needs c loot).get kill.profile.setMax ⟨i, hi⟩ :=
    List.getElem_ofFn hi'
  have hle := hbounded ⟨i, hi⟩
  exact hextra (hextra'.trans (Nat.le_zero.mp (hle.trans (Nat.sub_eq_zero_of_le (not_lt.mp hneed)).le)))

theorem countP_le_of_forall₂ {α β : Type} {p : α → Bool} {q : β → Bool} {as : List α} {bs : List β}
    (h : List.Forall₂ (fun a b => q b = true → p a = true) as bs) : bs.countP q ≤ as.countP p := by
  induction h with
  | nil => exact le_rfl
  | cons hab _ ih =>
      rw [List.countP_cons, List.countP_cons]
      refine Nat.add_le_add ih ?_
      split_ifs with hq hp
      · exact le_rfl
      · exact absurd (hab hq) hp
      · exact Nat.zero_le _
      · exact le_rfl

/-- So there are no more of them than the need says. -/
theorem countP_mixExtra_le (kill : RaidKill) (hroll : loot.items.length ≤ c.maxNrLootItems) :
    (kill.mixExtra c loot).countP (fun extra => decide (extra ≠ 0)) ≤
      (kill.needs c loot).countP fun need => decide (need.fixedDrops < need.upgraders) := by
  refine countP_le_of_forall₂ ((needed_of_mixExtra kill hroll).imp fun need extra h => ?_)
  simpa using h

theorem countP_le_sum (extras : List ℕ) :
    extras.countP (fun extra => decide (extra ≠ 0)) ≤ extras.sum :=
  (sum_map_min_one extras).symm.trans_le (sum_map_min_one_le extras)

section Kept

variable (kill c loot)

theorem kept_set : (kill.kept c loot).set = max (min (kill.setNeed c loot) (kill.setPlanned c loot))
    (kill.setPlanned c loot -
      ((kill.counts c loot).total - kill.count c loot .normal - c.maxNrLootItems)) :=
  (trimCounts_spec (kill.counts c loot) c.maxNrLootItems (kill.setNeed c loot)).2.2.1

theorem kept_set_le : (kill.kept c loot).set ≤ kill.setPlanned c loot := by
  rw [kept_set]
  omega

theorem setNeed_le_kept : min (kill.setNeed c loot) (kill.setPlanned c loot) ≤ (kill.kept c loot).set := by
  rw [kept_set]
  omega

end Kept

/-- The pieces of the classes, when as many are given as are kept. -/
theorem perClass_spec (hroll : loot.items.length ≤ c.maxNrLootItems) (hmix : kill.profile.setMode = .mix) :
    Shared (kill.mixExtra c loot) (kill.perClass c loot) ∧
      (kill.perClass c loot).sum = (kill.kept c loot).set := by
  have hplanned : kill.setPlanned c loot = (kill.mixExtra c loot).sum := by
    unfold setPlanned
    rw [hmix]
  have hneed : kill.setNeed c loot =
      (kill.needs c loot).countP fun need => decide (need.fixedDrops < need.upgraders) := by
    unfold setNeed
    rw [hmix]
  have hle := kept_set_le kill c loot
  unfold perClass
  split_ifs with hcut
  · have hneeded : (kill.mixExtra c loot).countP (fun extra => decide (extra ≠ 0)) ≤
        kill.setNeed c loot := (countP_mixExtra_le kill hroll).trans_eq hneed.symm
    have hsum := countP_le_sum (kill.mixExtra c loot)
    have hkept := setNeed_le_kept kill c loot
    have henough : (kill.mixExtra c loot).countP (fun extra => decide (extra ≠ 0)) ≤
        (kill.kept c loot).set := by omega
    rw [firstPieces_eq _ _ henough]
    obtain ⟨hshared, hmore⟩ := morePieces_spec (kill.mixExtra c loot)
      ((kill.kept c loot).set - (kill.mixExtra c loot).countP fun extra => decide (extra ≠ 0))
    refine ⟨hshared, hmore.trans ?_⟩
    rw [sum_map_min_one]
    omega
  · exact ⟨Shared.refl _, by omega⟩

/-! ## The additions -/

/-- The loop over the classes adds as many as they are given. -/
theorem addPieces_asks (needs : List ClassNeed) {given : List ℕ} (st : Rolling)
    (h : List.Forall₂ (fun need n => 0 < n → kill.pieces c need.classId ≠ []) needs given) :
    ∃ drawn, Asks c.toCatalogue drawn st (kill.addPieces c (needs.zip given) st) ∧
      drawn.length = given.sum ∧ (∀ d ∈ drawn, FromPool id (kill.setItems c) d) ∧
      ∀ need n, (need, n) ∈ needs.zip given → 0 < n →
        ∃ d ∈ drawn, FromPool id (kill.pieces c need.classId) d := by
  induction h generalizing st with
  | nil =>
      exact ⟨[], Asks.refl _ st, rfl, fun _ hd => absurd hd List.not_mem_nil,
        fun _ _ hmem => absurd hmem List.not_mem_nil⟩
  | @cons need n needs given hne _ ih =>
      rw [List.zip_cons_cons, addPieces]
      obtain ⟨drawn, hasks, hle, hfrom, hfull⟩ := drawLoop_asks c.toCatalogue kill.draw
        (fun _ => setWeight) id (kill.pieces c need.classId) n st
      have hlength : drawn.length = n := by
        rcases Nat.eq_zero_or_pos n with hn | hn
        · omega
        · obtain ⟨item, hitem⟩ := List.exists_mem_of_ne_nil _ (hne hn)
          exact hfull (fun _ _ copies => (setWeight_pos copies).le) ⟨item, hitem, setWeight_pos⟩
      obtain ⟨more, hmore, hsum, hset, hpieces⟩ := ih
        (drawLoop c.toCatalogue kill.draw (fun _ => setWeight) id (kill.pieces c need.classId) n st)
      refine ⟨drawn ++ more, hasks.trans hmore, ?_, ?_, ?_⟩
      · rw [List.length_append, List.sum_cons, hlength, hsum]
      · intro d hd
        rcases List.mem_append.mp hd with hd | hd
        · obtain ⟨item, hitem, heq⟩ := hfrom d hd
          exact ⟨item, (mem_pieces.mp hitem).1, heq⟩
        · exact hset d hd
      · intro need' n' hmem hpos
        rcases List.mem_cons.mp hmem with heq | hmem
        · obtain ⟨rfl, rfl⟩ := Prod.mk.inj heq
          obtain ⟨d, hd⟩ := List.exists_mem_of_length_pos (hlength ▸ hpos)
          exact ⟨d, List.mem_append_left _ hd, hfrom d hd⟩
        · obtain ⟨d, hd, hpool⟩ := hpieces need' n' hmem hpos
          exact ⟨d, List.mem_append_right _ hd, hpool⟩

/-- Where a class is given pieces, it has some in the table. -/
theorem pieces_of_given (hroll : loot.items.length ≤ c.maxNrLootItems)
    (hmix : kill.profile.setMode = .mix) :
    List.Forall₂ (fun need n => 0 < n → kill.pieces c need.classId ≠ [])
      (kill.needs c loot) (kill.perClass c loot) := by
  obtain ⟨hneeds, hneeded⟩ := List.forall₂_iff_get.mp (needed_of_mixExtra kill hroll)
  obtain ⟨hlength, hshared⟩ := List.forall₂_iff_get.mp (perClass_spec hroll hmix).1
  refine List.forall₂_iff_get.mpr ⟨hneeds.trans hlength, fun i hi hi' hpos => ?_⟩
  have hextra := hshared i (hlength ▸ hi') hi'
  have hneed := hneeded i hi (hlength ▸ hi') (by omega)
  exact pieces_ne_nil (List.get_mem _ _) (by omega)

/-- A candidate that lasts: it can be drawn again, whatever has been selected. -/
def Lasting (kill : RaidKill) (c : RaidCatalogue) (candidate : UnitCandidate) : Prop :=
  ∃ p, c.proto candidate.item.itemid = some p ∧ p.maxCopies = 0 ∧
    0 < kill.qualityWeight (qualityIndex p.quality)

/-- What is drawn: the set pieces or tokens first, and then own items. -/
structure Draws (kill : RaidKill) (c : RaidCatalogue) (loot : Loot) (pieces own : List LootStoreItem) :
    Prop where
  asks : Asks c.toCatalogue (pieces ++ own) (kill.start c loot) (kill.processRules c loot)
  pieces_set : ∀ d ∈ pieces, d.needsQuest = false ∧ kill.category c d.itemid = .set
  pieces_le : pieces.length ≤ (kill.kept c loot).set
  pieces_eq : (kill.profile.setMode = .tokens → kill.tokenPool c ≠ []) →
    pieces.length = (kill.kept c loot).set
  own_from : ∀ d ∈ own, FromPool UnitCandidate.item (kill.ownPool c) d
  own_le : own.length ≤ kill.ownToAdd c loot
  own_eq : (∃ candidate ∈ kill.ownPool c, kill.Lasting c candidate) → own.length = kill.ownToAdd c loot
  every_class : kill.profile.setMode = .mix → ∀ need extra,
    (need, extra) ∈ (kill.needs c loot).zip (kill.mixExtra c loot) → 0 < extra →
      ∃ d ∈ pieces, FromPool id (kill.pieces c need.classId) d

theorem ownWeight_nonneg (candidate : UnitCandidate) (copies : ℕ) :
    0 ≤ kill.ownWeight c candidate copies := by
  unfold ownWeight
  cases c.proto candidate.item.itemid with
  | none => exact le_rfl
  | some p => exact unitWeightCapped_nonneg (by unfold duplicateFactor; norm_num) _ _ _ _

/-- The weight of a candidate that lasts never comes to an end. -/
theorem Lasting.ownWeight_pos {candidate : UnitCandidate} (h : kill.Lasting c candidate)
    (hbase : 0 < candidate.baseChance) (copies : ℕ) : 0 < kill.ownWeight c candidate copies := by
  obtain ⟨p, hp, hcopies, hquality⟩ := h
  unfold ownWeight
  rw [hp]
  show 0 < unitWeightCapped candidate.baseChance (kill.qualityWeight (qualityIndex p.quality)) copies
    duplicateFactor p.maxCopies
  rw [unitWeightCapped, hcopies, if_neg (by simp), if_neg (by
    rintro (hnot | hnot)
    · exact absurd hbase (not_lt.mpr hnot)
    · exact absurd hquality (not_lt.mpr hnot))]
  have hfactor : 0 < duplicateFactor ^ copies := pow_pos (by unfold duplicateFactor; norm_num) _
  positivity

theorem kept_set_none (c : RaidCatalogue) (loot : Loot) (hmode : kill.profile.setMode = .none) : (kill.kept c loot).set = 0 := by
  have hle := kept_set_le kill c loot
  have hplanned : kill.setPlanned c loot = 0 := by
    unfold setPlanned
    rw [hmode]
  omega

/-- The set pieces or tokens that are drawn. -/
theorem addSet_asks (kill : RaidKill) (hroll : loot.items.length ≤ c.maxNrLootItems) (st : Rolling) :
    ∃ pieces, Asks c.toCatalogue pieces st (kill.addSet c loot st) ∧
      (∀ d ∈ pieces, FromPool id (kill.tokenPool c) d) ∧
      pieces.length ≤ (kill.kept c loot).set ∧
      ((kill.profile.setMode = .tokens → kill.tokenPool c ≠ []) →
        pieces.length = (kill.kept c loot).set) ∧
      (kill.profile.setMode = .mix → ∀ need extra,
        (need, extra) ∈ (kill.needs c loot).zip (kill.mixExtra c loot) → 0 < extra →
          ∃ d ∈ pieces, FromPool id (kill.pieces c need.classId) d) := by
  unfold addSet
  cases hmode : kill.profile.setMode with
  | none =>
      have hzero := kept_set_none c loot hmode
      exact ⟨[], Asks.refl _ st, fun _ hd => absurd hd List.not_mem_nil, Nat.zero_le _,
        fun _ => hzero.symm, fun h => by cases h⟩
  | tokens =>
      obtain ⟨pieces, hasks, hle, hfrom, hfull⟩ := drawLoop_asks c.toCatalogue kill.draw
        (fun _ => setWeight) id (kill.tokenPool c) (kill.kept c loot).set st
      refine ⟨pieces, hasks, hfrom, hle, fun hpool => ?_, fun h => by cases h⟩
      obtain ⟨item, hitem⟩ := List.exists_mem_of_ne_nil _ (hpool rfl)
      exact hfull (fun _ _ copies => (setWeight_pos copies).le) ⟨item, hitem, setWeight_pos⟩
  | mix =>
      obtain ⟨hshared, hsum⟩ := perClass_spec hroll hmode
      obtain ⟨pieces, hasks, hlength, hset, hpieces⟩ :=
        addPieces_asks (kill.needs c loot) st (pieces_of_given hroll hmode)
      refine ⟨pieces, hasks, fun d hd => ?_, (hlength.trans hsum).le, fun _ => hlength.trans hsum,
        fun _ need extra hmem hextra => ?_⟩
      · obtain ⟨item, hitem, heq⟩ := hset d hd
        exact ⟨item, List.mem_append_left _ hitem, heq⟩
      · obtain ⟨hlen, hgiven⟩ := List.forall₂_iff_get.mp hshared
        obtain ⟨i, hi, heq⟩ := List.mem_iff_getElem.mp hmem
        rw [List.length_zip] at hi
        rw [List.getElem_zip] at heq
        obtain ⟨rfl, rfl⟩ := Prod.mk.inj heq
        have hi' : i < (kill.perClass c loot).length := by omega
        have hpos := (hgiven i (by omega) hi').2
        refine hpieces _ ((kill.perClass c loot)[i]) ?_ ?_
        · exact List.mem_iff_getElem.mpr ⟨i, by rw [List.length_zip]; omega, List.getElem_zip⟩
        · simp only [List.get_eq_getElem] at hpos
          omega

theorem processRules_draws (kill : RaidKill) (hroll : loot.items.length ≤ c.maxNrLootItems) :
    ∃ pieces own, Draws kill c loot pieces own := by
  obtain ⟨pieces, hasks, hfrom, hle, heq, hevery⟩ :=
    addSet_asks kill hroll (kill.start c loot)
  obtain ⟨own, hown, hownle, hownfrom, hfull⟩ := drawLoop_asks c.toCatalogue kill.draw (kill.ownWeight c)
    UnitCandidate.item (kill.ownPool c) (kill.ownToAdd c loot) (kill.addSet c loot (kill.start c loot))
  refine ⟨pieces, own, hasks.trans hown, fun d hd => ?_, hle, heq, hownfrom, hownle, fun hlasting => ?_,
    hevery⟩
  · obtain ⟨item, hitem, hd⟩ := hfrom d hd
    have hset := mem_tokenPool hitem
    rw [hd]
    exact hset
  · obtain ⟨candidate, hcandidate, hlasts⟩ := hlasting
    have hbase : 0 < candidate.baseChance := (mem_ownPool.mp hcandidate).2.1
    exact hfull (fun a _ copies => ownWeight_nonneg a copies)
      ⟨candidate, hcandidate, hlasts.ownWeight_pos hbase⟩

/-! ## The plan and the loot -/

section Counting

variable (kill c loot)

/-- The normal items that Trim counts and the loot cannot lose. -/
def normalFfa : ℕ :=
  loot.items.countP fun item => decide (kill.category c item.itemid = .normal) && item.freeforall

/-- There is room for the plan: without any cut of the set pieces and own items, or with none of the normal
items free-for-all and with room for what Trim does not go below. -/
def Room : Prop :=
  kill.count c loot .mandatory + kill.count c loot .set + kill.ownTarget c loot +
      kill.setPlanned c loot + kill.normalFfa c loot ≤ c.maxNrLootItems ∨
    kill.normalFfa c loot = 0 ∧ kill.count c loot .mandatory + kill.count c loot .set +
      max (kill.count c loot .own) (min kill.profile.ownMin (kill.ownTarget c loot)) +
      min (kill.setNeed c loot) (kill.setPlanned c loot) ≤ c.maxNrLootItems

instance instDecidableRoom : Decidable (kill.Room c loot) := inferInstanceAs (Decidable (_ ∨ _))

/-- `AddItem` refuses nothing that is drawn. -/
def NoneRefused : Prop :=
  (kill.processRules c loot).loot.items.map LootItem.itemid =
    (kill.trimmed c loot).items.map LootItem.itemid ++
      (kill.processRules c loot).asked.map LootStoreItem.itemid

instance instDecidableNoneRefused : Decidable (kill.NoneRefused c loot) :=
  inferInstanceAs (Decidable (_ = _))

/-- The candidate lists are not empty, and some own item is never drawn up. -/
def Candidates : Prop :=
  (kill.profile.setMode = .tokens → kill.tokenPool c ≠ []) ∧
    ∃ candidate ∈ kill.ownPool c, kill.Lasting c candidate

/-- No token of the raid is an own item. -/
def TokensApart : Prop :=
  kill.profile.setMode = .tokens → ∀ ids ∈ kill.tokens, ∀ id ∈ ids, ∀ p ∈ c.proto id,
    p.isRaidOwnItem = false

theorem length_eq_counts : loot.items.length = kill.count c loot .mandatory + kill.count c loot .set +
    kill.count c loot .own + kill.count c loot .normal := by
  unfold count
  induction loot.items with
  | nil => rfl
  | cons item rest ih =>
      simp only [List.countP_cons, List.length_cons, ih]
      cases kill.category c item.itemid <;> simp <;> omega

theorem count_normal : kill.count c loot .normal =
    loot.items.countP (kill.removable c) + kill.normalFfa c loot := by
  unfold count normalFfa removable
  induction loot.items with
  | nil => rfl
  | cons item rest ih =>
      simp only [List.countP_cons, ih]
      cases item.freeforall <;> simp <;> omega

theorem count_eq_ids (cat : LootCategory) : kill.count c loot cat =
    (loot.items.map LootItem.itemid).countP fun id => decide (kill.category c id = cat) := by
  rw [List.countP_map]
  rfl

theorem trimmed_trimmedTo : TrimmedTo kill c loot (kill.trimmed c loot)
    (min (kill.count c loot .normal - (kill.kept c loot).normal)
      (loot.items.countP (kill.removable c))) := by
  have htrimmed := trimNormal_trimmedTo kill c loot.items.length
    ((kill.counts c loot).normal - (kill.kept c loot).normal) (le_refl loot.items.length)
  rw [List.take_length] at htrimmed
  exact htrimmed

/-- Only normal items are taken out. -/
theorem count_trimmed {cat : LootCategory} (hcat : cat ≠ .normal) :
    kill.count c (kill.trimmed c loot) cat = kill.count c loot cat := by
  have hstays := (trimmed_trimmedTo kill c loot).stays
  have hfilter : ∀ items : List LootItem,
      items.countP (fun item => decide (kill.category c item.itemid = cat)) =
        (items.filter fun item => !kill.removable c item).countP fun item =>
          decide (kill.category c item.itemid = cat) := by
    intro items
    rw [List.countP_filter]
    refine List.countP_congr fun item _ => ?_
    have hnormal : kill.category c item.itemid = cat → ¬ kill.category c item.itemid = .normal :=
      fun h h' => hcat (h.symm.trans h')
    unfold removable
    simp only [Bool.and_eq_true, Bool.not_eq_true', decide_eq_true_eq, Bool.and_eq_false_iff,
      decide_eq_false_iff_not]
    exact ⟨fun h => ⟨h, Or.inl (hnormal h)⟩, And.left⟩
  unfold count
  rw [hfilter, hstays, ← hfilter]

/-- A plan of set pieces has a need. -/
theorem setNeed_pos (hroll : loot.items.length ≤ c.maxNrLootItems)
    (hpool : kill.profile.setMode = .tokens → kill.tokenPool c ≠ []) (h : 0 < kill.setPlanned c loot) :
    0 < kill.setNeed c loot := by
  unfold setNeed
  cases hmode : kill.profile.setMode with
  | none =>
      unfold setPlanned at h
      rw [hmode] at h
      exact h
  | tokens =>
      have hsome := List.length_pos_iff.mpr (hpool hmode)
      unfold tokenPool at hsome
      rw [List.length_append] at hsome
      refine lt_min h ?_
      split_ifs with hitems
      · rw [hitems] at hsome
        simpa using hsome
      · exact List.length_pos_iff.mpr hitems
  | mix =>
      unfold setPlanned at h
      rw [hmode] at h
      refine lt_of_lt_of_le (List.countP_pos_iff.mpr ?_) (countP_mixExtra_le kill hroll)
      by_contra hnone
      push Not at hnone
      have hzero : (kill.mixExtra c loot).sum = 0 :=
        List.sum_eq_zero fun extra hextra => by simpa using hnone extra hextra
      exact absurd h (by rw [hzero]; exact lt_irrefl 0)

end Counting

section Arithmetic

variable {limit mandatory fixedSet rolled normal ffa removable least target planned need : ℕ}

theorem room_of_counts {keptMin keptNormal keptSet keptExtra left length : ℕ} (hroll : length ≤ limit)
    (htotal : length = mandatory + fixedSet + rolled + normal) (hnormal : normal = removable + ffa)
    (hown : rolled ≤ target) (hmin : keptMin = min least target)
    (hkept : keptNormal = normal - (mandatory + fixedSet + min least target + planned +
      (target - min least target) + normal - limit))
    (hset : keptSet = max (min need planned) (planned - (mandatory + fixedSet + min least target + planned +
      (target - min least target) + normal - normal - limit)))
    (hextra : keptExtra = (target - min least target) -
      (mandatory + fixedSet + min least target + keptSet + (target - min least target) - limit))
    (hlength : left + min (normal - keptNormal) removable = length) :
    ((mandatory + fixedSet + target + planned + ffa ≤ limit ∨
        ffa = 0 ∧ mandatory + fixedSet + max rolled (min least target) + min need planned ≤ limit) →
      left + (keptSet + (keptMin + keptExtra - rolled)) ≤ limit) ∧
    ((0 < planned → 0 < need) → left + (keptSet + (keptMin + keptExtra - rolled)) ≤ limit →
      (mandatory + fixedSet + target + planned + ffa ≤ limit ∨
        ffa = 0 ∧ mandatory + fixedSet + max rolled (min least target) + min need planned ≤ limit)) := by
  have hleast : min least target ≤ target := min_le_right _ _
  have hmost : min need planned ≤ planned := min_le_right _ _
  have hfloor : (0 < planned → 0 < need) → 0 < planned → 0 < min need planned :=
    fun hneed hpos => lt_min (hneed hpos) hpos
  -- what is left is arithmetic over the two minima
  generalize min least target = least' at *
  generalize min need planned = floor at *
  obtain ⟨more, rfl⟩ := Nat.exists_eq_add_of_le hleast
  rw [Nat.add_sub_cancel_left] at hkept hset hextra
  subst hmin
  by_cases hbase : mandatory + fixedSet + (keptMin + more) + planned ≤ limit
  · -- Only normal items are cut.
    have hset : keptSet = planned := by omega
    have hextra : keptExtra = more := by omega
    subst hset hextra
    clear hmost
    constructor <;> omega
  by_cases hcut : mandatory + fixedSet + (keptMin + more) + floor ≤ limit
  · -- The set pieces are cut, but not down to the need.
    have hnormal' : keptNormal = 0 := by omega
    have hset : keptSet + (mandatory + fixedSet + (keptMin + more)) = limit := by omega
    have hextra : keptExtra = more := by omega
    subst hnormal' hextra
    clear hkept
    constructor <;> omega
  · -- The set pieces are cut down to the need, and own items too.
    have hnormal' : keptNormal = 0 := by omega
    have hset' : keptSet = floor := by omega
    subst hnormal' hset'
    clear hkept hset
    constructor <;> omega

end Arithmetic

/-- The plan and what is left of the loot, against the limit. -/
theorem room_iff (kill : RaidKill) (hroll : loot.items.length ≤ c.maxNrLootItems) :
    (kill.Room c loot → (kill.trimmed c loot).items.length +
      ((kill.kept c loot).set + kill.ownToAdd c loot) ≤ c.maxNrLootItems) ∧
    ((0 < kill.setPlanned c loot → 0 < kill.setNeed c loot) →
      (kill.trimmed c loot).items.length +
        ((kill.kept c loot).set + kill.ownToAdd c loot) ≤ c.maxNrLootItems → kill.Room c loot) := by
  have hlength := (trimmed_trimmedTo kill c loot).length
  have htotal := length_eq_counts kill c loot
  have hnormal := count_normal kill c loot
  have hown : kill.count c loot .own ≤ kill.ownTarget c loot := le_max_right _ _
  obtain ⟨hmin, hkept, hset, hextra⟩ :=
    trimCounts_spec (kill.counts c loot) c.maxNrLootItems (kill.setNeed c loot)
  unfold LootCounts.total at hkept hset
  exact room_of_counts hroll htotal hnormal hown hmin hkept hset hextra hlength

/-- What the draws leave: the items that there is room for come after those that stay. -/
theorem Draws.items {pieces own : List LootStoreItem} (h : Draws kill c loot pieces own) :
    ∃ added, (kill.processRules c loot).loot.items = (kill.trimmed c loot).items ++ added ∧
      (kill.processRules c loot).asked = pieces ++ own ∧
      added.map LootItem.itemid = ((pieces ++ own).take
        (c.maxNrLootItems - (kill.trimmed c loot).items.length)).map LootStoreItem.itemid := by
  have hquest : ∀ d ∈ pieces ++ own, d.needsQuest = false := by
    intro d hd
    rcases List.mem_append.mp hd with hd | hd
    · exact (h.pieces_set d hd).1
    · obtain ⟨candidate, hcandidate, heq⟩ := h.own_from d hd
      have hneeds := needsQuest_of_allowed (mem_ownPool.mp hcandidate).2.2.1
      rw [heq]
      exact hneeds
  obtain ⟨added, hitems, hids⟩ :=
    foldl_addItem_items c.toCatalogue (pieces ++ own) (kill.trimmed c loot) hquest
  refine ⟨added, ?_, h.asks.asked.trans (List.nil_append _), hids⟩
  rw [h.asks.loot]
  exact hitems

/-- Nothing is refused when there is room for all that is drawn. -/
theorem Draws.noneRefused_iff {pieces own : List LootStoreItem} (h : Draws kill c loot pieces own)
    (hroll : loot.items.length ≤ c.maxNrLootItems) :
    kill.NoneRefused c loot ↔
      (kill.trimmed c loot).items.length + (pieces.length + own.length) ≤ c.maxNrLootItems := by
  obtain ⟨added, hitems, hasked, hids⟩ := h.items
  have hle := (trimmed_trimmedTo kill c loot).sublist.length_le
  unfold NoneRefused
  rw [hitems, hasked, List.map_append, List.append_cancel_left_eq, hids]
  constructor
  · intro heq
    have hlength := congrArg List.length heq
    rw [List.length_map, List.length_map, List.length_take, List.length_append] at hlength
    omega
  · intro hroom
    rw [List.take_of_length_le (by rw [List.length_append]; omega)]

/-- An own item is no set piece. -/
theorem Draws.own_ne_set {pieces own : List LootStoreItem} (h : Draws kill c loot pieces own)
    (hapart : kill.TokensApart c) {d : LootStoreItem} (hd : d ∈ own) :
    kill.category c d.itemid ≠ .set := by
  obtain ⟨candidate, hcandidate, heq⟩ := h.own_from d hd
  obtain ⟨-, -, -, p, hp, hown⟩ := mem_ownPool.mp hcandidate
  have hid : d.itemid = candidate.item.itemid := by rw [heq]
  have hset : p.itemSet = 0 := by
    unfold ItemPrototype.isRaidOwnItem ItemPrototype.isFunserverNormalRaidLoot at hown
    simp only [Bool.and_eq_true, beq_iff_eq] at hown
    exact hown.2.1
  unfold category
  rw [hid, hp, classify]
  split_ifs with htoken hmandatory hepic hmix
  · -- A token that is an own item.
    obtain ⟨hmode, hany⟩ := htoken
    obtain ⟨ids, hids, hcontains⟩ := (Option.any_eq_true _ _).mp hany
    rw [c.proto_itemId _ p hp] at hcontains
    have hnot := hapart hmode ids hids _ (List.contains_iff_mem.mp hcontains) p hp
    rw [hown] at hnot
    cases hnot
  · exact fun h => by cases h
  · exact fun h => by cases h
  · exact absurd hset hmix.2
  · exact fun h => by cases h

/-- No mandatory, set or own item is removed. The draws add all that is kept of the plan as long as the
candidates last, and `AddItem` refuses none of it when and only when there is room for it. Then the set
pieces kept are in the loot, and one of them at least for every class that is given some. -/
theorem processRules_realised (kill : RaidKill) (c : RaidCatalogue) (loot : Loot)
    (hroll : loot.items.length ≤ c.maxNrLootItems) :
    (loot.items.filter fun item => !kill.removable c item).Sublist
        (kill.processRules c loot).loot.items ∧
    (kill.Room c loot → kill.NoneRefused c loot) ∧
    (kill.Candidates c → (kill.processRules c loot).asked.length =
        (kill.kept c loot).set + kill.ownToAdd c loot ∧ (kill.NoneRefused c loot ↔ kill.Room c loot)) ∧
    (kill.Room c loot → (kill.profile.setMode = .tokens → kill.tokenPool c ≠ []) → kill.TokensApart c →
      kill.count c (kill.processRules c loot).loot .set = kill.count c loot .set + (kill.kept c loot).set) ∧
    (kill.Room c loot → kill.profile.setMode = .mix → ∀ need extra,
      (need, extra) ∈ (kill.needs c loot).zip (kill.mixExtra c loot) → 0 < extra →
        ∃ item ∈ (kill.processRules c loot).loot.items.drop (kill.trimmed c loot).items.length,
          kill.category c item.itemid = .set ∧
            ∃ p, c.proto item.itemid = some p ∧ p.allowableClass &&& 1#32 <<< (need.classId - 1) ≠ 0) := by
  obtain ⟨pieces, own, hdraws⟩ := processRules_draws kill hroll
  obtain ⟨added, hitems, hasked, hids⟩ := hdraws.items
  obtain ⟨hfits, hfits'⟩ := room_iff kill hroll
  have hpieces := hdraws.pieces_le
  have hown := hdraws.own_le
  -- with room for all, nothing that was drawn is refused
  have hadded : kill.Room c loot → added.map LootItem.itemid =
      (pieces ++ own).map LootStoreItem.itemid := by
    intro hroom
    have hle := hfits hroom
    rw [hids, List.take_of_length_le (by rw [List.length_append]; omega)]
  refine ⟨?_, fun hroom => ?_, fun hcandidates => ?_, fun hroom hpool hapart => ?_,
    fun hroom hmix need extra hmem hextra => ?_⟩
  · rw [hitems, ← (trimmed_trimmedTo kill c loot).stays]
    exact List.filter_sublist.trans (List.sublist_append_left _ _)
  · have hle := hfits hroom
    exact (hdraws.noneRefused_iff hroll).mpr (by omega)
  · obtain ⟨hpool, hlasting⟩ := hcandidates
    have hpieces := hdraws.pieces_eq hpool
    have hown := hdraws.own_eq hlasting
    refine ⟨by rw [hasked, List.length_append, hpieces, hown], ?_⟩
    rw [hdraws.noneRefused_iff hroll, hpieces, hown]
    exact ⟨hfits' (setNeed_pos kill c loot hroll hpool), hfits⟩
  · rw [count_eq_ids, hitems, List.map_append, List.countP_append, hadded hroom, List.map_append,
      List.countP_append, ← count_eq_ids, count_trimmed kill c loot (by decide)]
    -- every piece drawn is a set piece, and no own item is
    have hset : (pieces.map LootStoreItem.itemid).countP (fun id => decide (kill.category c id = .set)) =
        (kill.kept c loot).set := by
      rw [List.countP_map]
      exact (List.countP_eq_length.mpr fun d hd => decide_eq_true (hdraws.pieces_set d hd).2).trans
        (hdraws.pieces_eq hpool)
    have hnone : (own.map LootStoreItem.itemid).countP (fun id => decide (kill.category c id = .set)) = 0 := by
      rw [List.countP_map]
      exact List.countP_eq_zero.mpr fun d hd => by simpa using hdraws.own_ne_set hapart hd
    rw [hset, hnone, Nat.add_zero]
  · obtain ⟨d, hd, piece, hpiece, heq⟩ := hdraws.every_class hmix need extra hmem hextra
    have hid : d.itemid ∈ added.map LootItem.itemid := by
      rw [hadded hroom]
      exact List.mem_map_of_mem (List.mem_append_left _ hd)
    obtain ⟨item, hitem, hitemid⟩ := List.mem_map.mp hid
    obtain ⟨-, p, hp, hmask⟩ := mem_pieces.mp hpiece
    have hsame : d.itemid = piece.itemid := by rw [heq]; rfl
    refine ⟨item, by rw [hitems, List.drop_left]; exact hitem, ?_, p, ?_, hmask⟩
    · rw [hitemid]
      exact (hdraws.pieces_set d hd).2
    · rw [hitemid, hsame]
      exact hp

end RaidKill

/-! ## A loot that is full -/

/-- A token, an epic breastplate, and set pieces for warriors and for mages. -/
def someProto : ℕ → Option ItemPrototype
  | 1 => some ⟨1, 15, 4, 0, 60, 0, 0, 0, false, 0, 0⟩
  | 2 => some ⟨2, 4, 4, 0, 60, 0, 0, 0, false, 0, 0⟩
  | 3 => some ⟨3, 4, 4, 209, 66, 0, 0, 0, false, 1, 255⟩
  | 4 => some ⟨4, 4, 4, 210, 66, 0, 0, 0, false, 128, 255⟩
  | _ => none

theorem sixteen_le_hard : 16 ≤ maxNrLootItemsHard := by decide

def someRaid : RaidCatalogue where
  known := fun id => (someProto id).isSome
  partyLoot := fun _ => false
  maxNrLootItems := 16
  maxNrLootItems_le := sixteen_le_hard
  proto := someProto
  proto_isSome := fun _ => rfl
  proto_itemId := by
    intro id p h
    unfold someProto at h
    split at h <;> cases h <;> rfl

/-- A mage with nothing in the slot of any item. -/
def someMage : Member := ⟨8, 1, true, true, fun _ => some 4, fun _ => none⟩

/-- A warrior who has no use for any item. -/
def someWarrior : Member := ⟨1, 1, true, true, fun _ => none, fun _ => none⟩

/-- They kill a boss, in a raid of this profile. No extra item is rolled, and the first entry is drawn. -/
def someKill (profile : RaidProfile) (set : ℕ) : RaidKill where
  profile := profile
  tokens := some [1]
  raw := [⟨⟨set, 0, 1, false⟩, 10, 1, true⟩, ⟨⟨2, 0, 1, false⟩, 10, 1, true⟩]
  lootOwner := someMage
  group := some [someMage, someWarrior]
  qualityWeight := fun _ => 1
  tokenRoll := fun _ => 1
  ownRoll := fun _ => 1
  draw := fun _ => ⟨0, 1⟩
  group_le := by
    intro members hmembers
    cases hmembers
    decide

/-- A loot with so many of one item. -/
def someLoot (n id : ℕ) : Loot :=
  { Loot.empty 0 with
    items := List.replicate n ⟨0, id, 0, 1, false, false, false, false, false, false, 0⟩ }

/-- The profiles T35 and T2. -/
def profileT35 : RaidProfile := ⟨.tokens, 0, 1, 3, 2, 6⟩

def profileT2 : RaidProfile := ⟨.mix, 12, 0, 0, 4, 10⟩

/-- Trim keeps a token and cuts own items that have been rolled. They stay, and the token is refused. And
where fixed drops for other classes use up `SetMax`, a class in the need gets no piece. -/
theorem plan_not_realised :
    ((someLoot 16 2).items.length = someRaid.maxNrLootItems ∧
      (someKill profileT35 1).tokenPool someRaid ≠ [] ∧ (someKill profileT35 1).ownPool someRaid ≠ [] ∧
      ((someKill profileT35 1).kept someRaid (someLoot 16 2)).set = 1 ∧
      ((someKill profileT35 1).processRules someRaid (someLoot 16 2)).asked.length = 1 ∧
      ((someKill profileT35 1).processRules someRaid (someLoot 16 2)).loot.items = (someLoot 16 2).items ∧
      (someKill profileT35 1).count someRaid
        ((someKill profileT35 1).processRules someRaid (someLoot 16 2)).loot .set = 0) ∧
    ((someKill profileT2 4).setNeed someRaid (someLoot 12 3) = 1 ∧
      (someKill profileT2 4).pieces someRaid 8 ≠ [] ∧
      4 ∉ ((someKill profileT2 4).processRules someRaid (someLoot 12 3)).loot.items.map
        LootItem.itemid) := by
  decide +kernel

/-- With an empty loot the mage gets his piece. -/
theorem processRules_realised_mage :
    (someKill profileT2 4).count someRaid
        ((someKill profileT2 4).processRules someRaid (someLoot 0 3)).loot .set = 0 + 1 ∧
      (someKill profileT2 4).NoneRefused someRaid (someLoot 0 3) ∧
      ((someKill profileT2 4).processRules someRaid (someLoot 0 3)).asked.length = 1 + 4 := by
  obtain ⟨-, -, hall, hset, -⟩ := RaidKill.processRules_realised (someKill profileT2 4) someRaid
    (someLoot 0 3) (by decide)
  have hroom : (someKill profileT2 4).Room someRaid (someLoot 0 3) := by decide +kernel
  have hcandidates : (someKill profileT2 4).Candidates someRaid := by
    refine ⟨fun h => (by cases h), ⟨⟨2, 0, 1, false⟩, 10, 1, true⟩, List.mem_filter.mpr ⟨?_, ?_⟩,
      ⟨2, 4, 4, 0, 60, 0, 0, 0, false, 0, 0⟩, rfl, rfl, zero_lt_one⟩
    · exact List.mem_cons_of_mem _ List.mem_cons_self
    · decide +kernel
  have hkept : ((someKill profileT2 4).kept someRaid (someLoot 0 3)).set = 1 := by decide +kernel
  have hown : (someKill profileT2 4).ownToAdd someRaid (someLoot 0 3) = 4 := by decide +kernel
  obtain ⟨hasked, hiff⟩ := hall hcandidates
  rw [hkept, hown] at hasked
  refine ⟨?_, hiff.mpr hroom, hasked⟩
  rw [hset hroom hcandidates.1 fun h => (by cases h), hkept]
  rfl

end TwowCore.Looting
