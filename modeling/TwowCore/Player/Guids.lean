import TwowCore.Player.Store

/-!
# Item guids through a search anywhere

A search for room anywhere plans only positions that `GetItemByPos` shows, so what is stored there
covers nothing. `Carries` says that the items of a player have guids of their own, below the guid
counter and apart from a set of guids that are taken elsewhere. Carrying out a plan keeps it: the
clones get guids from the counter, and the item itself, if it lands anywhere, keeps its own.
-/

namespace TwowCore

namespace Player

variable {T : ItemTable} {p : Player T} {proto : ItemPrototype} {src : Option (SrcItem T)}

/-- The positions of a plan show what lies there. -/
def ShowsAll (p : Player T) (dest : List ItemPosCount) : Prop :=
  ∀ chosen ∈ dest, p.getItemByPos chosen.pos = p.items chosen.pos

/-- The loop of the searches plans only shown positions. -/
theorem showsAll_planSlots {merge : Bool} {positions : List ItemPos}
    (hshown : ∀ pos ∈ positions, p.getItemByPos pos = p.items pos) {plan : Plan}
    (hplan : p.ShowsAll plan.dest) :
    p.ShowsAll (p.planSlots proto merge src positions plan).dest := by
  induction positions generalizing plan with
  | nil => exact hplan
  | cons pos rest ih =>
      have hrest : ∀ pos ∈ rest, p.getItemByPos pos = p.items pos := fun other hother =>
        hshown other (List.mem_cons_of_mem _ hother)
      have hpush : ∀ room, p.ShowsAll (plan.push pos room).dest := by
        intro room chosen hchosen
        rcases List.mem_append.mp hchosen with hold | hnew
        · exact hplan chosen hold
        · rw [List.mem_singleton.mp hnew]
          exact hshown pos List.mem_cons_self
      unfold planSlots
      split
      · exact ih hrest hplan
      · split
        · exact ih hrest hplan
        · split
          · exact hpush _
          · exact ih hrest (hpush _)

/-- The slots of a carried bag are shown. -/
theorem shown_of_bagPositions {bag : UInt8} (hbag : bag ∈ inventoryBags) {pos : ItemPos}
    (h : pos ∈ p.bagPositions bag) : p.getItemByPos pos = p.items pos := by
  have hslot : isBagSlot bag = true ∧ bag ≠ inventorySlotBag0 := by
    simp only [inventoryBags, List.mem_cons, List.not_mem_nil, or_false] at hbag
    rcases hbag with rfl | rfl | rfl | rfl <;> decide
  obtain ⟨hbagSlot, hne⟩ := hslot
  unfold bagPositions at h
  split at h
  · next item hitem =>
    obtain ⟨slot, hmem, rfl⟩ := List.mem_map.mp h
    have hlt : slot.toUInt8.toUInt32 < item.bagSize := by
      rw [UInt32.lt_iff_toNat_lt, UInt8.toNat_toUInt32]
      show (UInt8.ofNat slot).toNat < _
      rw [UInt8.toNat_ofNat']
      exact Nat.lt_of_le_of_lt (Nat.mod_le _ _) (List.mem_range.mp hmem)
    unfold getItemByPos
    rw [if_neg fun hdirect => hne hdirect.1, if_pos hbagSlot, items_of_getItemByPos hitem]
    exact if_pos hlt
  · cases h

/-- The slots before those of the bank's bags, and those of the keyring, are read. -/
theorem isDirectSlot_of_slotRange {first last : UInt8}
    (hrange : last.toNat ≤ 69 ∨ 81 ≤ first.toNat ∧ last.toNat ≤ 113) {pos : ItemPos}
    (h : pos ∈ slotRange inventorySlotBag0 first last) : isDirectSlot pos.slot = true := by
  obtain ⟨slot, hmem, rfl⟩ := List.mem_map.mp h
  rw [List.mem_range'_1] at hmem
  show isDirectSlot (UInt8.ofNat slot) = true
  simp only [isDirectSlot, bankSlotBagEnd, keyringSlotStart, keyringSlotEnd, Bool.or_eq_true,
    Bool.and_eq_true, decide_eq_true_eq, UInt8.lt_iff_toNat_lt, UInt8.le_iff_toNat_le,
    UInt8.toNat_ofNat', UInt8.reduceToNat]
  omega

/-- A search that plans only shown positions. -/
def Shows (p : Player T) (stage : Stage) : Prop :=
  ∀ plan plan', p.ShowsAll plan.dest → stage.search plan = .ok plan' → p.ShowsAll plan'.dest

/-- A search through slots of `m_items` that are read. -/
theorem shows_inSlots {first last : UInt8}
    (hrange : last.toNat ≤ 69 ∨ 81 ≤ first.toNat ∧ last.toNat ≤ 113)
    (bag slot : UInt8) (merge : Bool) :
    p.Shows ((⟨p, proto, src, bag, slot⟩ : Request T).inSlots first last merge) := by
  intro plan plan' hplan hsearch
  simp only [Request.inSlots, canStoreItemInInventorySlots] at hsearch
  split at hsearch
  · cases hsearch
  · cases hsearch
    refine showsAll_planSlots (fun pos hpos => ?_) hplan
    have hmem := List.mem_of_mem_filter hpos
    have hread := isDirectSlot_of_slotRange hrange hmem
    obtain ⟨inner, -, rfl⟩ := List.mem_map.mp hmem
    exact getItemByPos_direct p hread

/-- The searches through the carried bags. -/
theorem shows_inBags (bag slot : UInt8) (merge nonSpecialized : Bool) :
    ∀ stage ∈ (⟨p, proto, src, bag, slot⟩ : Request T).inBags merge nonSpecialized,
      p.Shows stage := by
  intro stage hstage plan plan' hplan hsearch
  obtain ⟨carried, hcarried, rfl⟩ := List.mem_map.mp hstage
  have hsearch : p.canStoreItemInBag carried proto merge nonSpecialized src bag slot plan =
    .ok plan' := hsearch
  rcases canStoreItemInBag_cases p proto src carried merge nonSpecialized bag slot plan with
    ⟨res, -, herror⟩ | hok
  · rw [herror] at hsearch
    cases hsearch
  · rw [hok] at hsearch
    cases hsearch
    exact showsAll_planSlots
      (fun pos hpos => shown_of_bagPositions hcarried (List.mem_of_mem_filter hpos)) hplan

/-- A check between two searches. -/
theorem shows_guardStage (refuse : Bool) (res : InventoryResult) :
    p.Shows (guardStage refuse res) := by
  intro plan plan' hplan hsearch
  simp only [guardStage] at hsearch
  split at hsearch
  · cases hsearch
  · cases hsearch
    exact hplan

/-- The searches for room anywhere plan only shown positions. -/
theorem shows_stages : ∀ stage ∈ (⟨p, proto, src, nullBag, nullSlot⟩ : Request T).stages false,
    p.Shows stage := by
  have hkeyring : ∀ merge, p.Shows ((⟨p, proto, src, nullBag, nullSlot⟩ : Request T).inSlots
      keyringSlotStart keyringSlotEnd merge) := shows_inSlots (by decide) _ _
  have hbackpack : ∀ merge, p.Shows ((⟨p, proto, src, nullBag, nullSlot⟩ : Request T).inSlots
      inventorySlotItemStart inventorySlotItemEnd merge) := shows_inSlots (by decide) _ _
  have hbags : ∀ merge nonSpecialized, ∀ stage ∈
      (⟨p, proto, src, nullBag, nullSlot⟩ : Request T).inBags merge nonSpecialized,
      p.Shows stage := shows_inBags _ _
  have hguard : p.Shows (guardStage (movesNonEmptyBag src) .nonemptyBagOverOtherBag) :=
    shows_guardStage _ _
  intro stage hstage
  simp only [Request.stages, List.mem_append] at hstage
  rcases hstage with ((hstage | hstage) | hstage) | hstage
  · unfold Request.specificSlotStages at hstage
    simp at hstage
  · unfold Request.specificBagStages at hstage
    simp at hstage
  · unfold Request.mergeStages at hstage
    split_ifs at hstage <;>
      simp only [List.mem_append, List.mem_cons, List.not_mem_nil, or_false] at hstage <;>
      grind
  · unfold Request.freeStages at hstage
    split_ifs at hstage <;>
      simp only [List.mem_append, List.mem_cons, List.not_mem_nil, or_false, false_or] at hstage <;>
      grind

/-- Searches that plan only shown positions end with a plan of shown positions. -/
theorem showsAll_runStages {noSimilarCount : UInt32} {stages : List Stage}
    (hstages : ∀ stage ∈ stages, p.Shows stage) {plan : Plan} (hplan : p.ShowsAll plan.dest) :
    p.ShowsAll (runStages noSimilarCount stages plan).dest := by
  induction stages generalizing plan with
  | nil => exact hplan
  | cons stage rest ih =>
      have hrest : ∀ stage ∈ rest, p.Shows stage := fun other hother =>
        hstages other (List.mem_cons_of_mem _ hother)
      unfold runStages
      split
      · split
        · exact hplan
        · exact ih hrest hplan
        · exact hplan
      · next plan' hsearch =>
        have hplan' := hstages stage List.mem_cons_self plan plan' hplan hsearch
        split
        · unfold allPlaced
          split <;> exact hplan'
        · exact ih hrest hplan'

/-- `CanStoreItem` with no bag and no slot asked for plans only shown positions. -/
theorem canStoreItemAt_shows (entry count : UInt32) :
    p.ShowsAll (p.canStoreItemAt nullBag nullSlot entry count src false).dest := by
  have hnil : ∀ count, p.ShowsAll (⟨[], count⟩ : Plan).dest := fun _ chosen hchosen =>
    absurd hchosen List.not_mem_nil
  unfold canStoreItemAt
  split
  · exact hnil 0
  · dsimp only
    split
    · exact hnil 0
    · split
      · exact hnil 0
      · split
        · exact showsAll_runStages shows_stages (hnil _)
        · split
          · exact hnil 0
          · exact showsAll_runStages shows_stages (hnil _)

/-- The items of a player have guids of their own, none that is taken elsewhere, and all below the
counter. -/
structure Carries (p : Player T) (taken : UInt32 → Prop) : Prop where
  unique : ∀ pos pos' item item', p.items pos = some item → p.items pos' = some item' →
    item.guid = item'.guid → pos = pos'
  apart : ∀ pos item, p.items pos = some item → ¬taken item.guid
  below : ∀ pos item, p.items pos = some item → item.guid < p.nextItemGuid

variable {taken : UInt32 → Prop} {item : Item T} {chosen : ItemPosCount}

/-- Another item of the same guid is written over an item. -/
theorem Carries.setSame (h : p.Carries taken) {pos : ItemPos} {old new : Item T}
    (hold : p.items pos = some old) (hguid : new.guid = old.guid) :
    (p.setItem pos (some new)).Carries taken := by
  -- every item afterwards has the guid of an item that was at its position before
  have hwas : ∀ other found, (p.setItem pos (some new)).items other = some found →
      ∃ before, p.items other = some before ∧ before.guid = found.guid := by
    intro other found hfound
    rw [setItem_items] at hfound
    by_cases hother : other = pos
    · subst hother
      rw [Function.update_self] at hfound
      cases hfound
      exact ⟨old, hold, hguid.symm⟩
    · rw [Function.update_of_ne hother] at hfound
      exact ⟨found, hfound, rfl⟩
  refine ⟨fun pos pos' left right hleft hright hsame => ?_, fun pos found hfound => ?_,
    fun pos found hfound => ?_⟩
  · obtain ⟨wasLeft, hwasLeft, hguidLeft⟩ := hwas pos left hleft
    obtain ⟨wasRight, hwasRight, hguidRight⟩ := hwas pos' right hright
    exact h.unique pos pos' _ _ hwasLeft hwasRight (hguidLeft.trans (hsame.trans hguidRight.symm))
  · obtain ⟨was, hitem, hsame⟩ := hwas pos found hfound
    exact hsame ▸ h.apart pos was hitem
  · obtain ⟨was, hitem, hsame⟩ := hwas pos found hfound
    exact hsame ▸ h.below pos was hitem

/-- An item whose guid nobody has is put where nothing lies. -/
theorem Carries.setNew (h : p.Carries taken) {pos : ItemPos} (hnone : p.items pos = none)
    {new : Item T} {next : UInt32} {taken' : UInt32 → Prop}
    (hfresh : ∀ pos item, p.items pos = some item → item.guid ≠ new.guid)
    (hapart : ¬taken' new.guid) (htaken : ∀ guid, taken' guid → taken guid)
    (hbelow : new.guid < next) (hnext : p.nextItemGuid ≤ next) :
    ((p.setItem pos (some new)).setNextItemGuid next).Carries taken' := by
  have hwas : ∀ other found, (p.setItem pos (some new)).items other = some found →
      other = pos ∧ found = new ∨ other ≠ pos ∧ p.items other = some found := by
    intro other found hfound
    rw [setItem_items] at hfound
    by_cases hother : other = pos
    · subst hother
      rw [Function.update_self] at hfound
      cases hfound
      exact Or.inl ⟨rfl, rfl⟩
    · rw [Function.update_of_ne hother] at hfound
      exact Or.inr ⟨hother, hfound⟩
  refine ⟨fun pos pos' left right hleft hright hsame => ?_, fun pos found hfound => ?_,
    fun pos found hfound => ?_⟩
  · rcases hwas pos left hleft with ⟨rfl, rfl⟩ | ⟨hne, hold⟩
    · rcases hwas pos' right hright with ⟨rfl, rfl⟩ | ⟨-, hold'⟩
      · rfl
      · exact absurd hsame.symm (hfresh pos' right hold')
    · rcases hwas pos' right hright with ⟨rfl, rfl⟩ | ⟨-, hold'⟩
      · exact absurd hsame (hfresh pos left hold)
      · exact h.unique pos pos' _ _ hold hold' hsame
  · rcases hwas pos found hfound with ⟨-, rfl⟩ | ⟨-, hold⟩
    · exact hapart
    · exact fun htrue => h.apart pos found hold (htaken _ htrue)
  · rcases hwas pos found hfound with ⟨-, rfl⟩ | ⟨-, hold⟩
    · exact hbelow
    · exact UInt32.lt_of_lt_of_le (h.below pos found hold) hnext

/-- The guid of what lies at a position after a share was stored: that of the stack it was merged
into, or of the clone, or of the item itself. -/
theorem storeItemAt_guid (hshown : p.getItemByPos chosen.pos = p.items chosen.pos) (clone : Bool)
    {stored : Item T} (hstored : (p.storeItemAt chosen.pos item chosen.count.toUInt32
      clone).1.items chosen.pos = some stored) :
    (∃ old, p.items chosen.pos = some old ∧ stored.guid = old.guid ∧
        (p.storeItemAt chosen.pos item chosen.count.toUInt32 clone).1.nextItemGuid =
          p.nextItemGuid) ∨
      p.items chosen.pos = none ∧
        stored.guid = (if clone then p.nextItemGuid else item.guid) ∧
        (p.storeItemAt chosen.pos item chosen.count.toUInt32 clone).1.nextItemGuid =
          if clone then p.nextItemGuid + 1 else p.nextItemGuid := by
  unfold storeItemAt at hstored ⊢
  cases hitem : p.getItemByPos chosen.pos with
  | some old =>
      rw [hitem] at hstored
      simp only [setItem_items, Function.update_self] at hstored
      cases hstored
      exact Or.inl ⟨old, hshown ▸ hitem, rfl, rfl⟩
  | none =>
      have hnone : p.items chosen.pos = none := hshown ▸ hitem
      rw [hitem] at hstored
      dsimp only at hstored ⊢
      split at hstored
      · rw [hnone] at hstored
        cases hstored
      · next made hmade =>
        have hguid : made.guid = if clone then p.nextItemGuid else item.guid := by
          cases clone with
          | true => exact (Item.cloneItem_some hmade).2.2.1
          | false =>
              cases hmade
              rfl
        refine Or.inr ⟨hnone, ?_⟩
        split at hstored
        · next hbag =>
          simp only [setNextItemGuid_items, setItem_items, Function.update_self] at hstored
          cases hstored
          rw [if_pos hbag]
          exact ⟨hguid, rfl⟩
        · next hbag =>
          rw [if_neg hbag]
          split at hstored
          · simp only [setNextItemGuid_items, setItem_items, Function.update_self] at hstored
            cases hstored
            exact ⟨hguid, rfl⟩
          · rw [hnone] at hstored
            cases hstored

/-- Carrying out a plan of shown positions: the clones and the item itself get guids of their
own. -/
theorem Carries.storeItem {dest : List ItemPosCount} (hnonempty : dest ≠ [])
    (hnodup : (dest.map ItemPosCount.pos).Nodup)
    (hready : ∀ chosen ∈ dest, p.Ready item.proto chosen) (hshown : p.ShowsAll dest)
    (h : p.Carries fun guid => taken guid ∨ guid = item.guid)
    (htaken : ∀ guid, taken guid → guid < p.nextItemGuid) (hfree : ¬taken item.guid)
    (hitem : item.guid < p.nextItemGuid) (hroom : p.nextItemGuid.toNat + dest.length < 2 ^ 32) :
    (p.storeItem dest item).1.Carries taken ∧
      p.nextItemGuid ≤ (p.storeItem dest item).1.nextItemGuid := by
  induction dest generalizing p with
  | nil => exact absurd rfl hnonempty
  | cons next rest ih =>
      have hhere := hshown next List.mem_cons_self
      obtain ⟨stored, counter, hstore, hproto, -⟩ :=
        storeItemAt_spec (hready next List.mem_cons_self) rest.isEmpty.not
      have hstored : (p.storeItemAt next.pos item next.count.toUInt32
          rest.isEmpty.not).1.items next.pos = some stored := by
        rw [hstore]
        exact Function.update_self ..
      have hguid := storeItemAt_guid hhere rest.isEmpty.not hstored
      rw [hstore] at hguid
      replace hguid : (∃ old, p.items next.pos = some old ∧ stored.guid = old.guid ∧
            counter = p.nextItemGuid) ∨
          p.items next.pos = none ∧
            stored.guid = (if rest.isEmpty.not then p.nextItemGuid else item.guid) ∧
            counter = if rest.isEmpty.not then p.nextItemGuid + 1 else p.nextItemGuid := hguid
      cases rest with
      | nil =>
          rw [show p.storeItem [next] item =
              p.storeItemAt next.pos item next.count.toUInt32 false from rfl]
          rw [show (List.isEmpty ([] : List ItemPosCount)).not = false from rfl] at hstore hguid
          rw [hstore]
          have hrelax : p.Carries taken :=
            ⟨h.unique, fun pos found hfound htrue => h.apart pos found hfound (Or.inl htrue), h.below⟩
          rcases hguid with ⟨old, hold, hsame, rfl⟩ | ⟨hnone, hsame, rfl⟩
          · exact ⟨hrelax.setSame hold hsame, UInt32.le_refl _⟩
          · rw [if_neg Bool.false_ne_true] at hsame
            refine ⟨hrelax.setNew hnone (fun pos found hfound heq => ?_) (hsame ▸ hfree)
              (fun _ htrue => htrue) (hsame ▸ hitem) (UInt32.le_refl _), UInt32.le_refl _⟩
            exact h.apart pos found hfound (Or.inr (heq.trans hsame))
      | cons second rest =>
          rw [show (List.isEmpty (second :: rest)).not = true from rfl] at hstore hguid
          rw [show p.storeItem (next :: second :: rest) item =
              (p.storeItemAt next.pos item next.count.toUInt32 true).1.storeItem
                (second :: rest) item from rfl, hstore]
          rw [List.map_cons, List.nodup_cons] at hnodup
          have hsameProto := ((hready next List.mem_cons_self).bound item.listed).2
          have hne : ∀ chosen ∈ second :: rest, chosen.pos ≠ next.pos := by
            intro chosen hchosen heq
            exact hnodup.1 (List.mem_map.mpr ⟨chosen, hchosen, heq⟩)
          have hready' : ∀ chosen ∈ second :: rest,
              ((p.setItem next.pos (some stored)).setNextItemGuid counter).Ready item.proto chosen :=
            fun chosen hchosen => (hready chosen (List.mem_cons_of_mem _ hchosen)).of_store
              (hne chosen hchosen) hproto hsameProto
          have hshown' : ((p.setItem next.pos (some stored)).setNextItemGuid counter).ShowsAll
              (second :: rest) := by
            intro chosen hchosen
            rw [(hready chosen (List.mem_cons_of_mem _ hchosen)).getItemByPos_of_store
                (hne chosen hchosen) hproto hsameProto,
              hshown chosen (List.mem_cons_of_mem _ hchosen), setNextItemGuid_items, setItem_items,
              Function.update_of_ne (hne chosen hchosen)]
          have hcounter : p.nextItemGuid ≤ counter ∧
              counter.toNat ≤ p.nextItemGuid.toNat + 1 ∧
              ((p.setItem next.pos (some stored)).setNextItemGuid counter).Carries
                fun guid => taken guid ∨ guid = item.guid := by
            rcases hguid with ⟨old, hold, hsame, rfl⟩ | ⟨hnone, hsame, hcounter⟩
            · exact ⟨UInt32.le_refl _, Nat.le_succ _, h.setSame hold hsame⟩
            · -- the clone has the guid the counter stood at
              rw [if_pos rfl] at hsame hcounter
              have hnext : counter.toNat = p.nextItemGuid.toNat + 1 := by
                rw [hcounter, UInt32.toNat_add]
                simp only [List.length_cons] at hroom
                exact Nat.mod_eq_of_lt (by simp only [UInt32.reduceToNat]; omega)
              have hle : p.nextItemGuid ≤ counter := by
                rw [UInt32.le_iff_toNat_le]
                omega
              have hbelow : stored.guid < counter := by
                rw [hsame, UInt32.lt_iff_toNat_lt]
                omega
              refine ⟨hle, by omega, h.setNew hnone (fun pos found hfound heq => ?_) ?_
                (fun _ htrue => htrue) hbelow hle⟩
              · have hlt := h.below pos found hfound
                rw [heq, hsame] at hlt
                exact UInt32.lt_irrefl _ hlt
              · rw [hsame]
                rintro (htrue | heq)
                · exact UInt32.lt_irrefl _ (htaken _ htrue)
                · rw [← heq] at hitem
                  exact UInt32.lt_irrefl _ hitem
          obtain ⟨hle, hle', hcarries⟩ := hcounter
          obtain ⟨hend, hend'⟩ := ih (by simp) hnodup.2 hready' hshown' hcarries
            (fun guid htrue => UInt32.lt_of_lt_of_le (htaken guid htrue) hle)
            (UInt32.lt_of_lt_of_le hitem hle)
            (by
              show counter.toNat + _ < _
              simp only [List.length_cons] at hroom ⊢
              omega)
          exact ⟨hend, UInt32.le_trans hle hend'⟩

/-- Carrying out a plan keeps every stack within its bounds. -/
theorem Bounded.storeItem (h : p.Bounded) {dest : List ItemPosCount} (hnonempty : dest ≠ [])
    (hnodup : (dest.map ItemPosCount.pos).Nodup)
    (hready : ∀ chosen ∈ dest, p.Ready item.proto chosen) : (p.storeItem dest item).1.Bounded := by
  obtain ⟨hstored, hframe, -⟩ := storeItem_spec hnonempty hnodup hready
  intro pos found hfound
  by_cases hpos : pos ∈ dest.map ItemPosCount.pos
  · obtain ⟨chosen, hchosen, rfl⟩ := List.mem_map.mp hpos
    obtain ⟨stored, hstoredAt, hproto, hunits⟩ := hstored chosen hchosen
    have hpositive := (hready chosen hchosen).positive
    have hbound := ((hready chosen hchosen).bound item.listed).1
    rw [hstoredAt] at hfound
    cases hfound
    unfold Item.Holds Item.getMaxStackCount
    rw [UInt32.le_iff_toNat_le, UInt32.le_iff_toNat_le, hproto]
    simp only [UInt32.reduceToNat, ItemPrototype.getMaxStackSize]
    omega
  · rw [hframe pos hpos] at hfound
    exact h pos found hfound

/-- `MoveItemToInventory` of a plan of shown positions: the player owns the planned units more, and
the guids stay in order. -/
theorem moveItemToInventory_spec {dest : List ItemPosCount} (hnonempty : dest ≠ [])
    (hnodup : (dest.map ItemPosCount.pos).Nodup)
    (hready : ∀ chosen ∈ dest, p.Ready item.proto chosen) (hshown : p.ShowsAll dest)
    (h : p.Carries fun guid => taken guid ∨ guid = item.guid)
    (htaken : ∀ guid, taken guid → guid < p.nextItemGuid) (hfree : ¬taken item.guid)
    (hitem : item.guid < p.nextItemGuid) (hroom : p.nextItemGuid.toNat + dest.length < 2 ^ 32)
    (hbounded : p.Bounded) :
    (p.moveItemToInventory dest item).guid = p.guid ∧
      (p.moveItemToInventory dest item).money = p.money ∧
      (∀ entry, (p.moveItemToInventory dest item).units entry =
        p.units entry + if item.entry = entry then planned dest else 0) ∧
      (p.moveItemToInventory dest item).Bounded ∧
      (p.moveItemToInventory dest item).Carries taken ∧
      p.nextItemGuid ≤ (p.moveItemToInventory dest item).nextItemGuid := by
  obtain ⟨-, -, hguid, hmoney, hunits, -⟩ := storeItem_spec hnonempty hnodup hready
  obtain ⟨hcarries, hnext⟩ :=
    Carries.storeItem hnonempty hnodup hready hshown h htaken hfree hitem hroom
  have hstored := hbounded.storeItem hnonempty hnodup hready
  have hbefore := And.intro hguid (And.intro hmoney (And.intro (hunits hshown)
    (And.intro hstored (And.intro hcarries hnext))))
  unfold moveItemToInventory
  dsimp only
  split
  · exact hbefore
  · next pos hpos =>
    split
    · next lastItem hlast =>
      split
      · -- only the owner of the item that was moved is written
        refine ⟨hguid, hmoney, fun entry => ?_, ?_, hcarries.setSame hlast rfl, hnext⟩
        · have hwrite := (p.storeItem dest item).1.units_setItem pos
            (some (lastItem.setOwnerGuid p.guid)) entry
          have hsame : unitsOf entry (some (lastItem.setOwnerGuid p.guid)) =
              unitsOf entry (some lastItem) := rfl
          rw [hlast, hsame] at hwrite
          rw [← hunits hshown entry]
          omega
        · exact hstored.setItem pos _ (hstored pos lastItem hlast)
      · exact hbefore
    · exact hbefore

end Player

end TwowCore
