import TwowCore.Player.Accounting
import TwowCore.Player.Swap
import TwowCore.Player.Guids

/-!
# Storing what has been planned

An accepted request is carried out once the item is out of its slot: every position of the plan is free
and takes items of the family, or holds a stack that has room. A stack that is there already is not asked
for the family of its bag, except by the search through a bag. In a swap what lies in the slot asked for is
taken out first.
-/

namespace TwowCore

namespace Player

variable {T : ItemTable} {p : Player T} {proto : ItemPrototype} {src : Option (SrcItem T)}

/-- The source is where it says, and nothing lies in it unless it says so. -/
structure In (source : SrcItem T) (p : Player T) : Prop where
  shown : ∀ pos, source.pos = some pos → p.getItemByPos pos = some source.item
  empty : (source.item.isBag && source.nonEmptyBag) = false → ∀ pos, source.pos = some pos →
    pos.bag = inventorySlotBag0 → p.EmptyBag pos.slot

/-- The inventory without the source. -/
def without (p : Player T) (src : Option (SrcItem T)) : Player T :=
  match src.bind SrcItem.pos with
  | some pos => p.takeOut pos
  | none => p

/-- Items of the family may lie at the position: on the keyring keys only, in a bag what goes into it. -/
def Accepts (p : Player T) (proto : ItemPrototype) (pos : ItemPos) : Prop :=
  if pos.bag = inventorySlotBag0 then
    keyringSlotStart ≤ pos.slot → pos.slot < keyringSlotEnd →
      proto.bagFamily = ItemPrototype.bagFamilyKeys
  else ∃ bag, p.getItemByPos ⟨inventorySlotBag0, pos.bag⟩ = some bag ∧
    proto.canGoIntoBag bag.proto = true

/-- A position that is not in the source, and takes the item if it is free. -/
structure Suits (p : Player T) (proto : ItemPrototype) (src : Option (SrcItem T)) (pos : ItemPos) :
    Prop where
  hosted : pos.bag ≠ inventorySlotBag0 →
    ∃ bag, p.otherItemByPos src ⟨inventorySlotBag0, pos.bag⟩ = some bag
  accepts : p.otherItemByPos src pos = none → p.Accepts proto pos

/-- The positions of a plan suit. -/
def SuitsAll (p : Player T) (proto : ItemPrototype) (src : Option (SrcItem T))
    (dest : List ItemPosCount) : Prop :=
  ∀ chosen ∈ dest, p.Suits proto src chosen.pos

theorem getItemByPos_of_other {pos : ItemPos} {item : Item T}
    (h : p.otherItemByPos src pos = some item) : p.getItemByPos pos = some item := by
  unfold otherItemByPos at h
  split at h
  · cases h
  · exact h

section Searches

/-- A search that plans only suitable positions. -/
def Places (p : Player T) (proto : ItemPrototype) (src : Option (SrcItem T)) (stage : Stage) : Prop :=
  ∀ plan plan', p.SuitsAll proto src plan.dest → stage.search plan = .ok plan' →
    p.SuitsAll proto src plan'.dest

theorem SuitsAll.push {plan : Plan} (h : p.SuitsAll proto src plan.dest) {pos : ItemPos}
    (hpos : p.Suits proto src pos) (room : UInt32) :
    p.SuitsAll proto src (plan.push pos room).dest := by
  intro chosen hchosen
  rcases List.mem_append.mp hchosen with hold | hnew
  · exact h chosen hold
  · rw [List.mem_singleton.mp hnew]
    exact hpos

theorem SuitsAll.planSlots {merge : Bool} {positions : List ItemPos}
    (hsuits : ∀ pos ∈ positions, (p.slotRoom proto merge src pos).isSome → p.Suits proto src pos)
    {plan : Plan} (hplan : p.SuitsAll proto src plan.dest) :
    p.SuitsAll proto src (p.planSlots proto merge src positions plan).dest := by
  induction positions generalizing plan with
  | nil => exact hplan
  | cons pos rest ih =>
      have hrest : ∀ other ∈ rest, (p.slotRoom proto merge src other).isSome →
          p.Suits proto src other := fun other hother => hsuits other (List.mem_cons_of_mem _ hother)
      unfold Player.planSlots
      cases hroom : p.slotRoom proto merge src pos with
      | none => exact ih hrest hplan
      | some room =>
          have hpush := hplan.push (hsuits pos List.mem_cons_self (by rw [hroom]; rfl)) room
          dsimp only
          split_ifs
          · exact ih hrest hplan
          · exact hpush
          · exact ih hrest hpush

/-- A search for stacks to merge with finds no free slot. -/
theorem other_of_merge {pos : ItemPos} (h : (p.slotRoom proto true src pos).isSome) :
    p.otherItemByPos src pos ≠ none := by
  intro hnone
  unfold slotRoom at h
  rw [hnone] at h
  cases h

theorem places_inSlots {first last : UInt8} {merge : Bool}
    (h : merge = true ∨ proto.bagFamily = ItemPrototype.bagFamilyKeys ∨ last ≤ keyringSlotStart)
    (bag slot : UInt8) :
    p.Places proto src ((⟨p, proto, src, bag, slot⟩ : Request T).inSlots first last merge) := by
  intro plan plan' hplan hsearch
  simp only [Request.inSlots, canStoreItemInInventorySlots] at hsearch
  split at hsearch
  · cases hsearch
  · cases hsearch
    refine hplan.planSlots fun pos hpos hroom => ?_
    obtain ⟨inner, hinner, rfl⟩ := List.mem_map.mp (List.mem_of_mem_filter hpos)
    refine ⟨fun hne => absurd rfl hne, fun hfree => ?_⟩
    unfold Accepts
    rw [if_pos rfl]
    intro hkeyring _
    rcases h with rfl | hkey | hlast
    · exact absurd hfree (other_of_merge hroom)
    · exact hkey
    · -- the range ends before the keyring
      rw [List.mem_range'_1] at hinner
      rw [UInt8.le_iff_toNat_le] at hlast hkeyring
      have hslot : keyringSlotStart.toNat ≤ (UInt8.ofNat inner).toNat := hkeyring
      rw [UInt8.toNat_ofNat'] at hslot
      have hmod := Nat.mod_le inner (2 ^ 8)
      omega

theorem suits_inBag {bag : UInt8} {merge nonSpecialized : Bool} {skipBag skipSlot : UInt8}
    {plan plan' : Plan} (hplan : p.SuitsAll proto src plan.dest)
    (hsearch : p.canStoreItemInBag bag proto merge nonSpecialized src skipBag skipSlot plan =
      .ok plan') : p.SuitsAll proto src plan'.dest := by
  unfold canStoreItemInBag at hsearch
  split at hsearch
  · cases hsearch
  · cases hbag : p.otherItemByPos src ⟨inventorySlotBag0, bag⟩ with
    | none =>
        rw [hbag] at hsearch
        cases hsearch
    | some pBag =>
        rw [hbag] at hsearch
        dsimp only at hsearch
        split_ifs at hsearch with hmoves hkind hfamily
        cases hsearch
        refine hplan.planSlots fun pos hpos _ => ?_
        have hin := List.mem_of_mem_filter hpos
        have hpos : pos.bag = bag := by
          unfold bagPositions at hin
          split at hin
          · obtain ⟨slot, -, rfl⟩ := List.mem_map.mp hin
            rfl
          · cases hin
        refine ⟨fun _ => ⟨pBag, hpos ▸ hbag⟩, fun _ => ?_⟩
        unfold Accepts
        split_ifs with hdirect
        · -- there is no bag in a slot of that number
          intro _ _
          rw [← hpos, hdirect] at hbag
          have hshown := isDirectSlot_of_shown (getItemByPos_of_other hbag)
          exact absurd hshown (by decide)
        · exact ⟨pBag, hpos ▸ getItemByPos_of_other hbag, by simpa using hfamily⟩

theorem places_inBags (bag slot : UInt8) (merge nonSpecialized : Bool) :
    ∀ stage ∈ (⟨p, proto, src, bag, slot⟩ : Request T).inBags merge nonSpecialized,
      p.Places proto src stage := by
  intro stage hstage plan plan' hplan hsearch
  obtain ⟨carried, -, rfl⟩ := List.mem_map.mp hstage
  exact suits_inBag hplan hsearch

theorem places_inSpecificBag (bag slot : UInt8) (merge : Bool) :
    p.Places proto src ((⟨p, proto, src, bag, slot⟩ : Request T).inSpecificBag merge) := by
  intro plan plan' hplan hsearch
  simp only [Request.inSpecificBag] at hsearch
  split at hsearch
  · rename_i special hspecial
    cases hsearch
    exact suits_inBag hplan hspecial
  · exact suits_inBag hplan hsearch

theorem places_guardStage (refuse : Bool) (res : InventoryResult) :
    p.Places proto src (guardStage refuse res) := by
  intro plan plan' hplan hsearch
  simp only [guardStage] at hsearch
  split at hsearch
  · cases hsearch
  · cases hsearch
    exact hplan

/-- The search in the slot asked for does not look into the source. -/
theorem places_specificSlot (hsrc : ∀ source ∈ src, In source p) (pos : ItemPos) :
    p.Places proto src ⟨.required, p.canStoreItemInSpecificSlot pos proto false src⟩ := by
  intro plan plan' hplan hsearch
  have hplace : ∀ room, p.Suits proto src pos → p.SuitsAll proto src
      (if plan.Contains pos then plan else plan.push pos room).dest := by
    intro room hsuits
    split_ifs
    · exact hplan
    · exact hplan.push hsuits room
  simp only [canStoreItemInSpecificSlot] at hsearch
  cases hmoves : movesNonEmptyBag src with
  | true =>
      rw [hmoves] at hsearch
      cases hsearch
  | false =>
      rw [hmoves] at hsearch
      cases hitem : p.otherItemByPos src pos with
      | none =>
          rw [hitem] at hsearch
          simp only [Bool.false_eq_true, if_false] at hsearch
          by_cases hdirect : pos.bag = inventorySlotBag0
          · rw [if_pos hdirect] at hsearch
            split at hsearch
            · cases hsearch
            · rename_i hkeyring
              split at hsearch
              · cases hsearch
              · cases hsearch
                refine hplace _ ⟨fun hne => absurd hdirect hne, fun _ => ?_⟩
                unfold Accepts
                rw [if_pos hdirect]
                intro hfirst hlast
                by_contra hfamily
                exact hkeyring ⟨hfirst, hlast, hfamily⟩
          · rw [if_neg hdirect] at hsearch
            cases hbag : p.otherItemByPos src ⟨inventorySlotBag0, pos.bag⟩ with
            | none =>
                rw [hbag] at hsearch
                cases hsearch
            | some bag =>
                rw [hbag] at hsearch
                dsimp only at hsearch
                split at hsearch
                · cases hsearch
                · split at hsearch
                  · cases hsearch
                  · rename_i hfamily
                    cases hsearch
                    refine hplace _ ⟨fun _ => ⟨bag, hbag⟩, fun _ => ?_⟩
                    unfold Accepts
                    rw [if_neg hdirect]
                    exact ⟨bag, getItemByPos_of_other hbag, by simpa using hfamily⟩
      | some item2 =>
          rw [hitem] at hsearch
          simp only [Bool.false_eq_true, if_false] at hsearch
          have hshown := getItemByPos_of_other hitem
          have hsuits : p.Suits proto src pos := by
            refine ⟨fun hne => ?_, fun hnone => ?_⟩
            · rcases hosted_of_getItemByPos hshown with hdirect | ⟨bag, hbag⟩
              · exact absurd hdirect hne
              · refine ⟨bag, ?_⟩
                unfold otherItemByPos
                rw [if_neg, hbag]
                intro hsame
                -- nothing lies in the source
                cases hsource : src with
                | none =>
                    rw [hsource] at hsame
                    cases hsame
                | some source =>
                    rw [hsource] at hsame hmoves
                    have hempty := (hsrc source (by rw [hsource]; rfl)).empty hmoves _ hsame rfl pos.slot
                    have hitems := items_of_getItemByPos hshown
                    cases hempty.symm.trans hitems
            · rw [hitem] at hnone
              cases hnone
          split at hsearch
          · cases hsearch
            exact hplace _ hsuits
          · cases hsearch

/-- All searches of `_CanStoreItem` plan suitable positions. -/
theorem places_stages (hsrc : ∀ source ∈ src, In source p) (bag slot : UInt8) :
    ∀ stage ∈ (⟨p, proto, src, bag, slot⟩ : Request T).stages false, p.Places proto src stage := by
  have hmerge : ∀ first last,
      p.Places proto src ((⟨p, proto, src, bag, slot⟩ : Request T).inSlots first last true) :=
    fun first last => places_inSlots (Or.inl rfl) bag slot
  have hbackpack : p.Places proto src ((⟨p, proto, src, bag, slot⟩ : Request T).inSlots
      inventorySlotItemStart inventorySlotItemEnd false) :=
    places_inSlots (Or.inr (Or.inr (by decide))) bag slot
  have hkeyring : (⟨p, proto, src, bag, slot⟩ : Request T).isKey = true →
      p.Places proto src ((⟨p, proto, src, bag, slot⟩ : Request T).inSlots keyringSlotStart
        keyringSlotEnd false) := by
    intro hkey
    exact places_inSlots (Or.inr (Or.inl (by simpa [Request.isKey] using hkey))) bag slot
  have hbags : ∀ merge nonSpecialized,
      ∀ stage ∈ (⟨p, proto, src, bag, slot⟩ : Request T).inBags merge nonSpecialized,
        p.Places proto src stage := places_inBags bag slot
  have hspecific : ∀ merge, p.Places proto src
      ((⟨p, proto, src, bag, slot⟩ : Request T).inSpecificBag merge) := places_inSpecificBag bag slot
  intro stage hstage
  simp only [Request.stages, List.mem_append] at hstage
  rcases hstage with ((hstage | hstage) | hstage) | hstage
  · unfold Request.specificSlotStages at hstage
    split at hstage
    · simp only [List.mem_cons, List.not_mem_nil, or_false] at hstage
      rcases hstage with rfl | rfl
      · exact places_guardStage _ _
      · exact places_specificSlot hsrc _
    · cases hstage
  · unfold Request.specificBagStages at hstage
    split_ifs at hstage <;>
      simp only [List.mem_append, List.mem_cons, List.not_mem_nil, or_false, false_or] at hstage <;>
      grind
  · unfold Request.mergeStages at hstage
    split_ifs at hstage <;>
      simp only [List.mem_append, List.mem_cons, List.not_mem_nil, or_false] at hstage <;>
      grind
  · have hguard : p.Places proto src (guardStage (movesNonEmptyBag src) .nonemptyBagOverOtherBag) :=
      places_guardStage _ _
    unfold Request.freeStages at hstage
    split_ifs at hstage <;>
      simp only [List.mem_append, List.mem_cons, List.not_mem_nil, or_false, false_or] at hstage <;>
      grind

/-- So does a request. -/
theorem suitsAll_runStages {noSimilarCount : UInt32} {stages : List Stage}
    (hstages : ∀ stage ∈ stages, p.Places proto src stage) {plan : Plan}
    (hplan : p.SuitsAll proto src plan.dest) :
    p.SuitsAll proto src (runStages noSimilarCount stages plan).dest := by
  induction stages generalizing plan with
  | nil => exact hplan
  | cons stage rest ih =>
      have hrest : ∀ stage ∈ rest, p.Places proto src stage := fun other hother =>
        hstages other (List.mem_cons_of_mem _ hother)
      unfold runStages
      split
      · split
        · exact hplan
        · exact ih hrest hplan
        · exact hplan
      · next plan' hsearch =>
        have hplan' := hstages stage List.mem_cons_self plan plan' hplan hsearch
        split
        · rw [allPlaced_dest]
          exact hplan'
        · exact ih hrest hplan'

end Searches

section Without

variable {pos : ItemPos}

/-- Taking the source out clears its slot, and nothing else. -/
theorem without_eq (hsrc : ∀ source ∈ src, In source p) (hmoves : movesNonEmptyBag src = false) :
    p.without src = (src.bind SrcItem.pos).elim p fun pos => p.setItem pos none := by
  unfold without
  cases hpos : src.bind SrcItem.pos with
  | none => rfl
  | some pos =>
      obtain ⟨source, rfl, hsource⟩ := Option.bind_eq_some_iff.mp hpos
      exact takeOut_of_empty fun hdirect => (hsrc source rfl).empty hmoves pos hsource hdirect

/-- A position that is not in the source shows without it what it showed, the source apart. -/
theorem Suits.getItemByPos_without (h : p.Suits proto src pos) (hsrc : ∀ source ∈ src, In source p)
    (hmoves : movesNonEmptyBag src = false) :
    (p.without src).getItemByPos pos = p.otherItemByPos src pos := by
  rw [without_eq hsrc hmoves]
  unfold otherItemByPos
  cases hpos : src.bind SrcItem.pos with
  | none => rfl
  | some at' =>
      show (p.setItem at' none).getItemByPos pos =
        if some at' = some pos then none else p.getItemByPos pos
      by_cases hsame : some at' = some pos
      · -- the slot of the source is free now
        rw [if_pos hsame, ← Option.some.inj hsame]
        cases hitem : (p.setItem at' none).getItemByPos at' with
        | none => rfl
        | some item =>
            have hitems := items_of_getItemByPos hitem
            rw [setItem_items, Function.update_self] at hitems
            cases hitems
      · have hne : pos ≠ at' := fun heq => hsame (congrArg some heq.symm)
        rw [if_neg hsame]
        refine getItemByPos_congr ?_ fun hslot => ?_
        · rw [setItem_items, Function.update_of_ne hne]
        · have hdirect : pos.bag ≠ inventorySlotBag0 := by
            intro heq
            rw [heq] at hslot
            exact absurd hslot (by decide)
          obtain ⟨bag, hbag⟩ := h.hosted hdirect
          have hother : (⟨inventorySlotBag0, pos.bag⟩ : ItemPos) ≠ at' := by
            intro heq
            unfold otherItemByPos at hbag
            rw [hpos, if_pos (congrArg some heq.symm)] at hbag
            cases hbag
          rw [setItem_items, Function.update_of_ne hother]

/-- And its bag is still there. -/
theorem Suits.hosted_without (h : p.Suits proto src pos) (hsrc : ∀ source ∈ src, In source p)
    (hmoves : movesNonEmptyBag src = false) : (p.without src).Hosted pos := by
  by_cases hdirect : pos.bag = inventorySlotBag0
  · exact Or.inl hdirect
  · obtain ⟨bag, hbag⟩ := h.hosted hdirect
    have hhost : p.Suits proto src ⟨inventorySlotBag0, pos.bag⟩ :=
      ⟨fun hne => absurd rfl hne, fun hnone => by rw [hbag] at hnone; cases hnone⟩
    exact Or.inr ⟨bag, (hhost.getItemByPos_without hsrc hmoves).trans hbag⟩

/-- A planned position is ready without the source. -/
theorem Suits.ready {chosen : ItemPosCount} {total : UInt32} {dest : List ItemPosCount}
    (h : p.Suits proto src chosen.pos) (hsrc : ∀ source ∈ src, In source p)
    (hmoves : movesNonEmptyBag src = false) (hfits : p.Fits proto src total ⟨dest, 0⟩)
    (htotal : total ≠ 0) (hchosen : chosen ∈ dest) : (p.without src).Ready proto chosen := by
  refine ⟨h.hosted_without hsrc hmoves, ?_, hfits.positive htotal chosen hchosen⟩
  obtain ⟨room, hroom, hle⟩ := hfits.room chosen hchosen
  refine ⟨room, ?_, hle⟩
  unfold RoomAt at hroom ⊢
  rw [← h.getItemByPos_without hsrc hmoves] at hroom
  exact hroom

theorem Bounded.without (h : p.Bounded) (src : Option (SrcItem T)) : (p.without src).Bounded := by
  unfold Player.without
  cases src.bind SrcItem.pos with
  | none => exact h
  | some pos =>
      intro other found hfound
      simp only [takeOut] at hfound
      split_ifs at hfound
      exact h other found hfound

/-- Without the source, a planned position shows what lies there if it did so before. -/
theorem Suits.shown_without (h : p.Suits proto src pos) (hsrc : ∀ source ∈ src, In source p)
    (hmoves : movesNonEmptyBag src = false) (hshown : p.getItemByPos pos = p.items pos) :
    (p.without src).getItemByPos pos = (p.without src).items pos := by
  rw [h.getItemByPos_without hsrc hmoves, without_eq hsrc hmoves]
  unfold otherItemByPos
  cases hpos : src.bind SrcItem.pos with
  | none => exact hshown
  | some at' =>
      by_cases hsame : some at' = some pos
      · rw [if_pos hsame, ← Option.some.inj hsame]
        show none = Function.update p.items at' none at'
        rw [Function.update_self]
      · have hne : pos ≠ at' := fun heq => hsame (congrArg some heq.symm)
        rw [if_neg hsame, hshown]
        show p.items pos = Function.update p.items at' none pos
        rw [Function.update_of_ne hne]

/-- An accepted request for a known item is the end of its searches. -/
theorem canStoreItemAt_ok {bag slot : UInt8} {entry count : UInt32} {swap : Bool}
    (hfind : T.find entry = some proto)
    (hok : (p.canStoreItemAt bag slot entry count src swap).result = .ok) :
    ∃ noSimilarCount total, p.canStoreItemAt bag slot entry count src swap =
        runStages noSimilarCount ((⟨p, proto, src, bag, slot⟩ : Request T).stages swap) ⟨[], total⟩ ∧
      (noSimilarCount = 0 → total = count) := by
  unfold canStoreItemAt at hok ⊢
  rw [hfind] at hok ⊢
  dsimp only at hok ⊢
  split_ifs at hok ⊢
  cases hlimit : p.canTakeMoreSimilarItems proto count (src.bind SrcItem.pos) with
  | ok => exact ⟨0, count, rfl, fun _ => rfl⟩
  | error noSimilarCount =>
      rw [hlimit] at hok
      dsimp only at hok ⊢
      split_ifs at hok ⊢
      exact ⟨noSimilarCount, count - noSimilarCount, rfl, fun hzero =>
        absurd hzero (canTakeMoreSimilarItems_ne_zero hlimit)⟩

/-- The slot of the source is none that is taken out for a swap. -/
theorem In.swappedOut {source : SrcItem T} {bag slot : UInt8} {swap : Bool} (h : In source p)
    (hslot : swap = true → isBagPos ⟨bag, slot⟩ = false) :
    In source (p.swappedOut (some source) bag slot swap) := by
  unfold Player.swappedOut
  split_ifs with htaken
  · obtain ⟨hswap, -, hother⟩ := htaken
    have hne : ∀ pos, source.pos = some pos → pos ≠ ⟨bag, slot⟩ := by
      rintro pos hpos rfl
      have hsame : (some source).bind SrcItem.pos = some ⟨bag, slot⟩ := hpos
      unfold otherItemByPos at hother
      rw [if_pos hsame] at hother
      cases hother
    refine ⟨fun pos hpos => ?_, fun hempty pos hpos hdirect inner => ?_⟩
    · rw [getItemByPos_clear (hslot hswap) (hne pos hpos)]
      exact h.shown pos hpos
    · have hnone := h.empty hempty pos hpos hdirect inner
      rw [setItem_items]
      by_cases hsame : (⟨pos.slot, inner⟩ : ItemPos) = ⟨bag, slot⟩
      · rw [hsame, Function.update_self]
      · rw [Function.update_of_ne hsame]
        exact hnone
  · exact h

theorem Bounded.swappedOut (h : p.Bounded) (src : Option (SrcItem T)) (bag slot : UInt8) (swap : Bool) :
    (p.swappedOut src bag slot swap).Bounded := by
  unfold Player.swappedOut
  split_ifs
  · intro other found hfound
    rw [setItem_items] at hfound
    by_cases hsame : other = ⟨bag, slot⟩
    · rw [hsame, Function.update_self] at hfound
      cases hfound
    · rw [Function.update_of_ne hsame] at hfound
      exact h other found hfound
  · exact h

/-- A position takes the family of an item whether or not something is taken out for a swap. -/
theorem accepts_of_swappedOut {bag slot : UInt8} {swap : Bool} {pos : ItemPos}
    (hslot : swap = true → isBagPos ⟨bag, slot⟩ = false)
    (h : (p.swappedOut src bag slot swap).Accepts proto pos) : p.Accepts proto pos := by
  unfold Player.swappedOut at h
  split_ifs at h with htaken
  · unfold Accepts at h ⊢
    split_ifs at h ⊢ with hdirect
    · exact h
    · obtain ⟨pBag, hpBag, hgoes⟩ := h
      have hne : (⟨inventorySlotBag0, pos.bag⟩ : ItemPos) ≠ ⟨bag, slot⟩ := by
        intro heq
        have hitems := items_of_getItemByPos hpBag
        rw [heq, setItem_items, Function.update_self] at hitems
        cases hitems
      rw [getItemByPos_clear (hslot htaken.1) hne] at hpBag
      exact ⟨pBag, hpBag, hgoes⟩
  · exact h

/-- A position that shows what lies there does so after something is taken out for a swap. -/
theorem shown_swappedOut {bag slot : UInt8} {swap : Bool} {pos : ItemPos}
    (hslot : swap = true → isBagPos ⟨bag, slot⟩ = false) (h : p.getItemByPos pos = p.items pos) :
    (p.swappedOut src bag slot swap).getItemByPos pos = (p.swappedOut src bag slot swap).items pos := by
  unfold Player.swappedOut
  split_ifs with htaken
  · by_cases hsame : pos = ⟨bag, slot⟩
    · rw [hsame, setItem_items, Function.update_self]
      cases hitem : (p.setItem ⟨bag, slot⟩ none).getItemByPos ⟨bag, slot⟩ with
      | none => rfl
      | some item =>
          have hitems := items_of_getItemByPos hitem
          rw [setItem_items, Function.update_self] at hitems
          cases hitems
    · rw [getItemByPos_clear (hslot htaken.1) hsame, setItem_items, Function.update_of_ne hsame]
      exact h
  · exact h

/-- A request for a swap that is accepted is one that is accepted without what lies in the slot asked for. -/
theorem canStoreItemAt_swappedOut {bag slot : UInt8} {entry count : UInt32} {swap : Bool}
    (hslot : swap = true → isBagPos ⟨bag, slot⟩ = false) (hfind : T.find entry = some proto)
    (hok : (p.canStoreItemAt bag slot entry count src swap).result = .ok) :
    p.canStoreItemAt bag slot entry count src swap =
      runStages 0 ((⟨p.swappedOut src bag slot swap, proto, src, bag, slot⟩ : Request T).stages false)
        ⟨[], count⟩ := by
  obtain ⟨noSimilarCount, total, hrun, htotal⟩ := canStoreItemAt_ok hfind hok
  rw [runStages_swappedOut hslot] at hrun
  rw [hrun] at hok
  have hzero := (runStages_ok (sound_stages (T.stackable_pos hfind) (T.stackable_le hfind) bag slot)
    (fits_nil _ _ _ _) (fun hzero => hzero) hok).1
  rw [hrun, htotal hzero, hzero]

/-- An accepted request is carried out exactly: the planned positions are distinct, the planned units are
positive and those asked for; every position is free and takes the family of the item, or holds a stack of
it with that much room; and storing the item, once its source is out of its slot and, in a swap, what lies in
the slot asked for is taken out too, adds the units asked for and changes no other position, and no stack is
above its maximum. -/
theorem canStoreItemAt_exact (hsrc : ∀ source ∈ src, In source p) (hbounded : p.Bounded)
    {bag slot : UInt8} {entry count : UInt32} (hcount : count ≠ 0) {swap : Bool}
    (hslot : swap = true → isBagPos ⟨bag, slot⟩ = false)
    (hok : (p.canStoreItemAt bag slot entry count src swap).result = .ok) {item : Item T}
    (hitem : item.entry = entry) {dest : List ItemPosCount}
    (hdest : dest = (p.canStoreItemAt bag slot entry count src swap).dest) {q : Player T}
    (hq : q = (p.swappedOut src bag slot swap).without src) :
    (dest.map ItemPosCount.pos).Nodup ∧ planned dest = count.toNat ∧
      (∀ chosen ∈ dest, 1 ≤ chosen.count.toNat ∧
        (q.getItemByPos chosen.pos = none ∧ p.Accepts item.proto chosen.pos ∧
            chosen.count.toNat ≤ item.proto.stackable.toNat ∨
          ∃ stack, q.getItemByPos chosen.pos = some stack ∧ stack.entry = entry ∧
            stack.count.toNat + chosen.count.toNat ≤ item.proto.stackable.toNat)) ∧
      ((∀ chosen ∈ dest, p.getItemByPos chosen.pos = p.items chosen.pos) →
        ∀ other, (q.storeItem dest item).1.units other =
          q.units other + if entry = other then count.toNat else 0) ∧
      (q.storeItem dest item).1.Bounded ∧
      ∀ pos, pos ∉ dest.map ItemPosCount.pos → (q.storeItem dest item).1.items pos = q.items pos := by
  obtain ⟨proto, hfind⟩ : ∃ proto, T.find entry = some proto :=
    ⟨item.proto, by rw [← hitem]; exact item.find_entry⟩
  have hproto : item.proto = proto := by
    have hlisted := item.find_entry
    rw [hitem, hfind] at hlisted
    exact (Option.some.inj hlisted).symm
  have hrun := canStoreItemAt_swappedOut hslot hfind hok
  have hsrc' : ∀ source ∈ src, In source (p.swappedOut src bag slot swap) := by
    rintro source rfl
    exact (hsrc source rfl).swappedOut hslot
  rw [hrun] at hok hdest
  generalize hp' : p.swappedOut src bag slot swap = p' at hok hdest hsrc' hq
  have hsound := @sound_stages T p' proto src count (T.stackable_pos hfind) (T.stackable_le hfind) bag slot
  obtain ⟨-, hfits⟩ := runStages_ok hsound (fits_nil _ _ _ _) (fun hzero => hzero) hok
  have hmoves : movesNonEmptyBag src = false := by
    by_contra hmoves
    rw [Bool.not_eq_false] at hmoves
    by_cases hrefuse : Refuses (⟨p', proto, src, bag, slot⟩ : Request T)
    · obtain ⟨res, hres, hresult⟩ := runStages_refused 0 false hrefuse ⟨[], count⟩
      rw [hresult] at hok
      exact hres hok
    · obtain ⟨res, hres, hresult⟩ := runStages_moves 0 false hmoves hrefuse ⟨[], count⟩
      rw [hresult] at hok
      exact hres hok
  have hsuits : p'.SuitsAll proto src dest := by
    rw [hdest]
    exact suitsAll_runStages (places_stages hsrc' bag slot) fun chosen hchosen =>
      absurd hchosen List.not_mem_nil
  rw [← hdest] at hfits
  have hplanned : planned dest = count.toNat := by simpa using hfits.sum
  have hready : ∀ chosen ∈ dest, q.Ready item.proto chosen := by
    intro chosen hchosen
    rw [hproto, hq]
    exact (hsuits chosen hchosen).ready hsrc' hmoves hfits hcount hchosen
  have hnonempty : dest ≠ [] := by
    rintro rfl
    exact hcount (UInt32.toNat.inj hplanned.symm)
  have hbounded' : q.Bounded := by
    rw [hq, ← hp']
    exact (hbounded.swappedOut src bag slot swap).without src
  obtain ⟨-, hframe, -, -, hunits, -⟩ := storeItem_spec hnonempty hfits.nodup hready
  refine ⟨hfits.nodup, hplanned, fun chosen hchosen => ⟨(hready chosen hchosen).positive, ?_⟩, ?_,
    hbounded'.storeItem hnonempty hfits.nodup hready, hframe⟩
  · obtain ⟨hbound, hsame⟩ := (hready chosen hchosen).bound item.listed
    have hshows := (hsuits chosen hchosen).getItemByPos_without hsrc' hmoves
    rw [← hq] at hshows
    cases hstack : q.getItemByPos chosen.pos with
    | none =>
        rw [hstack] at hbound hshows
        refine Or.inl ⟨rfl, hproto ▸ ?_, ?_⟩
        · exact accepts_of_swappedOut hslot (hp' ▸ (hsuits chosen hchosen).accepts hshows.symm)
        · simpa [countOf] using hbound
    | some stack =>
        rw [hstack] at hbound
        refine Or.inr ⟨stack, rfl, ?_, hbound⟩
        rw [← hitem, Item.entry, hsame stack hstack, Item.entry]
  · intro hvisible other
    rw [hunits (fun chosen hchosen => ?_) other, hplanned, hitem]
    rw [hq]
    exact (hsuits chosen hchosen).shown_without hsrc' hmoves
      (hp' ▸ shown_swappedOut hslot (hvisible chosen hchosen))

end Without

section Example

/-- A character who has a stack of Linen Cloth in one slot. -/
def carrier (pos : ItemPos) : Player ItemTable.cloth :=
  ⟨7, fun other => if other = pos then some (Item.linen 500 5) else none, 0, 1000⟩

theorem carrier_bounded (pos : ItemPos) : (carrier pos).Bounded := by
  intro other item hitem
  have hitem : (if other = pos then some (Item.linen 500 5) else none) = some item := hitem
  split_ifs at hitem
  rw [← Option.some.inj hitem]
  decide

theorem carrier_shown {pos : ItemPos} (hpos : pos.bag = inventorySlotBag0 ∧ isDirectSlot pos.slot = true) :
    (carrier pos).getItemByPos pos = (carrier pos).items pos := if_pos hpos

/-- One unit more is merged with the stack in the backpack; and in a swap it takes the place of the stack. -/
theorem canStoreItemAt_exact_linen :
    (planned [⟨⟨255, 23⟩, 1⟩] = 1 ∧
      ((carrier ⟨255, 23⟩).storeItem [⟨⟨255, 23⟩, 1⟩] (Item.linen 501 1)).1.units 2589 =
        (carrier ⟨255, 23⟩).units 2589 + 1) ∧
      (((carrier ⟨255, 23⟩).setItem ⟨255, 23⟩ none).storeItem [⟨⟨255, 23⟩, 1⟩] (Item.linen 501 1)).1.units 2589 =
        ((carrier ⟨255, 23⟩).setItem ⟨255, 23⟩ none).units 2589 + 1 := by
  have hsrc : ∀ source ∈ (none : Option (SrcItem ItemTable.cloth)), In source (carrier ⟨255, 23⟩) :=
    fun _ habsurd => by cases habsurd
  have hentry : (Item.linen 501 1).entry = 2589 := rfl
  have hshown : ∀ chosen ∈ [(⟨⟨255, 23⟩, 1⟩ : ItemPosCount)],
      (carrier ⟨255, 23⟩).getItemByPos chosen.pos = (carrier ⟨255, 23⟩).items chosen.pos := by
    intro chosen hchosen
    obtain rfl := List.mem_singleton.mp hchosen
    exact carrier_shown (by decide)
  obtain ⟨-, hplanned, -, hunits, -⟩ := @canStoreItemAt_exact _ _ none hsrc
    (carrier_bounded ⟨255, 23⟩) nullBag nullSlot 2589 1 (by decide) false (fun habsurd => by cases habsurd)
    (by decide +kernel) (Item.linen 501 1) hentry [⟨⟨255, 23⟩, 1⟩] (by decide +kernel) _ rfl
  obtain ⟨-, -, -, hswapped, -⟩ := @canStoreItemAt_exact _ _ none hsrc (carrier_bounded ⟨255, 23⟩)
    255 23 2589 1 (by decide) true (fun _ => by decide) (by decide +kernel) (Item.linen 501 1) hentry
    [⟨⟨255, 23⟩, 1⟩] (by decide +kernel) _ rfl
  exact ⟨⟨hplanned, hunits hshown 2589⟩, hswapped hshown 2589⟩

/-- Cloth, and a bag of six slots. -/
def bagTable : ItemTable :=
  .ofList [linenCloth, { linenCloth with
    itemId := 828, itemClass := 1, inventoryType := 18, stackable := 1, containerSlots := 6 }] (by decide)

/-- An item of that table. -/
def bagItem (proto : ItemPrototype) (listed : bagTable.find proto.itemId = some proto)
    (guid count : UInt32) : Item bagTable :=
  { guid, proto, listed, count, ownerGuid := 7, creator := 0, giftCreator := 0, duration := 0
    spellCharges := [], flags := 0, enchantments := [], randomPropertyId := 0, transmogrifyId := 0
    durability := 0, itemTextId := 0, generatedLoot := false, hasGeneratedLoot := false
    hasTemporaryLoot := false, tradeAllowed := false, inTrade := false }

/-- A character with a bag in the first slot of the backpack, in which a stack of Linen Cloth lies. -/
def packed : Player bagTable :=
  ⟨7, fun pos =>
    if pos = ⟨255, 23⟩ then
      some (bagItem { linenCloth with
        itemId := 828, itemClass := 1, inventoryType := 18, stackable := 1, containerSlots := 6 } rfl
        500 1)
    else if pos = ⟨23, 0⟩ then some (bagItem linenCloth rfl 501 5)
    else none, 0, 1000⟩

/-- A character with a full backpack who wears a bag. -/
def laden : Player bagTable :=
  ⟨7, fun pos =>
    if pos = ⟨255, 19⟩ then
      some (bagItem { linenCloth with
        itemId := 828, itemClass := 1, inventoryType := 18, stackable := 1, containerSlots := 6 } rfl
        500 1)
    else if pos.bag = 255 ∧ 23 ≤ pos.slot ∧ pos.slot < 39 then some (bagItem linenCloth rfl 501 20)
    else none, 0, 1000⟩

/-- A stack of cloth on the keyring is merged with, where cloth may not lie; a stack in a bag that is not in a
bag slot is replaced by what is stored in its slot; a swap plans the slot of the bag; and a swap with a bag that
is worn plans a slot in this bag. -/
theorem canStoreItemAt_misplaced :
    (((carrier ⟨255, 81⟩).canStoreItemAt nullBag nullSlot 2589 1 none false).result = .ok ∧
      ((carrier ⟨255, 81⟩).canStoreItemAt nullBag nullSlot 2589 1 none false).dest =
        [⟨⟨255, 81⟩, 1⟩] ∧ ¬(carrier ⟨255, 81⟩).Accepts linenCloth ⟨255, 81⟩) ∧
      (packed.canStoreItemAt 23 0 2589 1 none false).result = .ok ∧
      ((packed.storeItem (packed.canStoreItemAt 23 0 2589 1 none false).dest
        (bagItem linenCloth rfl 502 1)).1.items ⟨23, 0⟩).map Item.count = some 1 ∧
      packed.canStoreItemAt 255 23 2589 1 none true = ⟨.ok, [⟨⟨255, 23⟩, 1⟩], none⟩ ∧
      laden.canStoreItemAt 255 19 828 2 none true = ⟨.ok, [⟨⟨255, 19⟩, 1⟩, ⟨⟨19, 0⟩, 1⟩], none⟩ := by
  refine ⟨⟨by decide +kernel, by decide +kernel, fun haccepts => ?_⟩, by decide +kernel,
    by decide +kernel, by decide +kernel, by decide +kernel⟩
  exact absurd (haccepts (by decide) (by decide)) (by decide)

end Example

end Player

end TwowCore
