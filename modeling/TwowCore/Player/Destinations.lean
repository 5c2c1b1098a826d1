import TwowCore.Player.Store

/-!
# Where a plan can lead

The positions that the searches of `_CanStoreItem` can choose: the slot asked for, the slots of the bag asked
for, the keyring, the backpack and the bags a character carries. What a search has chosen, the next ones keep.
-/

namespace TwowCore

namespace Player

variable {T : ItemTable}

/-- The positions an answer to a request can have. -/
inductive Request.Reaches (r : Request T) (pos : ItemPos) : Prop where
  | asked (hbag : r.bag ≠ nullBag) (hslot : r.slot ≠ nullSlot) (hpos : pos = ⟨r.bag, r.slot⟩)
  | bag (hbag : r.bag ≠ nullBag) (hother : r.bag ≠ inventorySlotBag0) (hpos : pos ∈ r.player.bagPositions r.bag)
  | keyring (hpos : pos ∈ slotRange inventorySlotBag0 keyringSlotStart keyringSlotEnd)
  | backpack (hpos : pos ∈ slotRange inventorySlotBag0 inventorySlotItemStart inventorySlotItemEnd)
  | carried (bag : UInt8) (hbag : bag ∈ inventoryBags) (hpos : pos ∈ r.player.bagPositions bag)

/-- The search keeps what is chosen and adds positions of a kind only. -/
structure Stage.Adds (stage : Stage) (kind : ItemPos → Prop) : Prop where
  keeps : ∀ {plan plan'}, stage.search plan = .ok plan' → ∀ chosen ∈ plan.dest, chosen ∈ plan'.dest
  new : ∀ {plan plan'}, stage.search plan = .ok plan' → ∀ chosen ∈ plan'.dest,
    chosen ∈ plan.dest ∨ kind chosen.pos

variable {p : Player T} {proto : ItemPrototype} {src : Option (SrcItem T)} {kind : ItemPos → Prop}

/-- What the loop of the searches adds. -/
theorem planSlots_adds (merge : Bool) {positions : List ItemPos} (hkind : ∀ pos ∈ positions, kind pos)
    (plan : Plan) : (∀ chosen ∈ plan.dest, chosen ∈ (p.planSlots proto merge src positions plan).dest) ∧
      ∀ chosen ∈ (p.planSlots proto merge src positions plan).dest, chosen ∈ plan.dest ∨ kind chosen.pos := by
  induction positions generalizing plan with
  | nil => exact ⟨fun _ h => h, fun _ h => Or.inl h⟩
  | cons pos rest ih =>
      have hrest := ih fun other hother => hkind other (List.mem_cons_of_mem _ hother)
      have hkept : ∀ room, ∀ chosen ∈ plan.dest, chosen ∈ (plan.push pos room).dest := fun room chosen h =>
        List.mem_append_left _ h
      have hpushed : ∀ room, ∀ chosen ∈ (plan.push pos room).dest, chosen ∈ plan.dest ∨ kind chosen.pos := by
        intro room chosen h
        rcases List.mem_append.mp h with h | h
        · exact Or.inl h
        · rw [List.mem_singleton.mp h]
          exact Or.inr (hkind pos List.mem_cons_self)
      unfold planSlots
      split
      · exact hrest plan
      · next room hroom =>
          split
          · exact hrest plan
          · split
            · exact ⟨hkept room, hpushed room⟩
            · obtain ⟨hkeeps, hnew⟩ := hrest (plan.push pos room)
              exact ⟨fun chosen h => hkeeps chosen (hkept room chosen h), fun chosen h =>
                (hnew chosen h).elim (hpushed room chosen) Or.inr⟩

/-- A search that ends in the loop. -/
theorem adds_of_planSlots (p : Player T) (proto : ItemPrototype) (src : Option (SrcItem T)) {stage : Stage}
    (hsearch : ∀ {plan plan'}, stage.search plan = .ok plan' →
      ∃ merge positions, (∀ pos ∈ positions, kind pos) ∧ plan' = p.planSlots proto merge src positions plan) :
    stage.Adds kind where
  keeps h := by
    obtain ⟨merge, positions, hkind, rfl⟩ := hsearch h
    exact (planSlots_adds merge hkind _).1
  new h := by
    obtain ⟨merge, positions, hkind, rfl⟩ := hsearch h
    exact (planSlots_adds merge hkind _).2

theorem adds_inSlots {r : Request T} (first last : UInt8) (merge : Bool)
    (hkind : ∀ pos ∈ slotRange inventorySlotBag0 first last, kind pos) :
    (r.inSlots first last merge).Adds kind := by
  refine adds_of_planSlots r.player r.proto r.src fun {plan plan'} hsearch => ?_
  simp only [Request.inSlots, canStoreItemInInventorySlots] at hsearch
  split at hsearch
  · cases hsearch
  · exact ⟨merge, _, fun pos hpos => hkind pos (List.mem_of_mem_filter hpos), (Except.ok.inj hsearch).symm⟩

/-- A search through a bag ends in the loop over its slots. -/
theorem planSlots_of_inBag {bag skipBag skipSlot : UInt8} {merge nonSpecialized : Bool} {plan plan' : Plan}
    (hkind : ∀ pos ∈ p.bagPositions bag, kind pos)
    (hsearch : p.canStoreItemInBag bag proto merge nonSpecialized src skipBag skipSlot plan = .ok plan') :
    ∃ merge positions, (∀ pos ∈ positions, kind pos) ∧ plan' = p.planSlots proto merge src positions plan := by
  rcases canStoreItemInBag_cases p proto src bag merge nonSpecialized skipBag skipSlot plan with
    ⟨res, -, herror⟩ | hok
  · rw [herror] at hsearch
    cases hsearch
  · rw [hok] at hsearch
    exact ⟨merge, _, fun pos hpos => hkind pos (List.mem_of_mem_filter hpos), (Except.ok.inj hsearch).symm⟩

theorem adds_inSpecificBag {r : Request T} (merge : Bool) (hkind : ∀ pos ∈ r.player.bagPositions r.bag, kind pos) :
    (r.inSpecificBag merge).Adds kind := by
  refine adds_of_planSlots r.player r.proto r.src fun {plan plan'} hsearch => ?_
  simp only [Request.inSpecificBag] at hsearch
  split at hsearch
  · next special hspecial => exact Except.ok.inj hsearch ▸ planSlots_of_inBag hkind hspecial
  · exact planSlots_of_inBag hkind hsearch

theorem adds_inBags {r : Request T} (merge nonSpecialized : Bool)
    (hkind : ∀ bag ∈ inventoryBags, ∀ pos ∈ r.player.bagPositions bag, kind pos) :
    ∀ stage ∈ r.inBags merge nonSpecialized, stage.Adds kind := by
  intro stage hstage
  obtain ⟨bag, hbag, rfl⟩ := List.mem_map.mp hstage
  exact adds_of_planSlots r.player r.proto r.src fun hsearch => planSlots_of_inBag (hkind bag hbag) hsearch

theorem adds_guardStage (refuse : Bool) (res : InventoryResult) : (guardStage refuse res).Adds kind := by
  have hsame : ∀ {plan plan' : Plan}, (guardStage refuse res).search plan = .ok plan' → plan' = plan := by
    intro plan plan' hsearch
    simp only [guardStage] at hsearch
    split at hsearch
    · cases hsearch
    · exact (Except.ok.inj hsearch).symm
  exact ⟨fun h chosen hchosen => hsame h ▸ hchosen, fun h chosen hchosen => Or.inl (hsame h ▸ hchosen)⟩

/-- The search in the slot asked for has that slot among its positions. -/
theorem specificSlot_adds {pos : ItemPos} {swap : Bool} {plan plan' : Plan}
    (hsearch : p.canStoreItemInSpecificSlot pos proto swap src plan = .ok plan') :
    plan'.Contains pos ∧ (plan' = plan ∨ ∃ room, plan' = plan.push pos room) := by
  by_cases hcontains : plan.Contains pos
  · unfold canStoreItemInSpecificSlot at hsearch
    simp only [hcontains, if_true] at hsearch
    repeat' split at hsearch
    all_goals cases hsearch
    all_goals exact ⟨hcontains, Or.inl rfl⟩
  · have hpushed : ∀ room, (plan.push pos room).Contains pos := fun room =>
      ⟨_, List.mem_append_right _ (List.mem_singleton.mpr rfl), rfl⟩
    unfold canStoreItemInSpecificSlot at hsearch
    simp only [hcontains, if_false] at hsearch
    repeat' split at hsearch
    all_goals cases hsearch
    all_goals exact ⟨hpushed _, Or.inr ⟨_, rfl⟩⟩

theorem adds_specificSlot {pos : ItemPos} (swap : Bool) (hkind : kind pos) :
    (⟨.required, p.canStoreItemInSpecificSlot pos proto swap src⟩ : Stage).Adds kind := by
  constructor
  · intro plan plan' hsearch chosen hchosen
    rcases (specificSlot_adds hsearch).2 with rfl | ⟨room, rfl⟩
    · exact hchosen
    · exact List.mem_append_left _ hchosen
  · intro plan plan' hsearch chosen hchosen
    rcases (specificSlot_adds hsearch).2 with rfl | ⟨room, rfl⟩
    · exact Or.inl hchosen
    · rcases List.mem_append.mp hchosen with h | h
      · exact Or.inl h
      · rw [List.mem_singleton.mp h]
        exact Or.inr hkind

/-- All searches of a request add positions it reaches. -/
theorem adds_stages (r : Request T) (swap : Bool) : ∀ stage ∈ r.stages swap, stage.Adds r.Reaches := by
  have hkeyring : ∀ merge, (r.inSlots keyringSlotStart keyringSlotEnd merge).Adds r.Reaches := fun merge =>
    adds_inSlots _ _ merge fun _ hpos => .keyring hpos
  have hbackpack : ∀ merge, (r.inSlots inventorySlotItemStart inventorySlotItemEnd merge).Adds r.Reaches :=
    fun merge => adds_inSlots _ _ merge fun _ hpos => .backpack hpos
  have hbags : ∀ merge nonSpecialized, ∀ stage ∈ r.inBags merge nonSpecialized, stage.Adds r.Reaches :=
    fun merge nonSpecialized => adds_inBags merge nonSpecialized fun bag hbag _ hpos => .carried bag hbag hpos
  have hspecific : r.bag ≠ nullBag → r.bag ≠ inventorySlotBag0 → ∀ merge,
      (r.inSpecificBag merge).Adds r.Reaches := fun hnull hother merge =>
    adds_inSpecificBag merge fun _ hpos => .bag hnull hother hpos
  intro stage hstage
  simp only [Request.stages, List.mem_append] at hstage
  rcases hstage with ((hstage | hstage) | hstage) | hstage
  · unfold Request.specificSlotStages at hstage
    split at hstage
    · next hasked =>
        simp only [List.mem_cons, List.not_mem_nil, or_false] at hstage
        rcases hstage with rfl | rfl
        · exact adds_guardStage _ _
        · exact adds_specificSlot swap (.asked hasked.1 hasked.2 rfl)
    · cases hstage
  · unfold Request.specificBagStages at hstage
    split_ifs at hstage <;>
      simp only [List.mem_append, List.mem_cons, List.not_mem_nil, or_false, false_or] at hstage <;>
      grind
  · unfold Request.mergeStages at hstage
    split_ifs at hstage <;>
      simp only [List.mem_append, List.mem_cons, List.not_mem_nil, or_false] at hstage <;>
      grind
  · have hguard : (guardStage (movesNonEmptyBag r.src) .nonemptyBagOverOtherBag).Adds r.Reaches :=
      adds_guardStage _ _
    unfold Request.freeStages at hstage
    split_ifs at hstage <;>
      simp only [List.mem_append, List.mem_cons, List.not_mem_nil, or_false, false_or] at hstage <;>
      grind

/-- A run of the searches keeps what is chosen and adds positions of the kind. -/
theorem runStages_adds {stages : List Stage} (hadds : ∀ stage ∈ stages, stage.Adds kind)
    (noSimilarCount : UInt32) (plan : Plan) :
    (∀ chosen ∈ plan.dest, chosen ∈ (runStages noSimilarCount stages plan).dest) ∧
      ∀ chosen ∈ (runStages noSimilarCount stages plan).dest, chosen ∈ plan.dest ∨ kind chosen.pos := by
  induction stages generalizing plan with
  | nil => exact ⟨fun _ h => h, fun _ h => Or.inl h⟩
  | cons stage rest ih =>
      have hrest := ih fun other hother => hadds other (List.mem_cons_of_mem _ hother)
      have hstage := hadds stage List.mem_cons_self
      have hplaced : ∀ plan' : Plan, (allPlaced noSimilarCount plan'.dest).dest = plan'.dest := fun plan' => by
        unfold allPlaced
        split <;> rfl
      unfold runStages
      cases hsearch : stage.search plan with
      | error res =>
          cases stage.kind with
          | required => exact ⟨fun _ h => h, fun _ h => Or.inl h⟩
          | optional => exact hrest plan
          | guard => exact ⟨fun _ h => h, fun _ h => Or.inl h⟩
      | ok plan' =>
          simp only
          split
          · rw [hplaced]
            exact ⟨hstage.keeps hsearch, hstage.new hsearch⟩
          · obtain ⟨hkeeps, hnew⟩ := hrest plan'
            exact ⟨fun chosen h => hkeeps chosen (hstage.keeps hsearch chosen h), fun chosen h =>
              (hnew chosen h).elim (hstage.new hsearch chosen) Or.inr⟩

/-- Every position of an answer of `_CanStoreItem` is one that the request reaches. -/
theorem canStoreItemAt_reaches {bag slot : UInt8} {entry count : UInt32} {swap : Bool} {proto : ItemPrototype}
    (hfind : T.find entry = some proto) {chosen : ItemPosCount}
    (h : chosen ∈ (p.canStoreItemAt bag slot entry count src swap).dest) :
    (⟨p, proto, src, bag, slot⟩ : Request T).Reaches chosen.pos := by
  have hrun : ∀ noSimilarCount plan, plan.dest = [] → chosen ∈ (runStages noSimilarCount
      ((⟨p, proto, src, bag, slot⟩ : Request T).stages swap) plan).dest →
      (⟨p, proto, src, bag, slot⟩ : Request T).Reaches chosen.pos := by
    intro noSimilarCount plan hempty hchosen
    rcases (runStages_adds (adds_stages _ swap) noSimilarCount plan).2 chosen hchosen with hold | hnew
    · rw [hempty] at hold
      cases hold
    · exact hnew
  unfold canStoreItemAt at h
  rw [hfind] at h
  simp only at h
  split at h
  · cases h
  · split at h
    · cases h
    · split at h
      · exact hrun _ _ rfl h
      · split at h
        · cases h
        · exact hrun _ _ rfl h

/-- A new item that can be put where it is asked to go goes there. -/
theorem canStoreNewItem_asked {bag slot : UInt8} {entry count : UInt32} (hbag : bag ≠ nullBag)
    (hslot : slot ≠ nullSlot) (hok : (p.canStoreNewItem bag slot entry count).result = .ok) :
    ∃ chosen ∈ (p.canStoreNewItem bag slot entry count).dest, chosen.pos = ⟨bag, slot⟩ := by
  obtain ⟨proto, hfind, -⟩ := canStoreItemAt_fits hok
  have hsound : p.Sound proto none 0
      ⟨.required, p.canStoreItemInSpecificSlot ⟨bag, slot⟩ proto false none⟩ :=
    sound_specificSlot (T.stackable_pos hfind) (T.stackable_le hfind) _
  have hrun : ∀ noSimilarCount plan, (runStages noSimilarCount
      ((⟨p, proto, none, bag, slot⟩ : Request T).stages false) plan).result = .ok →
      ∃ chosen ∈ (runStages noSimilarCount
        ((⟨p, proto, none, bag, slot⟩ : Request T).stages false) plan).dest, chosen.pos = ⟨bag, slot⟩ := by
    intro noSimilarCount plan hok
    obtain ⟨rest, hstages⟩ : ∃ rest, (⟨p, proto, none, bag, slot⟩ : Request T).stages false =
        guardStage (bag == inventorySlotBag0 && keyringSlotEnd ≤ slot) .itemDoesntGoToSlot ::
          ⟨.required, p.canStoreItemInSpecificSlot ⟨bag, slot⟩ proto false none⟩ :: rest := by
      -- the slot that is named is tried first, behind the check that it exists
      unfold Request.stages Request.specificSlotStages
      rw [if_pos ⟨hbag, hslot⟩, List.append_assoc, List.append_assoc]
      exact ⟨_, rfl⟩
    -- the slot is planned by the second stage, and the later ones only add to the plan
    have hrest : ∀ stage ∈ rest, stage.Adds (⟨p, proto, none, bag, slot⟩ : Request T).Reaches :=
      fun stage hstage => adds_stages _ false stage
        (hstages ▸ List.mem_cons_of_mem _ (List.mem_cons_of_mem _ hstage))
    rw [hstages] at hok ⊢
    unfold runStages at hok ⊢
    cases hguard : (guardStage (bag == inventorySlotBag0 && keyringSlotEnd ≤ slot)
        .itemDoesntGoToSlot).search plan with
    | error res =>
        rw [hguard] at hok
        simp only [guardStage] at hguard hok
        split at hguard
        · rw [← Except.error.inj hguard] at hok
          cases hok
        · cases hguard
    | ok passed =>
        rw [hguard] at hok
        simp only [guardStage, ne_eq, not_true_eq_false, false_and, if_false] at hok ⊢
        unfold runStages at hok ⊢
        cases hsearch : p.canStoreItemInSpecificSlot ⟨bag, slot⟩ proto false none passed with
        | error res =>
            simp only [hsearch] at hok
            exact absurd hok (hsound.error_ne_ok hsearch)
        | ok plan' =>
            obtain ⟨chosen, hchosen, hpos⟩ := (specificSlot_adds hsearch).1
            simp only [hsearch] at hok ⊢
            split
            · refine ⟨chosen, ?_, hpos⟩
              unfold allPlaced
              split <;> exact hchosen
            · exact ⟨chosen, (runStages_adds hrest _ _).1 chosen hchosen, hpos⟩
  unfold canStoreNewItem canStoreItemAt at hok ⊢
  rw [hfind] at hok ⊢
  simp only [Option.any_none, Bool.false_eq_true, if_false] at hok ⊢
  cases hlimit : p.canTakeMoreSimilarItems proto count ((none : Option (SrcItem T)).bind SrcItem.pos) with
  | ok _ =>
      simp only [hlimit] at hok ⊢
      exact hrun _ _ hok
  | error noSimilarCount =>
      simp only [hlimit] at hok ⊢
      split at hok
      · cases hok
      · next hsome =>
          rw [if_neg hsome]
          exact hrun _ _ hok

end Player

end TwowCore
