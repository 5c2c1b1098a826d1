import TwowCore.Player.PlanSpec

/-!
# What a request accounts for

Every search of `_CanStoreItem` fails, whatever has been planned, or fills a list of positions that have
room, whatever has been planned. So the units planned and those left add up to those asked for, and a
request for more units plans what one for fewer does, and goes on.
-/

namespace TwowCore

namespace Player

section Fill

/-- Positions with room for so many units are filled in order, until no unit is left. -/
def fill : List (ItemPos × UInt32) → Plan → Plan
  | [], plan => plan
  | candidate :: rest, plan =>
      if plan.Contains candidate.1 then fill rest plan
      else if (plan.push candidate.1 candidate.2).count = 0 then plan.push candidate.1 candidate.2
      else fill rest (plan.push candidate.1 candidate.2)

/-- The units planned and those left. -/
def inHand (plan : Plan) : ℕ := planned plan.dest + plan.count.toNat

variable {candidates : List (ItemPos × UInt32)} {plan plan' : Plan} {pos : ItemPos} {room : UInt32}

/-- What a push takes. -/
theorem push_eq (plan : Plan) (pos : ItemPos) (hroom : room.toNat ≤ 255) :
    planned (plan.push pos room).dest = planned plan.dest + min plan.count.toNat room.toNat ∧
      (plan.push pos room).count.toNat = plan.count.toNat - min plan.count.toNat room.toNat := by
  have hplanned : ∀ need : UInt32, need.toNat ≤ 255 →
      planned (plan.dest ++ [⟨pos, need.toUInt8⟩]) = planned plan.dest + need.toNat := by
    intro need hneed
    have hbyte : need.toUInt8.toNat = need.toNat := by
      rw [UInt32.toNat_toUInt8]
      omega
    simp [planned, hbyte]
  unfold Plan.push
  dsimp only
  split_ifs with hless
  · rw [UInt32.lt_iff_toNat_lt] at hless
    rw [hplanned _ (by omega), min_eq_left hless.le, UInt32.sub_self]
    exact ⟨rfl, by simp⟩
  · rw [UInt32.lt_iff_toNat_lt, not_lt] at hless
    rw [hplanned _ hroom, min_eq_right hless, UInt32.toNat_sub_of_le _ _ hless]
    exact ⟨rfl, rfl⟩

theorem inHand_push (plan : Plan) (pos : ItemPos) (hroom : room.toNat ≤ 255) :
    inHand (plan.push pos room) = inHand plan := by
  obtain ⟨hdest, hcount⟩ := push_eq plan pos hroom
  unfold inHand
  omega

/-- Filling loses no unit, and plans no fewer. -/
theorem fill_spec (hroom : ∀ candidate ∈ candidates, candidate.2.toNat ≤ 255) (plan : Plan) :
    inHand (fill candidates plan) = inHand plan ∧
      planned plan.dest ≤ planned (fill candidates plan).dest := by
  induction candidates generalizing plan with
  | nil => exact ⟨rfl, le_refl _⟩
  | cons candidate rest ih =>
      have hrest : ∀ other ∈ rest, other.2.toNat ≤ 255 := fun other hother =>
        hroom other (List.mem_cons_of_mem _ hother)
      have hhere := hroom candidate List.mem_cons_self
      have hpush := inHand_push plan candidate.1 hhere
      obtain ⟨hdest, -⟩ := push_eq plan candidate.1 hhere
      unfold fill
      split_ifs
      · exact ih hrest plan
      · exact ⟨hpush, by omega⟩
      · obtain ⟨hsame, hmore⟩ := ih hrest (plan.push candidate.1 candidate.2)
        exact ⟨hsame.trans hpush, by omega⟩

/-- The same positions are planned, with `k` more units left. -/
structure Ahead (k : ℕ) (plan plan' : Plan) : Prop where
  dest : plan'.dest = plan.dest
  count : plan'.count.toNat = plan.count.toNat + k

/-- With more units filling goes on where it stops with fewer. -/
theorem fill_ahead {k : ℕ} (hroom : ∀ candidate ∈ candidates, candidate.2.toNat ≤ 255)
    (h : Ahead k plan plan') (hopen : plan.count ≠ 0) :
    ((fill candidates plan).count = 0 ∧
        planned (fill candidates plan).dest ≤ planned (fill candidates plan').dest) ∨
      ((fill candidates plan).count ≠ 0 ∧
        Ahead k (fill candidates plan) (fill candidates plan')) := by
  induction candidates generalizing plan plan' with
  | nil => exact Or.inr ⟨hopen, h⟩
  | cons candidate rest ih =>
      have hrest : ∀ other ∈ rest, other.2.toNat ≤ 255 := fun other hother =>
        hroom other (List.mem_cons_of_mem _ hother)
      have hhere := hroom candidate List.mem_cons_self
      have hcontains : plan'.Contains candidate.1 ↔ plan.Contains candidate.1 := by
        unfold Plan.Contains
        rw [h.dest]
      have hcount := h.count
      obtain ⟨hdest, hleft⟩ := push_eq plan candidate.1 hhere
      obtain ⟨hdest', hleft'⟩ := push_eq plan' candidate.1 hhere
      unfold fill
      by_cases hold : plan.Contains candidate.1
      · rw [if_pos hold, if_pos (hcontains.mpr hold)]
        exact ih hrest h hopen
      · rw [if_neg hold, if_neg fun hmem => hold (hcontains.mp hmem)]
        by_cases hdone : (plan.push candidate.1 candidate.2).count = 0
        · -- the fewer units are all planned here; the others may go on
          left
          rw [if_pos hdone]
          refine ⟨hdone, ?_⟩
          rw [h.dest] at hdest'
          have hmore : planned (plan'.push candidate.1 candidate.2).dest ≤ planned
              (if (plan'.push candidate.1 candidate.2).count = 0 then
                plan'.push candidate.1 candidate.2
              else fill rest (plan'.push candidate.1 candidate.2)).dest := by
            split_ifs
            · exact le_refl _
            · exact (fill_spec hrest _).2
          omega
        · rw [if_neg hdone]
          have hleft₀ : (plan.push candidate.1 candidate.2).count.toNat ≠ 0 := fun hzero =>
            hdone (UInt32.toNat.inj hzero)
          have hdone' : (plan'.push candidate.1 candidate.2).count ≠ 0 := by
            intro hzero
            have hzero' : (plan'.push candidate.1 candidate.2).count.toNat = 0 := by rw [hzero]; rfl
            omega
          rw [if_neg hdone']
          refine ih hrest ⟨?_, by omega⟩ hdone
          -- a position that leaves units over is filled up by both
          have hless : ∀ {count : UInt32}, ¬count.toNat - min count.toNat candidate.2.toNat = 0 →
              ¬count < candidate.2 := by
            intro count hmore hlt
            rw [UInt32.lt_iff_toNat_lt] at hlt
            omega
          unfold Plan.push
          rw [if_neg (hless (by omega)), if_neg (hless (by omega)), h.dest]

end Fill

section Stages

/-- A search fails, whatever has been planned, or fills positions, whatever has been planned. -/
def Fills (stage : Stage) : Prop :=
  (∃ res, res ≠ .ok ∧ ∀ plan, stage.search plan = .error res) ∨
    ∃ candidates : List (ItemPos × UInt32), (∀ candidate ∈ candidates, candidate.2.toNat ≤ 255) ∧
      ∀ plan, stage.search plan = .ok (fill candidates plan)

variable {T : ItemTable} {p : Player T} {proto : ItemPrototype} {src : Option (SrcItem T)}

/-- The positions that the loop of a search fills. -/
def candidates (p : Player T) (proto : ItemPrototype) (merge : Bool) (src : Option (SrcItem T))
    (positions : List ItemPos) : List (ItemPos × UInt32) :=
  positions.filterMap fun pos => (p.slotRoom proto merge src pos).map fun room => (pos, room)

theorem planSlots_eq (merge : Bool) (positions : List ItemPos) (plan : Plan) :
    p.planSlots proto merge src positions plan =
      fill (p.candidates proto merge src positions) plan := by
  induction positions generalizing plan with
  | nil => rfl
  | cons pos rest ih =>
      unfold planSlots candidates
      rw [List.filterMap_cons]
      cases hroom : p.slotRoom proto merge src pos with
      | none => exact ih plan
      | some room =>
          simp only [Option.map_some, fill, ih]
          rfl

variable (hpos : 1 ≤ proto.stackable) (hle : proto.stackable ≤ 255)

include hpos hle

theorem room_candidates {merge : Bool} {positions : List ItemPos} :
    ∀ candidate ∈ p.candidates proto merge src positions, candidate.2.toNat ≤ 255 := by
  intro candidate hcandidate
  obtain ⟨pos, -, hfound⟩ := List.mem_filterMap.mp hcandidate
  obtain ⟨room, hroom, heq⟩ := Option.map_eq_some_iff.mp hfound
  rw [← heq]
  exact ((roomAt_of_slotRoom hroom).bounds hpos hle).2

theorem fills_inSlots (bag slot first last : UInt8) (merge : Bool) :
    Fills ((⟨p, proto, src, bag, slot⟩ : Request T).inSlots first last merge) := by
  unfold Fills Request.inSlots canStoreItemInInventorySlots
  cases movesNonEmptyBag src with
  | true => exact Or.inl ⟨.canOnlyDoWithEmptyBags, by decide, fun _ => rfl⟩
  | false => exact Or.inr ⟨_, room_candidates hpos hle, fun plan => congrArg _ (planSlots_eq _ _ plan)⟩

/-- So does a search through a bag. -/
theorem fills_inBag (p : Player T) (src : Option (SrcItem T)) (bag : UInt8) (merge nonSpecialized : Bool) (skipBag skipSlot : UInt8) :
    (∃ res, res ≠ .ok ∧ ∀ plan,
      p.canStoreItemInBag bag proto merge nonSpecialized src skipBag skipSlot plan = .error res) ∨
    ∃ candidates : List (ItemPos × UInt32), (∀ candidate ∈ candidates, candidate.2.toNat ≤ 255) ∧
      ∀ plan, p.canStoreItemInBag bag proto merge nonSpecialized src skipBag skipSlot plan =
        .ok (fill candidates plan) := by
  unfold canStoreItemInBag
  split
  · exact Or.inl ⟨_, by decide, fun _ => rfl⟩
  · split
    · exact Or.inl ⟨_, by decide, fun _ => rfl⟩
    · split
      · exact Or.inl ⟨_, by decide, fun _ => rfl⟩
      · split
        · exact Or.inl ⟨_, by decide, fun _ => rfl⟩
        · split
          · exact Or.inl ⟨_, by decide, fun _ => rfl⟩
          · exact Or.inr ⟨_, room_candidates hpos hle, fun plan =>
              congrArg _ (planSlots_eq _ _ plan)⟩

theorem fills_inBags (bag slot : UInt8) (merge nonSpecialized : Bool) :
    ∀ stage ∈ (⟨p, proto, src, bag, slot⟩ : Request T).inBags merge nonSpecialized, Fills stage := by
  intro stage hstage
  obtain ⟨carried, -, rfl⟩ := List.mem_map.mp hstage
  exact fills_inBag hpos hle p src carried merge nonSpecialized bag slot

theorem fills_inSpecificBag (bag slot : UInt8) (merge : Bool) :
    Fills ((⟨p, proto, src, bag, slot⟩ : Request T).inSpecificBag merge) := by
  have hplain := fills_inBag hpos hle p src bag merge true nullBag slot
  unfold Fills Request.inSpecificBag
  dsimp only
  rcases fills_inBag hpos hle p src bag merge false nullBag slot with
    ⟨res, -, herror⟩ | ⟨filled, hroom, hok⟩
  · rcases hplain with ⟨other, hne, hother⟩ | ⟨filled, hroom, hok⟩
    · exact Or.inl ⟨other, hne, fun plan => by rw [herror plan, hother plan]⟩
    · exact Or.inr ⟨filled, hroom, fun plan => by rw [herror plan, hok plan]⟩
  · exact Or.inr ⟨filled, hroom, fun plan => by rw [hok plan]⟩

theorem fills_specificSlot (pos : ItemPos) (swap : Bool) :
    Fills ⟨.required, p.canStoreItemInSpecificSlot pos proto swap src⟩ := by
  have hplace : ∀ room : UInt32, room.toNat ≤ 255 → ∀ plan : Plan,
      (if plan.Contains pos then plan else plan.push pos room) = fill [(pos, room)] plan := by
    intro room _ plan
    simp only [fill]
    split_ifs
    · rfl
    · rfl
    · rfl
  have hwhole : proto.stackable.toNat ≤ 255 := hle
  have hfree : ∀ plan : Plan, (if plan.Contains pos then plan else plan.push pos proto.stackable) =
      fill [(pos, proto.stackable)] plan := hplace _ hwhole
  have hfilled : ∀ room : UInt32, room.toNat ≤ 255 →
      ∀ candidate ∈ [(pos, room)], candidate.2.toNat ≤ 255 := by
    intro room hroom candidate hcandidate
    rw [List.mem_singleton.mp hcandidate]
    exact hroom
  -- what is in the slot does not count when it is swapped
  have hswap : Fills ⟨.required, p.canStoreItemInSpecificSlot pos proto true src⟩ := by
    unfold Fills canStoreItemInSpecificSlot
    cases movesNonEmptyBag src with
    | true => exact Or.inl ⟨.canOnlyDoWithEmptyBags, by decide, fun _ => rfl⟩
    | false =>
        cases p.otherItemByPos src pos
        all_goals
          simp only [Bool.false_eq_true, ↓reduceIte]
          split
          · split
            · exact Or.inl ⟨_, by decide, fun _ => rfl⟩
            · split
              · exact Or.inl ⟨_, by decide, fun _ => rfl⟩
              · exact Or.inr ⟨_, hfilled _ hwhole, fun plan => congrArg _ (hfree plan)⟩
          · cases p.otherItemByPos src ⟨inventorySlotBag0, pos.bag⟩ with
            | none => exact Or.inl ⟨_, by decide, fun _ => rfl⟩
            | some bag =>
                dsimp only
                split
                · exact Or.inl ⟨_, by decide, fun _ => rfl⟩
                · split
                  · exact Or.inl ⟨_, by decide, fun _ => rfl⟩
                  · exact Or.inr ⟨_, hfilled _ hwhole, fun plan => congrArg _ (hfree plan)⟩
  cases swap with
  | true => exact hswap
  | false =>
      unfold Fills canStoreItemInSpecificSlot at hswap ⊢
      cases hmoves : movesNonEmptyBag src with
      | true => exact Or.inl ⟨.canOnlyDoWithEmptyBags, by decide, fun _ => rfl⟩
      | false =>
          rw [hmoves] at hswap
          cases hitem : p.otherItemByPos src pos with
          | none =>
              rw [hitem] at hswap
              exact hswap
          | some item2 =>
              dsimp only
              cases hmerge : item2.canBeMergedPartlyWith proto with
              | ok =>
                  obtain ⟨hentry, hlt, -⟩ := Item.canBeMergedPartlyWith_ok.mp hmerge
                  have hroom : p.RoomAt proto src pos (proto.stackable - item2.count) := by
                    simp [RoomAt, hitem, hentry, hlt]
                  have hbound := (hroom.bounds hpos hle).2
                  refine Or.inr ⟨_, hfilled _ hbound, fun plan => ?_⟩
                  rw [← hplace _ hbound plan]
                  rfl
              | _ => exact Or.inl ⟨_, by decide, fun _ => rfl⟩

end Stages

section Runs

variable {stages : List Stage} {noSimilarCount : UInt32} {plan plan' : Plan}

/-- A stage that is no check between two searches. -/
def Searches (stages : List Stage) : Prop := ∀ stage ∈ stages, Fills stage ∧ stage.kind ≠ .guard

theorem allPlaced_dest (noSimilarCount : UInt32) (dest : List ItemPosCount) :
    (allPlaced noSimilarCount dest).dest = dest := by
  unfold allPlaced
  split_ifs
  · rfl
  · rfl

/-- The units that are not planned are reported, together with those above the limit. -/
theorem runStages_left (noSimilarCount : UInt32) (h : Searches stages) (plan : Plan) :
    planned plan.dest ≤ planned (runStages noSimilarCount stages plan).dest ∧
      ∃ left : UInt32,
        planned (runStages noSimilarCount stages plan).dest + left.toNat = inHand plan ∧
        ((runStages noSimilarCount stages plan).noSpaceCount = some (left + noSimilarCount) ∨
          (runStages noSimilarCount stages plan).noSpaceCount = none ∧ left = 0 ∧
            noSimilarCount = 0) := by
  induction stages generalizing plan with
  | nil => exact ⟨le_refl _, plan.count, rfl, Or.inl rfl⟩
  | cons stage rest ih =>
      have hrest : Searches rest := fun other hother => h other (List.mem_cons_of_mem _ hother)
      obtain ⟨hfills, hkind⟩ := h stage List.mem_cons_self
      rcases hfills with ⟨res, -, herror⟩ | ⟨filled, hroom, hok⟩
      · unfold runStages
        rw [herror plan]
        cases hstage : stage.kind with
        | required => exact ⟨le_refl _, plan.count, rfl, Or.inl rfl⟩
        | optional => exact ih hrest plan
        | guard => exact absurd hstage hkind
      · obtain ⟨hsame, hmore⟩ := fill_spec hroom plan
        unfold runStages
        simp only [hok plan]
        split_ifs with hdone
        · rw [allPlaced_dest]
          refine ⟨hmore, 0, ?_, ?_⟩
          · rw [← hsame]
            unfold inHand
            rw [hdone.2]
          · unfold allPlaced
            split_ifs with hzero
            · exact Or.inr ⟨rfl, rfl, hzero⟩
            · rw [UInt32.zero_add]
              exact Or.inl rfl
        · obtain ⟨hlater, left, hsum, hreport⟩ := ih hrest (fill filled plan)
          exact ⟨hmore.trans hlater, left, hsum.trans hsame, hreport⟩

/-- A request for fewer units is placed when one for more units plans at least as many; otherwise both
plan the same. -/
theorem runStages_ahead (noSimilarCount : UInt32) {k : ℕ} (h : Searches stages) (hahead : Ahead k plan plan')
    (hopen : plan.count ≠ 0) :
    ((runStages 0 stages plan).result = .ok ∧
        inHand plan ≤ planned (runStages noSimilarCount stages plan').dest) ∨
      ((runStages 0 stages plan).result ≠ .ok ∧
        planned (runStages noSimilarCount stages plan').dest < inHand plan) := by
  have hleft : ∀ plan : Plan, plan.count ≠ 0 → planned plan.dest < inHand plan := by
    intro plan hne
    have hcount : plan.count.toNat ≠ 0 := fun hzero => hne (UInt32.toNat.inj hzero)
    unfold inHand
    omega
  induction stages generalizing plan plan' with
  | nil =>
      refine Or.inr ⟨by unfold runStages; exact InventoryResult.noConfusion, ?_⟩
      show planned plan'.dest < _
      rw [hahead.dest]
      exact hleft plan hopen
  | cons stage rest ih =>
      have hrest : Searches rest := fun other hother => h other (List.mem_cons_of_mem _ hother)
      obtain ⟨hfills, hkind⟩ := h stage List.mem_cons_self
      rcases hfills with ⟨res, hres, herror⟩ | ⟨filled, hroom, hok⟩
      · unfold runStages
        rw [herror plan, herror plan']
        cases hstage : stage.kind with
        | required =>
            refine Or.inr ⟨hres, ?_⟩
            show planned plan'.dest < _
            rw [hahead.dest]
            exact hleft plan hopen
        | optional => exact ih hrest hahead hopen
        | guard => exact absurd hstage hkind
      · obtain ⟨hsame, -⟩ := fill_spec hroom plan
        unfold runStages
        simp only [hok plan, hok plan']
        rcases fill_ahead hroom hahead hopen with ⟨hdone, hmore⟩ | ⟨hmore, hahead'⟩
        · -- the fewer units are all placed by this search
          left
          rw [if_pos ⟨hkind, hdone⟩]
          refine ⟨rfl, ?_⟩
          have hall : inHand plan = planned (fill filled plan).dest := by
            rw [← hsame]
            unfold inHand
            rw [hdone]
            rfl
          rw [hall]
          refine hmore.trans ?_
          split_ifs
          · rw [allPlaced_dest]
          · exact (runStages_left noSimilarCount hrest (fill filled plan')).1
        · have hmore' : (fill filled plan').count ≠ 0 := by
            intro hzero
            have hcount := hahead'.count
            rw [hzero] at hcount
            have hne : (fill filled plan).count.toNat ≠ 0 := fun hzero => hmore (UInt32.toNat.inj hzero)
            have hnil : (0 : UInt32).toNat = 0 := rfl
            omega
          rw [if_neg fun hdone => hmore hdone.2, if_neg fun hdone => hmore' hdone.2, ← hsame]
          exact ih hrest hahead' hmore

/-- Checks that refuse nothing can be left out. -/
theorem runStages_filter
    (hpass : ∀ stage ∈ stages, stage.kind = .guard → ∀ plan, stage.search plan = .ok plan) (plan : Plan) :
    runStages noSimilarCount stages plan =
      runStages noSimilarCount (stages.filter fun stage => stage.kind ≠ .guard) plan := by
  induction stages generalizing plan with
  | nil => rfl
  | cons stage rest ih =>
      have ih := ih fun other hother => hpass other (List.mem_cons_of_mem _ hother)
      by_cases hkind : stage.kind = .guard
      · rw [List.filter_cons_of_neg (by simpa using hkind)]
        have hsearch := hpass stage List.mem_cons_self hkind plan
        rw [← ih plan]
        conv_lhs => unfold runStages
        simp only [hsearch, hkind, ne_eq, not_true_eq_false, false_and, if_false]
      · rw [List.filter_cons_of_pos (by simpa using hkind)]
        conv_lhs => unfold runStages
        conv_rhs => unfold runStages
        simp only [ih]

end Runs

section Requests

variable {T : ItemTable} {r : Request T} {swap : Bool} {stage : Stage} {noSimilarCount : UInt32}

/-- The searches for room find it for so many units. -/
def HasRoom (r : Request T) (swap : Bool) (count : UInt32) : Prop :=
  (runStages 0 (r.stages swap) ⟨[], count⟩).result = .ok

/-- A check refuses the request, and reports nothing: the slot asked for is none, or a bag with something
in it is to go anywhere and there is no earlier search that refuses it. -/
def Refuses (r : Request T) : Prop :=
  (r.bag = inventorySlotBag0 ∧ r.slot ≠ nullSlot ∧ keyringSlotEnd ≤ r.slot) ∨
    (r.bag = nullBag ∧ movesNonEmptyBag r.src = true ∧ ¬1 < r.proto.stackable ∧ r.isKey = false)

@[simp] theorem guardStage_kind (refuse : Bool) (res : InventoryResult) :
    (guardStage refuse res).kind = .guard := rfl

theorem guardStage_pass (res : InventoryResult) (plan : Plan) :
    (guardStage false res).search plan = .ok plan := rfl

/-- The stages are searches, apart from two checks. -/
theorem mem_stages (hpos : 1 ≤ r.proto.stackable) (hle : r.proto.stackable ≤ 255)
    (h : stage ∈ r.stages swap) :
    (stage.kind ≠ .guard ∧ Fills stage) ∨
      (stage = guardStage (r.bag == inventorySlotBag0 && decide (keyringSlotEnd ≤ r.slot))
          .itemDoesntGoToSlot ∧ r.bag ≠ nullBag ∧ r.slot ≠ nullSlot) ∨
      stage = guardStage (movesNonEmptyBag r.src) .nonemptyBagOverOtherBag := by
  have hslots : ∀ first last merge,
      (r.inSlots first last merge).kind ≠ .guard ∧ Fills (r.inSlots first last merge) :=
    fun first last merge => ⟨StageKind.noConfusion, fills_inSlots hpos hle _ _ _ _ _⟩
  have hbags : ∀ merge nonSpecialized, ∀ stage ∈ r.inBags merge nonSpecialized,
      stage.kind ≠ .guard ∧ Fills stage := by
    intro merge nonSpecialized stage hstage
    refine ⟨?_, fills_inBags hpos hle _ _ _ _ stage hstage⟩
    obtain ⟨bag, -, rfl⟩ := List.mem_map.mp hstage
    exact StageKind.noConfusion
  have hspecific : ∀ merge, (r.inSpecificBag merge).kind ≠ .guard ∧ Fills (r.inSpecificBag merge) :=
    fun merge => ⟨StageKind.noConfusion, fills_inSpecificBag hpos hle _ _ _⟩
  simp only [Request.stages, List.mem_append] at h
  rcases h with ((h | h) | h) | h
  · unfold Request.specificSlotStages at h
    split at h
    · rename_i htarget
      simp only [List.mem_cons, List.not_mem_nil, or_false] at h
      rcases h with rfl | rfl
      · exact Or.inr (Or.inl ⟨rfl, htarget⟩)
      · exact Or.inl ⟨StageKind.noConfusion, fills_specificSlot hpos hle _ _⟩
    · cases h
  · left
    unfold Request.specificBagStages at h
    split_ifs at h <;>
      simp only [List.mem_append, List.mem_cons, List.not_mem_nil, or_false, false_or] at h <;>
      grind
  · left
    unfold Request.mergeStages at h
    split_ifs at h <;>
      simp only [List.mem_append, List.mem_cons, List.not_mem_nil, or_false] at h <;>
      grind
  · unfold Request.freeStages at h
    split_ifs at h <;>
      simp only [List.mem_append, List.mem_cons, List.not_mem_nil, or_false, false_or] at h <;>
      grind

/-- A required search that fails ends a request. -/
theorem runStages_required {rest : List Stage} {res : InventoryResult} {plan : Plan}
    (hkind : stage.kind = .required) (herror : stage.search plan = .error res) :
    runStages noSimilarCount (stage :: rest) plan =
      ⟨res, plan.dest, some (plan.count + noSimilarCount)⟩ := by
  unfold runStages
  simp only [herror, hkind]

/-- Optional searches that fail are passed over. -/
theorem runStages_optional {first rest : List Stage} {plan : Plan}
    (h : ∀ stage ∈ first, stage.kind = .optional ∧ ∃ res, stage.search plan = .error res) :
    runStages noSimilarCount (first ++ rest) plan = runStages noSimilarCount rest plan := by
  induction first with
  | nil => rfl
  | cons stage others ih =>
      obtain ⟨hkind, res, herror⟩ := h stage List.mem_cons_self
      rw [List.cons_append]
      conv_lhs => unfold runStages
      simp only [herror, hkind]
      exact ih fun other hother => h other (List.mem_cons_of_mem _ hother)

/-- A bag with something in it goes into no bag. -/
theorem inBag_moves (hmoves : movesNonEmptyBag r.src = true) (bag : UInt8)
    (merge nonSpecialized : Bool) (skipBag skipSlot : UInt8) (plan : Plan) :
    ∃ res, res ≠ .ok ∧ r.player.canStoreItemInBag bag r.proto merge nonSpecialized r.src skipBag
      skipSlot plan = .error res := by
  unfold canStoreItemInBag
  split
  · exact ⟨_, by decide, rfl⟩
  · split
    · exact ⟨_, by decide, rfl⟩
    · exact ⟨_, by decide, rfl⟩

theorem inBags_moves (hmoves : movesNonEmptyBag r.src = true) (merge nonSpecialized : Bool)
    (plan : Plan) : ∀ stage ∈ r.inBags merge nonSpecialized,
      stage.kind = .optional ∧ ∃ res, stage.search plan = .error res := by
  intro stage hstage
  obtain ⟨bag, -, rfl⟩ := List.mem_map.mp hstage
  obtain ⟨res, -, herror⟩ := inBag_moves hmoves bag merge nonSpecialized r.bag r.slot plan
  exact ⟨rfl, res, herror⟩

/-- A request that is refused reports nothing. -/
theorem runStages_refused (noSimilarCount : UInt32) (swap : Bool) (h : Refuses r) (plan : Plan) :
    ∃ res, res ≠ .ok ∧ runStages noSimilarCount (r.stages swap) plan = ⟨res, plan.dest, none⟩ := by
  rcases h with ⟨hbag, hslot, hnone⟩ | ⟨hbag, hmoves, hstack, hkey⟩
  · refine ⟨.itemDoesntGoToSlot, by decide, ?_⟩
    have htarget : r.bag ≠ nullBag ∧ r.slot ≠ nullSlot := ⟨by rw [hbag]; decide, hslot⟩
    unfold Request.stages Request.specificSlotStages
    rw [if_pos htarget, hbag]
    simp only [List.cons_append]
    unfold runStages
    simp [guardStage, hnone]
  · refine ⟨.nonemptyBagOverOtherBag, by decide, ?_⟩
    have hguard : ∀ rest : List Stage, runStages noSimilarCount
        (guardStage (movesNonEmptyBag r.src) .nonemptyBagOverOtherBag :: rest) plan =
          ⟨.nonemptyBagOverOtherBag, plan.dest, none⟩ := by
      intro rest
      rw [hmoves]
      unfold runStages
      rfl
    unfold Request.stages Request.specificSlotStages Request.specificBagStages Request.mergeStages
      Request.freeStages
    rw [if_neg fun htarget => htarget.1 hbag, if_neg fun htarget => htarget hbag, if_neg hstack, hkey]
    simp only [List.nil_append, Bool.false_eq_true, if_false]
    split_ifs
    · rw [List.append_assoc, runStages_optional (inBags_moves hmoves false false plan)]
      exact hguard _
    · exact hguard _

/-- The first check passes when the request is not refused. -/
theorem flag_of_not_refuses (h : ¬Refuses r) (hslot : r.slot ≠ nullSlot) :
    (r.bag == inventorySlotBag0 && decide (keyringSlotEnd ≤ r.slot)) = false := by
  rw [Bool.and_eq_false_iff, beq_eq_false_iff_ne, decide_eq_false_iff_not]
  by_contra hnot
  rw [not_or, not_not, not_not] at hnot
  exact h (Or.inl ⟨hnot.1, hslot, hnot.2⟩)

/-- A request for a bag with something in it that is not refused by a check is refused by the first
search, and reported. -/
theorem runStages_moves (noSimilarCount : UInt32) (swap : Bool) (hmoves : movesNonEmptyBag r.src = true) (h : ¬Refuses r) (plan : Plan) :
    ∃ res, res ≠ .ok ∧ runStages noSimilarCount (r.stages swap) plan =
      ⟨res, plan.dest, some (plan.count + noSimilarCount)⟩ := by
  have hslots : ∀ first last merge rest,
      runStages noSimilarCount (r.inSlots first last merge :: rest) plan =
        ⟨.canOnlyDoWithEmptyBags, plan.dest, some (plan.count + noSimilarCount)⟩ := by
    intro first last merge rest
    refine runStages_required rfl ?_
    unfold Request.inSlots canStoreItemInInventorySlots
    simp only [hmoves, if_true]
  have hspecific : ∀ merge rest, ∃ res, res ≠ .ok ∧
      runStages noSimilarCount (r.inSpecificBag merge :: rest) plan =
        ⟨res, plan.dest, some (plan.count + noSimilarCount)⟩ := by
    intro merge rest
    obtain ⟨res, -, herror⟩ := inBag_moves hmoves r.bag merge false nullBag r.slot plan
    obtain ⟨other, hne, hother⟩ := inBag_moves hmoves r.bag merge true nullBag r.slot plan
    refine ⟨other, hne, runStages_required rfl ?_⟩
    unfold Request.inSpecificBag
    simp only [herror, hother]
  unfold Request.stages
  by_cases hbag : r.bag = nullBag
  · unfold Request.specificSlotStages Request.specificBagStages
    rw [if_neg fun htarget => htarget.1 hbag, if_neg fun htarget => htarget hbag]
    simp only [List.nil_append]
    by_cases hstack : 1 < r.proto.stackable
    · unfold Request.mergeStages
      rw [if_pos hstack]
      simp only [List.cons_append]
      exact ⟨_, by decide, hslots _ _ _ _⟩
    · have hkey : r.isKey = true := by
        by_contra hnot
        exact h (Or.inr ⟨hbag, hmoves, hstack, Bool.eq_false_iff.mpr hnot⟩)
      have hfamily : r.proto.bagFamily ≠ 0 := by
        unfold Request.isKey at hkey
        rw [beq_iff_eq.mp hkey]
        decide
      unfold Request.mergeStages Request.freeStages
      rw [if_neg hstack, if_pos hfamily, hkey]
      simp only [if_true, List.nil_append, List.cons_append]
      exact ⟨_, by decide, hslots _ _ _ _⟩
  · by_cases hslot : r.slot = nullSlot
    · unfold Request.specificSlotStages Request.specificBagStages
      rw [if_neg fun htarget => htarget.2 hslot, if_pos hbag, List.nil_append]
      by_cases hdirect : r.bag = inventorySlotBag0
      · simp only [hdirect, if_true]
        split_ifs
        · exact ⟨_, by decide, hslots _ _ _ _⟩
        · exact ⟨_, by decide, hslots _ _ _ _⟩
        · exact ⟨_, by decide, hslots _ _ _ _⟩
        · exact ⟨_, by decide, hslots _ _ _ _⟩
      · simp only [hdirect, if_false]
        split_ifs
        · exact hspecific _ _
        · exact hspecific _ _
    · unfold Request.specificSlotStages
      rw [if_pos ⟨hbag, hslot⟩, flag_of_not_refuses h hslot]
      simp only [List.cons_append]
      refine ⟨.canOnlyDoWithEmptyBags, by decide, ?_⟩
      unfold runStages
      simp only [guardStage_pass, guardStage_kind, ne_eq, not_true_eq_false, false_and, if_false]
      refine runStages_required rfl ?_
      unfold canStoreItemInSpecificSlot
      simp only [hmoves, if_true]

/-- Otherwise the checks do not matter. -/
theorem runStages_searches (swap : Bool) (hpos : 1 ≤ r.proto.stackable) (hle : r.proto.stackable ≤ 255)
    (hmoves : movesNonEmptyBag r.src = false) (h : ¬Refuses r) :
    ∃ stages, Searches stages ∧
      ∀ noSimilarCount plan, runStages noSimilarCount (r.stages swap) plan =
        runStages noSimilarCount stages plan := by
  refine ⟨(r.stages swap).filter fun stage => stage.kind ≠ .guard, fun stage hstage => ?_,
    fun noSimilarCount plan => runStages_filter (fun stage hstage hkind plan => ?_) plan⟩
  · obtain ⟨hin, hkind⟩ := List.mem_filter.mp hstage
    have hkind : stage.kind ≠ .guard := of_decide_eq_true hkind
    rcases mem_stages hpos hle hin with hsearch | ⟨rfl, -⟩ | rfl
    · exact ⟨hsearch.2, hkind⟩
    · exact absurd rfl hkind
    · exact absurd rfl hkind
  · rcases mem_stages hpos hle hstage with hsearch | ⟨rfl, -, hslot⟩ | rfl
    · exact absurd hkind hsearch.1
    · rw [flag_of_not_refuses h hslot]
      rfl
    · rw [hmoves]
      rfl

end Requests

section Accounting

variable {T : ItemTable} {r : Request T} {swap : Bool} {total noSimilarCount count : UInt32}

/-- The units that a result accounts for: those it reports, where nothing is reported none, and those it
has planned. -/
def accounted (result : StoreResult) : ℕ := (result.noSpaceCount.getD 0).toNat + planned result.dest

theorem inHand_nil (count : UInt32) : inHand ⟨[], count⟩ = count.toNat := Nat.zero_add _

/-- With no more units above the limit than are asked for, the units are accounted for unless the request
is refused. -/
theorem accounted_iff (hpos : 1 ≤ r.proto.stackable) (hle : r.proto.stackable ≤ 255)
    (hcount : total.toNat + noSimilarCount.toNat = count.toNat) :
    accounted (runStages noSimilarCount (r.stages swap) ⟨[], total⟩) = count.toNat ↔
      (count ≠ 0 → ¬Refuses r) := by
  have hlt := count.toNat_lt
  by_cases hrefuse : Refuses r
  · obtain ⟨res, -, hresult⟩ := runStages_refused noSimilarCount swap
      hrefuse ⟨[], total⟩
    rw [hresult]
    constructor
    · intro heq hne
      exact absurd (UInt32.toNat.inj heq.symm) hne
    · intro hnone
      by_contra hne
      refine hnone (fun hzero => hne ?_) hrefuse
      rw [hzero]
      rfl
  · refine iff_of_true ?_ fun _ => hrefuse
    have hadd : ∀ left : UInt32, left.toNat + noSimilarCount.toNat ≤ count.toNat →
        (left + noSimilarCount).toNat = left.toNat + noSimilarCount.toNat := by
      intro left hsum
      rw [UInt32.toNat_add]
      exact Nat.mod_eq_of_lt (by omega)
    cases hmoves : movesNonEmptyBag r.src with
    | true =>
        obtain ⟨res, -, hresult⟩ := runStages_moves noSimilarCount swap
          hmoves hrefuse ⟨[], total⟩
        rw [hresult]
        show (total + noSimilarCount).toNat + 0 = count.toNat
        rw [hadd total hcount.le, Nat.add_zero, hcount]
    | false =>
        obtain ⟨stages, hsearches, hstages⟩ := runStages_searches swap hpos hle hmoves hrefuse
        rw [hstages]
        obtain ⟨-, left, hsum, hreport⟩ := runStages_left noSimilarCount hsearches ⟨[], total⟩
        rw [inHand_nil] at hsum
        unfold accounted
        rcases hreport with hsome | ⟨hnone, hleft, hzero⟩
        · rw [hsome]
          show (left + noSimilarCount).toNat + _ = _
          rw [hadd left (by omega)]
          omega
        · have hleft : left.toNat = 0 := congrArg UInt32.toNat hleft
          have hzero : noSimilarCount.toNat = 0 := congrArg UInt32.toNat hzero
          rw [hnone]
          show 0 + _ = count.toNat
          omega

/-- With more units above the limit than are asked for, what is left of these wraps around, and the units
are accounted for when there is no room for more than were asked for. -/
theorem accounted_iff_of_wrap (hpos : 1 ≤ r.proto.stackable) (hle : r.proto.stackable ≤ 255)
    (hcount : total.toNat + noSimilarCount.toNat = 2 ^ 32 + count.toNat) :
    accounted (runStages noSimilarCount (r.stages swap) ⟨[], total⟩) = count.toNat ↔
      (count ≠ 0 → ¬Refuses r) ∧ ¬HasRoom r swap (count + 1) := by
  have htotal := total.toNat_lt
  have hsimilar := noSimilarCount.toNat_lt
  have hmore : (count + 1).toNat = count.toNat + 1 := by
    rw [UInt32.toNat_add]
    exact Nat.mod_eq_of_lt (by simp only [UInt32.reduceToNat]; omega)
  by_cases hrefuse : Refuses r
  · obtain ⟨res, -, hresult⟩ := runStages_refused noSimilarCount swap
      hrefuse ⟨[], total⟩
    obtain ⟨other, hne, hother⟩ := runStages_refused 0 swap hrefuse
      ⟨[], count + 1⟩
    have hroom : ¬HasRoom r swap (count + 1) := by
      unfold HasRoom
      rw [hother]
      exact hne
    rw [hresult]
    constructor
    · intro heq
      exact ⟨fun hne => absurd (UInt32.toNat.inj heq.symm) hne, hroom⟩
    · rintro ⟨hnone, -⟩
      by_contra hne
      refine hnone (fun hzero => hne ?_) hrefuse
      rw [hzero]
      rfl
  · rw [and_iff_right fun _ => hrefuse]
    cases hmoves : movesNonEmptyBag r.src with
    | true =>
        obtain ⟨res, -, hresult⟩ := runStages_moves noSimilarCount swap
          hmoves hrefuse ⟨[], total⟩
        obtain ⟨other, hne, hother⟩ := runStages_moves 0 swap hmoves
          hrefuse ⟨[], count + 1⟩
        have hroom : ¬HasRoom r swap (count + 1) := by
          unfold HasRoom
          rw [hother]
          exact hne
        rw [hresult]
        refine iff_of_true ?_ hroom
        show (total + noSimilarCount).toNat + 0 = count.toNat
        rw [UInt32.toNat_add, hcount]
        omega
    | false =>
        obtain ⟨stages, hsearches, hstages⟩ := runStages_searches swap hpos hle hmoves hrefuse
        obtain ⟨-, left, hsum, hreport⟩ := runStages_left noSimilarCount hsearches
          ⟨[], total⟩
        rw [inHand_nil] at hsum
        have hreported : (runStages noSimilarCount stages ⟨[], total⟩).noSpaceCount =
            some (left + noSimilarCount) := by
          rcases hreport with hsome | ⟨-, -, hzero⟩
          · exact hsome
          · rw [hzero] at hcount
            have hnil : (0 : UInt32).toNat = 0 := rfl
            omega
        have haccounted : accounted (runStages noSimilarCount stages ⟨[], total⟩) =
            (left.toNat + noSimilarCount.toNat) % 2 ^ 32 +
              planned (runStages noSimilarCount stages ⟨[], total⟩).dest := by
          unfold accounted
          rw [hreported]
          show (left + noSimilarCount).toNat + _ = _
          rw [UInt32.toNat_add]
        have hahead : Ahead (total.toNat - (count.toNat + 1)) ⟨[], count + 1⟩ ⟨[], total⟩ := by
          refine ⟨rfl, ?_⟩
          show total.toNat = (count + 1).toNat + _
          omega
        have hopen : (⟨[], count + 1⟩ : Plan).count ≠ 0 := by
          intro hzero
          have hzero : count + 1 = 0 := hzero
          rw [hzero] at hmore
          cases hmore
        unfold HasRoom
        rw [hstages, hstages, haccounted]
        rcases runStages_ahead noSimilarCount hsearches hahead hopen with
          ⟨hok, hplanned⟩ | ⟨hno, hplanned⟩
        · rw [inHand_nil, hmore] at hplanned
          refine iff_of_false ?_ fun hnot => hnot hok
          omega
        · rw [inHand_nil, hmore] at hplanned
          refine iff_of_true ?_ hno
          omega

/-- When the units of a request are accounted for: a request that comes to the searches is not refused by a
check that reports nothing; and for a character who has more than he may have of the item, there is no
room for more units than are asked for. -/
def AccountsWhen (p : Player T) (bag slot : UInt8) (entry count : UInt32) (src : Option (SrcItem T))
    (swap : Bool) : Prop :=
  ∀ proto, T.find entry = some proto →
    (src.any fun source => source.item.hasTemporaryLoot) = false →
    (src.any fun source => source.item.isBindedNotWith p.guid) = false →
    p.canTakeMoreSimilarItems proto count (src.bind SrcItem.pos) ≠ .error count →
      (count ≠ 0 → ¬Refuses ⟨p, proto, src, bag, slot⟩) ∧
        ∀ noSimilarCount,
          p.canTakeMoreSimilarItems proto count (src.bind SrcItem.pos) = .error noSimilarCount →
            count < noSimilarCount → ¬HasRoom ⟨p, proto, src, bag, slot⟩ swap (count + 1)

/-- Whatever `_CanStoreItem` answers, the units it reports and those it plans are the units asked for,
just when `AccountsWhen`. -/
theorem canStoreItemAt_accounted_iff (p : Player T) (bag slot : UInt8) (entry count : UInt32)
    (src : Option (SrcItem T)) (swap : Bool) :
    accounted (p.canStoreItemAt bag slot entry count src swap) = count.toNat ↔
      AccountsWhen p bag slot entry count src swap := by
  unfold canStoreItemAt AccountsWhen
  cases hfind : T.find entry with
  | none => exact iff_of_true rfl fun proto hproto => by cases hproto
  | some proto =>
      have hpos := T.stackable_pos hfind
      have hle := T.stackable_le hfind
      dsimp only
      cases hloot : src.any fun source => source.item.hasTemporaryLoot with
      | true => exact iff_of_true rfl fun _ _ habsurd => by cases habsurd
      | false =>
          cases hbound : src.any fun source => source.item.isBindedNotWith p.guid with
          | true => exact iff_of_true rfl fun _ _ _ habsurd => by cases habsurd
          | false =>
              simp only [Bool.false_eq_true, if_false]
              cases hlimit : p.canTakeMoreSimilarItems proto count (src.bind SrcItem.pos) with
              | ok =>
                  refine (accounted_iff (r := ⟨p, proto, src, bag, slot⟩) hpos hle (Nat.add_zero _)).trans
                    ⟨fun h other hother _ _ _ => ?_, fun h => ?_⟩
                  · cases hother
                    refine ⟨h, fun noSimilarCount hmore => ?_⟩
                    rw [hlimit] at hmore
                    cases hmore
                  · refine (h proto rfl trivial trivial fun heq => ?_).1
                    rw [hlimit] at heq
                    cases heq
              | error noSimilarCount =>
                  dsimp only
                  by_cases hall : count = noSimilarCount
                  · rw [if_pos hall]
                    refine iff_of_true ?_ fun other hother _ _ hne => ?_
                    · show noSimilarCount.toNat + 0 = count.toNat
                      rw [hall, Nat.add_zero]
                    · cases hother
                      rw [hlimit, ← hall] at hne
                      exact absurd rfl hne
                  · rw [if_neg hall]
                    have hne : p.canTakeMoreSimilarItems proto count (src.bind SrcItem.pos) ≠
                        .error count := by
                      rw [hlimit]
                      exact fun heq => hall (Except.error.inj heq).symm
                    by_cases hwrap : count < noSimilarCount
                    · have hsub : (count - noSimilarCount).toNat + noSimilarCount.toNat =
                          2 ^ 32 + count.toNat := by
                        have hlt := count.toNat_lt
                        have hsimilar := noSimilarCount.toNat_lt
                        rw [UInt32.lt_iff_toNat_lt] at hwrap
                        rw [UInt32.toNat_sub]
                        omega
                      refine (accounted_iff_of_wrap (r := ⟨p, proto, src, bag, slot⟩) hpos hle hsub).trans
                        ⟨fun h other hother _ _ _ => ?_, fun h => ?_⟩
                      · cases hother
                        exact ⟨h.1, fun _ _ _ => h.2⟩
                      · obtain ⟨hchecks, hroom⟩ := h proto rfl trivial trivial hne
                        exact ⟨hchecks, hroom noSimilarCount hlimit hwrap⟩
                    · have hsub : (count - noSimilarCount).toNat + noSimilarCount.toNat =
                          count.toNat := by
                        have hle := UInt32.not_lt.mp hwrap
                        rw [UInt32.toNat_sub_of_le _ _ hle]
                        rw [UInt32.le_iff_toNat_le] at hle
                        omega
                      refine (accounted_iff (r := ⟨p, proto, src, bag, slot⟩) hpos hle hsub).trans
                        ⟨fun h other hother _ _ _ => ?_, fun h => ?_⟩
                      · cases hother
                        refine ⟨h, fun other hother hless => ?_⟩
                        rw [hlimit] at hother
                        cases hother
                        exact absurd hless hwrap
                      · exact (h proto rfl trivial trivial hne).1

end Accounting

section Example

/-- Linen Cloth of which a character may have one unit. -/
def rareCloth : ItemTable := .ofList [{ linenCloth with maxCount := 1 }] (by decide)

/-- A stack of three units of it. -/
def rareLinen : Item rareCloth :=
  { guid := 500, proto := { linenCloth with maxCount := 1 }, listed := rfl, count := 3, ownerGuid := 7
    creator := 0, giftCreator := 0, duration := 0, spellCharges := [], flags := 0, enchantments := []
    randomPropertyId := 0, transmogrifyId := 0, durability := 0, itemTextId := 0
    generatedLoot := false, hasGeneratedLoot := false, hasTemporaryLoot := false
    tradeAllowed := false, inTrade := false }

/-- A character who carries that stack. -/
def hoarder : Player rareCloth :=
  ⟨7, fun pos => if pos = ⟨255, 23⟩ then some rareLinen else none, 0, 1000⟩

/-- One unit more is asked for: 317 are planned, and what is reported does not make up for it. In a slot
that there is not, none is planned and none reported. -/
theorem hoarder_accounted :
    planned (hoarder.canStoreItemAt nullBag nullSlot 2589 1 none false).dest = 317 ∧
      accounted (hoarder.canStoreItemAt nullBag nullSlot 2589 1 none false) = 2 ^ 32 + 1 ∧
      accounted (hoarder.canStoreItemAt inventorySlotBag0 113 2589 1 none false) = 0 := by
  decide +kernel

end Example

end Player

end TwowCore
