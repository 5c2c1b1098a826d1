import TwowCore.Player.PlanSpec

/-!
# Searching for a swap

A request that is part of a swap treats the slot asked for as free, whatever lies there: the caller takes it
out before anything is stored. No other search looks into the slot again, since it is in the plan by then. So
the request plans what a plain one would plan without the item, unless it is a bag of which the other searches
plan slots.
-/

namespace TwowCore

namespace Player

variable {T : ItemTable} {p : Player T} {proto : ItemPrototype} {src : Option (SrcItem T)}

section Swap

variable {at' pos : ItemPos}

/-- Clearing a slot that is no bag slot changes what is shown there, and nothing else. -/
theorem getItemByPos_clear (hbag : isBagPos at' = false) (hne : pos ≠ at') :
    (p.setItem at' none).getItemByPos pos = p.getItemByPos pos := by
  refine getItemByPos_congr ?_ fun hslot => ?_
  · rw [setItem_items, Function.update_of_ne hne]
  · have hhost : (⟨inventorySlotBag0, pos.bag⟩ : ItemPos) ≠ at' := by
      rintro rfl
      have hpos : isBagPos ⟨inventorySlotBag0, pos.bag⟩ = true := hslot
      cases hbag.symm.trans hpos
    rw [setItem_items, Function.update_of_ne hhost]

theorem otherItemByPos_clear (hbag : isBagPos at' = false) (hne : pos ≠ at') :
    (p.setItem at' none).otherItemByPos src pos = p.otherItemByPos src pos := by
  unfold otherItemByPos
  rw [getItemByPos_clear hbag hne]

theorem contains_push {plan : Plan} (h : plan.Contains at') (room : UInt32) :
    (plan.push pos room).Contains at' := by
  obtain ⟨chosen, hchosen, heq⟩ := h
  exact ⟨chosen, List.mem_append_left _ hchosen, heq⟩

/-- A search that has the slot in its plan passes over it, whatever lies there. -/
theorem planSlots_clear (hbag : isBagPos at' = false) {merge : Bool} {positions : List ItemPos}
    {plan : Plan} (hplan : plan.Contains at') :
    p.planSlots proto merge src positions plan =
        (p.setItem at' none).planSlots proto merge src positions plan ∧
      (p.planSlots proto merge src positions plan).Contains at' := by
  induction positions generalizing plan with
  | nil => exact ⟨rfl, hplan⟩
  | cons pos rest ih =>
      unfold planSlots
      by_cases hsame : pos = at'
      · have hin : plan.Contains pos := hsame ▸ hplan
        cases p.slotRoom proto merge src pos <;>
          cases (p.setItem at' none).slotRoom proto merge src pos <;>
          simpa only [if_pos hin] using ih hplan
      · have hroom : (p.setItem at' none).slotRoom proto merge src pos = p.slotRoom proto merge src pos := by
          unfold slotRoom
          rw [otherItemByPos_clear hbag hsame]
        rw [hroom]
        cases p.slotRoom proto merge src pos with
        | none => exact ih hplan
        | some room =>
            dsimp only
            split_ifs
            · exact ih hplan
            · exact ⟨rfl, contains_push hplan room⟩
            · exact ih (contains_push hplan room)

/-- Two searches that do the same from a plan with the slot on, and keep it. -/
def Alike (at' : ItemPos) (stage stage' : Stage) : Prop :=
  stage.kind = stage'.kind ∧ ∀ plan, plan.Contains at' →
    stage.search plan = stage'.search plan ∧
      ∀ plan', stage.search plan = .ok plan' → plan'.Contains at'

theorem runStages_alike {noSimilarCount : UInt32} {stages stages' : List Stage}
    (h : List.Forall₂ (Alike at') stages stages') {plan : Plan} (hplan : plan.Contains at') :
    runStages noSimilarCount stages plan = runStages noSimilarCount stages' plan := by
  induction h generalizing plan with
  | nil => rfl
  | @cons stage stage' rest rest' hhere _ ih =>
      obtain ⟨hkind, hsearch⟩ := hhere
      obtain ⟨hsame, hkeeps⟩ := hsearch plan hplan
      unfold runStages
      rw [← hsame, ← hkind]
      cases hfound : stage.search plan with
      | error res =>
          cases stage.kind with
          | required => rfl
          | optional => exact ih hplan
          | guard => rfl
      | ok plan' =>
          dsimp only
          rw [ih (hkeeps plan' hfound)]

theorem alike_guardStage (refuse : Bool) (res : InventoryResult) :
    Alike at' (guardStage refuse res) (guardStage refuse res) := by
  refine ⟨rfl, fun plan hplan => ⟨rfl, fun plan' hsearch => ?_⟩⟩
  simp only [guardStage] at hsearch
  split_ifs at hsearch
  exact Except.ok.inj hsearch ▸ hplan

section Slot

variable (bag slot : UInt8) (hbag : isBagPos at' = false)

include hbag

theorem alike_inSlots (first last : UInt8) (merge : Bool) :
    Alike at' ((⟨p, proto, src, bag, slot⟩ : Request T).inSlots first last merge)
      ((⟨p.setItem at' none, proto, src, bag, slot⟩ : Request T).inSlots first last merge) := by
  refine ⟨rfl, fun plan hplan => ?_⟩
  simp only [Request.inSlots, canStoreItemInInventorySlots]
  split_ifs
  · exact ⟨rfl, fun plan' hsearch => by cases hsearch⟩
  · obtain ⟨hsame, hin⟩ := @planSlots_clear T p proto src at' hbag merge
      ((slotRange inventorySlotBag0 first last).filter fun pos =>
        ¬(inventorySlotBag0 = bag ∧ pos.slot = slot)) plan hplan
    exact ⟨congrArg Except.ok hsame, fun plan' hsearch => Except.ok.inj hsearch ▸ hin⟩

/-- A search through a bag that is not what lies in the slot. -/
theorem canStoreItemInBag_clear {inner : UInt8} (hinner : (⟨inventorySlotBag0, inner⟩ : ItemPos) ≠ at')
    (merge nonSpecialized : Bool) (skipBag skipSlot : UInt8) {plan : Plan} (hplan : plan.Contains at') :
    p.canStoreItemInBag inner proto merge nonSpecialized src skipBag skipSlot plan =
        (p.setItem at' none).canStoreItemInBag inner proto merge nonSpecialized src skipBag skipSlot plan ∧
      ∀ plan', p.canStoreItemInBag inner proto merge nonSpecialized src skipBag skipSlot plan = .ok plan' →
        plan'.Contains at' := by
  have hpositions : (p.setItem at' none).bagPositions inner = p.bagPositions inner := by
    unfold bagPositions
    rw [getItemByPos_clear hbag hinner]
  unfold canStoreItemInBag
  rw [otherItemByPos_clear hbag hinner, hpositions]
  by_cases hskip : inner = skipBag
  · rw [if_pos hskip, if_pos hskip]
    exact ⟨rfl, fun plan' hsearch => by cases hsearch⟩
  · rw [if_neg hskip, if_neg hskip]
    cases p.otherItemByPos src ⟨inventorySlotBag0, inner⟩ with
    | none => exact ⟨rfl, fun plan' hsearch => by cases hsearch⟩
    | some pBag =>
        dsimp only
        split_ifs
        · exact ⟨rfl, fun plan' hsearch => by cases hsearch⟩
        · exact ⟨rfl, fun plan' hsearch => by cases hsearch⟩
        · exact ⟨rfl, fun plan' hsearch => by cases hsearch⟩
        · obtain ⟨hsame, hin⟩ := @planSlots_clear T p proto src at' hbag merge
            ((p.bagPositions inner).filter fun pos => pos.slot ≠ skipSlot) plan hplan
          exact ⟨congrArg Except.ok hsame, fun plan' hsearch => Except.ok.inj hsearch ▸ hin⟩

theorem alike_inBags (merge nonSpecialized : Bool) :
    List.Forall₂ (Alike at') ((⟨p, proto, src, bag, slot⟩ : Request T).inBags merge nonSpecialized)
      ((⟨p.setItem at' none, proto, src, bag, slot⟩ : Request T).inBags merge nonSpecialized) := by
  unfold Request.inBags
  rw [List.forall₂_map_left_iff, List.forall₂_map_right_iff, List.forall₂_same]
  intro inner hinner
  refine ⟨rfl, fun plan hplan => canStoreItemInBag_clear hbag ?_ _ _ _ _ hplan⟩
  rintro rfl
  have hslots : ∀ inner ∈ inventoryBags, isBagPos ⟨inventorySlotBag0, inner⟩ = true := by decide +kernel
  rw [hslots inner hinner] at hbag
  cases hbag

theorem alike_inSpecificBag (hslot : (⟨inventorySlotBag0, bag⟩ : ItemPos) ≠ at') (merge : Bool) :
    Alike at' ((⟨p, proto, src, bag, slot⟩ : Request T).inSpecificBag merge)
      ((⟨p.setItem at' none, proto, src, bag, slot⟩ : Request T).inSpecificBag merge) := by
  refine ⟨rfl, fun plan hplan => ?_⟩
  obtain ⟨hspecial, hkept⟩ := @canStoreItemInBag_clear T p proto src at' hbag bag hslot merge false
    nullBag slot plan hplan
  obtain ⟨hplain, hkept'⟩ := @canStoreItemInBag_clear T p proto src at' hbag bag hslot merge true
    nullBag slot plan hplan
  simp only [Request.inSpecificBag]
  rw [← hspecial, ← hplain]
  refine ⟨rfl, fun plan' hsearch => ?_⟩
  split at hsearch
  · rename_i found hfound
    exact Except.ok.inj hsearch ▸ hkept found hfound
  · exact hkept' plan' hsearch

end Slot

/-- Lists that are there under the same condition. -/
theorem forall₂_ite {R : Stage → Stage → Prop} {c : Prop} [Decidable c] {stages stages' : List Stage}
    (h : List.Forall₂ R stages stages') :
    List.Forall₂ R (if c then stages else []) (if c then stages' else []) := by
  by_cases hc : c
  · rw [if_pos hc, if_pos hc]
    exact h
  · rw [if_neg hc, if_neg hc]
    exact .nil

/-- The searches after the one in the slot asked for. -/
theorem alike_otherStages {bag slot : UInt8} (hbag : isBagPos ⟨bag, slot⟩ = false) :
    List.Forall₂ (Alike ⟨bag, slot⟩)
      ((⟨p, proto, src, bag, slot⟩ : Request T).specificBagStages ++
        (⟨p, proto, src, bag, slot⟩ : Request T).mergeStages ++
        (⟨p, proto, src, bag, slot⟩ : Request T).freeStages)
      ((⟨p.setItem ⟨bag, slot⟩ none, proto, src, bag, slot⟩ : Request T).specificBagStages ++
        (⟨p.setItem ⟨bag, slot⟩ none, proto, src, bag, slot⟩ : Request T).mergeStages ++
        (⟨p.setItem ⟨bag, slot⟩ none, proto, src, bag, slot⟩ : Request T).freeStages) := by
  have hslots := fun first last merge =>
    @alike_inSlots T p proto src ⟨bag, slot⟩ bag slot hbag first last merge
  have hone := fun first last merge =>
    List.Forall₂.cons (hslots first last merge) (List.Forall₂.nil (R := Alike ⟨bag, slot⟩))
  have hbags := fun merge nonSpecialized =>
    @alike_inBags T p proto src ⟨bag, slot⟩ bag slot hbag merge nonSpecialized
  refine List.rel_append (List.rel_append ?_ ?_) ?_
  · unfold Request.specificBagStages
    refine forall₂_ite ?_
    by_cases hdirect : bag = inventorySlotBag0
    · simp only [if_pos hdirect]
      exact List.rel_append (forall₂_ite (.cons (hslots _ _ _) (hone _ _ _)))
        (List.rel_append (forall₂_ite (hone _ _ _)) (hone _ _ _))
    · have hhost : (⟨inventorySlotBag0, bag⟩ : ItemPos) ≠ ⟨bag, slot⟩ := fun heq =>
        hdirect (ItemPos.mk.inj heq).1.symm
      have hin := fun merge =>
        @alike_inSpecificBag T p proto src ⟨bag, slot⟩ bag slot hbag hhost merge
      simp only [if_neg hdirect]
      exact List.rel_append (forall₂_ite (.cons (hin _) .nil)) (.cons (hin _) .nil)
  · exact forall₂_ite (List.rel_append (List.rel_append (.cons (hslots _ _ _) (hone _ _ _))
      (forall₂_ite (hbags _ _))) (hbags _ _))
  · exact List.rel_append (List.rel_append
      (forall₂_ite (List.rel_append (forall₂_ite (hone _ _ _)) (hbags _ _)))
      (.cons (alike_guardStage _ _) (hone _ _ _))) (hbags _ _)

/-- The inventory without what lies in the slot asked for, as a swap takes it out. -/
def swappedOut (p : Player T) (src : Option (SrcItem T)) (bag slot : UInt8) (swap : Bool) : Player T :=
  if swap = true ∧ (bag ≠ nullBag ∧ slot ≠ nullSlot) ∧ (p.otherItemByPos src ⟨bag, slot⟩).isSome = true then
    p.setItem ⟨bag, slot⟩ none
  else p

/-- In the slot asked for, a search for a swap finds what it would find in a free slot. -/
theorem canStoreItemInSpecificSlot_swap {bag slot : UInt8} (hbag : isBagPos ⟨bag, slot⟩ = false) (plan : Plan) :
    (p.setItem ⟨bag, slot⟩ none).canStoreItemInSpecificSlot ⟨bag, slot⟩ proto false src plan =
        p.canStoreItemInSpecificSlot ⟨bag, slot⟩ proto true src plan ∧
      ∀ plan', p.canStoreItemInSpecificSlot ⟨bag, slot⟩ proto true src plan = .ok plan' →
        plan'.Contains ⟨bag, slot⟩ := by
  have hfree : (p.setItem ⟨bag, slot⟩ none).otherItemByPos src ⟨bag, slot⟩ = none := by
    unfold otherItemByPos
    split_ifs
    · rfl
    · cases hitem : (p.setItem ⟨bag, slot⟩ none).getItemByPos ⟨bag, slot⟩ with
      | none => rfl
      | some item =>
          have hitems := items_of_getItemByPos hitem
          rw [setItem_items, Function.update_self] at hitems
          cases hitems
  have hpush : ∀ room, (plan.push ⟨bag, slot⟩ room).Contains ⟨bag, slot⟩ := fun room =>
    ⟨_, List.mem_append_right _ List.mem_cons_self, rfl⟩
  -- whether something lies there or not, the search asks what it asks of a free slot
  cases hfound : p.otherItemByPos src ⟨bag, slot⟩
  all_goals
    unfold canStoreItemInSpecificSlot
    simp only [hfree, hfound, if_true]
    by_cases hmoves : movesNonEmptyBag src = true
    · simp only [hmoves, if_true]
      exact ⟨trivial, fun plan' hok => by cases hok⟩
    · simp only [Bool.not_eq_true] at hmoves
      simp only [hmoves, Bool.false_eq_true, if_false]
      by_cases hdirect : bag = inventorySlotBag0
      · simp only [if_pos hdirect]
        refine ⟨trivial, fun plan' hok => ?_⟩
        split_ifs at hok with _ _ hin
        · exact Except.ok.inj hok ▸ hin
        · exact Except.ok.inj hok ▸ hpush _
      · have hhost : (⟨inventorySlotBag0, bag⟩ : ItemPos) ≠ ⟨bag, slot⟩ := fun heq =>
          hdirect (ItemPos.mk.inj heq).1.symm
        simp only [if_neg hdirect, otherItemByPos_clear hbag hhost]
        refine ⟨trivial, fun plan' hok => ?_⟩
        cases hhosted : p.otherItemByPos src ⟨inventorySlotBag0, bag⟩ with
        | none =>
            rw [hhosted] at hok
            cases hok
        | some pBag =>
            rw [hhosted] at hok
            dsimp only at hok
            split_ifs at hok with _ _ hin
            · exact Except.ok.inj hok ▸ hin
            · exact Except.ok.inj hok ▸ hpush _

/-- A search for a swap plans what it would plan if the slot asked for were free. -/
theorem runStages_swappedOut {bag slot : UInt8} {swap : Bool}
    (hslot : swap = true → isBagPos ⟨bag, slot⟩ = false) (noSimilarCount total : UInt32) :
    runStages noSimilarCount ((⟨p, proto, src, bag, slot⟩ : Request T).stages swap) ⟨[], total⟩ =
      runStages noSimilarCount
        ((⟨p.swappedOut src bag slot swap, proto, src, bag, slot⟩ : Request T).stages false) ⟨[], total⟩ := by
  unfold swappedOut
  split_ifs with htaken
  · obtain ⟨rfl, hasked, -⟩ := htaken
    have hbag := hslot rfl
    unfold Request.stages Request.specificSlotStages
    rw [if_pos hasked, if_pos hasked]
    simp only [List.cons_append, List.nil_append]
    cases hrefuse : (bag == inventorySlotBag0 && keyringSlotEnd ≤ slot)
    all_goals
      unfold runStages
      simp only [guardStage, Bool.false_eq_true, if_true, if_false, ne_eq, not_true_eq_false, false_and]
    obtain ⟨hsame, hin⟩ := @canStoreItemInSpecificSlot_swap T p proto src bag slot hbag ⟨[], total⟩
    unfold runStages
    simp only [hsame]
    cases hfound : p.canStoreItemInSpecificSlot ⟨bag, slot⟩ proto true src ⟨[], total⟩ with
    | error res => rfl
    | ok plan =>
        dsimp only
        rw [runStages_alike (alike_otherStages hbag) (hin plan hfound)]
  · cases swap with
    | false => rfl
    | true =>
        unfold Request.stages Request.specificSlotStages
        by_cases hasked : bag ≠ nullBag ∧ slot ≠ nullSlot
        · -- nothing lies in the slot
          have hnone : p.otherItemByPos src ⟨bag, slot⟩ = none := by
            by_contra hsome
            exact htaken ⟨rfl, hasked, Option.isSome_iff_ne_none.mpr hsome⟩
          have hsame : p.canStoreItemInSpecificSlot ⟨bag, slot⟩ proto true src =
              p.canStoreItemInSpecificSlot ⟨bag, slot⟩ proto false src := by
            funext plan
            unfold canStoreItemInSpecificSlot
            rw [hnone]
          simp only [hsame]
        · rw [if_neg hasked, if_neg hasked]

end Swap

end Player

end TwowCore
