import TwowCore.Player.CanStore

/-!
# What an accepted plan guarantees

`Plan.Fits` is kept by every search of `_CanStoreItem`, so it holds of the plan an accepted
request ends with: the planned positions are distinct, the planned units are the units asked for
and each position has room for its share.
-/

namespace TwowCore

namespace Player

variable {T : ItemTable} {p : Player T} {proto : ItemPrototype} {src : Option (SrcItem T)}

/-- Storing at the position reaches a container: `m_items` or a bag that is there. -/
def Hosted (p : Player T) (pos : ItemPos) : Prop :=
  pos.bag = inventorySlotBag0 ∨ ∃ bag, p.getItemByPos ⟨inventorySlotBag0, pos.bag⟩ = some bag

/-- The position has room for `room` more units: a whole stack if it is free, the rest of the
stack lying there otherwise. -/
def RoomAt (p : Player T) (proto : ItemPrototype) (src : Option (SrcItem T)) (pos : ItemPos)
    (room : UInt32) : Prop :=
  match p.otherItemByPos src pos with
  | none => room = proto.stackable
  | some item =>
      item.entry = proto.itemId ∧ item.count < proto.stackable ∧
        room = proto.stackable - item.count

/-- The units planned for a list of positions. -/
def planned (dest : List ItemPosCount) : ℕ := (dest.map fun chosen => chosen.count.toNat).sum

@[simp] theorem planned_nil : planned [] = 0 := rfl

@[simp] theorem planned_cons (chosen : ItemPosCount) (dest : List ItemPosCount) :
    planned (chosen :: dest) = chosen.count.toNat + planned dest := by
  simp [planned]

/-- The invariant of a plan for `total` units. -/
structure Fits (p : Player T) (proto : ItemPrototype) (src : Option (SrcItem T)) (total : UInt32)
    (plan : Plan) : Prop where
  nodup : (plan.dest.map ItemPosCount.pos).Nodup
  sum : planned plan.dest + plan.count.toNat = total.toNat
  hosted : ∀ chosen ∈ plan.dest, p.Hosted chosen.pos
  room : ∀ chosen ∈ plan.dest, ∃ room, p.RoomAt proto src chosen.pos room ∧
    chosen.count.toNat ≤ room.toNat
  positive : total ≠ 0 → ∀ chosen ∈ plan.dest, 1 ≤ chosen.count.toNat

/-- A plan that still has units to place, unless none were asked for. -/
def Open (total : UInt32) (plan : Plan) : Prop := plan.count = 0 → total = 0

/-- The empty plan for all units. -/
theorem fits_nil (p : Player T) (proto : ItemPrototype) (src : Option (SrcItem T))
    (total : UInt32) : p.Fits proto src total ⟨[], total⟩ := by
  constructor <;> simp

/-- There is room for 1 to 255 units. -/
theorem RoomAt.bounds {pos : ItemPos} {room : UInt32} (h : p.RoomAt proto src pos room)
    (hpos : 1 ≤ proto.stackable) (hle : proto.stackable ≤ 255) :
    1 ≤ room.toNat ∧ room.toNat ≤ 255 := by
  rw [UInt32.le_iff_toNat_le] at hpos hle
  simp only [UInt32.reduceToNat] at hpos hle
  unfold RoomAt at h
  split at h
  · subst h
    exact ⟨hpos, hle⟩
  · obtain ⟨-, hlt, rfl⟩ := h
    have hsub := UInt32.toNat_sub_of_le _ _ (UInt32.le_of_lt hlt)
    rw [UInt32.lt_iff_toNat_lt] at hlt
    omega

/-- The room a search finds is there. -/
theorem roomAt_of_slotRoom {merge : Bool} {pos : ItemPos} {room : UInt32}
    (h : p.slotRoom proto merge src pos = some room) : p.RoomAt proto src pos room := by
  unfold slotRoom at h
  unfold RoomAt
  cases hother : p.otherItemByPos src pos with
  | none =>
      rw [hother] at h
      simp only [Option.ite_none_left_eq_some] at h
      exact (Option.some.inj h.2).symm
  | some item2 =>
      rw [hother] at h
      simp only [Option.ite_none_right_eq_some] at h
      obtain ⟨hentry, hlt, -⟩ := Item.canBeMergedPartlyWith_ok.mp h.1.2
      exact ⟨hentry, hlt, (Option.some.inj h.2).symm⟩

/-- Planning a position that has room and is not planned yet keeps the invariant. -/
theorem Fits.push {total : UInt32} {plan : Plan} (hfits : p.Fits proto src total plan)
    (hopen : Open total plan) {pos : ItemPos} (hnew : ¬plan.Contains pos) (hhosted : p.Hosted pos)
    {room : UInt32} (hroom : p.RoomAt proto src pos room)
    (hbounds : 1 ≤ room.toNat ∧ room.toNat ≤ 255) :
    p.Fits proto src total (plan.push pos room) := by
  obtain ⟨need, hneed⟩ : ∃ need, need = if plan.count < room then plan.count else room := ⟨_, rfl⟩
  have hle : need ≤ room ∧ need ≤ plan.count := by
    subst hneed
    split
    · rename_i hlt
      exact ⟨UInt32.le_of_lt hlt, UInt32.le_refl _⟩
    · rename_i hlt
      exact ⟨UInt32.le_refl _, UInt32.not_lt.mp hlt⟩
  have hleRoom : need.toNat ≤ room.toNat := hle.1
  have hleCount : need.toNat ≤ plan.count.toNat := hle.2
  have hbyte : need.toUInt8.toNat = need.toNat := by
    rw [UInt32.toNat_toUInt8]
    omega
  have hrest := UInt32.toNat_sub_of_le _ _ hle.2
  have hpush : plan.push pos room =
      ⟨plan.dest ++ [⟨pos, need.toUInt8⟩], plan.count - need⟩ := by
    rw [hneed]
    rfl
  rw [hpush]
  refine ⟨?_, ?_, ?_, ?_, ?_⟩
  · rw [List.map_append, List.nodup_append]
    refine ⟨hfits.nodup, by simp, ?_⟩
    intro other hother last hlast
    obtain ⟨chosen, hchosen, rfl⟩ := List.mem_map.mp hother
    simp only [List.map_cons, List.map_nil, List.mem_singleton] at hlast
    subst hlast
    exact fun heq => hnew ⟨chosen, hchosen, heq⟩
  · have hsum := hfits.sum
    have happend : planned (plan.dest ++ [⟨pos, need.toUInt8⟩]) =
        planned plan.dest + need.toNat := by
      simp [planned, hbyte]
    simp only [happend, hrest]
    omega
  · intro chosen hchosen
    rcases List.mem_append.mp hchosen with hold | hnew
    · exact hfits.hosted chosen hold
    · rw [List.mem_singleton.mp hnew]
      exact hhosted
  · intro chosen hchosen
    rcases List.mem_append.mp hchosen with hold | hnew
    · exact hfits.room chosen hold
    · rw [List.mem_singleton.mp hnew]
      exact ⟨room, hroom, by simpa only [hbyte] using hleRoom⟩
  · intro htotal chosen hchosen
    rcases List.mem_append.mp hchosen with hold | hnew
    · exact hfits.positive htotal chosen hold
    · rw [List.mem_singleton.mp hnew]
      simp only [hbyte]
      have hcount : plan.count ≠ 0 := fun hzero => htotal (hopen hzero)
      have hcountPos : plan.count.toNat ≠ 0 := fun hzero => hcount (UInt32.toNat.inj hzero)
      subst hneed
      split <;> omega

/-- The loop of the searches keeps the invariant. -/
theorem Fits.planSlots {total : UInt32} (hpos : 1 ≤ proto.stackable)
    (hle : proto.stackable ≤ 255) {merge : Bool} {positions : List ItemPos}
    (hhosted : ∀ pos ∈ positions, p.Hosted pos) {plan : Plan}
    (hfits : p.Fits proto src total plan) (hopen : Open total plan) :
    p.Fits proto src total (p.planSlots proto merge src positions plan) := by
  induction positions generalizing plan with
  | nil => exact hfits
  | cons pos rest ih =>
      have hrest : ∀ pos ∈ rest, p.Hosted pos := fun other hother =>
        hhosted other (List.mem_cons_of_mem _ hother)
      unfold Player.planSlots
      split
      · exact ih hrest hfits hopen
      · rename_i room hroom
        split
        · exact ih hrest hfits hopen
        · rename_i hnew
          have hroomAt := roomAt_of_slotRoom hroom
          have hpush := hfits.push hopen hnew (hhosted pos List.mem_cons_self) hroomAt
            (hroomAt.bounds hpos hle)
          split
          · exact hpush
          · rename_i hcount
            exact ih hrest hpush fun hzero => absurd hzero hcount

/-- Every slot of `m_items` is hosted. -/
theorem hosted_of_slotRange {first last : UInt8} {pos : ItemPos}
    (h : pos ∈ slotRange inventorySlotBag0 first last) : p.Hosted pos := by
  obtain ⟨slot, -, rfl⟩ := List.mem_map.mp h
  exact Or.inl rfl

/-- Every slot of a bag is hosted by it. -/
theorem hosted_of_bagPositions {bag : UInt8} {pos : ItemPos} (h : pos ∈ p.bagPositions bag) :
    p.Hosted pos := by
  unfold bagPositions at h
  split at h
  · rename_i item hitem
    obtain ⟨slot, -, rfl⟩ := List.mem_map.mp h
    exact Or.inr ⟨item, hitem⟩
  · cases h

/-- A position that shows an item is hosted. -/
theorem hosted_of_getItemByPos {pos : ItemPos} {item : Item T}
    (h : p.getItemByPos pos = some item) : p.Hosted pos := by
  unfold getItemByPos at h
  split at h
  · rename_i hdirect
    exact Or.inl hdirect.1
  · split at h
    · rename_i hbagSlot
      split at h
      · rename_i bag hbag
        refine Or.inr ⟨bag, ?_⟩
        simp [getItemByPos, isDirectSlot_of_isBagSlot hbagSlot, hbag]
      · cases h
    · cases h

/-- A search that keeps the invariant of the plan and whose failures are failures. -/
structure Sound (p : Player T) (proto : ItemPrototype) (src : Option (SrcItem T))
    (total : UInt32) (stage : Stage) : Prop where
  fits : ∀ {plan plan'}, p.Fits proto src total plan → Open total plan →
    stage.search plan = .ok plan' → p.Fits proto src total plan'
  error_ne_ok : ∀ {plan res}, stage.search plan = .error res → res ≠ .ok
  guard_same : stage.kind = .guard → ∀ {plan plan'}, stage.search plan = .ok plan' → plan' = plan

/-- A search through a range of `m_items` is sound. -/
theorem sound_inSlots {total : UInt32} (hpos : 1 ≤ proto.stackable)
    (hle : proto.stackable ≤ 255) (bag slot first last : UInt8) (merge : Bool) :
    p.Sound proto src total ((⟨p, proto, src, bag, slot⟩ : Request T).inSlots first last merge) := by
  constructor
  · intro plan plan' hfits hopen hsearch
    simp only [Request.inSlots, canStoreItemInInventorySlots] at hsearch
    split at hsearch
    · cases hsearch
    · cases hsearch
      exact hfits.planSlots hpos hle
        (fun pos hmem => hosted_of_slotRange (List.mem_of_mem_filter hmem)) hopen
  · intro plan res hsearch
    simp only [Request.inSlots, canStoreItemInInventorySlots] at hsearch
    split at hsearch <;> cases hsearch
    decide
  · intro hkind
    cases hkind

/-- What a search through a bag answers. -/
theorem canStoreItemInBag_cases (p : Player T) (proto : ItemPrototype)
    (src : Option (SrcItem T)) (bag : UInt8) (merge nonSpecialized : Bool)
    (skipBag skipSlot : UInt8) (plan : Plan) :
    (∃ res, res ≠ .ok ∧
      p.canStoreItemInBag bag proto merge nonSpecialized src skipBag skipSlot plan =
        .error res) ∨
    p.canStoreItemInBag bag proto merge nonSpecialized src skipBag skipSlot plan =
      .ok (p.planSlots proto merge src
        ((p.bagPositions bag).filter fun pos => pos.slot ≠ skipSlot) plan) := by
  unfold canStoreItemInBag
  split
  · exact Or.inl ⟨_, by decide, rfl⟩
  · split
    · exact Or.inl ⟨_, by decide, rfl⟩
    · split
      · exact Or.inl ⟨_, by decide, rfl⟩
      · split
        · exact Or.inl ⟨_, by decide, rfl⟩
        · split
          · exact Or.inl ⟨_, by decide, rfl⟩
          · exact Or.inr rfl

/-- A search through a bag keeps the invariant. -/
theorem Fits.inBag {total : UInt32} (hpos : 1 ≤ proto.stackable) (hle : proto.stackable ≤ 255)
    {bag : UInt8} {merge nonSpecialized : Bool} {skipBag skipSlot : UInt8} {plan plan' : Plan}
    (hfits : p.Fits proto src total plan) (hopen : Open total plan)
    (hsearch : p.canStoreItemInBag bag proto merge nonSpecialized src skipBag skipSlot plan =
      .ok plan') : p.Fits proto src total plan' := by
  rcases canStoreItemInBag_cases p proto src bag merge nonSpecialized skipBag skipSlot plan with
    ⟨res, -, herror⟩ | hok
  · rw [herror] at hsearch
    cases hsearch
  · rw [hok] at hsearch
    cases hsearch
    exact hfits.planSlots hpos hle
      (fun pos hmem => hosted_of_bagPositions (List.mem_of_mem_filter hmem)) hopen

/-- A search through a bag fails with an error. -/
theorem canStoreItemInBag_error {bag : UInt8} {merge nonSpecialized : Bool}
    {skipBag skipSlot : UInt8} {plan : Plan} {res : InventoryResult}
    (hsearch : p.canStoreItemInBag bag proto merge nonSpecialized src skipBag skipSlot plan =
      .error res) : res ≠ .ok := by
  rcases canStoreItemInBag_cases p proto src bag merge nonSpecialized skipBag skipSlot plan with
    ⟨other, hne, herror⟩ | hok
  · rw [herror] at hsearch
    cases hsearch
    exact hne
  · rw [hok] at hsearch
    cases hsearch

/-- The search through the bag asked for is sound. -/
theorem sound_inSpecificBag {total : UInt32} (hpos : 1 ≤ proto.stackable)
    (hle : proto.stackable ≤ 255) (bag slot : UInt8) (merge : Bool) :
    p.Sound proto src total ((⟨p, proto, src, bag, slot⟩ : Request T).inSpecificBag merge) := by
  constructor
  · intro plan plan' hfits hopen hsearch
    simp only [Request.inSpecificBag] at hsearch
    split at hsearch
    · rename_i special hspecial
      cases hsearch
      exact hfits.inBag hpos hle hopen hspecial
    · exact hfits.inBag hpos hle hopen hsearch
  · intro plan res hsearch
    simp only [Request.inSpecificBag] at hsearch
    split at hsearch
    · cases hsearch
    · exact canStoreItemInBag_error hsearch
  · intro hkind
    cases hkind

/-- The searches through the carried bags are sound. -/
theorem sound_inBags {total : UInt32} (hpos : 1 ≤ proto.stackable)
    (hle : proto.stackable ≤ 255) (bag slot : UInt8) (merge nonSpecialized : Bool) :
    ∀ stage ∈ (⟨p, proto, src, bag, slot⟩ : Request T).inBags merge nonSpecialized,
      p.Sound proto src total stage := by
  intro stage hstage
  obtain ⟨carried, -, rfl⟩ := List.mem_map.mp hstage
  exact ⟨fun hfits hopen hsearch => hfits.inBag hpos hle hopen hsearch,
    canStoreItemInBag_error, fun hkind => nomatch hkind⟩

/-- A check between two searches is sound. -/
theorem sound_guardStage {total : UInt32} (refuse : Bool) {res : InventoryResult}
    (hres : res ≠ .ok) : p.Sound proto src total (guardStage refuse res) := by
  constructor
  · intro plan plan' hfits _ hsearch
    simp only [guardStage] at hsearch
    split at hsearch <;> cases hsearch
    exact hfits
  · intro plan other hsearch
    simp only [guardStage] at hsearch
    split at hsearch <;> cases hsearch
    exact hres
  · intro _ plan plan' hsearch
    simp only [guardStage] at hsearch
    split at hsearch <;> cases hsearch
    rfl

/-- The search in the slot asked for is sound, unless it is for a swap. -/
theorem sound_specificSlot {total : UInt32} (hpos : 1 ≤ proto.stackable)
    (hle : proto.stackable ≤ 255) (pos : ItemPos) :
    p.Sound proto src total ⟨.required, p.canStoreItemInSpecificSlot pos proto false src⟩ := by
  have hplace : ∀ {plan : Plan} {room : UInt32}, p.Fits proto src total plan →
      Open total plan → p.Hosted pos → p.RoomAt proto src pos room →
      p.Fits proto src total (if plan.Contains pos then plan else plan.push pos room) := by
    intro plan room hfits hopen hhosted hroom
    split
    · exact hfits
    · rename_i hnew
      exact hfits.push hopen hnew hhosted hroom (hroom.bounds hpos hle)
  constructor
  · intro plan plan' hfits hopen hsearch
    simp only [canStoreItemInSpecificSlot] at hsearch
    split at hsearch
    · cases hsearch
    · split at hsearch
      · rename_i hfree
        have hroom : p.RoomAt proto src pos proto.stackable := by simp [RoomAt, hfree]
        split at hsearch
        · rename_i hbag
          split at hsearch
          · cases hsearch
          · split at hsearch
            · cases hsearch
            · cases hsearch
              exact hplace hfits hopen (Or.inl hbag) hroom
        · split at hsearch
          · cases hsearch
          · rename_i bag hbag
            have hhosted : p.Hosted pos := by
              refine Or.inr ⟨bag, ?_⟩
              unfold otherItemByPos at hbag
              split at hbag
              · cases hbag
              · exact hbag
            split at hsearch
            · cases hsearch
            · split at hsearch
              · cases hsearch
              · cases hsearch
                exact hplace hfits hopen hhosted hroom
      · rename_i item2 hitem
        split at hsearch
        · rename_i hswap
          cases hswap
        · split at hsearch
          · rename_i hmerge
            cases hsearch
            -- a stack takes what is missing to a full one
            obtain ⟨hentry, hlt, -⟩ := Item.canBeMergedPartlyWith_ok.mp hmerge
            have hroom : p.RoomAt proto src pos (proto.stackable - item2.count) := by
              simp [RoomAt, hitem, hentry, hlt]
            have hhosted : p.Hosted pos := by
              have hshown : p.getItemByPos pos = some item2 := by
                unfold otherItemByPos at hitem
                split at hitem
                · cases hitem
                · exact hitem
              exact hosted_of_getItemByPos hshown
            exact hplace hfits hopen hhosted hroom
          · cases hsearch
  -- no branch answers `ok` as a refusal
  · intro plan res hsearch
    simp only [canStoreItemInSpecificSlot] at hsearch
    split at hsearch
    · cases hsearch
      decide
    · split at hsearch
      · repeat' (split at hsearch)
        all_goals cases hsearch
        all_goals decide
      · split at hsearch
        · rename_i hswap
          cases hswap
        · split at hsearch
          · cases hsearch
          · rename_i hne
            cases hsearch
            exact hne
  · intro hkind
    cases hkind

/-- All searches of `_CanStoreItem` are sound, unless it is for a swap. -/
theorem sound_stages {total : UInt32} (hpos : 1 ≤ proto.stackable)
    (hle : proto.stackable ≤ 255) (bag slot : UInt8) :
    ∀ stage ∈ (⟨p, proto, src, bag, slot⟩ : Request T).stages false,
      p.Sound proto src total stage := by
  have hslots : ∀ first last merge, p.Sound proto src total
      ((⟨p, proto, src, bag, slot⟩ : Request T).inSlots first last merge) :=
    sound_inSlots hpos hle bag slot
  have hbags : ∀ merge nonSpecialized,
      ∀ stage ∈ (⟨p, proto, src, bag, slot⟩ : Request T).inBags merge nonSpecialized,
        p.Sound proto src total stage :=
    sound_inBags hpos hle bag slot
  have hspecific : ∀ merge, p.Sound proto src total
      ((⟨p, proto, src, bag, slot⟩ : Request T).inSpecificBag merge) :=
    sound_inSpecificBag hpos hle bag slot
  intro stage hstage
  simp only [Request.stages, List.mem_append] at hstage
  rcases hstage with ((hstage | hstage) | hstage) | hstage
  · unfold Request.specificSlotStages at hstage
    split at hstage
    · simp only [List.mem_cons, List.not_mem_nil, or_false] at hstage
      rcases hstage with rfl | rfl
      · exact sound_guardStage _ (by decide)
      · exact sound_specificSlot hpos hle _
    · cases hstage
  · unfold Request.specificBagStages at hstage
    split_ifs at hstage <;>
      simp only [List.mem_append, List.mem_cons, List.not_mem_nil, or_false, false_or] at hstage <;>
      grind
  · unfold Request.mergeStages at hstage
    split_ifs at hstage <;>
      simp only [List.mem_append, List.mem_cons, List.not_mem_nil, or_false] at hstage <;>
      grind
  · have hguard : p.Sound proto src total
        (guardStage (movesNonEmptyBag src) .nonemptyBagOverOtherBag) :=
      sound_guardStage _ (by decide)
    unfold Request.freeStages at hstage
    split_ifs at hstage <;>
      simp only [List.mem_append, List.mem_cons, List.not_mem_nil, or_false, false_or] at hstage <;>
      grind

/-- Sound searches that end in an accepted request have planned exactly the units asked for. -/
theorem runStages_ok {total noSimilarCount : UInt32} {stages : List Stage}
    (hsound : ∀ stage ∈ stages, p.Sound proto src total stage) {plan : Plan}
    (hfits : p.Fits proto src total plan) (hopen : Open total plan)
    (hok : (runStages noSimilarCount stages plan).result = .ok) :
    noSimilarCount = 0 ∧
      p.Fits proto src total ⟨(runStages noSimilarCount stages plan).dest, 0⟩ := by
  induction stages generalizing plan with
  | nil => cases hok
  | cons stage rest ih =>
      have hrest : ∀ stage ∈ rest, p.Sound proto src total stage := fun other hother =>
        hsound other (List.mem_cons_of_mem _ hother)
      have hhere := hsound stage List.mem_cons_self
      unfold runStages at hok ⊢
      split at hok
      · rename_i res herror
        split at hok
        · exact absurd hok (hhere.error_ne_ok herror)
        · exact ih hrest hfits hopen hok
        · exact absurd hok (hhere.error_ne_ok herror)
      · rename_i plan' hplan'
        have hfits' := hhere.fits hfits hopen hplan'
        split at hok
        · rename_i hdone
          unfold allPlaced at hok ⊢
          split at hok
          · rename_i hzero
            refine ⟨hzero, ?_⟩
            have hplanned : plan' = ⟨plan'.dest, 0⟩ := by rw [← hdone.2]
            rw [hplanned] at hfits'
            simpa [hzero, hdone] using hfits'
          · cases hok
        · rename_i hmore
          simp only [hmore, if_false]
          refine ih hrest hfits' (fun hzero => ?_) hok
          by_cases hguard : stage.kind = .guard
          · rw [hhere.guard_same hguard hplan'] at hzero
            exact hopen hzero
          · exact absurd ⟨hguard, hzero⟩ hmore

/-- The units above the limit are at least one. -/
theorem canTakeMoreSimilarItems_ne_zero {count noSimilarCount : UInt32} {skip : Option ItemPos}
    (h : p.canTakeMoreSimilarItems proto count skip = .error noSimilarCount) :
    noSimilarCount ≠ 0 := by
  unfold canTakeMoreSimilarItems at h
  split at h
  · simp only at h
    split at h
    · rename_i hlimit
      rw [← Except.error.inj h]
      intro hzero
      have heq := UInt32.sub_add_cancel (count + p.getItemCount proto.itemId true skip)
        proto.maxCount
      rw [hzero, UInt32.zero_add] at heq
      rw [UInt32.add_comm, ← heq] at hlimit
      exact UInt32.lt_irrefl _ hlimit
    · cases h
  · cases h

/-- An accepted request has a plan that fits and places exactly the units asked for. -/
theorem canStoreItemAt_fits {bag slot : UInt8} {entry count : UInt32}
    (hok : (p.canStoreItemAt bag slot entry count src false).result = .ok) :
    ∃ proto, T.find entry = some proto ∧
      p.Fits proto src count ⟨(p.canStoreItemAt bag slot entry count src false).dest, 0⟩ := by
  unfold canStoreItemAt at hok ⊢
  cases hfind : T.find entry with
  | none =>
      rw [hfind] at hok
      cases hok
  | some proto =>
      rw [hfind] at hok
      refine ⟨proto, rfl, ?_⟩
      have hsound : ∀ total, ∀ stage ∈ (⟨p, proto, src, bag, slot⟩ : Request T).stages false,
          p.Sound proto src total stage := fun total =>
        sound_stages (T.stackable_pos hfind) (T.stackable_le hfind) bag slot
      simp only at hok ⊢
      split
      · rename_i hloot
        simp [hloot] at hok
      · split
        · rename_i hloot hbound
          simp [hloot, hbound] at hok
        · rename_i hloot hbound
          simp only [hloot, hbound] at hok
          split
          · rename_i hsimilar
            simp only [hsimilar] at hok
            exact (runStages_ok (hsound _) (fits_nil _ _ _ _) (fun hzero => hzero) hok).2
          · rename_i noSimilarCount hsimilar
            simp only [hsimilar] at hok
            split
            · rename_i hall
              simp [hall] at hok
            · rename_i hsome
              simp only [hsome, if_false] at hok
              have hzero :=
                (runStages_ok (hsound _) (fits_nil _ _ _ _) (fun hzero => hzero) hok).1
              exact absurd hzero (canTakeMoreSimilarItems_ne_zero hsimilar)

end Player

end TwowCore
