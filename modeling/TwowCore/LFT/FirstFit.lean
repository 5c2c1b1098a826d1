import TwowCore.Lib.FirstFit
import TwowCore.LFT.Matching

/-!
# What the builder selects

With players who may all be grouped with each other, the builder seats the free blocks of the queue, first
come, first seated: `foldl_fits` follows the scan. So it makes a team just when that fills every place, and
`tryBuild_finds` has the parties of which this is known beforehand. `builder_misses` has two that it
misses: one player takes the place of the only tank, and one comes before a block.
-/

namespace TwowCore.LFT

/-- The roles of a mask, in the order in which they are given. -/
def RoleMask.roles (mask : RoleMask) : List Role :=
  [Role.tank, Role.healer, Role.damage].filter fun role => mask.has role

/-- A role is picked as a place is. -/
theorem pickRole_eq (mask : RoleMask) (s : Staff) :
    pickRole mask s.tanks s.healers s.damage = Lib.firstOpen Role.places s.of mask.roles := by
  obtain ⟨tank, healer, damage⟩ := mask
  unfold pickRole RoleMask.roles
  cases tank <;> cases healer <;> cases damage <;>
    simp [RoleMask.has, Lib.firstOpen_cons, Lib.firstOpen_nil, Staff.of, Role.places] <;> rfl

theorem Staff.of_add_eq (s : Staff) (guid : Guid) (role : Role) :
    (s.add guid role).of = Lib.takePlace s.of role := by
  funext r
  rw [Staff.of_add, Lib.takePlace_apply, if_congr (eq_comm (a := role) (b := r)) rfl rfl]

namespace Manager

variable {m : Manager} {s : Staff} {instanceName : String} {guid other : Guid}

instance (m : Manager) (instanceName : String) (guid : Guid) : Decidable (m.Free instanceName guid) :=
  decidable_of_iff (Lib.entryOf guid m.playerOffers = none ∧
    (Lib.entryOf guid m.queue).any (fun q => decide (instanceName ∈ q.instances)) = true) (by
      unfold Free
      rw [Option.any_eq_true]
      simp)

/-- The roles that a player asks for. -/
def rolesOf (m : Manager) (guid : Guid) : List Role :=
  ((Lib.entryOf guid m.queue).map fun q => q.roleMask.roles).getD []

/-- The players who are queued with a player, in queue order. -/
def blockOf (m : Manager) (guid : Guid) : List Guid :=
  ((Lib.entryOf guid m.queue).map fun q => m.block m.getQueueOrder (q.leaderOf guid)).getD []

/-- Everybody in the block of a player is free. -/
def BlockFree (m : Manager) (instanceName : String) (guid : Guid) : Prop :=
  ∀ other ∈ m.blockOf guid, m.Free instanceName other

instance (m : Manager) (instanceName : String) (guid : Guid) :
    Decidable (m.BlockFree instanceName guid) := by
  unfold BlockFree
  infer_instance

/-- The free blocks of players who are their first. -/
def blocksOf (m : Manager) (instanceName : String) (guids : List Guid) : List (List (List Role)) :=
  (guids.filter fun guid =>
    decide ((m.blockOf guid).head? = some guid ∧ m.BlockFree instanceName guid)).map
      fun guid => (m.blockOf guid).map m.rolesOf

/-- The free blocks of the queue. -/
def freeBlocks (m : Manager) (instanceName : String) : List (List (List Role)) :=
  m.blocksOf instanceName m.getQueueOrder

/-- Nobody has a place. -/
def noPlaces : Role → ℕ := fun _ => 0

section Blocks

theorem blockOf_eq {q : QueuedPlayer} (hq : Lib.entryOf guid m.queue = some q) :
    m.blockOf guid = m.block m.getQueueOrder (q.leaderOf guid) := by
  unfold blockOf
  rw [hq]
  rfl

theorem mem_blockOf : other ∈ m.blockOf guid ↔ m.SameBlock guid other := by
  cases hq : Lib.entryOf guid m.queue with
  | none =>
      unfold blockOf
      rw [hq]
      refine ⟨fun h => absurd h List.not_mem_nil, fun ⟨q, _, hq', _⟩ => ?_⟩
      cases hq.symm.trans hq'
  | some q =>
      rw [blockOf_eq hq]
      exact mem_block hq

/-- The players of a block have one block. -/
theorem SameBlock.blockOf_eq (h : m.SameBlock guid other) : m.blockOf guid = m.blockOf other := by
  obtain ⟨q, q', hq, hq', hsame⟩ := h
  rw [Manager.blockOf_eq hq, Manager.blockOf_eq hq', hsame]

theorem sameBlock_self {q : QueuedPlayer} (hq : Lib.entryOf guid m.queue = some q) :
    m.SameBlock guid guid := ⟨q, q, hq, hq, rfl⟩

/-- Who comes next is the first of his block just when nobody of it has come. -/
theorem head_blockOf_iff {scanned rest : List Guid} (hsorted : Lib.KeysSorted m.queue)
    (hsplit : m.getQueueOrder = scanned ++ guid :: rest) :
    (m.blockOf guid).head? = some guid ↔ ∀ other ∈ scanned, ¬m.SameBlock guid other := by
  have hin : guid ∈ m.getQueueOrder := by
    rw [hsplit]
    exact List.mem_append_right _ List.mem_cons_self
  obtain ⟨q, hq⟩ := mem_getQueueOrder.mp hin
  have hblock : m.blockOf guid = (m.block scanned (q.leaderOf guid)) ++
      guid :: m.block rest (q.leaderOf guid) := by
    rw [Manager.blockOf_eq hq, hsplit]
    unfold block
    rw [List.filter_append, List.filter_cons_of_pos (by simp [hq])]
  have hmem : ∀ other, other ∈ m.block scanned (q.leaderOf guid) ↔
      other ∈ scanned ∧ m.SameBlock guid other := by
    intro other
    rw [← mem_block hq]
    unfold block
    rw [List.mem_filter, List.mem_filter, hsplit]
    exact ⟨fun h => ⟨h.1, List.mem_append_left _ h.1, h.2⟩, fun h => ⟨h.1, h.2.2⟩⟩
  rw [hblock]
  cases hfront : m.block scanned (q.leaderOf guid) with
  | nil =>
      refine ⟨fun _ other hother hsame => ?_, fun _ => rfl⟩
      have hnil := (hmem other).mpr ⟨hother, hsame⟩
      rw [hfront] at hnil
      cases hnil
  | cons first others =>
      have hfirst := (hmem first).mp (by rw [hfront]; exact List.mem_cons_self)
      constructor
      · intro hhead
        cases hhead
        have hnodup := nodup_getQueueOrder hsorted
        rw [hsplit] at hnodup
        exact absurd rfl ((List.nodup_append.mp hnodup).2.2 guid hfirst.1 guid List.mem_cons_self)
      · exact fun hnone => absurd hfirst.2 (hnone first hfirst.1)

end Blocks

section Scan

variable (w : World) {seedGuid : Guid} {seed : QueuedPlayer} {selected guids scanned rest : List Guid}

/-- A block whose players are free fits as far as there are places. -/
theorem fitBlock_eq_seatBlock (hguids : ∀ guid ∈ guids, guid ∉ selected ∧
      ∃ q, Lib.entryOf guid m.queue = some q ∧ m.fits w seedGuid seed instanceName guid q = true) :
    (m.fitBlock w seedGuid seed instanceName selected s guids).map Staff.of =
      Lib.seatBlock Role.places s.of (guids.map m.rolesOf) := by
  induction guids generalizing s with
  | nil => rfl
  | cons guid rest ih =>
      obtain ⟨hnot, q, hq, hfits⟩ := hguids guid List.mem_cons_self
      have hroles : m.rolesOf guid = q.roleMask.roles := by
        unfold rolesOf
        rw [hq]
        rfl
      rw [List.map_cons, hroles]
      unfold fitBlock Lib.seatBlock
      simp only [hq, if_pos (And.intro hnot hfits), pickRole_eq]
      cases hrole : Lib.firstOpen Role.places s.of q.roleMask.roles with
      | none => rfl
      | some role =>
          simp only
          rw [ih fun other hother => hguids other (List.mem_cons_of_mem _ hother), Staff.of_add_eq]

/-- A block with somebody who is not free does not fit. -/
theorem free_of_fitBlock {s' : Staff}
    (h : m.fitBlock w seedGuid seed instanceName selected s guids = some s') :
    ∀ guid ∈ guids, m.Free instanceName guid := by
  induction guids generalizing s with
  | nil => exact fun _ hin => absurd hin List.not_mem_nil
  | cons guid rest ih =>
      unfold fitBlock at h
      cases hq : Lib.entryOf guid m.queue with
      | none =>
          rw [hq] at h
          cases h
      | some q =>
          simp only [hq] at h
          split_ifs at h with hfits
          cases hrole : pickRole q.roleMask s.tanks s.healers s.damage with
          | none =>
              simp only [hrole] at h
              cases h
          | some role =>
              simp only [hrole] at h
              intro other hother
              rcases List.mem_cons.mp hother with rfl | hother
              · have hand := hfits.2
                unfold fits at hand
                rw [Bool.and_eq_true, Bool.and_eq_true] at hand
                exact ⟨of_decide_eq_true hand.1.1, q, hq, of_decide_eq_true hand.1.2⟩
              · exact ih h other hother

/-- What holds when some of the queue has been scanned: the free blocks that have come are seated as they
came, and those that have been passed do not fit. -/
structure Seated (m : Manager) (instanceName : String) (scanned : List Guid) (s : Staff) : Prop where
  selected : Selected m s
  bounded : s.Bounded
  closed : ∀ guid ∈ s.guids, ∀ other, m.SameBlock guid other → other ∈ s.guids
  came : ∀ guid ∈ s.guids, ∃ first ∈ scanned, m.SameBlock guid first
  fit : s.of = Lib.firstFit Role.places noPlaces (m.blocksOf instanceName scanned)
  passed : ∀ guid ∈ scanned, m.BlockFree instanceName guid → guid ∉ s.guids →
    Lib.seatBlock Role.places s.of ((m.blockOf guid).map m.rolesOf) = none

/-- A candidate whose block is free and not selected is seated with it, or his block does not fit. -/
theorem addCandidate_of_free (hcompatible : m.Compatible w) (hsorted : Lib.KeysSorted m.queue)
    (hseed : Lib.entryOf seedGuid m.queue = some seed) (h : Seated m instanceName scanned s)
    (hin : guid ∈ m.getQueueOrder) (hfree : m.BlockFree instanceName guid) (hnew : guid ∉ s.guids) :
    (m.addCandidate w m.getQueueOrder seedGuid seed instanceName s guid = s ∧
      Lib.seatBlock Role.places s.of ((m.blockOf guid).map m.rolesOf) = none) ∨
    ∃ s', m.addCandidate w m.getQueueOrder seedGuid seed instanceName s guid = s' ∧
      Lib.seatBlock Role.places s.of ((m.blockOf guid).map m.rolesOf) = some s'.of ∧
      Selected m s' ∧ Fitted (m.blockOf guid) s s' := by
  obtain ⟨q, hq⟩ := mem_getQueueOrder.mp hin
  have hself : guid ∈ m.blockOf guid := mem_blockOf.mpr (sameBlock_self hq)
  have hseat : (m.fitBlock w seedGuid seed instanceName s.guids s (m.blockOf guid)).map Staff.of =
      Lib.seatBlock Role.places s.of ((m.blockOf guid).map m.rolesOf) := by
    refine fitBlock_eq_seatBlock w fun other hother => ⟨fun hselected => ?_, ?_⟩
    · exact hnew (h.closed other hselected guid (mem_blockOf.mp hother).symm)
    · obtain ⟨hoffer, q', hq', hinstance⟩ := hfree other hother
      refine ⟨q', hq', ?_⟩
      unfold fits
      rw [Bool.and_eq_true, Bool.and_eq_true]
      exact ⟨⟨decide_eq_true hoffer, decide_eq_true hinstance⟩, hcompatible _ _ _ _ hseed hq'⟩
  rcases addCandidate_cases w hcompatible hsorted hseed h.selected h.bounded guid with
    ⟨hsame, hfive | hbusy | hold⟩ | ⟨q', hq', -, -, ⟨hsame, hnone⟩ | ⟨s', hs', hfit, hselected, hfitted⟩⟩
  · refine Or.inl ⟨hsame, Lib.seatBlock_eq_none_of_full (fun r => ?_) fun hnil => ?_⟩
    · exact (h.selected.full h.bounded hfive r).ge
    · rw [List.map_eq_nil_iff.mp hnil] at hself
      cases hself
  · exact absurd (hfree guid hself) hbusy
  · exact absurd hold hnew
  · rw [← blockOf_eq hq'] at hnone
    rw [hnone] at hseat
    exact Or.inl ⟨hsame, hseat.symm⟩
  · rw [← blockOf_eq hq'] at hfit hfitted
    rw [hfit] at hseat
    exact Or.inr ⟨s', hs', hseat.symm, hselected, hfitted⟩

/-- A candidate who is selected or whose block is not free is passed. -/
theorem addCandidate_of_passed (hcompatible : m.Compatible w) (hsorted : Lib.KeysSorted m.queue)
    (hseed : Lib.entryOf seedGuid m.queue = some seed) (h : Seated m instanceName scanned s)
    (hpassed : m.BlockFree instanceName guid → guid ∈ s.guids) :
    m.addCandidate w m.getQueueOrder seedGuid seed instanceName s guid = s := by
  rcases addCandidate_cases w hcompatible hsorted hseed h.selected h.bounded guid with
    ⟨hsame, -⟩ | ⟨q, hq, -, hnew, ⟨hsame, -⟩ | ⟨s', -, hfit, -, -⟩⟩
  · exact hsame
  · exact hsame
  · rw [← blockOf_eq hq] at hfit
    exact absurd (hpassed (free_of_fitBlock w hfit)) hnew

/-- The blocks that have come after one more candidate. -/
theorem blocksOf_append (m : Manager) (instanceName : String) (scanned : List Guid) (guid : Guid) :
    m.blocksOf instanceName (scanned ++ [guid]) = m.blocksOf instanceName scanned ++
      if (m.blockOf guid).head? = some guid ∧ m.BlockFree instanceName guid then
        [(m.blockOf guid).map m.rolesOf]
      else [] := by
  unfold blocksOf
  rw [List.filter_append, List.map_append, List.filter_singleton]
  split_ifs with hhead <;> simp [hhead]

/-- One candidate of the scan. -/
theorem Seated.step (hcompatible : m.Compatible w) (hsorted : Lib.KeysSorted m.queue)
    (hseed : Lib.entryOf seedGuid m.queue = some seed)
    (hsplit : m.getQueueOrder = scanned ++ guid :: rest) (h : Seated m instanceName scanned s) :
    Seated m instanceName (scanned ++ [guid])
      (m.addCandidate w m.getQueueOrder seedGuid seed instanceName s guid) := by
  have hin : guid ∈ m.getQueueOrder := by
    rw [hsplit]
    exact List.mem_append_right _ List.mem_cons_self
  obtain ⟨q, hq⟩ := mem_getQueueOrder.mp hin
  have hfirst := head_blockOf_iff hsorted hsplit
  have hcame : ∀ other ∈ s.guids, ∃ first ∈ scanned ++ [guid], m.SameBlock other first :=
    fun other hother =>
      let ⟨first, hmem, hsame⟩ := h.came other hother
      ⟨first, List.mem_append_left _ hmem, hsame⟩
  by_cases hnext : m.BlockFree instanceName guid ∧ guid ∉ s.guids
  · obtain ⟨hfree, hnew⟩ := hnext
    have hpassed : ∀ other ∈ scanned, m.SameBlock guid other →
        Lib.seatBlock Role.places s.of ((m.blockOf guid).map m.rolesOf) = none := by
      intro other hother hsame
      rw [hsame.blockOf_eq]
      have hfree' : m.BlockFree instanceName other := by
        unfold BlockFree at hfree ⊢
        rw [← hsame.blockOf_eq]
        exact hfree
      refine h.passed other hother hfree' fun hselected => hnew ?_
      exact h.closed other hselected guid hsame.symm
    have hone : Lib.firstFit Role.places noPlaces (m.blocksOf instanceName (scanned ++ [guid])) =
        (Lib.seatBlock Role.places s.of ((m.blockOf guid).map m.rolesOf)).getD s.of := by
      rw [blocksOf_append]
      split_ifs with hhead
      · rw [Lib.firstFit_append, ← h.fit]
      · -- a block of which somebody has come did not fit then
        have hnot : ¬∀ other ∈ scanned, ¬m.SameBlock guid other := fun hnone =>
          hhead ⟨hfirst.mpr hnone, hfree⟩
        simp only [not_forall, not_not] at hnot
        obtain ⟨other, hother, hsame⟩ := hnot
        rw [List.append_nil, hpassed other hother hsame, ← h.fit]
        rfl
    rcases addCandidate_of_free w hcompatible hsorted hseed h hin hfree hnew with
      ⟨hsame, hnone⟩ | ⟨s', hs', hseat, hselected, hfitted⟩
    · rw [hsame]
      refine ⟨h.selected, h.bounded, h.closed, hcame, ?_, fun other hother hfree hnot => ?_⟩
      · rw [hone, hnone]
        rfl
      · rcases List.mem_append.mp hother with hother | hother
        · exact h.passed other hother hfree hnot
        · rw [List.mem_singleton.mp hother]
          exact hnone
    · rw [hs']
      have hold : ∀ other ∈ s.guids, other ∈ s'.guids := fun other hother =>
        (hfitted.guids other).mpr (Or.inl hother)
      refine ⟨hselected, hfitted.bounded h.bounded, fun other hother third hsame => ?_,
        fun other hother => ?_, ?_, fun other hother hfree hnot => ?_⟩
      · rcases (hfitted.guids other).mp hother with hother | hother
        · exact hold third (h.closed other hother third hsame)
        · exact (hfitted.guids third).mpr (Or.inr (mem_blockOf.mpr ((mem_blockOf.mp hother).trans hsame)))
      · rcases (hfitted.guids other).mp hother with hother | hother
        · exact hcame other hother
        · exact ⟨guid, List.mem_append_right _ (List.mem_singleton_self _), (mem_blockOf.mp hother).symm⟩
      · rw [hone, hseat]
        rfl
      · rcases List.mem_append.mp hother with hother | hother
        · exact Lib.seatBlock_eq_none_of_le hfitted.mono
            (h.passed other hother hfree fun hselected => hnot (hold other hselected))
        · rw [List.mem_singleton.mp hother] at hnot
          exact absurd ((hfitted.guids guid).mpr (Or.inr (mem_blockOf.mpr (sameBlock_self hq)))) hnot
  · have hsame := addCandidate_of_passed w hcompatible hsorted hseed h
      (fun hfree => by_contra fun hnew => hnext ⟨hfree, hnew⟩)
    rw [hsame]
    refine ⟨h.selected, h.bounded, h.closed, hcame, ?_, fun other hother hfree hnot => ?_⟩
    · rw [blocksOf_append, if_neg, List.append_nil]
      · exact h.fit
      · -- who is selected is not the first of his block to come
        rintro ⟨hhead, hfree⟩
        have hselected : guid ∈ s.guids := by_contra fun hnew => hnext ⟨hfree, hnew⟩
        obtain ⟨first, hmem, hblock⟩ := h.came guid hselected
        exact hfirst.mp hhead first hmem hblock
    · rcases List.mem_append.mp hother with hother | hother
      · exact h.passed other hother hfree hnot
      · rw [List.mem_singleton.mp hother] at hfree hnot
        exact absurd ⟨hfree, hnot⟩ hnext

/-- The scan. -/
theorem Seated.foldl (hcompatible : m.Compatible w) (hsorted : Lib.KeysSorted m.queue)
    (hseed : Lib.entryOf seedGuid m.queue = some seed) (hsplit : m.getQueueOrder = scanned ++ rest)
    (h : Seated m instanceName scanned s) :
    Seated m instanceName m.getQueueOrder
      (rest.foldl (m.addCandidate w m.getQueueOrder seedGuid seed instanceName) s) := by
  induction rest generalizing scanned s with
  | nil =>
      rw [List.append_nil] at hsplit
      rw [hsplit]
      exact h
  | cons guid rest ih =>
      refine ih ?_ (h.step w hcompatible hsorted hseed hsplit)
      rw [List.append_assoc]
      exact hsplit

theorem seated_empty : Seated m instanceName [] Staff.empty where
  selected := selected_empty
  bounded r := by cases r <;> exact Nat.zero_le _
  closed _ h := absurd h List.not_mem_nil
  came _ h := absurd h List.not_mem_nil
  fit := by
    funext r
    cases r <;> rfl
  passed _ h := absurd h List.not_mem_nil

/-- The blocks fill every place. -/
def FillsAll (m : Manager) (instanceName : String) : Prop :=
  Lib.firstFit Role.places noPlaces (m.freeBlocks instanceName) = Role.places

/-- What is selected for a seed who is free. -/
theorem selectFor_isSome_iff (hcompatible : m.Compatible w) (hsorted : Lib.KeysSorted m.queue)
    (hseed : Lib.entryOf seedGuid m.queue = some seed) (hfree : m.Free instanceName seedGuid) :
    (m.selectFor w m.getQueueOrder instanceName seedGuid).isSome = true ↔ m.FillsAll instanceName := by
  obtain ⟨hoffer, seed', hseed', hinstance⟩ := hfree
  cases hseed.symm.trans hseed'
  have hstart : Seated m instanceName [] Staff.empty := seated_empty
  have hseated := hstart.foldl w hcompatible hsorted hseed (List.nil_append _).symm
  unfold selectFor FillsAll freeBlocks
  rw [← hseated.fit]
  simp only [hseed, if_pos (And.intro hoffer hinstance)]
  generalize m.getQueueOrder.foldl (m.addCandidate w m.getQueueOrder seedGuid seed instanceName)
    Staff.empty = s at hseated
  have hlength := hseated.selected.length
  constructor
  · intro hsome
    split_ifs at hsome with hteam
    · funext r
      cases r with
      | tank => exact hteam.1
      | healer => exact hteam.2.1
      | damage => exact hteam.2.2.1
    · cases hsome
  · intro hfull
    have htank : s.tanks = 1 := congrFun hfull .tank
    have hhealer : s.healers = 1 := congrFun hfull .healer
    have hdamage : s.damage = 3 := congrFun hfull .damage
    rw [if_pos ⟨htank, hhealer, hdamage, by omega⟩]
    rfl

/-- The builder makes a team just when the free blocks fill every place. -/
theorem findsOffer_iff (hcompatible : m.Compatible w) (hsorted : Lib.KeysSorted m.queue) :
    m.findsOffer w instanceName = true ↔ m.FillsAll instanceName := by
  unfold findsOffer
  rw [List.findSome?_isSome_iff]
  constructor
  · rintro ⟨seedGuid, -, hselect⟩
    have hfree : m.Free instanceName seedGuid := by
      unfold selectFor at hselect
      cases hseed : Lib.entryOf seedGuid m.queue with
      | none =>
          rw [hseed] at hselect
          cases hselect
      | some seed =>
          simp only [hseed] at hselect
          by_cases hfree : Lib.entryOf seedGuid m.playerOffers = none ∧ instanceName ∈ seed.instances
          · exact ⟨hfree.1, seed, hseed, hfree.2⟩
          · rw [if_neg hfree] at hselect
            cases hselect
    obtain ⟨seed, hseed, -⟩ := hfree.2
    exact (selectFor_isSome_iff w hcompatible hsorted hseed hfree).mp hselect
  · intro hfills
    -- somebody has a place, so some block is free, and its first player is a seed
    obtain ⟨seedGuid, hin, hblock⟩ : ∃ guid ∈ m.getQueueOrder, m.BlockFree instanceName guid := by
      by_contra hnone
      have hnil : m.freeBlocks instanceName = [] := by
        unfold freeBlocks blocksOf
        rw [List.map_eq_nil_iff, List.filter_eq_nil_iff]
        exact fun guid hin hhead => hnone ⟨guid, hin, (of_decide_eq_true hhead).2⟩
      unfold FillsAll at hfills
      rw [hnil] at hfills
      exact absurd (congrFun hfills .tank) (by decide)
    obtain ⟨seed, hseed⟩ := mem_getQueueOrder.mp hin
    have hfree := hblock seedGuid (mem_blockOf.mpr (sameBlock_self hseed))
    exact ⟨seedGuid, hin, (selectFor_isSome_iff w hcompatible hsorted hseed hfree).mpr hfills⟩

end Scan

/-- The builder makes a team just when the free blocks of the queue, seated as they come, fill every place;
so do the blocks of a party whose players have one role each and whose premade blocks come before everybody
else. And it splits no block. -/
theorem tryBuild_finds (w : World) (m : Manager) (hcompatible : m.Compatible w)
    (hsorted : Lib.KeysSorted m.queue) (instanceName : String) :
    (m.findsOffer w instanceName = true ↔ m.FillsAll instanceName) ∧
    (∀ party role, m.Party instanceName party role → m.Single party role →
      m.PremadesAhead instanceName party → m.FillsAll instanceName) ∧
    ∀ staff, m.getQueueOrder.findSome? (m.selectFor w m.getQueueOrder instanceName) = some staff →
      ∀ guid ∈ staff.guids, ∀ other, m.SameBlock guid other → other ∈ staff.guids := by
  refine ⟨findsOffer_iff w hcompatible hsorted, fun party role hparty hsingle hpremades => ?_,
    fun staff hfound => ?_⟩
  · exact (findsOffer_iff w hcompatible hsorted).mp
      (findsOffer_of_party w hparty hsingle hpremades hcompatible hsorted)
  · obtain ⟨seedGuid, -, hselect⟩ := List.exists_of_findSome?_eq_some hfound
    exact closed_selectFor w hselect

/-- Everybody in the queue is a party. -/
theorem party_of_queue {instanceName : String} {role : Guid → Role} (hsorted : Lib.KeysSorted m.queue)
    (hoffers : m.playerOffers = [])
    (hqueued : ∀ entry ∈ m.queue, instanceName ∈ entry.2.instances ∧
      entry.2.roleMask.has (role entry.1) = true)
    (hplaces : ∀ r : Role, ((m.queue.map Prod.fst).map role).count r = r.places) :
    m.Party instanceName (m.queue.map Prod.fst) role where
  nodup := hsorted.nodup
  free guid hguid := by
    obtain ⟨⟨guid, q⟩, hentry, rfl⟩ := List.mem_map.mp hguid
    refine ⟨?_, q, hsorted.entryOf_eq hentry, (hqueued _ hentry).1⟩
    rw [hoffers]
    rfl
  whole guid _ other hsame := by
    obtain ⟨-, q', -, hq', -⟩ := hsame
    exact List.mem_map_of_mem (Lib.mem_of_entryOf hq')
  able guid _ q hq := (hqueued _ (Lib.mem_of_entryOf hq)).2
  places := hplaces

/-- Druids may be grouped with each other. -/
theorem compatible_druids (m : Manager) : m.Compatible (druids []) := fun _ _ _ _ _ _ => rfl

/-- Every player in a queue has one role. -/
theorem single_of_queue {party : List Guid} {role : Guid → Role}
    (hqueued : ∀ entry ∈ m.queue, ∀ r : Role, entry.2.roleMask.has r = true → r = role entry.1) :
    m.Single party role :=
  fun guid _ q hq r hr => hqueued (guid, q) (Lib.mem_of_entryOf hq) r hr

/-- A tank, a healer and three who do damage are queued alone. -/
def fiveQueued : Manager :=
  { start with
    queue := [(1, ⟨0, 0, false, 1, ["Ragefire Chasm"], ⟨true, false, false⟩, none⟩),
      (2, ⟨0, 0, false, 2, ["Ragefire Chasm"], ⟨false, true, false⟩, none⟩),
      (3, ⟨0, 0, false, 3, ["Ragefire Chasm"], ⟨false, false, true⟩, none⟩),
      (4, ⟨0, 0, false, 4, ["Ragefire Chasm"], ⟨false, false, true⟩, none⟩),
      (5, ⟨0, 0, false, 5, ["Ragefire Chasm"], ⟨false, false, true⟩, none⟩)] }

theorem tryBuild_finds_fiveQueued :
    fiveQueued.FillsAll "Ragefire Chasm" ∧
      fiveQueued.findsOffer (druids []) "Ragefire Chasm" = true := by
  have hsorted : Lib.KeysSorted fiveQueued.queue := by
    unfold Lib.KeysSorted
    decide
  have hparty : fiveQueued.Party "Ragefire Chasm" (fiveQueued.queue.map Prod.fst)
      (fun guid => if guid = 1 then .tank else if guid = 2 then .healer else .damage) :=
    party_of_queue hsorted rfl (by decide) (fun r => by cases r <;> decide)
  obtain ⟨hiff, hfills, -⟩ :=
    tryBuild_finds (druids []) fiveQueued (compatible_druids _) hsorted "Ragefire Chasm"
  have hfive : fiveQueued.FillsAll "Ragefire Chasm" := by
    refine hfills _ _ hparty (single_of_queue ?_) (fun guid _ other hne hsame => ?_)
    · intro entry hentry r
      fin_cases hentry <;> cases r <;> decide
    · -- nobody is queued under another leader
      obtain ⟨q, q', hq, hq', hleader⟩ := hsame
      have hall : ∀ entry ∈ fiveQueued.queue, entry.2.leaderOf entry.1 = entry.1 := by decide
      have hown : q.leaderOf guid = guid := hall (guid, q) (Lib.mem_of_entryOf hq)
      have hother : q'.leaderOf other = other := hall (other, q') (Lib.mem_of_entryOf hq')
      rw [hown, hother] at hleader
      exact absurd hleader.symm hne
  exact ⟨hfive, hiff.mpr hfive⟩

/-- Five druids ask alone, and the first of them may be tank or healer. -/
def flexibleCalls : List (World × Call) :=
  joins 1 "th" ++ joins 2 "t" ++ joins 3 "d" ++ joins 4 "d" ++ joins 5 "d"

/-- Somebody who does damage is queued alone, before three who do so together. -/
def lateBlock : Manager :=
  { start with
    queue := [(1, ⟨0, 0, false, 1, ["Ragefire Chasm"], ⟨false, false, true⟩, none⟩),
      (2, ⟨2, 0, false, 2, ["Ragefire Chasm"], ⟨false, false, true⟩, none⟩),
      (3, ⟨2, 0, false, 3, ["Ragefire Chasm"], ⟨false, false, true⟩, none⟩),
      (4, ⟨2, 0, false, 4, ["Ragefire Chasm"], ⟨false, false, true⟩, none⟩),
      (5, ⟨0, 0, false, 5, ["Ragefire Chasm"], ⟨true, false, false⟩, none⟩),
      (6, ⟨0, 0, false, 6, ["Ragefire Chasm"], ⟨false, true, false⟩, none⟩)] }

theorem party_lateBlock : lateBlock.Party "Ragefire Chasm" [2, 3, 4, 5, 6]
    (fun guid => if guid = 5 then .tank else if guid = 6 then .healer else .damage) where
  nodup := by decide
  free := by decide
  whole guid hguid other hsame := by
    have hblocks : ∀ guid ∈ [2, 3, 4, 5, 6], ∀ other ∈ lateBlock.blockOf guid,
        other ∈ [2, 3, 4, 5, 6] := by decide
    exact hblocks guid hguid other (mem_blockOf.mpr hsame)
  able guid _ q hq := by
    have hall : ∀ entry ∈ lateBlock.queue, entry.2.roleMask.has
        (if entry.1 = 5 then .tank else if entry.1 = 6 then .healer else .damage) = true := by decide
    exact hall (guid, q) (Lib.mem_of_entryOf hq)
  places r := by cases r <;> decide

/-- The first of the five takes the place of the tank, and there is no healer then. And who comes before the
block takes one of its places, although everybody has one role. -/
theorem builder_misses :
    (∃ party role, (Lib.run step start flexibleCalls).Party "Ragefire Chasm" party role ∧
      (Lib.run step start flexibleCalls).Compatible (druids []) ∧
      Lib.KeysSorted (Lib.run step start flexibleCalls).queue ∧
      (Lib.run step start flexibleCalls).findsOffer (druids []) "Ragefire Chasm" = false) ∧
    ∃ party role, lateBlock.Party "Ragefire Chasm" party role ∧ lateBlock.Single party role ∧
      lateBlock.Compatible (druids []) ∧ Lib.KeysSorted lateBlock.queue ∧
      lateBlock.findsOffer (druids []) "Ragefire Chasm" = false := by
  have hsorted : Lib.KeysSorted (Lib.run step start flexibleCalls).queue := by
    unfold Lib.KeysSorted
    decide +kernel
  constructor
  · refine ⟨_, fun guid => if guid = 1 then .healer else if guid = 2 then .tank else .damage,
      party_of_queue hsorted (by decide +kernel) (by decide +kernel)
        (fun r => by cases r <;> decide +kernel), compatible_druids _, hsorted, by decide +kernel⟩
  · refine ⟨_, _, party_lateBlock, single_of_queue ?_, compatible_druids _, ?_, by decide +kernel⟩
    · intro entry hentry r
      fin_cases hentry <;> cases r <;> decide
    · unfold Lib.KeysSorted
      decide

end Manager

end TwowCore.LFT
