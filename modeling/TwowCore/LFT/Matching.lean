import TwowCore.LFT.Calls

/-!
# Which teams are found

The builder takes the blocks of the queue as they come, gives every player the first role that is open,
and takes nothing back. A team is found when each of its players has one role and its premade blocks come
before everybody else; `findsOffer_of_party` follows the scan and keeps, for every player of the team that
it has passed, that he is selected or that his role is taken.
-/

namespace TwowCore.LFT

/-- How many of a role there are in a team. -/
def Role.places : Role → ℕ
  | .tank => 1
  | .healer => 1
  | .damage => 3

/-- How many of a role are selected. -/
def Staff.of (s : Staff) : Role → ℕ
  | .tank => s.tanks
  | .healer => s.healers
  | .damage => s.damage

namespace Manager

/-- `TryBuildOfferForInstance`, what it returns. -/
def findsOffer (m : Manager) (w : World) (instanceName : String) : Bool :=
  (m.getQueueOrder.findSome? (m.selectFor w m.getQueueOrder instanceName)).isSome

/-- The player is queued for an instance and has no offer. -/
def Free (m : Manager) (instanceName : String) (guid : Guid) : Prop :=
  Lib.entryOf guid m.playerOffers = none ∧
    ∃ q, Lib.entryOf guid m.queue = some q ∧ instanceName ∈ q.instances

/-- Two players are queued under one leader. -/
def SameBlock (m : Manager) (guid other : Guid) : Prop :=
  ∃ q q', Lib.entryOf guid m.queue = some q ∧ Lib.entryOf other m.queue = some q' ∧
    q.leaderOf guid = q'.leaderOf other

/-- Everybody in the queue may be grouped with everybody else. -/
def Compatible (m : Manager) (w : World) : Prop :=
  ∀ seedGuid guid seed q, Lib.entryOf seedGuid m.queue = some seed →
    Lib.entryOf guid m.queue = some q → canQueuedPlayersGroup w seedGuid guid seed q = true

/-- Whole blocks of free players who make a team, each with a role of his mask. -/
structure Party (m : Manager) (instanceName : String) (party : List Guid) (role : Guid → Role) :
    Prop where
  nodup : party.Nodup
  free : ∀ guid ∈ party, m.Free instanceName guid
  whole : ∀ guid ∈ party, ∀ other, m.SameBlock guid other → other ∈ party
  able : ∀ guid ∈ party, ∀ q, Lib.entryOf guid m.queue = some q → q.roleMask.has (role guid) = true
  places : ∀ r : Role, (party.map role).count r = r.places

/-- Nobody else is queued for the instance before this player. -/
def Ahead (m : Manager) (instanceName : String) (party : List Guid) (first : Guid) : Prop :=
  ∃ before after, m.getQueueOrder = before ++ first :: after ∧
    ∀ guid ∈ before, m.Free instanceName guid → guid ∈ party

/-- Every premade block of the party comes before everybody else: its first player does. -/
def PremadesAhead (m : Manager) (instanceName : String) (party : List Guid) : Prop :=
  ∀ guid ∈ party, ∀ other, other ≠ guid → m.SameBlock guid other →
    ∃ first, m.SameBlock guid first ∧ m.Ahead instanceName party first

end Manager

section Picking

variable {s : Staff} {mask : RoleMask} {role : Role}

/-- One more of a role. -/
theorem Staff.of_add (s : Staff) (guid : Guid) (role r : Role) :
    (s.add guid role).of r = s.of r + if role = r then 1 else 0 := by
  cases role <;> cases r <;> rfl

/-- A role that is picked has a place. -/
theorem lt_of_pickRole (h : pickRole mask s.tanks s.healers s.damage = some role) :
    s.of role < role.places := by
  unfold pickRole at h
  split_ifs at h with htank hhealer hdamage
  · cases h
    exact htank.2
  · cases h
    exact hhealer.2
  · cases h
    exact hdamage.2

/-- Who has one role gets it while it has a place. -/
theorem pickRole_single (hrole : mask.has role = true) (honly : ∀ r, mask.has r = true → r = role)
    (hplace : s.of role < role.places) :
    pickRole mask s.tanks s.healers s.damage = some role := by
  have htank : mask.tank = true → Role.tank = role := honly .tank
  have hhealer : mask.healer = true → Role.healer = role := honly .healer
  unfold pickRole
  cases role with
  | tank => exact if_pos ⟨hrole, hplace⟩
  | healer =>
      have hnot : ¬ (mask.tank = true ∧ s.tanks < 1) := fun h => Role.noConfusion (htank h.1)
      rw [if_neg hnot]
      exact if_pos ⟨hrole, hplace⟩
  | damage =>
      have hnot : ¬ (mask.tank = true ∧ s.tanks < 1) := fun h => Role.noConfusion (htank h.1)
      have hnot' : ¬ (mask.healer = true ∧ s.healers < 1) := fun h => Role.noConfusion (hhealer h.1)
      rw [if_neg hnot, if_neg hnot']
      exact if_pos ⟨hrole, hplace⟩

/-- Everybody has one of the three roles. -/
theorem length_eq_counts (roles : List Role) :
    roles.length = roles.count .tank + roles.count .healer + roles.count .damage := by
  induction roles with
  | nil => rfl
  | cons role rest ih =>
      cases role <;> simp only [List.length_cons, List.count_cons, ih] <;> simp <;> omega

/-- No role has more than its places. -/
def Staff.Bounded (s : Staff) : Prop := ∀ r : Role, s.of r ≤ r.places

/-- Those who have a role. -/
def Staff.guids (s : Staff) : List Guid := s.roles.map Prod.fst

end Picking

namespace Manager

variable {m : Manager} {s : Staff}

/-- How many are selected. -/
theorem Selected.length (h : Selected m s) : s.roles.length = s.tanks + s.healers + s.damage := by
  rw [← h.tanks, ← h.healers, ← h.damage, ← length_eq_counts, List.length_map]

/-- When five are selected, every place is taken. -/
theorem Selected.full (h : Selected m s) (hbounded : s.Bounded) (hfive : 5 ≤ s.roles.length)
    (r : Role) : s.of r = r.places := by
  have hlength := h.length
  have htank : s.tanks ≤ 1 := hbounded .tank
  have hhealer : s.healers ≤ 1 := hbounded .healer
  have hdamage : s.damage ≤ 3 := hbounded .damage
  cases r with
  | tank => show s.tanks = 1; omega
  | healer => show s.healers = 1; omega
  | damage => show s.damage = 3; omega

/-- No more than five are selected. -/
theorem Selected.length_le (h : Selected m s) (hbounded : s.Bounded) : s.roles.length ≤ 5 := by
  have hlength := h.length
  have htank : s.tanks ≤ 1 := hbounded .tank
  have hhealer : s.healers ≤ 1 := hbounded .healer
  have hdamage : s.damage ≤ 3 := hbounded .damage
  omega

/-- The players who are queued. -/
theorem mem_getQueueOrder {guid : Guid} :
    guid ∈ m.getQueueOrder ↔ ∃ q, Lib.entryOf guid m.queue = some q := by
  have hperm : m.getQueueOrder.Perm (m.queue.map Prod.fst) :=
    (List.perm_insertionSort _ m.queue).map Prod.fst
  rw [hperm.mem_iff, ← Option.isSome_iff_exists, Option.isSome_iff_ne_none, Ne, Lib.entryOf_eq_none,
    not_not]

/-- The block of a player. -/
theorem mem_block {guid other : Guid} {q : QueuedPlayer} (hq : Lib.entryOf guid m.queue = some q) :
    other ∈ m.block m.getQueueOrder (q.leaderOf guid) ↔ m.SameBlock guid other := by
  unfold block
  rw [List.mem_filter, mem_getQueueOrder]
  constructor
  · rintro ⟨⟨q', hq'⟩, hsame⟩
    rw [hq', Option.any_some, decide_eq_true_eq] at hsame
    exact ⟨q, q', hq, hq', hsame.symm⟩
  · rintro ⟨q₁, q', hq₁, hq', hsame⟩
    rw [hq] at hq₁
    cases hq₁
    refine ⟨⟨q', hq'⟩, ?_⟩
    rw [hq', Option.any_some, decide_eq_true_eq]
    exact hsame.symm

theorem SameBlock.symm {guid other : Guid} (h : m.SameBlock guid other) : m.SameBlock other guid := by
  obtain ⟨q, q', hq, hq', hsame⟩ := h
  exact ⟨q', q, hq', hq, hsame.symm⟩

theorem SameBlock.trans {guid other third : Guid} (h : m.SameBlock guid other)
    (h' : m.SameBlock other third) : m.SameBlock guid third := by
  obtain ⟨q, q₁, hq, hq₁, hsame⟩ := h
  obtain ⟨q₂, q', hq₂, hq', hsame'⟩ := h'
  rw [hq₁] at hq₂
  cases hq₂
  exact ⟨q, q', hq, hq', hsame.trans hsame'⟩

/-- Who has a role after one more. -/
theorem mem_guids_add {guid other : Guid} {role : Role} :
    other ∈ (s.add guid role).guids ↔ other = guid ∨ other ∈ s.guids := by
  unfold Staff.guids
  rw [Staff.add_roles, ← not_iff_not, ← Lib.entryOf_eq_none, Lib.entryOf_setEntry, not_or,
    ← Lib.entryOf_eq_none]
  split_ifs with hsame
  · simp [hsame]
  · simp [hsame]

section Fitting

variable (w : World) {seedGuid : Guid} {seed : QueuedPlayer} {instanceName : String}
  {selected guids : List Guid} {s' : Staff}

/-- What a block brings. -/
structure Fitted (guids : List Guid) (s s' : Staff) : Prop where
  guids : ∀ guid, guid ∈ s'.guids ↔ guid ∈ s.guids ∨ guid ∈ guids
  bounded : s.Bounded → s'.Bounded
  mono : ∀ r, s.of r ≤ s'.of r

/-- A block that fits is selected as a whole, within the places. -/
theorem fitted_fitBlock
    (hfit : m.fitBlock w seedGuid seed instanceName selected s guids = some s') : Fitted guids s s' := by
  induction guids generalizing s with
  | nil =>
      cases hfit
      exact ⟨fun guid => by simp, id, fun _ => Nat.le_refl _⟩
  | cons guid rest ih =>
      unfold fitBlock at hfit
      cases hq : Lib.entryOf guid m.queue with
      | none =>
          rw [hq] at hfit
          cases hfit
      | some q =>
          simp only [hq] at hfit
          split_ifs at hfit with hfits
          cases hrole : pickRole q.roleMask s.tanks s.healers s.damage with
          | none =>
              simp only [hrole] at hfit
              cases hfit
          | some role =>
              simp only [hrole] at hfit
              have hrest := ih hfit
              have hplace := lt_of_pickRole hrole
              refine ⟨fun other => ?_, fun hbounded => hrest.bounded fun r => ?_, fun r => ?_⟩
              · rw [hrest.guids, mem_guids_add, List.mem_cons]
                tauto
              · rw [Staff.of_add]
                have hle := hbounded r
                split_ifs with hsame
                · subst hsame
                  exact hplace
                · exact hle
              · have hle := hrest.mono r
                rw [Staff.of_add] at hle
                omega

/-- A block whose players have one role each fits when there are places for them. -/
theorem exists_fitBlock (role : Guid → Role)
    (hguids : ∀ guid ∈ guids, guid ∉ selected ∧ ∃ q, Lib.entryOf guid m.queue = some q ∧
      m.fits w seedGuid seed instanceName guid q = true ∧ q.roleMask.has (role guid) = true ∧
      ∀ r, q.roleMask.has r = true → r = role guid)
    (hplaces : ∀ r, s.of r + (guids.map role).count r ≤ r.places) :
    ∃ s', m.fitBlock w seedGuid seed instanceName selected s guids = some s' := by
  induction guids generalizing s with
  | nil => exact ⟨s, rfl⟩
  | cons guid rest ih =>
      obtain ⟨hnot, q, hq, hfits, hrole, honly⟩ := hguids guid List.mem_cons_self
      have hplace : s.of (role guid) < (role guid).places := by
        have hle := hplaces (role guid)
        rw [List.map_cons, List.count_cons_self] at hle
        omega
      have hrest : ∀ r, (s.add guid (role guid)).of r + (rest.map role).count r ≤ r.places := by
        intro r
        have hle := hplaces r
        rw [List.map_cons, List.count_cons] at hle
        rw [Staff.of_add]
        by_cases hsame : role guid = r
        · rw [if_pos (by simpa using hsame)] at hle
          rw [if_pos hsame]
          omega
        · rw [if_neg hsame]
          omega
      obtain ⟨s', hs'⟩ := ih (fun other hother => hguids other (List.mem_cons_of_mem _ hother)) hrest
      refine ⟨s', ?_⟩
      unfold fitBlock
      rw [hq]
      simp only [if_pos (And.intro hnot hfits), pickRole_single hrole honly hplace]
      exact hs'

/-- What the loop does with a candidate: it passes him, or his block is selected. -/
theorem addCandidate_cases (hcompatible : m.Compatible w) (hsorted : Lib.KeysSorted m.queue)
    (hseed : Lib.entryOf seedGuid m.queue = some seed) (h : Selected m s) (hbounded : s.Bounded)
    (guid : Guid) :
    (m.addCandidate w m.getQueueOrder seedGuid seed instanceName s guid = s ∧
      (5 ≤ s.roles.length ∨ ¬m.Free instanceName guid ∨ guid ∈ s.guids)) ∨
    ∃ q, Lib.entryOf guid m.queue = some q ∧ m.Free instanceName guid ∧ guid ∉ s.guids ∧
      ((m.addCandidate w m.getQueueOrder seedGuid seed instanceName s guid = s ∧
          m.fitBlock w seedGuid seed instanceName (s.guids) s
            (m.block m.getQueueOrder (q.leaderOf guid)) = none) ∨
        ∃ s', m.addCandidate w m.getQueueOrder seedGuid seed instanceName s guid = s' ∧
          m.fitBlock w seedGuid seed instanceName (s.guids) s
            (m.block m.getQueueOrder (q.leaderOf guid)) = some s' ∧
          Selected m s' ∧ Fitted (m.block m.getQueueOrder (q.leaderOf guid)) s s') := by
  unfold addCandidate
  by_cases hfive : 5 ≤ s.roles.length
  · rw [if_pos hfive]
    exact Or.inl ⟨rfl, Or.inl hfive⟩
  rw [if_neg hfive]
  cases hq : Lib.entryOf guid m.queue with
  | none =>
      refine Or.inl ⟨rfl, Or.inr (Or.inl fun hfree => ?_)⟩
      obtain ⟨-, q, hq', -⟩ := hfree
      rw [hq] at hq'
      cases hq'
  | some q =>
      simp only
      by_cases hin : guid ∈ s.guids
      · rw [if_neg fun hand => hand.1 hin]
        exact Or.inl ⟨rfl, Or.inr (Or.inr hin)⟩
      by_cases hfree : m.Free instanceName guid
      · obtain ⟨hoffer, q', hq', hinstance⟩ := hfree
        rw [hq] at hq'
        cases hq'
        have hfits : m.fits w seedGuid seed instanceName guid q = true := by
          unfold fits
          rw [Bool.and_eq_true, Bool.and_eq_true]
          exact ⟨⟨decide_eq_true hoffer, decide_eq_true hinstance⟩, hcompatible _ _ _ _ hseed hq⟩
        rw [if_pos ⟨hin, hfits⟩]
        refine Or.inr ⟨q, rfl, ⟨hoffer, q, hq, hinstance⟩, hin, ?_⟩
        cases hfit : m.fitBlock w seedGuid seed instanceName (s.roles.map Prod.fst) s
            (m.block m.getQueueOrder (q.leaderOf guid)) with
        | none => exact Or.inl ⟨rfl, hfit⟩
        | some s' =>
            have hfitted := fitted_fitBlock w hfit
            have hselected : Selected m s' :=
              h.fitBlock w ((nodup_getQueueOrder hsorted).filter _) (fun _ _ hmem => hmem) hfit
            -- the block brings the candidate at least, and not more than there are places for
            have hsub : (guid :: s.guids) ⊆ s'.guids := by
              intro other hother
              rw [hfitted.guids]
              rcases List.mem_cons.mp hother with rfl | hother
              · exact Or.inr ((mem_block hq).mpr ⟨q, q, hq, hq, rfl⟩)
              · exact Or.inl hother
            have hnodup : (guid :: s.guids).Nodup := List.nodup_cons.mpr ⟨hin, h.sorted.nodup⟩
            have hmore := (hnodup.subperm hsub).length_le
            unfold Staff.guids at hmore
            rw [List.length_cons, List.length_map, List.length_map] at hmore
            have hless := hselected.length_le (hfitted.bounded hbounded)
            have hnot : ¬ (s'.roles.length = s.roles.length ∨ 5 < s'.roles.length) := by omega
            simp only [if_neg hnot]
            exact Or.inr ⟨s', rfl, hfit, hselected, hfitted⟩
      · refine Or.inl ⟨?_, Or.inr (Or.inl hfree)⟩
        refine if_neg fun hand => hfree ?_
        have hfits := hand.2
        unfold fits at hfits
        rw [Bool.and_eq_true, Bool.and_eq_true] at hfits
        exact ⟨of_decide_eq_true hfits.1.1, q, hq, of_decide_eq_true hfits.1.2⟩

end Fitting

section Scan

variable (w : World) {seedGuid : Guid} {seed : QueuedPlayer} {instanceName : String}
  {party scanned rest : List Guid} {role : Guid → Role} {guid : Guid}

/-- Every player of the party has one role. -/
def Single (m : Manager) (party : List Guid) (role : Guid → Role) : Prop :=
  ∀ guid ∈ party, ∀ q, Lib.entryOf guid m.queue = some q → ∀ r, q.roleMask.has r = true → r = role guid

/-- What holds when some of the queue has been scanned. A player of the party who has been passed is
selected, or his role is taken; and the front of the queue is the party's own. -/
structure Scanned (m : Manager) (instanceName : String) (party : List Guid) (role : Guid → Role)
    (scanned : List Guid) (s : Staff) : Prop where
  selected : Selected m s
  bounded : s.Bounded
  closed : ∀ guid ∈ s.guids, ∀ other, m.SameBlock guid other → other ∈ s.guids
  passed : ∀ guid ∈ scanned, guid ∈ party → guid ∈ s.guids ∨ s.of (role guid) = (role guid).places
  front : (∀ guid ∈ scanned, m.Free instanceName guid → guid ∈ party) → s.guids ⊆ party
  ahead : ∀ guid ∈ scanned, guid ∈ party → m.Ahead instanceName party guid → guid ∈ s.guids

/-- A party has five players. -/
theorem Party.length (h : m.Party instanceName party role) : party.length = 5 := by
  have hcounts := length_eq_counts (party.map role)
  rw [h.places, h.places, h.places, List.length_map] at hcounts
  exact hcounts

/-- The role of a selected player who has one. -/
theorem Selected.role_eq (h : Selected m s) (hsingle : m.Single party role) {entry : Guid × Role}
    (hentry : entry ∈ s.roles) (hmem : entry.1 ∈ party) : entry.2 = role entry.1 := by
  obtain ⟨-, q, hq, hhas⟩ := h.each entry hentry
  exact hsingle entry.1 hmem q hq entry.2 hhas

/-- How many of a role are selected. -/
theorem Selected.of_eq (h : Selected m s) (r : Role) : (s.roles.map Prod.snd).count r = s.of r := by
  cases r with
  | tank => exact h.tanks
  | healer => exact h.healers
  | damage => exact h.damage

/-- One of the party fits, in his role alone. -/
theorem Party.exists_fits (hparty : m.Party instanceName party role) (hsingle : m.Single party role)
    (hcompatible : m.Compatible w) (hseed : Lib.entryOf seedGuid m.queue = some seed) {other : Guid}
    (hmember : other ∈ party) : ∃ q, Lib.entryOf other m.queue = some q ∧
      m.fits w seedGuid seed instanceName other q = true ∧ q.roleMask.has (role other) = true ∧
        ∀ r, q.roleMask.has r = true → r = role other := by
  obtain ⟨hoffer, q, hq, hinstance⟩ := hparty.free other hmember
  refine ⟨q, hq, ?_, hparty.able other hmember q hq, hsingle other hmember q hq⟩
  unfold fits
  rw [Bool.and_eq_true, Bool.and_eq_true]
  exact ⟨⟨decide_eq_true hoffer, decide_eq_true hinstance⟩, hcompatible _ _ _ _ hseed hq⟩

/-- While only the party is selected, a block of the party fits. -/
theorem exists_fitBlock_of_front (hparty : m.Party instanceName party role)
    (hsingle : m.Single party role) (hcompatible : m.Compatible w) (hsorted : Lib.KeysSorted m.queue)
    (hseed : Lib.entryOf seedGuid m.queue = some seed) (h : Selected m s)
    (hclosed : ∀ guid ∈ s.guids, ∀ other, m.SameBlock guid other → other ∈ s.guids)
    (hfront : s.guids ⊆ party) (hguid : guid ∈ party) (hnot : guid ∉ s.guids) {q : QueuedPlayer}
    (hq : Lib.entryOf guid m.queue = some q) :
    ∃ s', m.fitBlock w seedGuid seed instanceName s.guids s
      (m.block m.getQueueOrder (q.leaderOf guid)) = some s' := by
  have hblock : ∀ other ∈ m.block m.getQueueOrder (q.leaderOf guid), m.SameBlock guid other :=
    fun other hother => (mem_block hq).mp hother
  refine exists_fitBlock w role (fun other hother => ?_) (fun r => ?_)
  · have hsame := hblock other hother
    exact ⟨fun hin => hnot (hclosed other hin guid hsame.symm),
      hparty.exists_fits w hsingle hcompatible hseed (hparty.whole guid hguid other hsame)⟩
  · -- those who are selected and those of the block are different players of the party
    have hroles : s.roles.map Prod.snd = s.guids.map role := by
      unfold Staff.guids
      rw [List.map_map]
      exact List.map_congr_left fun entry hentry =>
        h.role_eq hsingle hentry (hfront (List.mem_map_of_mem hentry))
    have hnodup : (s.guids ++ m.block m.getQueueOrder (q.leaderOf guid)).Nodup := by
      refine List.nodup_append.mpr ⟨h.sorted.nodup, (nodup_getQueueOrder hsorted).filter _, ?_⟩
      rintro a ha b hb rfl
      exact hnot (hclosed a ha guid (hblock a hb).symm)
    have hsub : (s.guids ++ m.block m.getQueueOrder (q.leaderOf guid)) ⊆ party := by
      intro other hother
      rcases List.mem_append.mp hother with hother | hother
      · exact hfront hother
      · exact hparty.whole guid hguid other (hblock other hother)
    have hle : ((s.guids ++ m.block m.getQueueOrder (q.leaderOf guid)).map role).count r ≤
        (party.map role).count r := by
      show List.countP (· == r) _ ≤ List.countP (· == r) _
      rw [List.countP_map, List.countP_map]
      exact (hnodup.subperm hsub).countP_le _
    rw [List.map_append, List.count_append, hparty.places, ← hroles, h.of_eq] at hle
    exact hle

/-- A player who is queued alone fits while his role has a place. -/
theorem exists_fitBlock_of_solo (hparty : m.Party instanceName party role)
    (hsingle : m.Single party role) (hcompatible : m.Compatible w) (hsorted : Lib.KeysSorted m.queue)
    (hseed : Lib.entryOf seedGuid m.queue = some seed) (hguid : guid ∈ party) (hnot : guid ∉ s.guids)
    (hsolo : ∀ other, m.SameBlock guid other → other = guid)
    (hplace : s.of (role guid) < (role guid).places) (hbounded : s.Bounded) {q : QueuedPlayer}
    (hq : Lib.entryOf guid m.queue = some q) :
    ∃ s', m.fitBlock w seedGuid seed instanceName s.guids s
      (m.block m.getQueueOrder (q.leaderOf guid)) = some s' := by
  have hblock : m.block m.getQueueOrder (q.leaderOf guid) = [guid] := by
    refine List.perm_singleton.mp ?_
    refine (List.perm_ext_iff_of_nodup ((nodup_getQueueOrder hsorted).filter _)
      (List.nodup_singleton _)).mpr fun other => ?_
    have hmem : other ∈ m.block m.getQueueOrder (q.leaderOf guid) ↔ m.SameBlock guid other :=
      mem_block hq
    unfold block at hmem
    rw [hmem, List.mem_singleton]
    constructor
    · exact hsolo other
    · rintro rfl
      exact ⟨q, q, hq, hq, rfl⟩
  rw [hblock]
  refine exists_fitBlock w role (fun other hother => ?_) (fun r => ?_)
  · rw [List.mem_singleton] at hother
    subst hother
    exact ⟨hnot, hparty.exists_fits w hsingle hcompatible hseed hguid⟩
  · have hle := hbounded r
    rw [List.map_singleton, List.count_singleton]
    split_ifs with hsame
    · have hr : role guid = r := by simpa using hsame
      subst hr
      exact hplace
    · exact hle

/-- A candidate is passed. -/
theorem Scanned.pass (h : Scanned m instanceName party role scanned s)
    (hpassed : guid ∈ party → guid ∈ s.guids ∨ s.of (role guid) = (role guid).places)
    (hahead : guid ∈ party → m.Ahead instanceName party guid → guid ∈ s.guids) :
    Scanned m instanceName party role (scanned ++ [guid]) s where
  selected := h.selected
  bounded := h.bounded
  closed := h.closed
  passed other hother hmem := by
    rcases List.mem_append.mp hother with hother | hother
    · exact h.passed other hother hmem
    · rw [List.mem_singleton.mp hother] at hmem ⊢
      exact hpassed hmem
  front hfront := h.front fun other hother => hfront other (List.mem_append_left _ hother)
  ahead other hother hmem hfirst := by
    rcases List.mem_append.mp hother with hother | hother
    · exact h.ahead other hother hmem hfirst
    · rw [List.mem_singleton.mp hother] at hmem hfirst ⊢
      exact hahead hmem hfirst

/-- The block of a candidate is selected. -/
theorem Scanned.take (h : Scanned m instanceName party role scanned s)
    (hparty : m.Party instanceName party role) {q : QueuedPlayer}
    (hq : Lib.entryOf guid m.queue = some q) (hfree : m.Free instanceName guid) {s' : Staff}
    (hselected : Selected m s')
    (hfitted : Fitted (m.block m.getQueueOrder (q.leaderOf guid)) s s') :
    Scanned m instanceName party role (scanned ++ [guid]) s' where
  selected := hselected
  bounded := hfitted.bounded h.bounded
  closed other hother third hsame := by
    rw [hfitted.guids] at hother ⊢
    rcases hother with hother | hother
    · exact Or.inl (h.closed other hother third hsame)
    · rw [mem_block hq] at hother ⊢
      exact Or.inr (hother.trans hsame)
  passed other hother hmem := by
    rw [hfitted.guids]
    rcases List.mem_append.mp hother with hother | hother
    · rcases h.passed other hother hmem with hin | hfull
      · exact Or.inl (Or.inl hin)
      · have hmono := hfitted.mono (role other)
        have hle := hfitted.bounded h.bounded (role other)
        right
        omega
    · rw [List.mem_singleton.mp hother]
      exact Or.inl (Or.inr ((mem_block hq).mpr ⟨q, q, hq, hq, rfl⟩))
  front hfront other hother := by
    rw [hfitted.guids, mem_block hq] at hother
    rcases hother with hother | hother
    · exact h.front (fun third hthird => hfront third (List.mem_append_left _ hthird)) hother
    · have hguid := hfront guid (List.mem_append_right _ (List.mem_singleton_self _)) hfree
      exact hparty.whole guid hguid other hother
  ahead other hother hmem hfirst := by
    rw [hfitted.guids]
    rcases List.mem_append.mp hother with hother | hother
    · exact Or.inl (h.ahead other hother hmem hfirst)
    · rw [List.mem_singleton.mp hother]
      exact Or.inr ((mem_block hq).mpr ⟨q, q, hq, hq, rfl⟩)

/-- A party that has somebody left is not selected as a whole. -/
theorem mem_of_five (hparty : m.Party instanceName party role) (h : Selected m s)
    (hfront : s.guids ⊆ party) (hfive : 5 ≤ s.roles.length) (hguid : guid ∈ party) : guid ∈ s.guids := by
  have hsub : s.guids.Subperm party := h.sorted.nodup.subperm hfront
  have hlength : party.length ≤ s.guids.length := by
    unfold Staff.guids
    rw [hparty.length, List.length_map]
    exact hfive
  exact (hsub.perm_of_length_le hlength).mem_iff.mpr hguid

/-- Somebody who stands at the front of the queue has nobody else before him. -/
theorem front_of_ahead {first : Guid} (hsplit : m.getQueueOrder = scanned ++ rest)
    (hnot : first ∉ scanned) (hahead : m.Ahead instanceName party first) :
    ∀ guid ∈ scanned, m.Free instanceName guid → guid ∈ party := by
  obtain ⟨before, after, horder, hbefore⟩ := hahead
  rw [hsplit] at horder
  rcases List.append_eq_append_iff.mp horder with ⟨middle, hmiddle, -⟩ | ⟨middle, hmiddle, hrest⟩
  · intro guid hguid
    exact hbefore guid (hmiddle ▸ List.mem_append_left _ hguid)
  · cases middle with
    | nil =>
        rw [List.append_nil] at hmiddle
        rw [hmiddle]
        exact hbefore
    | cons head tail =>
        have hhead : first = head := (List.cons.inj hrest).1
        refine absurd ?_ hnot
        rw [hmiddle, hhead]
        exact List.mem_append_right _ List.mem_cons_self

/-- One candidate of the scan. -/
theorem Scanned.step (hparty : m.Party instanceName party role) (hsingle : m.Single party role)
    (hpremades : m.PremadesAhead instanceName party) (hcompatible : m.Compatible w)
    (hsorted : Lib.KeysSorted m.queue) (hseed : Lib.entryOf seedGuid m.queue = some seed)
    (hsplit : m.getQueueOrder = scanned ++ guid :: rest)
    (h : Scanned m instanceName party role scanned s) :
    Scanned m instanceName party role (scanned ++ [guid])
      (m.addCandidate w m.getQueueOrder seedGuid seed instanceName s guid) := by
  have hnot : guid ∉ scanned := by
    have hnodup := nodup_getQueueOrder hsorted
    rw [hsplit] at hnodup
    exact fun hmem => (List.nodup_append.mp hnodup).2.2 guid hmem guid List.mem_cons_self rfl
  have hfront : m.Ahead instanceName party guid → s.guids ⊆ party := fun hahead =>
    h.front (front_of_ahead hsplit hnot hahead)
  rcases addCandidate_cases w hcompatible hsorted hseed h.selected h.bounded guid with
    ⟨hsame, hwhy⟩ | ⟨q, hq, hfree, hnew, ⟨hsame, hnone⟩ | ⟨s', hs', -, hselected, hfitted⟩⟩
  · rw [hsame]
    rcases hwhy with hfive | hbusy | hin
    · exact h.pass (fun _ => Or.inr (h.selected.full h.bounded hfive _)) fun hguid hahead =>
        mem_of_five hparty h.selected (hfront hahead) hfive hguid
    · exact h.pass (fun hguid => absurd (hparty.free guid hguid) hbusy) fun hguid _ =>
        absurd (hparty.free guid hguid) hbusy
    · exact h.pass (fun _ => Or.inl hin) fun _ _ => hin
  · rw [hsame]
    have hmixed : guid ∈ party → ¬ s.guids ⊆ party := by
      intro hguid hfront
      obtain ⟨s', hs'⟩ := exists_fitBlock_of_front w hparty hsingle hcompatible hsorted hseed h.selected
        h.closed hfront hguid hnew hq
      rw [hnone] at hs'
      cases hs'
    refine h.pass (fun hguid => Or.inr ?_) fun hguid hahead => absurd (hfront hahead) (hmixed hguid)
    by_cases hsolo : ∀ other, m.SameBlock guid other → other = guid
    · by_contra hplace
      have hlt := Nat.lt_of_le_of_ne (h.bounded (role guid)) hplace
      obtain ⟨s', hs'⟩ := exists_fitBlock_of_solo w hparty hsingle hcompatible hsorted hseed hguid hnew
        hsolo hlt h.bounded hq
      rw [hnone] at hs'
      cases hs'
    · -- a premade block that comes first has been selected, or only the party has been
      simp only [not_forall] at hsolo
      obtain ⟨other, hother, hne⟩ := hsolo
      obtain ⟨first, hblock, hahead⟩ := hpremades guid hguid other hne hother
      have hmember := hparty.whole guid hguid first hblock
      by_cases hpassed : first ∈ scanned
      · exact absurd (h.closed first (h.ahead first hpassed hmember hahead) guid hblock.symm) hnew
      · exact absurd (h.front (front_of_ahead hsplit hpassed hahead)) (hmixed hguid)
  · rw [hs']
    exact h.take hparty hq hfree hselected hfitted

/-- The scan. -/
theorem Scanned.foldl (hparty : m.Party instanceName party role) (hsingle : m.Single party role)
    (hpremades : m.PremadesAhead instanceName party) (hcompatible : m.Compatible w)
    (hsorted : Lib.KeysSorted m.queue) (hseed : Lib.entryOf seedGuid m.queue = some seed)
    (hsplit : m.getQueueOrder = scanned ++ rest) (h : Scanned m instanceName party role scanned s) :
    Scanned m instanceName party role m.getQueueOrder
      (rest.foldl (m.addCandidate w m.getQueueOrder seedGuid seed instanceName) s) := by
  induction rest generalizing scanned s with
  | nil =>
      rw [List.append_nil] at hsplit
      rw [hsplit]
      exact h
  | cons guid rest ih =>
      refine ih ?_ (h.step w hparty hsingle hpremades hcompatible hsorted hseed hsplit)
      rw [List.append_assoc]
      exact hsplit

/-- When the queue has been scanned, every place is taken. -/
theorem Scanned.full (hparty : m.Party instanceName party role) (hsingle : m.Single party role)
    (h : Scanned m instanceName party role m.getQueueOrder s) (r : Role) : s.of r = r.places := by
  by_contra hopen
  have hlt := Nat.lt_of_le_of_ne (h.bounded r) hopen
  -- everybody of the party with this role is selected with it
  have hsub : ((party.filter fun guid => role guid = r).map fun guid => (guid, r)) ⊆ s.roles := by
    intro entry hentry
    obtain ⟨guid, hguid, rfl⟩ := List.mem_map.mp hentry
    obtain ⟨hmem, hrole⟩ := List.mem_filter.mp hguid
    rw [decide_eq_true_eq] at hrole
    obtain ⟨-, q, hq, -⟩ := hparty.free guid hmem
    rcases h.passed guid (mem_getQueueOrder.mpr ⟨q, hq⟩) hmem with hin | hfull
    · obtain ⟨⟨guid', r'⟩, hentry', rfl⟩ := List.mem_map.mp hin
      have hr := h.selected.role_eq hsingle hentry' hmem
      rw [← hrole, ← hr]
      exact hentry'
    · rw [hrole] at hfull
      exact absurd hfull hopen
  have hnodup : ((party.filter fun guid => role guid = r).map fun guid => (guid, r)).Nodup :=
    (hparty.nodup.filter _).map fun a b hab => (Prod.mk.inj hab).1
  have hle := (hnodup.subperm hsub).countP_le ((· == r) ∘ Prod.snd)
  rw [List.countP_map, List.countP_filter] at hle
  have hcount : party.countP (fun guid => (((· == r) ∘ Prod.snd) ∘ fun guid => (guid, r)) guid &&
      decide (role guid = r)) = (party.map role).count r := by
    show _ = List.countP (· == r) _
    rw [List.countP_map]
    refine List.countP_congr fun guid _ => ?_
    simp
  have hroles : s.roles.countP ((· == r) ∘ Prod.snd) = s.of r := by
    rw [← List.countP_map]
    exact h.selected.of_eq r
  rw [hcount, hparty.places, hroles] at hle
  omega

/-- Nothing is scanned yet. -/
theorem scanned_empty : Scanned m instanceName party role [] Staff.empty where
  selected := selected_empty
  bounded r := by cases r <;> exact Nat.zero_le _
  closed _ h := absurd h List.not_mem_nil
  passed _ h := absurd h List.not_mem_nil
  front _ := List.nil_subset _
  ahead _ h := absurd h List.not_mem_nil

/-- A party whose players have one role each and whose premade blocks come first is found. -/
theorem findsOffer_of_party (hparty : m.Party instanceName party role) (hsingle : m.Single party role)
    (hpremades : m.PremadesAhead instanceName party) (hcompatible : m.Compatible w)
    (hsorted : Lib.KeysSorted m.queue) : m.findsOffer w instanceName = true := by
  have hlength := hparty.length
  cases hparties : party with
  | nil =>
      rw [hparties] at hlength
      cases hlength
  | cons seedGuid others =>
      have hseedGuid : seedGuid ∈ party := hparties ▸ List.mem_cons_self
      obtain ⟨hoffer, seed, hseed, hinstance⟩ := hparty.free seedGuid hseedGuid
      have hscanned := scanned_empty.foldl w hparty hsingle hpremades hcompatible hsorted hseed
        (List.nil_append _).symm
      have hfull := hscanned.full hparty hsingle
      have hfive : (m.getQueueOrder.foldl
          (m.addCandidate w m.getQueueOrder seedGuid seed instanceName) Staff.empty).roles.length = 5 := by
        have htotal := hscanned.selected.length
        have htank := hfull .tank
        have hhealer := hfull .healer
        have hdamage := hfull .damage
        simp only [Staff.of, Role.places] at htank hhealer hdamage
        omega
      unfold findsOffer
      rw [List.findSome?_isSome_iff]
      refine ⟨seedGuid, mem_getQueueOrder.mpr ⟨seed, hseed⟩, ?_⟩
      unfold selectFor
      rw [hseed]
      simp only [if_pos (And.intro hoffer hinstance)]
      rw [if_pos ⟨hfull .tank, hfull .healer, hfull .damage, hfive⟩]
      rfl

end Scan

/-- The scan selects whole blocks. -/
theorem closed_addCandidate (w : World) {seedGuid : Guid} {seed : QueuedPlayer} {instanceName : String}
    (h : ∀ guid ∈ s.guids, ∀ other, m.SameBlock guid other → other ∈ s.guids) (guid : Guid) :
    ∀ other ∈ (m.addCandidate w m.getQueueOrder seedGuid seed instanceName s guid).guids,
      ∀ third, m.SameBlock other third →
        third ∈ (m.addCandidate w m.getQueueOrder seedGuid seed instanceName s guid).guids := by
  unfold addCandidate
  split_ifs
  · exact h
  · cases hq : Lib.entryOf guid m.queue with
    | none => exact h
    | some q =>
        simp only
        split_ifs
        · cases hfit : m.fitBlock w seedGuid seed instanceName (s.roles.map Prod.fst) s
              (m.block m.getQueueOrder (q.leaderOf guid)) with
          | none => exact h
          | some s' =>
              simp only
              split_ifs
              · exact h
              · have hfitted := fitted_fitBlock w hfit
                intro other hother third hsame
                rw [hfitted.guids] at hother ⊢
                rcases hother with hother | hother
                · exact Or.inl (h other hother third hsame)
                · rw [mem_block hq] at hother ⊢
                  exact Or.inr (hother.trans hsame)
        · exact h

/-- No premade block is split. -/
theorem closed_selectFor (w : World) {seedGuid : Guid} {instanceName : String} {staff : Staff}
    (h : m.selectFor w m.getQueueOrder instanceName seedGuid = some staff) :
    ∀ guid ∈ staff.guids, ∀ other, m.SameBlock guid other → other ∈ staff.guids := by
  unfold selectFor at h
  cases hseed : Lib.entryOf seedGuid m.queue with
  | none =>
      rw [hseed] at h
      cases h
  | some seed =>
      simp only [hseed] at h
      split_ifs at h
      cases h
      have hgo : ∀ (guids : List Guid) (s : Staff),
          (∀ guid ∈ s.guids, ∀ other, m.SameBlock guid other → other ∈ s.guids) →
          ∀ guid ∈ (guids.foldl (m.addCandidate w m.getQueueOrder seedGuid seed instanceName) s).guids,
            ∀ other, m.SameBlock guid other →
              other ∈ (guids.foldl (m.addCandidate w m.getQueueOrder seedGuid seed instanceName) s).guids := by
        intro guids
        induction guids with
        | nil => exact fun _ hs => hs
        | cons guid rest ih => exact fun _ hs => ih _ (closed_addCandidate w hs guid)
      exact hgo _ _ fun guid hguid => absurd hguid List.not_mem_nil

end Manager

end TwowCore.LFT
