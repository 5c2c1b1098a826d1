import TwowCore.Battlegrounds.Invitations

/-!
# Who in the queue is invited

What each operation of the queue does to the invitations its players hold through their groups:
joining, logging in and logging out change none, `RemovePlayer` takes one away, and
`InviteGroupToBG` gives one to each player of a group that waits.
-/

namespace TwowCore.Battlegrounds

namespace GroupQueueInfo

@[simp] theorem insertPlayer_invitation (g : GroupQueueInfo) (guid : ObjectGuid) :
    (g.insertPlayer guid).invitation = g.invitation := by
  unfold insertPlayer
  split <;> rfl

@[simp] theorem erasePlayer_invitation (g : GroupQueueInfo) (guid : ObjectGuid) :
    (g.erasePlayer guid).invitation = g.invitation := rfl

theorem invitation_of_waits {g : GroupQueueInfo} (h : g.Waits) : g.invitation = none := if_pos h

theorem invitation_of_not_waits {g : GroupQueueInfo} (h : ¬g.Waits) :
    g.invitation = some (g.isInvitedToBGInstanceGUID, g.groupTeam) := if_neg h

end GroupQueueInfo

namespace BattleGroundQueue

variable {q q' : BattleGroundQueue} {guid p : ObjectGuid} {ptr : GroupPtr}

/-- The invitation of a player is read from his entry and from his group. -/
theorem invitedTo_congr (hinfo : q'.playerInfo p = q.playerInfo p)
    (hgroup : ∀ info, q.playerInfo p = some info →
      (q'.groupInfos info.groupInfo).bind GroupQueueInfo.invitation =
        (q.groupInfos info.groupInfo).bind GroupQueueInfo.invitation) :
    q'.invitedTo p = q.invitedTo p := by
  unfold invitedTo groupOf
  rw [hinfo]
  cases h : q.playerInfo p with
  | none => rfl
  | some info => exact hgroup info h

theorem invitedTo_of_not_queued (h : ¬q.Queued p) : q.invitedTo p = none := by
  have hnone : q.playerInfo p = none := by simpa [Queued] using h
  unfold invitedTo groupOf
  rw [hnone]
  rfl

theorem queued_of_invitedTo {invitation : UInt32 × Team} (h : q.invitedTo p = some invitation) :
    q.Queued p := by
  by_contra hnot
  rw [invitedTo_of_not_queued hnot] at h
  cases h

theorem queued_of_groupOf {g : GroupQueueInfo} (h : q.groupOf p = some g) : q.Queued p := by
  obtain ⟨info, hinfo, -⟩ := Option.bind_eq_some_iff.mp h
  exact Option.isSome_iff_exists.mpr ⟨info, hinfo⟩

section Join

/-- The players point to groups that `new` has made. -/
def Below (q : BattleGroundQueue) : Prop :=
  ∀ p info, q.playerInfo p = some info → info.groupInfo < q.nextPtr

theorem Sound.below (h : q.Sound) : q.Below := by
  intro p info hinfo
  have hown : q.layout.owner p = some info.groupInfo := by
    show (q.playerInfo p).map _ = _
    rw [hinfo]
    rfl
  obtain ⟨place, hplace⟩ := h.coherent.kept hown
  by_contra hge
  exact h.fresh (not_lt.mp hge) place.1 place.2 hplace

/-- Players join: no invitation changes, and only they are queued. -/
structure Joined (q q' : BattleGroundQueue) (newcomers : List Joiner) : Prop where
  below : q'.Below
  invited : ∀ p, q'.invitedTo p = q.invitedTo p
  queued : ∀ p, q'.Queued p → q.Queued p ∨ ∃ member ∈ newcomers, member.guid = p
  room : q.nextPtr ≤ q'.nextPtr

theorem Joined.trans {q'' : BattleGroundQueue} {first second : List Joiner}
    (h : Joined q q' first) (h' : Joined q' q'' second) : Joined q q'' (first ++ second) := by
  refine ⟨h'.below, fun p => (h'.invited p).trans (h.invited p), fun p hp => ?_,
    h.room.trans h'.room⟩
  rcases h'.queued p hp with hold | ⟨member, hmember, rfl⟩
  · exact (h.queued p hold).imp_right fun ⟨member, hmember, heq⟩ =>
      ⟨member, List.mem_append_left _ hmember, heq⟩
  · exact Or.inr ⟨member, List.mem_append_right _ hmember, rfl⟩

/-- A new group is written where no player points to. -/
theorem Below.newGroup (h : q.Below) (leader : Joiner) (req : JoinRequest) :
    Joined q (q.newGroup leader req) [] := by
  refine ⟨fun p info hinfo => Nat.lt_succ_of_lt (h p info hinfo), fun p => ?_,
    fun p hp => Or.inl hp, Nat.le_succ _⟩
  refine invitedTo_congr rfl fun info hinfo => ?_
  show (Function.update q.groupInfos q.nextPtr _ info.groupInfo).bind _ = _
  rw [Function.update_of_ne (h p info hinfo).ne]

/-- A player is added to a group that waits. -/
theorem Below.enlist (h : q.Below) (hptr : ptr < q.nextPtr) {g : GroupQueueInfo}
    (hg : q.groupInfos ptr = some g) (hwaits : g.Waits) (member : Joiner)
    (hnone : q.invitedTo member.guid = none) : Joined q (q.enlist ptr member.guid) [member] := by
  have hwritten : (q.enlist ptr member.guid).groupInfos ptr = some (g.insertPlayer member.guid) := by
    show Function.update _ _ _ _ = _
    rw [Function.update_self, hg]
    rfl
  refine ⟨fun p info hinfo => ?_, fun p => ?_, fun p hp => ?_, le_rfl⟩
  · rw [playerInfo_enlist] at hinfo
    split_ifs at hinfo with hp
    · obtain rfl := Option.some.inj hinfo
      exact hptr
    · exact h p info hinfo
  · by_cases hp : p = member.guid
    · subst hp
      rw [hnone]
      unfold invitedTo groupOf
      rw [playerInfo_enlist, if_pos rfl]
      show ((q.enlist ptr member.guid).groupInfos ptr).bind _ = none
      rw [hwritten]
      show (g.insertPlayer member.guid).invitation = none
      rw [GroupQueueInfo.insertPlayer_invitation, GroupQueueInfo.invitation_of_waits hwaits]
    · refine invitedTo_congr (by rw [playerInfo_enlist, if_neg hp]) fun info hinfo => ?_
      by_cases hgroup : info.groupInfo = ptr
      · rw [hgroup, hwritten, hg]
        exact GroupQueueInfo.insertPlayer_invitation g member.guid
      · show (Function.update q.groupInfos ptr _ info.groupInfo).bind _ = _
        rw [Function.update_of_ne hgroup]
  · unfold Queued at hp
    rw [playerInfo_enlist] at hp
    split_ifs at hp with heq
    · exact Or.inr ⟨member, List.mem_singleton_self member, heq.symm⟩
    · exact Or.inl hp

theorem storeGroup_playerInfo (bracket : BattleGroundBracketId) (index : GroupTypes) :
    (q.storeGroup ptr bracket index).playerInfo = q.playerInfo := by
  unfold storeGroup
  split
  · split <;> rfl
  · rfl

theorem storeGroup_groupInfos (bracket : BattleGroundBracketId) (index : GroupTypes) :
    (q.storeGroup ptr bracket index).groupInfos = q.groupInfos := by
  unfold storeGroup
  split
  · split <;> rfl
  · rfl

theorem storeGroup_nextPtr (bracket : BattleGroundBracketId) (index : GroupTypes) :
    (q.storeGroup ptr bracket index).nextPtr = q.nextPtr := by
  unfold storeGroup
  split
  · split <;> rfl
  · rfl

/-- The list a group is put into does not count. -/
theorem Below.storeGroup (h : q.Below) (ptr : GroupPtr) (bracket : BattleGroundBracketId)
    (index : GroupTypes) : Joined q (q.storeGroup ptr bracket index) [] := by
  refine ⟨fun p info hinfo => ?_, fun p => ?_, fun p hp => Or.inl ?_,
    (storeGroup_nextPtr bracket index).ge⟩
  · rw [storeGroup_playerInfo] at hinfo
    rw [storeGroup_nextPtr]
    exact h p info hinfo
  · refine invitedTo_congr (by rw [storeGroup_playerInfo]) fun info _ => ?_
    rw [storeGroup_groupInfos]
  · unfold Queued at hp ⊢
    rwa [storeGroup_playerInfo] at hp

/-- The new group waits. -/
theorem newGroup_waits (leader : Joiner) (req : JoinRequest) :
    ∃ g, (q.newGroup leader req).groupInfos q.nextPtr = some g ∧ g.Waits :=
  ⟨_, Function.update_self _ _ _, rfl⟩

/-- A player joins alone. -/
theorem Below.addSolo (h : q.Below) (member : Joiner) (req : JoinRequest) (isPremade : Bool)
    (hnone : q.invitedTo member.guid = none) : Joined q (q.addSolo member req isPremade) [member] := by
  have hnew := h.newGroup member req
  obtain ⟨g, hg, hwaits⟩ := newGroup_waits (q := q) member req
  have henlist := hnew.below.enlist (Nat.lt_succ_self q.nextPtr) hg hwaits member
    ((hnew.invited _).trans hnone)
  exact (hnew.trans henlist).trans
    (henlist.below.storeGroup q.nextPtr req.bracketId (joinIndex member isPremade))

/-- The loop of `AddGroup`. -/
theorem Below.addMembers (h : q.Below) (grp : PlayerGroup) (req : JoinRequest)
    (members : List Joiner) (hptr : ptr < q.nextPtr) {g : GroupQueueInfo} (hg : q.groupInfos ptr = some g)
    (hwaits : g.Waits) (hnone : ∀ member ∈ members, q.invitedTo member.guid = none) :
    Joined q (members.foldl (fun q' member => q'.addMember ptr grp req member) q) members := by
  induction members generalizing q g with
  | nil => exact ⟨h, fun _ => rfl, fun p hp => Or.inl hp, le_rfl⟩
  | cons member rest ih =>
      have hfirst := hnone member List.mem_cons_self
      have hstep : Joined q (q.addMember ptr grp req member) [member] ∧
          ∃ g', (q.addMember ptr grp req member).groupInfos ptr = some g' ∧ g'.Waits := by
        unfold addMember
        split_ifs with hlimit
        · refine ⟨h.addSolo member req false hfirst, g, ?_, hwaits⟩
          rw [(groupInfos_addSolo member req false hptr).1, hg]
        · refine ⟨h.enlist hptr hg hwaits member hfirst, g.insertPlayer member.guid, ?_, ?_⟩
          · show Function.update _ _ _ _ = _
            rw [Function.update_self, hg]
            rfl
          · unfold GroupQueueInfo.insertPlayer
            split <;> exact hwaits
      obtain ⟨hjoined, g', hg', hwaits'⟩ := hstep
      refine hjoined.trans (ih hjoined.below (hptr.trans_le hjoined.room) hg' hwaits' ?_)
      intro other hother
      rw [hjoined.invited]
      exact hnone other (List.mem_cons_of_mem _ hother)

/-- `AddGroup` invites nobody. -/
theorem Sound.joined_addGroup (h : q.Sound) {leader : Joiner} {grp : Option PlayerGroup}
    (req : JoinRequest) (isPremade : Bool) {excludedMembers : List ObjectGuid}
    (hnew : ∀ member ∈ newcomers leader grp excludedMembers, ¬q.Queued member.guid) :
    Joined q (q.addGroup leader grp req isPremade excludedMembers)
      (newcomers leader grp excludedMembers) := by
  cases grp with
  | none =>
      exact h.below.addSolo leader req isPremade
        (invitedTo_of_not_queued (hnew leader (List.mem_singleton_self leader)))
  | some grp =>
      have hgroup := h.below.newGroup leader req
      obtain ⟨g, hg, hwaits⟩ := newGroup_waits (q := q) leader req
      have hmembers := hgroup.below.addMembers grp req
        (joining grp excludedMembers) (Nat.lt_succ_self q.nextPtr) hg hwaits fun member hmember =>
          (hgroup.invited _).trans (invitedTo_of_not_queued (hnew member hmember))
      have hstored := hmembers.below.storeGroup q.nextPtr req.bracketId (joinIndex leader isPremade)
      have hall := (hgroup.trans hmembers).trans hstored
      rwa [List.nil_append, List.append_nil] at hall

end Join

section Leave

theorem playerInfo_removePlayer (guid p : ObjectGuid) :
    (q.removePlayer guid).playerInfo p = if p = guid then none else q.playerInfo p := by
  have herased : Lib.entryOf p (Lib.eraseEntry guid q.queuedPlayers) =
      if p = guid then none else q.playerInfo p := Lib.entryOf_eraseEntry p
  unfold removePlayer
  cases hinfo : q.playerInfo guid with
  | none =>
      show q.playerInfo p = _
      split_ifs with hp
      · rw [hp, hinfo]
      · rfl
  | some info =>
      cases hg : q.groupInfos info.groupInfo with
      | none =>
          simp only [hg]
          exact herased
      | some g =>
          simp only [hg]
          split
          · exact herased
          · split <;> exact herased

theorem queued_removePlayer : (q.removePlayer guid).Queued p ↔ p ≠ guid ∧ q.Queued p := by
  unfold Queued
  rw [playerInfo_removePlayer]
  split_ifs with hp <;> simp [hp]

/-- The players a stored group lists are those who point to it. -/
theorem Sound.mem_players (h : q.Sound) {info : PlayerQueueInfo} {g : GroupQueueInfo}
    (hinfo : q.playerInfo p = some info) (hg : q.groupInfos info.groupInfo = some g) :
    p ∈ g.players := by
  have hown : q.layout.owner p = some info.groupInfo := by
    show (q.playerInfo p).map _ = _
    rw [hinfo]
    rfl
  obtain ⟨members, team, hgroup, hmem⟩ := h.coherent.listed hown
  obtain ⟨g', hg', hpair⟩ := Option.map_eq_some_iff.mp hgroup
  obtain rfl : g = g' := Option.some.inj (hg.symm.trans hg')
  obtain ⟨hmembers, -⟩ := Prod.mk.injEq _ _ _ _ ▸ hpair
  exact hmembers ▸ hmem

/-- The groups after `RemovePlayer`, seen from another player. -/
theorem Sound.groupInfos_removePlayer (h : q.Sound) (hp : p ≠ guid) {info : PlayerQueueInfo}
    (hinfo : q.playerInfo p = some info) :
    ((q.removePlayer guid).groupInfos info.groupInfo).bind GroupQueueInfo.invitation =
      (q.groupInfos info.groupInfo).bind GroupQueueInfo.invitation := by
  unfold BattleGroundQueue.removePlayer
  cases hown : q.playerInfo guid with
  | none => rfl
  | some info' =>
      cases hg : q.groupInfos info'.groupInfo with
      | none =>
          simp only [hg]
      | some g =>
          have hwritten : (Function.update q.groupInfos info'.groupInfo
              (some (g.erasePlayer guid)) info.groupInfo).bind GroupQueueInfo.invitation =
                (q.groupInfos info.groupInfo).bind GroupQueueInfo.invitation := by
            by_cases hsame : info.groupInfo = info'.groupInfo
            · rw [hsame, Function.update_self, hg]
              rfl
            · rw [Function.update_of_ne hsame]
          simp only [hg]
          split
          · exact hwritten
          · split_ifs with hlast
            · -- a group that is deleted had nobody else
              have hother : info.groupInfo ≠ info'.groupInfo := by
                intro hsame
                have hin : p ∈ (g.erasePlayer guid).players :=
                  GroupQueueInfo.mem_erasePlayer.mpr ⟨h.mem_players hinfo (hsame ▸ hg), hp⟩
                rw [hlast] at hin
                cases hin
              show (Function.update (Function.update q.groupInfos _ _) _ _ _).bind _ = _
              rw [Function.update_of_ne hother, Function.update_of_ne hother]
            · exact hwritten

/-- `RemovePlayer` takes the invitation of the player, and of nobody else. -/
theorem Sound.invitedTo_removePlayer (h : q.Sound) (guid p : ObjectGuid) :
    (q.removePlayer guid).invitedTo p = if p = guid then none else q.invitedTo p := by
  split_ifs with hp
  · exact invitedTo_of_not_queued fun hqueued => (queued_removePlayer.mp hqueued).1 hp
  · exact invitedTo_congr (by rw [playerInfo_removePlayer, if_neg hp]) fun info hinfo =>
      h.groupInfos_removePlayer hp hinfo

end Leave

section Invite

variable {bracket : BattleGroundBracketId} {index : GroupTypes} {g : GroupQueueInfo}

/-- Who points to a stored group is listed by it. -/
theorem Sound.mem_players_iff (h : q.Sound) (hstored : ptr ∈ q.queuedGroups bracket index)
    (hg : q.groupInfos ptr = some g) :
    p ∈ g.players ↔ ∃ info, q.playerInfo p = some info ∧ info.groupInfo = ptr := by
  constructor
  · intro hp
    obtain ⟨members, hgroup, -, howned⟩ := h.coherent.owned (s := (bracket, index)) hstored
    obtain ⟨g', hg', hpair⟩ := Option.map_eq_some_iff.mp hgroup
    obtain rfl : g = g' := Option.some.inj (hg.symm.trans hg')
    obtain ⟨hmembers, -⟩ := Prod.mk.injEq _ _ _ _ ▸ hpair
    exact Option.map_eq_some_iff.mp (howned p (hmembers ▸ hp))
  · rintro ⟨info, hinfo, rfl⟩
    exact h.mem_players hinfo hg

/-- A group that is invited already stays as it is. -/
theorem inviteGroupToBG_of_not_waits (hg : q.groupInfos ptr = some g) (hwaits : ¬g.Waits)
    (instanceId now : UInt32) : q.inviteGroupToBG ptr instanceId now g.groupTeam = q := by
  unfold inviteGroupToBG
  simp only [hg]
  rw [if_neg hwaits]
  unfold setInfo
  rw [← hg, Function.update_eq_self]

/-- A group that waits is invited, all its players. -/
theorem Sound.invitedTo_inviteGroupToBG (h : q.Sound)
    (hstored : ptr ∈ q.queuedGroups bracket index) (hg : q.groupInfos ptr = some g)
    (hwaits : g.Waits) {instanceId : UInt32} (hne : instanceId ≠ 0) (now : UInt32) :
    (q.inviteGroupToBG ptr instanceId now g.groupTeam).invitedTo p =
      if p ∈ g.players then some (instanceId, g.groupTeam) else q.invitedTo p := by
  unfold inviteGroupToBG
  simp only [hg]
  rw [if_pos hwaits]
  split_ifs with hp
  · obtain ⟨info, hinfo, rfl⟩ := (h.mem_players_iff hstored hg).mp hp
    unfold invitedTo groupOf
    rw [show (q.setInfo info.groupInfo _).playerInfo p = some info from hinfo]
    show (Function.update q.groupInfos info.groupInfo _ info.groupInfo).bind _ = _
    rw [Function.update_self]
    exact GroupQueueInfo.invitation_of_not_waits hne
  · refine invitedTo_congr rfl fun info hinfo => ?_
    have hother : info.groupInfo ≠ ptr := fun hsame =>
      hp ((h.mem_players_iff hstored hg).mpr ⟨info, hinfo, hsame⟩)
    show (Function.update q.groupInfos ptr _ info.groupInfo).bind _ = _
    rw [Function.update_of_ne hother]

/-- Nobody of a group that waits is invited. -/
theorem Sound.invitedTo_of_waits (h : q.Sound) (hstored : ptr ∈ q.queuedGroups bracket index)
    (hg : q.groupInfos ptr = some g) (hwaits : g.Waits) (hp : p ∈ g.players) :
    q.Queued p ∧ q.invitedTo p = none := by
  obtain ⟨info, hinfo, rfl⟩ := (h.mem_players_iff hstored hg).mp hp
  refine ⟨Option.isSome_iff_exists.mpr ⟨info, hinfo⟩, ?_⟩
  unfold invitedTo groupOf
  rw [hinfo]
  show (q.groupInfos info.groupInfo).bind _ = none
  rw [hg]
  exact GroupQueueInfo.invitation_of_waits hwaits

theorem playerInfo_inviteGroupToBG (instanceId now : UInt32) (side : Team) :
    (q.inviteGroupToBG ptr instanceId now side).playerInfo = q.playerInfo := by
  unfold inviteGroupToBG
  split
  · rfl
  · split <;> rfl

end Invite

section Online

/-- Only the entry of one player is written, and he keeps his group. -/
theorem invitedTo_setPlayer {info info' : PlayerQueueInfo} (hinfo : q.playerInfo guid = some info)
    (hgroup : info'.groupInfo = info.groupInfo) (p : ObjectGuid) :
    BattleGroundQueue.invitedTo
      { q with queuedPlayers := Lib.setEntry guid info' q.queuedPlayers } p = q.invitedTo p := by
  have hwritten : Lib.entryOf p (Lib.setEntry guid info' q.queuedPlayers) =
      if p = guid then some info' else q.playerInfo p := Lib.entryOf_setEntry p
  by_cases hp : p = guid
  · subst hp
    rw [if_pos rfl] at hwritten
    unfold invitedTo groupOf playerInfo
    rw [hwritten]
    have hold : Lib.entryOf p q.queuedPlayers = some info := hinfo
    rw [hold]
    show (q.groupInfos info'.groupInfo).bind _ = (q.groupInfos info.groupInfo).bind _
    rw [hgroup]
  · rw [if_neg hp] at hwritten
    exact invitedTo_congr hwritten fun _ _ => rfl

theorem queued_setPlayer {info info' : PlayerQueueInfo} (hinfo : q.playerInfo guid = some info) :
    BattleGroundQueue.Queued
      { q with queuedPlayers := Lib.setEntry guid info' q.queuedPlayers } p ↔ q.Queued p := by
  have hwritten : Lib.entryOf p (Lib.setEntry guid info' q.queuedPlayers) =
      if p = guid then some info' else q.playerInfo p := Lib.entryOf_setEntry p
  unfold Queued
  show (Lib.entryOf p _).isSome ↔ _
  rw [hwritten]
  split_ifs with hp
  · simp [hp, hinfo]
  · rfl

theorem invitedTo_playerLoggedOut (guid p : ObjectGuid) (now : UInt32) :
    (q.playerLoggedOut guid now).invitedTo p = q.invitedTo p := by
  unfold playerLoggedOut
  split
  · rfl
  · rename_i info hinfo
    exact invitedTo_setPlayer hinfo (by rfl) p

theorem queued_playerLoggedOut {now : UInt32} :
    (q.playerLoggedOut guid now).Queued p ↔ q.Queued p := by
  unfold playerLoggedOut
  split
  · rfl
  · rename_i info hinfo
    exact queued_setPlayer hinfo

theorem invitedTo_playerLoggedIn (guid p : ObjectGuid) :
    (q.playerLoggedIn guid).invitedTo p = q.invitedTo p := by
  unfold playerLoggedIn
  split
  · rfl
  · rename_i info hinfo
    exact invitedTo_setPlayer hinfo (by rfl) p

theorem queued_playerLoggedIn : (q.playerLoggedIn guid).Queued p ↔ q.Queued p := by
  unfold playerLoggedIn
  split
  · rfl
  · rename_i info hinfo
    exact queued_setPlayer hinfo

end Online

end BattleGroundQueue

end TwowCore.Battlegrounds
