import TwowCore.Battlegrounds.Update
import TwowCore.Lib.Ownership
import TwowCore.Lib.Run

/-!
# The structure of the battleground queue

The queue seen as a `Lib.Layout`: the players of `m_QueuedPlayers` point to groups, the groups list
their players, and the lists of `m_QueuedGroups` store the groups, each list those of its side.
`run_coherent` says that the three agree after any run of the calls on the queue.
-/

namespace TwowCore.Battlegrounds

open Lib (Layout)

namespace BattleGroundQueue

/-- The queue as members, groups and places. -/
def layout (q : BattleGroundQueue) :
    Layout ObjectGuid GroupPtr (BattleGroundBracketId × GroupTypes) Team where
  owner guid := (q.playerInfo guid).map (·.groupInfo)
  group ptr := (q.groupInfos ptr).map fun g => (g.players, g.groupTeam)
  stored place := q.queuedGroups place.1 place.2

/-- The players, the groups and the lists agree, and each list has groups of its side. -/
def Coherent (q : BattleGroundQueue) : Prop :=
  q.layout.Coherent fun place => place.2.team

/-- A coherent queue whose next address is that of no stored group. -/
structure Sound (q : BattleGroundQueue) : Prop where
  coherent : q.Coherent
  fresh : ∀ {ptr}, q.nextPtr ≤ ptr → ∀ bracket index, ptr ∉ q.queuedGroups bracket index

variable {q q' : BattleGroundQueue}

/-- What the layout and the next address say is all that counts. -/
theorem Sound.of_layout (h : q.Sound) (hlayout : q'.layout = q.layout)
    (hnext : q'.nextPtr = q.nextPtr) : q'.Sound := by
  have hgroups : ∀ bracket index, q'.queuedGroups bracket index = q.queuedGroups bracket index :=
    fun bracket index => congrFun (congrArg Layout.stored hlayout) (bracket, index)
  refine ⟨?_, ?_⟩
  · unfold Coherent
    rw [hlayout]
    exact h.coherent
  · intro ptr hptr bracket index
    rw [hgroups]
    exact h.fresh (hnext ▸ hptr) bracket index

@[simp] theorem setGroups_nextPtr (q : BattleGroundQueue) (bracket : BattleGroundBracketId)
    (index : GroupTypes) (groups : List GroupPtr) :
    (q.setGroups bracket index groups).nextPtr = q.nextPtr := rfl

@[simp] theorem setGroups_groupInfos (q : BattleGroundQueue) (bracket : BattleGroundBracketId)
    (index : GroupTypes) (groups : List GroupPtr) :
    (q.setGroups bracket index groups).groupInfos = q.groupInfos := rfl

@[simp] theorem setGroups_playerInfo (q : BattleGroundQueue) (bracket : BattleGroundBracketId)
    (index : GroupTypes) (groups : List GroupPtr) :
    (q.setGroups bracket index groups).playerInfo = q.playerInfo := rfl

/-- A list that is written. -/
theorem setGroups_same (q : BattleGroundQueue) (bracket : BattleGroundBracketId)
    (index : GroupTypes) (groups : List GroupPtr) :
    (q.setGroups bracket index groups).queuedGroups bracket index = groups := by
  simp [setGroups]

/-- The other lists stay. -/
theorem setGroups_other (q : BattleGroundQueue) {bracket bracket' : BattleGroundBracketId}
    {index index' : GroupTypes} (groups : List GroupPtr)
    (hne : (bracket', index') ≠ (bracket, index)) :
    (q.setGroups bracket index groups).queuedGroups bracket' index' =
      q.queuedGroups bracket' index' := by
  unfold setGroups
  by_cases hb : bracket' = bracket
  · subst hb
    have hi : index' ≠ index := fun heq => hne (by rw [heq])
    simp [hi]
  · simp [hb]

section Join

/-- The players `AddGroup` adds. -/
def newcomers (leader : Joiner) (grp : Option PlayerGroup) (excludedMembers : List ObjectGuid) :
    List Joiner :=
  match grp with
  | none => [leader]
  | some grp => joining grp excludedMembers

variable {ptr : GroupPtr} {guids : List ObjectGuid}

/-- Several players are put into a group, one after the other. -/
def enlistAll (q : BattleGroundQueue) (ptr : GroupPtr) (guids : List ObjectGuid) :
    BattleGroundQueue :=
  guids.foldl (fun q' guid => q'.enlist ptr guid) q

@[simp] theorem enlistAll_queuedGroups :
    (q.enlistAll ptr guids).queuedGroups = q.queuedGroups := by
  induction guids generalizing q with
  | nil => rfl
  | cons guid rest ih => exact ih (q := q.enlist ptr guid)

@[simp] theorem enlistAll_nextPtr : (q.enlistAll ptr guids).nextPtr = q.nextPtr := by
  induction guids generalizing q with
  | nil => rfl
  | cons guid rest ih => exact ih (q := q.enlist ptr guid)

/-- Who points where after players are put into a group. -/
theorem playerInfo_enlist (guid p : ObjectGuid) :
    (q.enlist ptr guid).playerInfo p = if p = guid then some ⟨true, 0, ptr⟩ else q.playerInfo p :=
  Lib.entryOf_setEntry p

theorem playerInfo_enlistAll (p : ObjectGuid) :
    (q.enlistAll ptr guids).playerInfo p =
      if p ∈ guids then some ⟨true, 0, ptr⟩ else q.playerInfo p := by
  induction guids generalizing q with
  | nil => rfl
  | cons guid rest ih =>
      have hstep := ih (q := q.enlist ptr guid)
      rw [playerInfo_enlist] at hstep
      refine hstep.trans ?_
      by_cases hrest : p ∈ rest
      · rw [if_pos hrest, if_pos (List.mem_cons_of_mem _ hrest)]
      · rw [if_neg hrest]
        by_cases heq : p = guid
        · rw [if_pos heq, if_pos (heq ▸ List.mem_cons_self)]
        · rw [if_neg heq, if_neg fun hmem => (List.mem_cons.mp hmem).elim heq hrest]

/-- Other groups do not change. -/
theorem groupInfos_enlistAll_other {other : GroupPtr} (hne : other ≠ ptr) :
    (q.enlistAll ptr guids).groupInfos other = q.groupInfos other := by
  induction guids generalizing q with
  | nil => rfl
  | cons guid rest ih =>
      refine (ih (q := q.enlist ptr guid)).trans ?_
      exact Function.update_of_ne hne _ _

/-- What a group lists after players are put into it. -/
theorem groupInfos_enlistAll (guids : List ObjectGuid) {g : GroupQueueInfo} (hg : q.groupInfos ptr = some g) :
    ∃ g', (q.enlistAll ptr guids).groupInfos ptr = some g' ∧ g'.groupTeam = g.groupTeam ∧
      ∀ p, p ∈ g'.players ↔ p ∈ guids ∨ p ∈ g.players := by
  induction guids generalizing q g with
  | nil => exact ⟨g, hg, rfl, fun p => by simp⟩
  | cons guid rest ih =>
      have hstep : (q.enlist ptr guid).groupInfos ptr = some (g.insertPlayer guid) := by
        show Function.update q.groupInfos ptr _ ptr = _
        rw [Function.update_self, hg]
        rfl
      obtain ⟨g', hg', hteam, hplayers⟩ := ih hstep
      rw [GroupQueueInfo.insertPlayer_groupTeam] at hteam
      refine ⟨g', hg', hteam, fun p => ?_⟩
      rw [hplayers, GroupQueueInfo.mem_insertPlayer, List.mem_cons]
      tauto

/-- The group of `new GroupQueueInfo`. -/
theorem newGroup_groupInfos (leader : Joiner) (req : JoinRequest) :
    ∃ g, (q.newGroup leader req).groupInfos q.nextPtr = some g ∧ g.groupTeam = leader.team ∧
      g.players = [] :=
  ⟨_, Function.update_self _ _ _, rfl, rfl⟩

@[simp] theorem joinIndex_team (leader : Joiner) (isPremade : Bool) :
    (joinIndex leader isPremade).team = leader.team := by
  cases isPremade <;> rfl

/-- A new group that is not stored keeps the queue sound. -/
theorem Sound.newGroup (h : q.Sound) (leader : Joiner) (req : JoinRequest) :
    (q.newGroup leader req).Sound := by
  refine ⟨?_, ?_⟩
  · refine h.coherent.write_unstored (g := q.nextPtr) (fun place => ?_) rfl (fun ptr hne => ?_) rfl
    · exact h.fresh (Nat.le_refl _) place.1 place.2
    · show Option.map _ (Function.update q.groupInfos q.nextPtr _ ptr) = _
      rw [Function.update_of_ne hne]
      rfl
  · intro ptr hptr bracket index
    exact h.fresh (Nat.le_of_succ_le hptr) bracket index

/-- Players who are not queued join as one group; when there are none the group is not stored. -/
theorem Sound.joinAll (h : q.Sound) (guids : List ObjectGuid) (leader : Joiner) (req : JoinRequest) (isPremade : Bool)
    (hnew : ∀ guid ∈ guids, ¬q.Queued guid) :
    (((q.newGroup leader req).enlistAll q.nextPtr guids).storeGroup q.nextPtr req.bracketId
      (joinIndex leader isPremade)).Sound := by
  obtain ⟨g₀, hg₀, hteam₀, hempty⟩ := newGroup_groupInfos (q := q) leader req
  obtain ⟨g, hg, hteam, hplayers⟩ := groupInfos_enlistAll guids hg₀
  have hiff : ∀ p, p ∈ g.players ↔ p ∈ guids := by
    intro p
    rw [hplayers, hempty]
    simp
  have hstored : ∀ bracket index, q.nextPtr ∉ q.queuedGroups bracket index :=
    h.fresh (Nat.le_refl _)
  unfold storeGroup
  rw [hg]
  by_cases hnone : g.players = []
  · -- nobody was left to join
    simp only [if_pos hnone]
    have hguids : guids = [] := by
      rw [List.eq_nil_iff_forall_not_mem]
      intro p hp
      have hin := (hiff p).mpr hp
      rw [hnone] at hin
      cases hin
    subst hguids
    exact h.newGroup leader req
  · simp only [if_neg hnone]
    refine ⟨?_, ?_⟩
    · refine h.coherent.join (req.bracketId, joinIndex leader isPremade) q.nextPtr g.players
        (fun place => hstored place.1 place.2) ?_ hnone ?_ ?_ ?_ ?_ ?_
      · intro p hp
        have hnot := hnew p ((hiff p).mp hp)
        show (q.playerInfo p).map _ = none
        rw [Option.not_isSome_iff_eq_none.mp hnot]
        rfl
      · intro p hp
        show Option.map _ (((q.newGroup leader req).enlistAll q.nextPtr guids).playerInfo p) = _
        rw [playerInfo_enlistAll, if_pos ((hiff p).mp hp)]
        rfl
      · intro p hp
        show Option.map _ (((q.newGroup leader req).enlistAll q.nextPtr guids).playerInfo p) = _
        rw [playerInfo_enlistAll, if_neg fun hin => hp ((hiff p).mpr hin)]
        rfl
      · intro ptr
        show Option.map _ (((q.newGroup leader req).enlistAll q.nextPtr guids).groupInfos ptr) = _
        by_cases heq : ptr = q.nextPtr
        · rw [if_pos heq, heq, hg]
          show some (g.players, g.groupTeam) = _
          rw [hteam, hteam₀, joinIndex_team]
        · rw [if_neg heq, groupInfos_enlistAll_other heq]
          show Option.map _ (Function.update q.groupInfos q.nextPtr _ ptr) = _
          rw [Function.update_of_ne heq]
          rfl
      · refine (setGroups_same _ _ _ _).trans ?_
        rw [enlistAll_queuedGroups]
        rfl
      · intro place hne
        refine (setGroups_other _ _ hne).trans ?_
        rw [enlistAll_queuedGroups]
        rfl
    · intro ptr hptr bracket index
      rw [setGroups_nextPtr, enlistAll_nextPtr] at hptr
      have hold := h.fresh (Nat.le_of_succ_le hptr)
      by_cases heq : (bracket, index) = (req.bracketId, joinIndex leader isPremade)
      · obtain ⟨rfl, rfl⟩ := Prod.mk.injEq _ _ _ _ ▸ heq
        rw [setGroups_same, enlistAll_queuedGroups, List.mem_append, List.mem_singleton]
        rintro (hin | rfl)
        · exact hold _ _ hin
        · exact Nat.lt_irrefl _ hptr
      · rw [setGroups_other _ _ heq, enlistAll_queuedGroups]
        exact hold bracket index

/-- A player who is not queued joins alone. -/
theorem Sound.addSolo (h : q.Sound) (leader : Joiner) (req : JoinRequest) (isPremade : Bool)
    (hnew : ¬q.Queued leader.guid) : (q.addSolo leader req isPremade).Sound := by
  refine h.joinAll [leader.guid] leader req isPremade fun guid hguid => ?_
  rw [List.mem_singleton.mp hguid]
  exact hnew

/-- Storing a group changes only the lists. -/
theorem storeGroup_other (ptr : GroupPtr) (bracket : BattleGroundBracketId) (index : GroupTypes) :
    (q.storeGroup ptr bracket index).playerInfo = q.playerInfo ∧
      (q.storeGroup ptr bracket index).groupInfos = q.groupInfos ∧
      (q.storeGroup ptr bracket index).nextPtr = q.nextPtr := by
  unfold storeGroup
  split
  · split <;> exact ⟨rfl, rfl, rfl⟩
  · exact ⟨rfl, rfl, rfl⟩

/-- Who is queued after a player has joined alone. -/
theorem queued_addSolo {leader : Joiner} {req : JoinRequest} {isPremade : Bool} {p : ObjectGuid}
    (hne : p ≠ leader.guid) : (q.addSolo leader req isPremade).Queued p ↔ q.Queued p := by
  unfold Queued BattleGroundQueue.addSolo
  rw [(storeGroup_other _ _ _).1, playerInfo_enlist, if_neg hne]
  exact Iff.rfl

/-- A group that is there is not changed by a player who joins alone. -/
theorem groupInfos_addSolo (leader : Joiner) (req : JoinRequest) (isPremade : Bool)
    (hptr : ptr < q.nextPtr) :
    (q.addSolo leader req isPremade).groupInfos ptr = q.groupInfos ptr ∧
      ptr < (q.addSolo leader req isPremade).nextPtr := by
  unfold BattleGroundQueue.addSolo
  have hne : ptr ≠ q.nextPtr := Nat.ne_of_lt hptr
  rw [(storeGroup_other _ _ _).2.1, (storeGroup_other _ _ _).2.2]
  refine ⟨?_, Nat.lt_succ_of_lt hptr⟩
  show Function.update (Function.update q.groupInfos q.nextPtr _) q.nextPtr _ ptr = _
  rw [Function.update_of_ne hne, Function.update_of_ne hne]

/-- Members who are not queued join one by one, above the limit of the group size. -/
theorem Sound.addSolos (h : q.Sound) (req : JoinRequest) (hptr : ptr < q.nextPtr)
    {members : List Joiner} (hdistinct : (members.map Joiner.guid).Nodup)
    (hnew : ∀ member ∈ members, ¬q.Queued member.guid) :
    (members.foldl (fun q' member => q'.addSolo member req false) q).Sound ∧
      (members.foldl (fun q' member => q'.addSolo member req false) q).groupInfos ptr =
        q.groupInfos ptr := by
  induction members generalizing q with
  | nil => exact ⟨h, rfl⟩
  | cons member rest ih =>
      rw [List.map_cons, List.nodup_cons] at hdistinct
      obtain ⟨hnot, hdistinct⟩ := hdistinct
      have hsolo := h.addSolo member req false (hnew member List.mem_cons_self)
      obtain ⟨hsame, hlt⟩ := groupInfos_addSolo member req false hptr
      have hrest : ∀ other ∈ rest, ¬(q.addSolo member req false).Queued other.guid := by
        intro other hother
        rw [queued_addSolo]
        · exact hnew other (List.mem_cons_of_mem _ hother)
        · exact fun heq => hnot (heq ▸ List.mem_map_of_mem hother)
      obtain ⟨hsound, hinfo⟩ := ih hsolo hlt hdistinct hrest
      exact ⟨hsound, hinfo.trans hsame⟩

/-- `AddGroup` of players who are not queued. -/
theorem Sound.addGroup (h : q.Sound) {leader : Joiner} {grp : Option PlayerGroup}
    {req : JoinRequest} {isPremade : Bool} {excludedMembers : List ObjectGuid}
    (hnew : ∀ member ∈ newcomers leader grp excludedMembers, ¬q.Queued member.guid) :
    (q.addGroup leader grp req isPremade excludedMembers).Sound := by
  cases grp with
  | none => exact h.addSolo leader req isPremade (hnew leader (List.mem_singleton_self leader))
  | some grp =>
      have hnew' : ∀ member ∈ joining grp excludedMembers, ¬q.Queued member.guid := hnew
      show BattleGroundQueue.Sound (BattleGroundQueue.storeGroup _ _ _ _)
      by_cases hlimit : req.groupLimit < grp.membersCount
      · -- everybody is queued alone, and the group of the leader stays empty
        have hloop : ∀ q₀ : BattleGroundQueue,
            (joining grp excludedMembers).foldl
              (fun q' member => q'.addMember q.nextPtr grp req member) q₀ =
            (joining grp excludedMembers).foldl
              (fun q' member => q'.addSolo member req false) q₀ := by
          intro q₀
          congr 1
          funext q' member
          exact if_pos hlimit
        have hdistinct : ((joining grp excludedMembers).map Joiner.guid).Nodup :=
          grp.distinct.sublist (List.filter_sublist.map _)
        obtain ⟨g, hg, -, hempty⟩ := newGroup_groupInfos (q := q) leader req
        obtain ⟨hsound, hinfo⟩ := (h.newGroup leader req).addSolos req (Nat.lt_succ_self q.nextPtr)
          hdistinct hnew'
        rw [hloop]
        unfold BattleGroundQueue.storeGroup
        rw [hinfo, hg]
        simp only [if_pos hempty]
        exact hsound
      · have hloop : (joining grp excludedMembers).foldl
              (fun q' member => q'.addMember q.nextPtr grp req member) (q.newGroup leader req) =
            (q.newGroup leader req).enlistAll q.nextPtr
              ((joining grp excludedMembers).map Joiner.guid) := by
          unfold enlistAll
          rw [List.foldl_map]
          congr 1
          funext q' member
          exact if_neg hlimit
        rw [hloop]
        refine h.joinAll _ leader req isPremade fun guid hguid => ?_
        obtain ⟨member, hmember, rfl⟩ := List.mem_map.mp hguid
        exact hnew' member hmember

end Join

section Leave

variable {ptr : GroupPtr} {team : Team}

/-- What the search of `RemovePlayer` finds has the group. -/
theorem mem_of_findGroup {bracket : BattleGroundBracketId} {index : GroupTypes}
    (h : q.findGroup ptr team = some (bracket, index)) : ptr ∈ q.queuedGroups bracket index := by
  obtain ⟨bracket', -, hfind⟩ := List.exists_of_findSome?_eq_some h
  unfold findInBracket at hfind
  split_ifs at hfind with hnormal hpremade
  · obtain ⟨rfl, rfl⟩ := Prod.mk.injEq _ _ _ _ ▸ Option.some.inj hfind
    exact hnormal
  · obtain ⟨rfl, rfl⟩ := Prod.mk.injEq _ _ _ _ ▸ Option.some.inj hfind
    exact hpremade

/-- The search finds a group that is stored in a list of its side. -/
theorem findGroup_isSome {bracket : BattleGroundBracketId} {index : GroupTypes}
    (h : ptr ∈ q.queuedGroups bracket index) : (q.findGroup ptr index.team).isSome := by
  unfold findGroup
  rw [List.findSome?_isSome_iff]
  refine ⟨bracket, List.mem_reverse.mpr (List.mem_finRange bracket), ?_⟩
  unfold findInBracket
  cases index with
  | normal side =>
      show (if ptr ∈ q.queuedGroups bracket (.normal side) then
        some (bracket, GroupTypes.normal side) else _).isSome = true
      rw [if_pos h]
      rfl
  | premade side =>
      show (if ptr ∈ q.queuedGroups bracket (.normal side) then
          some (bracket, GroupTypes.normal side)
        else if ptr ∈ q.queuedGroups bracket (.premade side) then
          some (bracket, GroupTypes.premade side)
        else none).isSome = true
      by_cases hnormal : ptr ∈ q.queuedGroups bracket (.normal side)
      · rw [if_pos hnormal]
        rfl
      · rw [if_neg hnormal, if_pos h]
        rfl

/-- `RemovePlayer` keeps the queue sound. -/
theorem Sound.removePlayer (h : q.Sound) (guid : ObjectGuid) : (q.removePlayer guid).Sound := by
  cases hinfo : q.playerInfo guid with
  | none =>
      unfold BattleGroundQueue.removePlayer
      rw [hinfo]
      exact h
  | some info =>
      have hown : q.layout.owner guid = some info.groupInfo := by
        show (q.playerInfo guid).map _ = _
        rw [hinfo]
        rfl
      -- his group is there, lists him, and is in one of the lists of its side
      obtain ⟨place, hplace⟩ := h.coherent.kept hown
      obtain ⟨members, hgroup, -, -⟩ := h.coherent.owned hplace
      obtain ⟨g, hg, hpair⟩ := Option.map_eq_some_iff.mp hgroup
      obtain ⟨hmembers, hteam⟩ := Prod.mk.injEq _ _ _ _ ▸ hpair
      have hfound := findGroup_isSome (q := q) hplace
      rw [← hteam] at hfound
      obtain ⟨⟨bracket, index⟩, hfind⟩ := Option.isSome_iff_exists.mp hfound
      have hmem := mem_of_findGroup hfind
      have howner : ∀ p, Option.map (·.groupInfo) (Lib.entryOf p (Lib.eraseEntry guid
          q.queuedPlayers)) = if p = guid then none else q.layout.owner p := by
        intro p
        rw [Lib.entryOf_eraseEntry]
        by_cases hp : p = guid
        · rw [if_pos hp, if_pos hp]
          rfl
        · rw [if_neg hp, if_neg hp]
          rfl
      unfold BattleGroundQueue.removePlayer
      simp only [hinfo, hg, hfind]
      by_cases hlast : (g.erasePlayer guid).players = []
      · rw [if_pos hlast]
        refine ⟨?_, ?_⟩
        · refine h.coherent.leave_last (bracket, index) hown hgroup ?_ hmem howner
            ?_ ?_ ?_
          · intro p hp
            by_contra hne
            have hin := GroupQueueInfo.mem_erasePlayer.mpr ⟨hmembers ▸ hp, hne⟩
            rw [hlast] at hin
            cases hin
          · intro ptr hne
            show Option.map _ (Function.update (Function.update q.groupInfos info.groupInfo _)
              info.groupInfo none ptr) = _
            rw [Function.update_of_ne hne, Function.update_of_ne hne]
            rfl
          · exact setGroups_same _ _ _ _
          · intro place' hne
            exact setGroups_other _ _ hne
        · intro ptr hptr bracket' index' hin
          refine h.fresh hptr bracket' index' ?_
          have hin' : ptr ∈ (q.setGroups bracket index
              ((q.queuedGroups bracket index).erase info.groupInfo)).queuedGroups bracket'
                index' := hin
          by_cases heq : (bracket', index') = (bracket, index)
          · obtain ⟨rfl, rfl⟩ := Prod.mk.injEq _ _ _ _ ▸ heq
            rw [setGroups_same] at hin'
            exact List.mem_of_mem_erase hin'
          · rwa [setGroups_other _ _ heq] at hin'
      · rw [if_neg hlast]
        refine ⟨?_, fun hptr => h.fresh hptr⟩
        refine h.coherent.leave hown hgroup howner ?_ ?_
          hlast rfl
        · intro ptr
          show Option.map _ (Function.update q.groupInfos info.groupInfo _ ptr) = _
          by_cases heq : ptr = info.groupInfo
          · rw [if_pos heq, heq, Function.update_self, ← hteam]
            rfl
          · rw [if_neg heq, Function.update_of_ne heq]
            rfl
        · intro p
          rw [GroupQueueInfo.mem_erasePlayer, hmembers]

end Leave

section Keep

/-- A group is written with the same players and the same side. -/
theorem Sound.setInfo (h : q.Sound) {ptr : GroupPtr} {g g' : GroupQueueInfo}
    (hg : q.groupInfos ptr = some g) (hplayers : g'.players = g.players)
    (hteam : g'.groupTeam = g.groupTeam) : (q.setInfo ptr (some g')).Sound := by
  refine h.of_layout ?_ rfl
  show Layout.mk _ _ _ = _
  congr 1
  funext other
  show Option.map _ (Function.update q.groupInfos ptr _ other) = _
  by_cases heq : other = ptr
  · rw [heq, Function.update_self, hg]
    show some (g'.players, g'.groupTeam) = _
    rw [hplayers, hteam]
    rfl
  · rw [Function.update_of_ne heq]

/-- An invitation with the side of the group keeps the queue sound. -/
theorem Sound.inviteOne (h : q.Sound) (bgInstance now : UInt32) (ptr : GroupPtr) :
    (q.inviteOne bgInstance now ptr).Sound := by
  unfold BattleGroundQueue.inviteOne
  split
  · exact h
  · next g hg =>
    unfold inviteGroupToBG
    simp only [hg]
    split
    · exact h.setInfo hg rfl rfl
    · exact h.setInfo hg rfl rfl

theorem Sound.inviteAllGroupsToBg (h : q.Sound) (bgInstance now : UInt32) :
    (q.inviteAllGroupsToBg bgInstance now).Sound := by
  refine List.foldlRecOn _ _ h fun q' h' ptr _ => ?_
  exact h'.inviteOne bgInstance now ptr

/-- A player's record is written with the same group. -/
theorem Sound.setPlayer (h : q.Sound) {guid : ObjectGuid} {info info' : PlayerQueueInfo}
    (hinfo : q.playerInfo guid = some info) (hsame : info'.groupInfo = info.groupInfo) :
    BattleGroundQueue.Sound
      { q with queuedPlayers := Lib.setEntry guid info' q.queuedPlayers } := by
  refine h.of_layout ?_ rfl
  show Layout.mk _ _ _ = _
  congr 1
  funext p
  show Option.map _ (Lib.entryOf p (Lib.setEntry guid info' q.queuedPlayers)) = _
  rw [Lib.entryOf_setEntry]
  by_cases heq : p = guid
  · rw [if_pos heq, heq, hinfo]
    show some info'.groupInfo = _
    rw [hsame]
    rfl
  · rw [if_neg heq]
    rfl

theorem Sound.playerLoggedOut (h : q.Sound) (guid : ObjectGuid) (now : UInt32) :
    (q.playerLoggedOut guid now).Sound := by
  unfold BattleGroundQueue.playerLoggedOut
  split
  · exact h
  · next info hinfo => exact h.setPlayer hinfo rfl

theorem Sound.playerLoggedIn (h : q.Sound) (guid : ObjectGuid) : (q.playerLoggedIn guid).Sound := by
  unfold BattleGroundQueue.playerLoggedIn
  split
  · exact h
  · next info hinfo => exact h.setPlayer hinfo rfl

/-- The pools do not count. -/
theorem Sound.setPools (h : q.Sound) (pools : Team → SelectionPool) :
    BattleGroundQueue.Sound { q with selectionPools := pools } :=
  h.of_layout rfl rfl

/-- A list in another order. -/
theorem Sound.reorderGroups (h : q.Sound) {bracket : BattleGroundBracketId} {index : GroupTypes}
    {groups : List GroupPtr} (hperm : groups.Perm (q.queuedGroups bracket index)) :
    (q.setGroups bracket index groups).Sound := by
  have hall : ∀ bracket' index',
      ((q.setGroups bracket index groups).queuedGroups bracket' index').Perm
        (q.queuedGroups bracket' index') := by
    intro bracket' index'
    by_cases heq : (bracket', index') = (bracket, index)
    · obtain ⟨rfl, rfl⟩ := Prod.mk.injEq _ _ _ _ ▸ heq
      rw [setGroups_same]
      exact hperm
    · rw [setGroups_other _ _ heq]
  refine ⟨h.coherent.reorder rfl rfl fun place => hall place.1 place.2, ?_⟩
  intro ptr hptr bracket' index' hin
  exact h.fresh hptr bracket' index' ((hall bracket' index').mem_iff.mp hin)

end Keep

section Update

variable (env : UpdateEnv)

theorem Sound.removeStale (h : q.Sound) (removals : ℕ) : (q.removeStale env removals).Sound := by
  induction removals generalizing q with
  | zero => exact h
  | succ removals ih =>
      unfold BattleGroundQueue.removeStale
      split
      · exact h
      · next entry _ => exact ih (h.removePlayer entry.1)

theorem Sound.prepared (h : q.Sound) : (q.prepared env).Sound := by
  refine List.foldlRecOn _ _ h fun q' h' team _ => ?_
  split
  · exact h'.reorderGroups ((env.shuffle team).perm _)
  · exact h'

/-- A shuffle of the front reorders the list. -/
theorem shuffleFront_perm (team : Team) (groups : List GroupPtr) :
    (shuffleFront env team groups).Perm groups := by
  refine (((env.avShuffle team).perm _).append_right _).trans ?_
  rw [List.take_append_drop]

theorem Sound.avQueue (h : q.Sound) : (q.avQueue env).1.Sound := by
  unfold BattleGroundQueue.avQueue
  split
  · split
    · exact h
    · refine List.foldlRecOn _ _ h fun q' h' team _ => ?_
      exact h'.reorderGroups (shuffleFront_perm env team _)
  · exact h

theorem Sound.fillOne (h : q.Sound) (bg : FreeSlotBG) : (q.fillOne env bg).Sound := by
  unfold BattleGroundQueue.fillOne
  split
  · refine Sound.inviteAllGroupsToBg ?_ _ _
    unfold fillPlayersToBG
    split
    · exact h.setPools _
    · split
      · exact h.setPools _
      · exact h.setPools _
  · exact h

/-- A group that has waited too long moves from the premade list to the normal one. -/
theorem Sound.movePremade (h : q.Sound) (minPlayers : ℕ) (team : Team) :
    (q.movePremade env minPlayers team).Sound := by
  unfold BattleGroundQueue.movePremade
  split
  · exact h
  · next ptr rest hlist =>
    split
    · have hmem : ptr ∈ q.queuedGroups env.bracketId (.premade team) := by
        rw [hlist]
        exact List.mem_cons_self
      have herase : (q.queuedGroups env.bracketId (.premade team)).erase ptr = rest := by
        rw [hlist]
        exact List.erase_cons_head ptr rest
      have hne : (env.bracketId, GroupTypes.premade team) ≠ (env.bracketId, .normal team) := by
        simp
      refine ⟨?_, ?_⟩
      · refine h.coherent.move (env.bracketId, .premade team) (env.bracketId, .normal team) hmem
          hne.symm rfl rfl rfl ?_ ?_ ?_
        · exact (setGroups_same _ _ _ _).trans herase.symm
        · exact (setGroups_other _ _ hne.symm).trans (setGroups_same _ _ _ _)
        · intro place hsource htarget
          exact (setGroups_other _ _ hsource).trans (setGroups_other _ _ htarget)
      · intro other hother bracket index hin
        by_cases hsource : (bracket, index) = (env.bracketId, .premade team)
        · obtain ⟨rfl, rfl⟩ := Prod.mk.injEq _ _ _ _ ▸ hsource
          rw [setGroups_same] at hin
          exact h.fresh hother _ _ (hlist ▸ List.mem_cons_of_mem _ hin)
        · rw [setGroups_other _ _ hsource] at hin
          by_cases htarget : (bracket, index) = (env.bracketId, .normal team)
          · obtain ⟨rfl, rfl⟩ := Prod.mk.injEq _ _ _ _ ▸ htarget
            rw [setGroups_same, List.mem_append, List.mem_singleton] at hin
            rcases hin with hin | rfl
            · exact h.fresh hother _ _ hin
            · exact h.fresh hother _ _ hmem
          · rw [setGroups_other _ _ htarget] at hin
            exact h.fresh hother _ _ hin
    · exact h

theorem Sound.checkPremadeMatch (h : q.Sound) (minPlayers maxPlayers : ℕ) :
    (q.checkPremadeMatch env minPlayers maxPlayers).2.Sound := by
  have hwalk := List.foldlRecOn
    [GroupTypes.premade .alliance, .premade .horde, .normal .alliance, .normal .horde]
    (walkPremade env minPlayers maxPlayers) (motive := BattleGroundQueue.Sound) h
    fun q' h' index _ => h'.setPools _
  unfold BattleGroundQueue.checkPremadeMatch
  simp only
  split
  · exact hwalk
  · exact List.foldlRecOn _ _ hwalk fun q' h' team _ => h'.movePremade env minPlayers team

theorem Sound.checkNormalMatch (h : q.Sound) {minPlayers maxPlayers : ℕ} {found : Bool}
    (hcheck : q.checkNormalMatch env minPlayers maxPlayers = some (found, q')) : q'.Sound := by
  have hwalk : (q.walkBoth env minPlayers maxPlayers).Sound := h.setPools _
  unfold BattleGroundQueue.checkNormalMatch at hcheck
  simp only at hcheck
  split at hcheck
  · split at hcheck
    · cases hcheck
    · split at hcheck
      · cases hcheck
        exact hwalk.setPools _
      · cases hcheck
        exact hwalk.setPools _
  · cases hcheck
    exact hwalk

theorem Sound.startMatch (h : q.Sound) {call : ℕ} (hstart : q.startMatch env call = some q') :
    q'.Sound := by
  obtain ⟨bgInstance, -, rfl⟩ := Option.map_eq_some_iff.mp hstart
  exact (h.inviteAllGroupsToBg _ _).setPools _

theorem Sound.normalMatches (h : q.Sound) (minPlayers maxPlayers attempts call : ℕ) :
    (q.normalMatches env minPlayers maxPlayers attempts call).queue.Sound := by
  induction attempts generalizing q call with
  | zero => exact h
  | succ attempts ih =>
      unfold BattleGroundQueue.normalMatches
      split
      · exact h
      · next q' hcheck => exact ih (h.checkNormalMatch env hcheck) call
      · next q' hcheck =>
        have h' := h.checkNormalMatch env hcheck
        split
        · exact h'
        · next q'' hstart => exact ih (h'.startMatch env hstart) (call + 1)

theorem Sound.createMatches (h : q.Sound) (minPlayers maxPlayers attempts : ℕ) :
    (q.createMatches env minPlayers maxPlayers attempts).queue.Sound := by
  have hcheck := Sound.checkPremadeMatch env (q := q.initPools) (h.setPools _) minPlayers maxPlayers
  unfold BattleGroundQueue.createMatches
  split
  · next q' heq =>
    rw [heq] at hcheck
    exact hcheck.normalMatches env _ _ _ _
  · next q' heq =>
    rw [heq] at hcheck
    split
    · exact hcheck
    · next q'' hstart => exact (hcheck.startMatch env hstart).normalMatches env _ _ _ _

/-- `Update` keeps the queue sound. -/
theorem Sound.update (h : q.Sound) : (q.update env).queue.Sound := by
  have hstale := h.removeStale env q.queuedPlayers.length
  unfold BattleGroundQueue.update
  simp only
  split
  · exact hstale
  · have hfill := List.foldlRecOn env.freeSlotBGs (BattleGroundQueue.fillOne env)
      (motive := BattleGroundQueue.Sound) (hstale.prepared env) fun q' h' bg _ => h'.fillOne env bg
    split
    · exact hfill
    · exact (hfill.avQueue env).createMatches env _ _ _

end Update

end BattleGroundQueue

section Run

/-- The calls on the queue. -/
inductive QueueCall where
  | addGroup (leader : Joiner) (grp : Option PlayerGroup) (req : JoinRequest) (isPremade : Bool)
      (excludedMembers : List ObjectGuid)
  | removePlayer (guid : ObjectGuid)
  | inviteGroupToBG (ptr : GroupPtr) (bgInstance now : UInt32)
  | update (env : UpdateEnv)
  | playerLoggedOut (guid : ObjectGuid) (now : UInt32)
  | playerLoggedIn (guid : ObjectGuid)

namespace QueueCall

/-- What a call does. `InviteGroupToBG` is called with the side of the group. -/
def apply (q : BattleGroundQueue) : QueueCall → BattleGroundQueue
  | addGroup leader grp req isPremade excludedMembers =>
      q.addGroup leader grp req isPremade excludedMembers
  | removePlayer guid => q.removePlayer guid
  | inviteGroupToBG ptr bgInstance now => q.inviteOne bgInstance now ptr
  | update env => (q.update env).queue
  | playerLoggedOut guid now => q.playerLoggedOut guid now
  | playerLoggedIn guid => q.playerLoggedIn guid

/-- The players a call adds. -/
def joiners : QueueCall → List Joiner
  | addGroup leader grp _ _ excludedMembers =>
      BattleGroundQueue.newcomers leader grp excludedMembers
  | _ => []

/-- Players join who are not in the queue. -/
def JoinsNew (q : BattleGroundQueue) (call : QueueCall) : Prop :=
  ∀ member ∈ call.joiners, ¬q.Queued member.guid

instance (q : BattleGroundQueue) (call : QueueCall) : Decidable (call.JoinsNew q) :=
  inferInstanceAs (Decidable (∀ member ∈ call.joiners, ¬q.Queued member.guid))

end QueueCall

/-- A run of calls from the queue as it is constructed. -/
def runQueue (calls : List QueueCall) : BattleGroundQueue :=
  Lib.run QueueCall.apply .empty calls

/-- The new queue is sound. -/
theorem sound_empty : BattleGroundQueue.empty.Sound := by
  refine ⟨⟨?_, ?_, ?_, ?_, ?_⟩, ?_⟩
  · intro p g hp
    cases hp
  · intro p g hp
    cases hp
  · intro g place hg
    cases hg
  · intro place
    exact List.nodup_nil
  · intro g place place' hg
    cases hg
  · intro ptr _ bracket index hin
    cases hin

/-- Every call keeps the queue sound. -/
theorem sound_apply {q : BattleGroundQueue} (call : QueueCall) (hnew : call.JoinsNew q)
    (h : q.Sound) : (call.apply q).Sound := by
  cases call with
  | addGroup leader grp req isPremade excludedMembers =>
      exact h.addGroup hnew
  | removePlayer guid => exact h.removePlayer guid
  | inviteGroupToBG ptr bgInstance now => exact h.inviteOne bgInstance now ptr
  | update env => exact h.update env
  | playerLoggedOut guid now => exact h.playerLoggedOut guid now
  | playerLoggedIn guid => exact h.playerLoggedIn guid

theorem sound_run {calls : List QueueCall}
    (hnew : Lib.Along QueueCall.JoinsNew QueueCall.apply .empty calls) :
    (runQueue calls).Sound :=
  Lib.run_invariant BattleGroundQueue.Sound (fun _ call hcall h => sound_apply call hcall h)
    sound_empty hnew

end Run

end TwowCore.Battlegrounds
