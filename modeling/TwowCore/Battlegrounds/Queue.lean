import TwowCore.Lib.Entries

/-!
# The battleground queue

`BattleGroundQueue` as the code keeps it: the map `m_QueuedPlayers` with a pointer to the group of
each player, the lists `m_QueuedGroups` of group pointers, one for each bracket and type, and the two
selection pools. A group lives in `groupInfos` from its `new` to its `delete`.

`addGroup`, `removePlayer` and `inviteGroupToBG` are here, and the functions of the selection pools;
what `Update` does with them is in the next module.
-/

namespace TwowCore.Battlegrounds

/-- The guid of a player. -/
abbrev ObjectGuid := UInt64

/-- The address of a `GroupQueueInfo`. -/
abbrev GroupPtr := ℕ

/-- `Team` of a player. -/
inductive Team where
  | alliance
  | horde
  deriving DecidableEq, Repr

/-- The other side, `(j + 1) % BG_TEAMS_COUNT`. -/
def Team.other : Team → Team
  | .alliance => .horde
  | .horde => .alliance

/-- `BattleGroundBracketId`; `MAX_BATTLEGROUND_BRACKETS` is 8. -/
abbrev BattleGroundBracketId := Fin 8

/-- `BattleGroundQueueGroupTypes`. -/
inductive GroupTypes where
  | premade (team : Team)
  | normal (team : Team)
  deriving DecidableEq, Repr

/-- The side a list is for. -/
def GroupTypes.team : GroupTypes → Team
  | .premade team => team
  | .normal team => team

/-- `PlayerQueueInfo`. -/
structure PlayerQueueInfo where
  online : Bool
  lastOnlineTime : UInt32
  groupInfo : GroupPtr
  deriving DecidableEq, Repr

/-- `GroupQueueInfo`, with the keys of `Players` in their order. -/
structure GroupQueueInfo where
  players : List ObjectGuid
  distinct : players.Nodup
  groupTeam : Team
  bgTypeId : ℕ
  joinTime : UInt32
  removeInviteTime : UInt32
  isInvitedToBGInstanceGUID : UInt32
  desiredInstanceId : UInt32
  bracketId : BattleGroundBracketId
  deriving DecidableEq, Repr

namespace GroupQueueInfo

/-- `Players[guid] = ...`. -/
def insertPlayer (g : GroupQueueInfo) (guid : ObjectGuid) : GroupQueueInfo :=
  if h : guid ∈ g.players then g
  else
    { g with
      players := g.players.orderedInsert (· ≤ ·) guid
      distinct := (List.perm_orderedInsert _ _ _).nodup_iff.mpr
        (List.nodup_cons.mpr ⟨h, g.distinct⟩) }

/-- `Players.erase(guid)`. -/
def erasePlayer (g : GroupQueueInfo) (guid : ObjectGuid) : GroupQueueInfo :=
  { g with players := g.players.filter (· ≠ guid), distinct := g.distinct.filter _ }

/-- The group waits: it is not invited to a battleground. -/
def Waits (g : GroupQueueInfo) : Prop := g.isInvitedToBGInstanceGUID = 0

instance (g : GroupQueueInfo) : Decidable g.Waits := inferInstanceAs (Decidable (_ = _))

@[simp] theorem mem_insertPlayer {g : GroupQueueInfo} {guid p : ObjectGuid} :
    p ∈ (g.insertPlayer guid).players ↔ p = guid ∨ p ∈ g.players := by
  unfold insertPlayer
  by_cases h : guid ∈ g.players
  · rw [dif_pos h]
    exact ⟨Or.inr, fun hp => hp.elim (fun heq => heq ▸ h) id⟩
  · rw [dif_neg h]
    exact List.mem_orderedInsert _

@[simp] theorem mem_erasePlayer {g : GroupQueueInfo} {guid p : ObjectGuid} :
    p ∈ (g.erasePlayer guid).players ↔ p ∈ g.players ∧ p ≠ guid := by
  simp [erasePlayer]

@[simp] theorem insertPlayer_groupTeam (g : GroupQueueInfo) (guid : ObjectGuid) :
    (g.insertPlayer guid).groupTeam = g.groupTeam := by
  unfold insertPlayer
  split <;> rfl

@[simp] theorem erasePlayer_groupTeam (g : GroupQueueInfo) (guid : ObjectGuid) :
    (g.erasePlayer guid).groupTeam = g.groupTeam := rfl

end GroupQueueInfo

/-- `SelectionPool`. -/
structure SelectionPool where
  selectedGroups : List GroupPtr
  playerCount : ℕ
  deriving DecidableEq, Repr

/-- `SelectionPool::Init`. -/
def SelectionPool.init : SelectionPool := ⟨[], 0⟩

/-- `BattleGroundQueue`. The heap of the groups is part of it; `nextPtr` is an address that `new` has
not given out. -/
structure BattleGroundQueue where
  queuedPlayers : List (ObjectGuid × PlayerQueueInfo)
  queuedGroups : BattleGroundBracketId → GroupTypes → List GroupPtr
  selectionPools : Team → SelectionPool
  groupInfos : GroupPtr → Option GroupQueueInfo
  nextPtr : GroupPtr

/-- What the queue reads of a player in the world. -/
structure WorldPlayer where
  inBattleGround : Bool
  isTaxiFlying : Bool
  isConnected : Bool
  isLogingOut : Bool
  deriving DecidableEq, Repr

/-- A player in the world who keeps his group from being selected. -/
def WorldPlayer.busy (player : WorldPlayer) : Bool :=
  player.inBattleGround || player.isTaxiFlying || !player.isConnected || player.isLogingOut

/-- A player who joins the queue. -/
structure Joiner where
  guid : ObjectGuid
  team : Team
  deriving DecidableEq, Repr

/-- A `Group` of players: the references to those in the world, each to another player, and
`GetMembersCount`. -/
structure PlayerGroup where
  members : List Joiner
  membersCount : ℕ
  distinct : (members.map Joiner.guid).Nodup

/-- What `AddGroup` is given besides the players. -/
structure JoinRequest where
  bgTypeId : ℕ
  bracketId : BattleGroundBracketId
  instanceId : UInt32
  now : UInt32
  /-- `CONFIG_UINT32_BATTLEGROUND_GROUP_LIMIT` -/
  groupLimit : ℕ
  deriving DecidableEq, Repr

namespace BattleGroundQueue

/-- The queue as it is constructed. -/
def empty : BattleGroundQueue where
  queuedPlayers := []
  queuedGroups := fun _ _ => []
  selectionPools := fun _ => SelectionPool.init
  groupInfos := fun _ => none
  nextPtr := 0

/-- What `m_QueuedPlayers` has for a guid. -/
def playerInfo (q : BattleGroundQueue) (guid : ObjectGuid) : Option PlayerQueueInfo :=
  Lib.entryOf guid q.queuedPlayers

/-- The player is queued. -/
def Queued (q : BattleGroundQueue) (guid : ObjectGuid) : Prop := (q.playerInfo guid).isSome

instance (q : BattleGroundQueue) (guid : ObjectGuid) : Decidable (q.Queued guid) :=
  inferInstanceAs (Decidable (_ = _))

/-- Writes one list of `m_QueuedGroups`. -/
def setGroups (q : BattleGroundQueue) (bracket : BattleGroundBracketId) (index : GroupTypes)
    (groups : List GroupPtr) : BattleGroundQueue :=
  { q with
    queuedGroups := Function.update q.queuedGroups bracket
      (Function.update (q.queuedGroups bracket) index groups) }

/-- Writes a group in the heap, or deletes it. -/
def setInfo (q : BattleGroundQueue) (ptr : GroupPtr) (info : Option GroupQueueInfo) :
    BattleGroundQueue :=
  { q with groupInfos := Function.update q.groupInfos ptr info }

section AddGroup

/-- `new GroupQueueInfo` and its first values. -/
def newGroup (q : BattleGroundQueue) (leader : Joiner) (req : JoinRequest) : BattleGroundQueue :=
  { q with
    groupInfos := Function.update q.groupInfos q.nextPtr (some {
      players := []
      distinct := List.nodup_nil
      groupTeam := leader.team
      bgTypeId := req.bgTypeId
      joinTime := req.now
      removeInviteTime := 0
      isInvitedToBGInstanceGUID := 0
      desiredInstanceId := req.instanceId
      bracketId := req.bracketId })
    nextPtr := q.nextPtr + 1 }

/-- A player is put into `m_QueuedPlayers` with his group, and into the group. -/
def enlist (q : BattleGroundQueue) (ptr : GroupPtr) (guid : ObjectGuid) : BattleGroundQueue :=
  { q with
    queuedPlayers := Lib.setEntry guid ⟨true, 0, ptr⟩ q.queuedPlayers
    groupInfos :=
      Function.update q.groupInfos ptr ((q.groupInfos ptr).map (·.insertPlayer guid)) }

/-- The list a new group goes to. -/
def joinIndex (leader : Joiner) (isPremade : Bool) : GroupTypes :=
  if isPremade then .premade leader.team else .normal leader.team

/-- The end of `AddGroup`: the group is stored, unless it has no players. -/
def storeGroup (q : BattleGroundQueue) (ptr : GroupPtr) (bracket : BattleGroundBracketId)
    (index : GroupTypes) : BattleGroundQueue :=
  match q.groupInfos ptr with
  | some g =>
      if g.players = [] then q
      else q.setGroups bracket index (q.queuedGroups bracket index ++ [ptr])
  | none => q

/-- `AddGroup(leader, nullptr, ...)`. -/
def addSolo (q : BattleGroundQueue) (leader : Joiner) (req : JoinRequest) (isPremade : Bool) :
    BattleGroundQueue :=
  ((q.newGroup leader req).enlist q.nextPtr leader.guid).storeGroup q.nextPtr req.bracketId
    (joinIndex leader isPremade)

/-- One member in the loop of `AddGroup`: above the limit he is queued alone. -/
def addMember (q : BattleGroundQueue) (ptr : GroupPtr) (grp : PlayerGroup) (req : JoinRequest)
    (member : Joiner) : BattleGroundQueue :=
  if req.groupLimit < grp.membersCount then q.addSolo member req false
  else q.enlist ptr member.guid

/-- The members the loop of `AddGroup` does not pass over. -/
def joining (grp : PlayerGroup) (excludedMembers : List ObjectGuid) : List Joiner :=
  grp.members.filter fun member => member.guid ∉ excludedMembers

/-- `AddGroup`. -/
def addGroup (q : BattleGroundQueue) (leader : Joiner) (grp : Option PlayerGroup)
    (req : JoinRequest) (isPremade : Bool) (excludedMembers : List ObjectGuid) :
    BattleGroundQueue :=
  match grp with
  | none => q.addSolo leader req isPremade
  | some grp =>
      ((joining grp excludedMembers).foldl (fun q' member => q'.addMember q.nextPtr grp req member)
        (q.newGroup leader req)).storeGroup q.nextPtr req.bracketId (joinIndex leader isPremade)

end AddGroup

section RemovePlayer

/-- The list of a bracket that has the group. The loop over the lists goes on after it has found the
group, so the normal list wins. -/
def findInBracket (q : BattleGroundQueue) (ptr : GroupPtr) (team : Team)
    (bracket : BattleGroundBracketId) : Option (BattleGroundBracketId × GroupTypes) :=
  if ptr ∈ q.queuedGroups bracket (.normal team) then some (bracket, .normal team)
  else if ptr ∈ q.queuedGroups bracket (.premade team) then some (bracket, .premade team)
  else none

/-- The search of `RemovePlayer`, from the highest bracket down. -/
def findGroup (q : BattleGroundQueue) (ptr : GroupPtr) (team : Team) :
    Option (BattleGroundBracketId × GroupTypes) :=
  (List.finRange 8).reverse.findSome? (q.findInBracket ptr team)

/-- `RemovePlayer`. -/
def removePlayer (q : BattleGroundQueue) (guid : ObjectGuid) : BattleGroundQueue :=
  match q.playerInfo guid with
  | none => q
  | some info =>
      match q.groupInfos info.groupInfo with
      -- a pointer to a group that is gone
      | none => { q with queuedPlayers := Lib.eraseEntry guid q.queuedPlayers }
      | some group =>
          let q' := { q with
            queuedPlayers := Lib.eraseEntry guid q.queuedPlayers
            groupInfos :=
              Function.update q.groupInfos info.groupInfo (some (group.erasePlayer guid)) }
          match q.findGroup info.groupInfo group.groupTeam with
          | none => q'
          | some (bracket, index) =>
              if (group.erasePlayer guid).players = [] then
                (q'.setGroups bracket index
                  ((q.queuedGroups bracket index).erase info.groupInfo)).setInfo info.groupInfo none
              else q'

end RemovePlayer

/-- `INVITE_ACCEPT_WAIT_TIME`, in milliseconds. -/
def inviteAcceptWaitTime : UInt32 := 80000

/-- `InviteGroupToBG`. -/
def inviteGroupToBG (q : BattleGroundQueue) (ptr : GroupPtr) (bgInstance now : UInt32)
    (side : Team) : BattleGroundQueue :=
  match q.groupInfos ptr with
  | none => q
  | some g =>
      if g.Waits then
        q.setInfo ptr (some { g with
          groupTeam := side
          isInvitedToBGInstanceGUID := bgInstance
          removeInviteTime := now + inviteAcceptWaitTime })
      else q.setInfo ptr (some { g with groupTeam := side })

/-- The call of the lambda `InviteAllGroupsToBg`, with the side of the group itself. -/
def inviteOne (bgInstance now : UInt32) (q : BattleGroundQueue) (ptr : GroupPtr) :
    BattleGroundQueue :=
  match q.groupInfos ptr with
  | none => q
  | some g => q.inviteGroupToBG ptr bgInstance now g.groupTeam

/-- The lambda `InviteAllGroupsToBg` of `Update`. -/
def inviteAllGroupsToBg (q : BattleGroundQueue) (bgInstance now : UInt32) : BattleGroundQueue :=
  ((q.selectionPools .alliance).selectedGroups ++ (q.selectionPools .horde).selectedGroups).foldl
    (inviteOne bgInstance now) q

/-- `PlayerLoggedOut`. -/
def playerLoggedOut (q : BattleGroundQueue) (guid : ObjectGuid) (now : UInt32) :
    BattleGroundQueue :=
  match q.playerInfo guid with
  | none => q
  | some info =>
      { q with
        queuedPlayers :=
          Lib.setEntry guid { info with online := false, lastOnlineTime := now }
            q.queuedPlayers }

/-- `PlayerLoggedIn`. -/
def playerLoggedIn (q : BattleGroundQueue) (guid : ObjectGuid) : BattleGroundQueue :=
  match q.playerInfo guid with
  | none => q
  | some info =>
      { q with queuedPlayers := Lib.setEntry guid { info with online := true } q.queuedPlayers }

end BattleGroundQueue

namespace SelectionPool

variable (infos : GroupPtr → Option GroupQueueInfo) (world : ObjectGuid → Option WorldPlayer)

/-- `Players.size()` of a group. -/
def sizeOf (ptr : GroupPtr) : ℕ := ((infos ptr).map (·.players.length)).getD 0

/-- The condition under which `SelectionPool::AddGroup` takes a group into a pool with so many
players. -/
def Takes (count : ℕ) (ptr : GroupPtr) (desiredCount : ℕ) (bgInstanceId : UInt32) : Prop :=
  match infos ptr with
  | none => False
  | some g =>
      g.Waits ∧ (g.desiredInstanceId = 0 ∨ g.desiredInstanceId = bgInstanceId) ∧
        count + g.players.length ≤ desiredCount ∧
        g.players.all fun guid => (world guid).all fun player => !player.busy

instance (count : ℕ) (ptr : GroupPtr) (desiredCount : ℕ) (bgInstanceId : UInt32) :
    Decidable (Takes infos world count ptr desiredCount bgInstanceId) :=
  match h : infos ptr with
  | none => isFalse fun htakes => by simp [Takes, h] at htakes
  | some g =>
      decidable_of_iff
        (g.Waits ∧ (g.desiredInstanceId = 0 ∨ g.desiredInstanceId = bgInstanceId) ∧
          count + g.players.length ≤ desiredCount ∧
          g.players.all fun guid => (world guid).all fun player => !player.busy)
        (by simp [Takes, h])

/-- `SelectionPool::AddGroup`: what it returns and the pool after it. -/
def addGroup (pool : SelectionPool) (ptr : GroupPtr) (desiredCount : ℕ) (bgInstanceId : UInt32) :
    Bool × SelectionPool :=
  if Takes infos world pool.playerCount ptr desiredCount bgInstanceId then
    (true, ⟨pool.selectedGroups ++ [ptr], pool.playerCount + sizeOf infos ptr⟩)
  else (decide (pool.playerCount < desiredCount), pool)

/-- The loop of `KickGroup` over the selected groups: the position of the group to kick. -/
def kickIndex (size : ℕ) : List GroupPtr → ℕ → ℕ → ℕ → Bool → ℕ
  | [], _, kick, _, _ => kick
  | ptr :: rest, index, kick, kickSize, found =>
      if ((sizeOf infos ptr : ℤ) - size).natAbs ≤ 1 then
        kickIndex size rest (index + 1) index (sizeOf infos ptr) true
      else if !found && kickSize ≤ sizeOf infos ptr then
        kickIndex size rest (index + 1) index (sizeOf infos ptr) found
      else kickIndex size rest (index + 1) kick kickSize found

/-- `SelectionPool::KickGroup`. -/
def kickGroup (pool : SelectionPool) (size : ℕ) : Bool × SelectionPool :=
  if pool.playerCount = 0 then (true, pool)
  else
    let first := pool.selectedGroups.headD 0
    let index := kickIndex infos size pool.selectedGroups 0 0 (sizeOf infos first) false
    let kicked := sizeOf infos (pool.selectedGroups.getD index first)
    (decide (size + 1 < kicked),
      ⟨pool.selectedGroups.eraseIdx index, pool.playerCount - kicked⟩)

end SelectionPool

end TwowCore.Battlegrounds
