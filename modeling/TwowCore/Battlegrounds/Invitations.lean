import TwowCore.Battlegrounds.Structure

/-!
# Invitations to a battleground

The queue of one battleground type with the battlegrounds of that type and what each player keeps of
both: his slot for the queue with the instance he is invited to, and the battleground he is in. The
counters `m_InvitedAlliance` and `m_InvitedHorde` are counted up by `InviteGroupToBG`, for the players
it reaches, and down by `RemovePlayer` of the queue and by `RemovePlayerAtLeave`.

`Event` lists who calls these: the handlers of the client's packets, the queue events, the first loop
of `Update`, and logging in and out.
-/

namespace TwowCore.Battlegrounds

/-- `BattleGroundStatus`. -/
inductive BattleGroundStatus where
  | none
  | waitQueue
  | waitJoin
  | inProgress
  | waitLeave
  deriving DecidableEq, Repr

/-- `BattleGround`, as far as players come and go. `players` is the map `m_Players`. -/
structure BattleGround where
  status : BattleGroundStatus
  maxPlayersPerTeam : UInt32
  players : List (ObjectGuid × Team)
  invited : Team → UInt32

namespace BattleGround

/-- A battleground that `CreateNewBattleGround` makes. -/
def createNew (maxPlayersPerTeam : UInt32) : BattleGround :=
  ⟨.waitJoin, maxPlayersPerTeam, [], fun _ => 0⟩

/-- `IncreaseInvitedCount`. -/
def increaseInvitedCount (bg : BattleGround) (team : Team) : BattleGround :=
  { bg with invited := Function.update bg.invited team (bg.invited team + 1) }

/-- `DecreaseInvitedCount`. -/
def decreaseInvitedCount (bg : BattleGround) (team : Team) : BattleGround :=
  { bg with invited := Function.update bg.invited team (bg.invited team - 1) }

/-- `GetFreeSlotsForTeam`. -/
def getFreeSlotsForTeam (bg : BattleGround) (team : Team) : UInt32 :=
  if bg.status = .waitJoin ∨ bg.status = .inProgress then
    if bg.invited team < bg.maxPlayersPerTeam then bg.maxPlayersPerTeam - bg.invited team else 0
  else 0

/-- `AddPlayer`. -/
def addPlayer (bg : BattleGround) (guid : ObjectGuid) (team : Team) : BattleGround :=
  { bg with players := Lib.setEntry guid team bg.players }

/-- The player leaves `m_Players`. -/
def erasePlayer (bg : BattleGround) (guid : ObjectGuid) : BattleGround :=
  { bg with players := Lib.eraseEntry guid bg.players }

end BattleGround

/-- The instance the group is invited to, and the side it is invited for. -/
def GroupQueueInfo.invitation (g : GroupQueueInfo) : Option (UInt32 × Team) :=
  if g.Waits then none else some (g.isInvitedToBGInstanceGUID, g.groupTeam)

namespace BattleGroundQueue

/-- The group of a queued player, as `GetPlayerGroupInfoData` finds it. -/
def groupOf (q : BattleGroundQueue) (guid : ObjectGuid) : Option GroupQueueInfo :=
  (q.playerInfo guid).bind fun info => q.groupInfos info.groupInfo

/-- The invitation of the group of a queued player. -/
def invitedTo (q : BattleGroundQueue) (guid : ObjectGuid) : Option (UInt32 × Team) :=
  (q.groupOf guid).bind GroupQueueInfo.invitation

/-- `IsPlayerInvited`. -/
def isPlayerInvited (q : BattleGroundQueue) (guid : ObjectGuid) (bgInstance removeTime : UInt32) :
    Bool :=
  (q.groupOf guid).any fun g =>
    g.isInvitedToBGInstanceGUID = bgInstance && g.removeInviteTime = removeTime

end BattleGroundQueue

/-- What `HandleBattleFieldPortOpcode` is sent, and what it reads of the player. -/
structure PortRequest where
  action : UInt8
  /-- `CanJoinToBattleground`: no deserter debuff -/
  canJoin : Bool
  /-- he is in combat and flagged for it -/
  inCombat : Bool
  /-- his level is above that of the battleground -/
  aboveMaxLevel : Bool
  deriving DecidableEq, Repr

/-- The queue of a battleground type, the battlegrounds of the type, and what the players keep: the
slot for this queue with `invitedToInstance`, and `bgInstanceID`. -/
structure BattleGroundState where
  queue : BattleGroundQueue
  battleGrounds : UInt32 → Option BattleGround
  queueSlot : ObjectGuid → Option UInt32
  bgInstanceID : ObjectGuid → UInt32

namespace BattleGroundState

/-- The state before anybody joins. -/
def start : BattleGroundState := ⟨.empty, fun _ => none, fun _ => none, fun _ => 0⟩

/-- Changes a battleground, if it is there. -/
def modifyBG (s : BattleGroundState) (instanceId : UInt32) (f : BattleGround → BattleGround) :
    BattleGroundState :=
  { s with
    battleGrounds := Function.update s.battleGrounds instanceId
      ((s.battleGrounds instanceId).map f) }

/-- Writes the slot of a player: `AddBattleGroundQueueId`, `SetInviteForBattleGroundQueueType` and
`RemoveBattleGroundQueueId`. -/
def setSlot (s : BattleGroundState) (guid : ObjectGuid) (slot : Option UInt32) :
    BattleGroundState :=
  { s with queueSlot := Function.update s.queueSlot guid slot }

/-- `SetBattleGroundId`. -/
def setBattleGroundId (s : BattleGroundState) (guid : ObjectGuid) (instanceId : UInt32) :
    BattleGroundState :=
  { s with bgInstanceID := Function.update s.bgInstanceID guid instanceId }

section Join

/-- The handler lets the players join: none has a slot for this queue, and so none is queued. -/
def MayJoin (s : BattleGroundState) (members : List Joiner) : Prop :=
  ∀ member ∈ members, s.queueSlot member.guid = none ∧ ¬s.queue.Queued member.guid

instance (s : BattleGroundState) (members : List Joiner) : Decidable (s.MayJoin members) :=
  inferInstanceAs (Decidable (∀ _ ∈ members, _))

/-- `HandleBattlemasterJoinOpcode`: `AddGroup`, and a slot for each player who is added. -/
def join (s : BattleGroundState) (leader : Joiner) (grp : Option PlayerGroup) (req : JoinRequest)
    (isPremade : Bool) (excludedMembers : List ObjectGuid) : BattleGroundState :=
  if s.MayJoin (BattleGroundQueue.newcomers leader grp excludedMembers) then
    (BattleGroundQueue.newcomers leader grp excludedMembers).foldl
      (fun s' member => s'.setSlot member.guid (some 0))
      { s with queue := s.queue.addGroup leader grp req isPremade excludedMembers }
  else s

/-- `CreateNewBattleGround` and `StartBattleGround`. The map manager gives a new battleground an
instance id that nobody has been invited to. -/
def create (s : BattleGroundState) (instanceId maxPlayersPerTeam : UInt32) : BattleGroundState :=
  if instanceId ≠ 0 ∧ s.battleGrounds instanceId = none ∧
      ∀ entry ∈ s.queue.queuedPlayers,
        (s.queue.invitedTo entry.1).all fun invitation => invitation.1 ≠ instanceId then
    { s with
      battleGrounds :=
        Function.update s.battleGrounds instanceId (some (.createNew maxPlayersPerTeam)) }
  else s

end Join

section Invite

/-- The invitation reaches the player: he is in the world, connected, not logging out and not in a
battleground. -/
def reaches (world : ObjectGuid → Option WorldPlayer) (guid : ObjectGuid) : Bool :=
  (world guid).any fun player =>
    player.isConnected && !player.isLogingOut && !player.inBattleGround

/-- One player in the loop of `InviteGroupToBG`. -/
def inviteMember (world : ObjectGuid → Option WorldPlayer) (instanceId : UInt32) (side : Team)
    (s : BattleGroundState) (guid : ObjectGuid) : BattleGroundState :=
  if reaches world guid then
    let s' := s.modifyBG instanceId (·.increaseInvitedCount side)
    if (s.queueSlot guid).isSome then s'.setSlot guid (some instanceId) else s'
  else s

/-- `InviteGroupToBG`, called with the side of the group, for a group of one of the lists. -/
def inviteGroupToBG (s : BattleGroundState) (bracket : BattleGroundBracketId) (index : GroupTypes)
    (ptr : GroupPtr) (instanceId now : UInt32) (world : ObjectGuid → Option WorldPlayer) :
    BattleGroundState :=
  if ptr ∈ s.queue.queuedGroups bracket index ∧ (s.battleGrounds instanceId).isSome then
    match s.queue.groupInfos ptr with
    | none => s
    | some g =>
        let s' := { s with queue := s.queue.inviteGroupToBG ptr instanceId now g.groupTeam }
        if g.Waits then g.players.foldl (inviteMember world instanceId g.groupTeam) s' else s'
  else s

end Invite

section Leave

/-- `RemovePlayer` of the queue, with `decreaseInvitedCount`. -/
def removePlayer (s : BattleGroundState) (guid : ObjectGuid) (decreaseInvitedCount : Bool) :
    BattleGroundState :=
  let s' := { s with queue := s.queue.removePlayer guid }
  if decreaseInvitedCount then
    match s.queue.invitedTo guid with
    | none => s'
    | some (instanceId, team) => s'.modifyBG instanceId (·.decreaseInvitedCount team)
  else s'

/-- `RemovePlayerAtLeave`. Only who is in `m_Players` has taken part. -/
def removePlayerAtLeave (s : BattleGroundState) (instanceId : UInt32) (guid : ObjectGuid) :
    BattleGroundState :=
  match (s.battleGrounds instanceId).bind fun bg => Lib.entryOf guid bg.players with
  | none => s
  | some team =>
      ((s.modifyBG instanceId fun bg =>
          (bg.erasePlayer guid).decreaseInvitedCount team).setSlot guid none).setBattleGroundId guid 0

/-- The player leaves the queue: his slot and his place in it. -/
def leaveQueue (s : BattleGroundState) (guid : ObjectGuid) : BattleGroundState :=
  (s.setSlot guid none).removePlayer guid true

end Leave

section Port

/-- `bg->AddPlayer`, in `HandleMoveWorldportAckOpcode`: only for a player who was invited. -/
def arrive (s : BattleGroundState) (guid : ObjectGuid) (instanceId : UInt32) (team : Team) :
    BattleGroundState :=
  if s.queueSlot guid = some instanceId then s.modifyBG instanceId (·.addPlayer guid team) else s

/-- `action` 1 of `HandleBattleFieldPortOpcode` after its checks, and the arrival. -/
def enter (s : BattleGroundState) (guid : ObjectGuid) (instanceId : UInt32) (team : Team) :
    BattleGroundState :=
  if s.queueSlot guid = some 0 then s
  else
    (((s.removePlayer guid false).removePlayerAtLeave (s.bgInstanceID guid) guid).setBattleGroundId
      guid instanceId).arrive guid instanceId team

/-- `HandleBattleFieldPortOpcode`. -/
def handleBattleFieldPort (s : BattleGroundState) (guid : ObjectGuid) (req : PortRequest) :
    BattleGroundState :=
  match s.queueSlot guid, s.queue.groupOf guid with
  | some _, some g =>
      if g.Waits ∧ req.action = 1 then s
      else
        match s.battleGrounds g.isInvitedToBGInstanceGUID with
        -- the template is used, but only for leaving
        | none => if req.action = 0 then s.leaveQueue guid else s
        | some bg =>
            if req.action = 1 then
              if req.inCombat then s
              else if !req.canJoin || req.aboveMaxLevel || bg.status = .waitLeave then
                s.leaveQueue guid
              else s.enter guid g.isInvitedToBGInstanceGUID g.groupTeam
            else if req.action = 0 then s.leaveQueue guid
            else s
  | _, _ => s

/-- `BGQueueRemoveEvent::Execute`. -/
def removeEvent (s : BattleGroundState) (guid : ObjectGuid) (instanceId removeTime : UInt32) :
    BattleGroundState :=
  if (s.queueSlot guid).isSome ∧ s.queue.isPlayerInvited guid instanceId removeTime then
    s.leaveQueue guid
  else s

end Port

section Online

/-- A player whom the first loop of `Update` removes: offline for long, or invited to a battleground
that has ended. -/
def stale (s : BattleGroundState) (guid : ObjectGuid) (now : UInt32) : Bool :=
  (s.queue.playerInfo guid).any fun info =>
    (!info.online && offlineBGQueueTime < getMSTimeDiff info.lastOnlineTime now) ||
      (s.queue.invitedTo guid).any fun invitation =>
        (s.battleGrounds invitation.1).any fun bg => bg.status = .waitLeave

/-- One removal of that loop. A player who is online loses his slot. -/
def purge (s : BattleGroundState) (guid : ObjectGuid) (now : UInt32) : BattleGroundState :=
  if s.stale guid now then
    if (s.queue.playerInfo guid).any (·.online) then s.leaveQueue guid
    else s.removePlayer guid true
  else s

/-- `GiveLevel`, when the bracket of the player changes. -/
def giveLevel (s : BattleGroundState) (guid : ObjectGuid) : BattleGroundState :=
  if (s.queueSlot guid).isSome ∧ (s.queue.groupOf guid).isSome then s.leaveQueue guid else s

/-- `LogoutPlayer`: the player leaves his battleground, and `PlayerLoggedOut`. -/
def logoutPlayer (s : BattleGroundState) (guid : ObjectGuid) (now : UInt32) : BattleGroundState :=
  let s' := s.removePlayerAtLeave (s.bgInstanceID guid) guid
  if (s'.queueSlot guid).isSome then
    { s'.setSlot guid none with queue := s'.queue.playerLoggedOut guid now }
  else s'

/-- `PlayerLoggedIn`. -/
def playerLoggedIn (s : BattleGroundState) (guid : ObjectGuid) : BattleGroundState :=
  match s.queue.groupOf guid with
  | none => s
  | some g =>
      { s.setSlot guid (some g.isInvitedToBGInstanceGUID) with
        queue := s.queue.playerLoggedIn guid }

/-- The player enters a battleground of another type, or leaves it. -/
def enterOther (s : BattleGroundState) (guid : ObjectGuid) (instanceId : UInt32) :
    BattleGroundState :=
  if s.battleGrounds instanceId = none then
    (s.removePlayerAtLeave (s.bgInstanceID guid) guid).setBattleGroundId guid instanceId
  else s

end Online

end BattleGroundState

/-- What happens to the queue and the battlegrounds. -/
inductive BattleGroundEvent where
  | join (leader : Joiner) (grp : Option PlayerGroup) (req : JoinRequest) (isPremade : Bool)
      (excludedMembers : List ObjectGuid)
  | create (instanceId maxPlayersPerTeam : UInt32)
  | inviteGroupToBG (bracket : BattleGroundBracketId) (index : GroupTypes) (ptr : GroupPtr)
      (instanceId now : UInt32) (world : ObjectGuid → Option WorldPlayer)
  | port (guid : ObjectGuid) (req : PortRequest)
  | removeEvent (guid : ObjectGuid) (instanceId removeTime : UInt32)
  | purge (guid : ObjectGuid) (now : UInt32)
  | giveLevel (guid : ObjectGuid)
  | removePlayerAtLeave (instanceId : UInt32) (guid : ObjectGuid)
  | logoutPlayer (guid : ObjectGuid) (now : UInt32)
  | playerLoggedIn (guid : ObjectGuid)
  | enterOther (guid : ObjectGuid) (instanceId : UInt32)
  | setStatus (instanceId : UInt32) (status : BattleGroundStatus)
  | delete (instanceId : UInt32)

/-- What an event does. -/
def BattleGroundEvent.apply (s : BattleGroundState) : BattleGroundEvent → BattleGroundState
  | join leader grp req isPremade excludedMembers =>
      s.join leader grp req isPremade excludedMembers
  | create instanceId maxPlayersPerTeam => s.create instanceId maxPlayersPerTeam
  | inviteGroupToBG bracket index ptr instanceId now world =>
      s.inviteGroupToBG bracket index ptr instanceId now world
  | port guid req => s.handleBattleFieldPort guid req
  | removeEvent guid instanceId removeTime => s.removeEvent guid instanceId removeTime
  | purge guid now => s.purge guid now
  | giveLevel guid => s.giveLevel guid
  | removePlayerAtLeave instanceId guid => s.removePlayerAtLeave instanceId guid
  | logoutPlayer guid now => s.logoutPlayer guid now
  | playerLoggedIn guid => s.playerLoggedIn guid
  | enterOther guid instanceId => s.enterOther guid instanceId
  | setStatus instanceId status => s.modifyBG instanceId ({ · with status := status })
  | delete instanceId =>
      { s with battleGrounds := Function.update s.battleGrounds instanceId none }

/-- A run of events. -/
def runBattleGrounds (events : List BattleGroundEvent) : BattleGroundState :=
  Lib.run BattleGroundEvent.apply .start events

end TwowCore.Battlegrounds
