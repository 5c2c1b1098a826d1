import TwowCore.Groups.Rolls

/-!
# Members of a group

A group keeps its members in `m_memberSlots`, and each online member keeps a reference to his
group with the number of his subgroup, or two of them while he is in the raid of a battleground.
`Realm` holds the one group this is about and the references of all players who are online. A request
finds a player only while he is in the world: who is between two maps is online and is not found.

`step` runs one request. A group that is disbanded, and one whose creation fails, is deleted by
its owner; the next `Create` is that of a new one.
-/

namespace TwowCore.Groups

/-- `MAX_GROUP_SIZE`, the members of a party and of a subgroup. -/
def maxGroupSize : ℕ := 5

/-- `MAX_RAID_SIZE`. -/
def maxRaidSize : ℕ := 40

/-- `MAX_RAID_SUBGROUPS`. -/
def maxRaidSubgroups : UInt8 := 8

structure MemberSlot where
  guid : ObjectGuid
  name : String
  group : UInt8
  assistant : Bool
  deriving DecidableEq, Repr

/-- A group; `subGroupsCounts` is `none` while `m_subGroupsCounts` is not allocated. -/
structure Group where
  isBGGroup : Bool
  isRaidGroup : Bool
  memberSlots : List MemberSlot
  leaderGuid : ObjectGuid
  leaderName : String
  mainTankGuid : ObjectGuid
  mainAssistantGuid : ObjectGuid
  subGroupsCounts : Option (UInt8 → UInt8)

/-- What a reference of a player points to: the group this is about, or some other. -/
inductive Target where
  | this
  | other
  deriving DecidableEq, Repr

/-- A `GroupReference`; unlinking leaves the subgroup. -/
structure GroupReference where
  target : Option Target
  subGroup : UInt8
  deriving DecidableEq, Repr

namespace GroupReference

def link (target : Target) (subGroup : UInt8) : GroupReference := ⟨some target, subGroup⟩

def unlink (ref : GroupReference) : GroupReference := { ref with target := none }

def setSubGroup (ref : GroupReference) (subGroup : UInt8) : GroupReference := { ref with subGroup }

end GroupReference

/-- The two references of a player who is online, and whether he is in the world. -/
structure Player where
  group : GroupReference
  originalGroup : GroupReference
  inWorld : Bool
  deriving DecidableEq, Repr

namespace Player

/-- `Player::SetOriginalGroup`. -/
def setOriginalGroup (player : Player) : Option Target → UInt8 → Player
  | none, _ => { player with originalGroup := player.originalGroup.unlink }
  | some target, subgroup => { player with originalGroup := .link target subgroup }

/-- `Player::SetGroup`. -/
def setGroup (player : Player) : Option Target → UInt8 → Player
  | none, _ => { player with group := player.group.unlink }
  | some target, subgroup => { player with group := .link target subgroup }

/-- `Player::SetBattleGroundRaid`. -/
def setBattleGroundRaid (player : Player) (target : Target) (subgroup : UInt8) : Player :=
  { player.setOriginalGroup player.group.target player.group.subGroup with
    group := .link target subgroup }

/-- `Player::RemoveFromBattleGroundRaid`. -/
def removeFromBattleGroundRaid (player : Player) : Player :=
  { player with
    group :=
      match player.originalGroup.target with
      | some target => .link target player.originalGroup.subGroup
      | none => player.group.unlink
    originalGroup := player.originalGroup.unlink }

/-- Sets the subgroup in the reference to the group, which is the original one of a player in the
raid of a battleground. -/
def setSubGroup (player : Player) (subgroup : UInt8) : Player :=
  if player.group.target = some .this then { player with group := player.group.setSubGroup subgroup }
  else { player with originalGroup := player.originalGroup.setSubGroup subgroup }

/-- The group is deleted, and what still points to it points nowhere. -/
def groupDeleted (player : Player) : Player :=
  { player with
    group := if player.group.target = some .this then player.group.unlink else player.group
    originalGroup :=
      if player.originalGroup.target = some .this then player.originalGroup.unlink
      else player.originalGroup }

end Player

/-- The group, if it exists, and the players who are online. -/
structure Realm where
  group : Option Group
  players : ObjectGuid → Option Player

namespace Group

/-- `_getMemberCSlot`. -/
def getMemberSlot (g : Group) (guid : ObjectGuid) : Option MemberSlot :=
  g.memberSlots.find? fun slot => slot.guid = guid

/-- `GetMemberGroup`; who is no member has a group out of range. -/
def getMemberGroup (g : Group) (guid : ObjectGuid) : UInt8 :=
  match g.getMemberSlot guid with
  | some slot => slot.group
  | none => maxRaidSubgroups + 1

def isFull (g : Group) : Bool :=
  if g.isRaidGroup then maxRaidSize ≤ g.memberSlots.length else maxGroupSize ≤ g.memberSlots.length

/-- `GetMembersMinCount`. -/
def getMembersMinCount (g : Group) : ℕ := if g.isBGGroup then 1 else 2

/-- `SubGroupCounterIncrease`. -/
def subGroupCounterIncrease (g : Group) (subgroup : UInt8) : Group :=
  { g with subGroupsCounts :=
      g.subGroupsCounts.map fun counts => Function.update counts subgroup (counts subgroup + 1) }

/-- `SubGroupCounterDecrease`. -/
def subGroupCounterDecrease (g : Group) (subgroup : UInt8) : Group :=
  { g with subGroupsCounts :=
      g.subGroupsCounts.map fun counts => Function.update counts subgroup (counts subgroup - 1) }

/-- `_initRaidSubGroupsCounter`. -/
def initRaidSubGroupsCounter (g : Group) : Group :=
  { g with subGroupsCounts := some (g.memberSlots.foldl
      (fun counts slot => Function.update counts slot.group (counts slot.group + 1)) fun _ => 0) }

/-- `ConvertToRaid`. -/
def convertToRaid (g : Group) : Group := { g with isRaidGroup := true }.initRaidSubGroupsCounter

/-- The first subgroup of a raid that is not full; a party has one subgroup. -/
def freeSubGroup (g : Group) : Option UInt8 :=
  match g.subGroupsCounts with
  | none => some 0
  | some counts => [0, 1, 2, 3, 4, 5, 6, 7].find? fun group => (counts group).toNat < maxGroupSize

/-- `_setLeader`. -/
def setLeader (g : Group) (guid : ObjectGuid) : Group :=
  match g.getMemberSlot guid with
  | none => g
  | some slot => { g with leaderGuid := slot.guid, leaderName := slot.name }

/-- Rewrites the slot of a member. -/
def writeSlot (g : Group) (guid : ObjectGuid) (f : MemberSlot → MemberSlot) : Group :=
  { g with memberSlots := Lib.writeKey MemberSlot.guid guid f g.memberSlots }

/-- Erases the slot of a member, and counts him out of his subgroup. -/
def eraseSlot (g : Group) (guid : ObjectGuid) : Group :=
  match g.getMemberSlot guid with
  | some slot =>
      let g' : Group := { g with memberSlots := Lib.eraseKey MemberSlot.guid guid g.memberSlots }
      g'.subGroupCounterDecrease slot.group
  | none => g

/-- `_setMembersGroup` of a member. -/
def setMembersGroup (g : Group) (guid : ObjectGuid) (group : UInt8) : Group :=
  (g.writeSlot guid fun slot => { slot with group }).subGroupCounterIncrease group

/-- `_swapMembersGroup` of two members. -/
def swapMembersGroup (g : Group) (slot swapSlot : MemberSlot) : Group :=
  (g.writeSlot slot.guid fun s => { s with group := swapSlot.group }).writeSlot swapSlot.guid
    fun s => { s with group := slot.group }

/-- `_setMainTank`; the main assistant gives way. -/
def setMainTank (g : Group) (guid : ObjectGuid) : Group :=
  if g.mainTankGuid = guid then g
  else if guid = 0 then { g with mainTankGuid := guid }
  else if (g.getMemberSlot guid).isNone then g
  else
    { g with
      mainAssistantGuid := if g.mainAssistantGuid = guid then 0 else g.mainAssistantGuid
      mainTankGuid := guid }

/-- `_setMainAssistant`; the main tank gives way. -/
def setMainAssistant (g : Group) (guid : ObjectGuid) : Group :=
  if g.mainAssistantGuid = guid then g
  else if guid = 0 then { g with mainAssistantGuid := guid }
  else if (g.getMemberSlot guid).isNone then g
  else
    { g with
      mainTankGuid := if g.mainTankGuid = guid then 0 else g.mainTankGuid
      mainAssistantGuid := guid }

/-- The loop of `_chooseLeader`: the first member in the group who can lead at once, else the first
who is in the group. -/
def searchLeader (g : Group) (players : ObjectGuid → Option Player) :
    List MemberSlot → Option ObjectGuid → Option ObjectGuid
  | [], first => first
  | slot :: rest, first =>
      if slot.guid = g.leaderGuid then g.searchLeader players rest first
      else if (players slot.guid).any (fun player => player.group.target = some .this) = false then
        g.searchLeader players rest first
      else if g.isRaidGroup ∧ slot.assistant = false then
        g.searchLeader players rest (some (first.getD slot.guid))
      else some slot.guid

/-- `_chooseLeader`. -/
def chooseLeader (g : Group) (players : ObjectGuid → Option Player) (offline : Bool) : Group :=
  if g.memberSlots.length < g.getMembersMinCount then g
  else
    match g.searchLeader players g.memberSlots none with
    | some chosen => g.setLeader chosen
    | none =>
        if offline then g
        else
          match g.memberSlots with
          | [] => g
          | front :: _ => g.setLeader front.guid

end Group

namespace Realm

/-- `ObjectAccessor::FindPlayer`. -/
def findPlayer (r : Realm) (guid : ObjectGuid) : Option Player :=
  (r.players guid).filter fun player => player.inWorld

/-- Changes a player who is online. -/
def updatePlayer (r : Realm) (guid : ObjectGuid) (f : Player → Player) : Realm :=
  { r with players := Function.update r.players guid ((r.players guid).map f) }

/-- Changes a player who is found. -/
def updateFound (r : Realm) (guid : ObjectGuid) (f : Player → Player) : Realm :=
  r.updatePlayer guid fun player => if player.inWorld then f player else player

/-- What joining does to the references of a player. -/
def joined (g : Group) (group : UInt8) (player : Player) : Player :=
  if player.group.target.isSome ∧ g.isBGGroup then player.setBattleGroundRaid .this group
  else if player.group.target.isSome then player.setOriginalGroup (some .this) group
  else player.setGroup (some .this) group

/-- `_addMember` and with it `AddMember`: false when the group is full, no subgroup has room or
there is no guid. -/
def addMember (r : Realm) (g : Group) (guid : ObjectGuid) (name : String) : Option Realm :=
  match g.freeSubGroup with
  | none => none
  | some group =>
      if g.isFull then none
      else if guid = 0 then none
      else
        let slot : MemberSlot := ⟨guid, name, group, false⟩
        let g' : Group := { g with memberSlots := g.memberSlots ++ [slot] }
        let r' : Realm := { r with group := some (g'.subGroupCounterIncrease group) }
        some (r'.updateFound guid (joined g group))

/-- `Create`. -/
def create (r : Realm) (guid : ObjectGuid) (name : String) (battleground : Bool) : Realm :=
  let g : Group :=
    { isBGGroup := battleground, isRaidGroup := battleground, memberSlots := []
      leaderGuid := guid, leaderName := name, mainTankGuid := 0, mainAssistantGuid := 0
      subGroupsCounts := none }
  let g := if battleground then g.initRaidSubGroupsCounter else g
  (r.addMember g guid name).getD r

/-- What leaving does to the references of a player. -/
def left (g : Group) (player : Player) : Player :=
  if g.isBGGroup then player.removeFromBattleGroundRaid
  else if player.originalGroup.target = some .this then player.setOriginalGroup none 0
  else player.setGroup none 0

/-- `_removeMember`. -/
def removeSlot (r : Realm) (g : Group) (guid : ObjectGuid) : Realm :=
  let r := r.updateFound guid (left g)
  let g' := g.eraseSlot guid
  { r with group := some (if g'.leaderGuid = guid then g'.chooseLeader r.findPlayer false else g') }

/-- `Disband`: every member who is found leaves, and the group is deleted. -/
def disband (r : Realm) (g : Group) : Realm :=
  { group := none
    players := fun guid => (r.players guid).map fun player =>
      (if (g.getMemberSlot guid).isSome ∧ player.inWorld then left g player else player).groupDeleted }

/-- `RemoveMember`. -/
def removeMember (r : Realm) (g : Group) (guid : ObjectGuid) : Realm :=
  if g.getMembersMinCount < g.memberSlots.length then r.removeSlot g guid else r.disband g

/-- `UpdateOfflineLeader`; `due` says that the delay is over and the leader is not loading. -/
def updateOfflineLeader (r : Realm) (g : Group) (due : Bool) : Realm :=
  if g.isBGGroup then r
  else if (r.findPlayer g.leaderGuid).isSome then r
  else if due = false then r
  else { r with group := some (g.chooseLeader r.findPlayer true) }

/-- `ChangeMembersGroup` of a player who is found. -/
def changePlayersGroup (r : Realm) (g : Group) (guid : ObjectGuid) (player : Player)
    (group : UInt8) : Realm :=
  let prevSubGroup := g.getMemberGroup guid
  if prevSubGroup = group ∨ maxRaidSubgroups ≤ prevSubGroup then r
  else if g.subGroupsCounts.any (fun counts => maxGroupSize ≤ (counts group).toNat) then r
  else
    let prevSubGroup :=
      if player.group.target = some .this then prevSubGroup else player.originalGroup.subGroup
    let g' := (g.setMembersGroup guid group).subGroupCounterDecrease prevSubGroup
    let r' : Realm := { r with group := some g' }
    r'.updatePlayer guid fun player => player.setSubGroup group

/-- `ChangeMembersGroup`. -/
def changeMembersGroup (r : Realm) (g : Group) (guid : ObjectGuid) (group : UInt8) : Realm :=
  if g.isRaidGroup = false ∨ maxRaidSubgroups ≤ group then r
  else if g.subGroupsCounts.any (fun counts => maxGroupSize ≤ (counts group).toNat) then r
  else
    match r.findPlayer guid with
    | some player => r.changePlayersGroup g guid player group
    | none =>
        let prevSubGroup := g.getMemberGroup guid
        if prevSubGroup = group then r
        else if (g.getMemberSlot guid).isNone then r
        else
          let g' := (g.setMembersGroup guid group).subGroupCounterDecrease prevSubGroup
          { r with group := some g' }

/-- `SwapMembersGroup`; the references of the two are set if they are found. -/
def swapMembersGroup (r : Realm) (g : Group) (guid swapGuid : ObjectGuid) : Realm :=
  if g.isRaidGroup = false then r
  else
    match g.getMemberSlot guid, g.getMemberSlot swapGuid with
    | some slot, some swapSlot =>
        if slot.group = swapSlot.group ∨ maxRaidSubgroups ≤ slot.group ∨
            maxRaidSubgroups ≤ swapSlot.group then r
        else
          let r' : Realm := { r with group := some (g.swapMembersGroup slot swapSlot) }
          (r'.updateFound guid fun player => player.setSubGroup swapSlot.group).updateFound
            swapGuid fun player => player.setSubGroup slot.group
    | _, _ => r

end Realm

/-- What can happen to the group and its players. -/
inductive Event where
  | create (guid : ObjectGuid) (name : String) (battleground : Bool)
  | addMember (guid : ObjectGuid) (name : String)
  | removeMember (guid : ObjectGuid)
  | changeLeader (guid : ObjectGuid)
  | updateOfflineLeader (due : Bool)
  | convertToRaid
  | changeMembersGroup (guid : ObjectGuid) (group : UInt8)
  | swapMembersGroup (guid swapGuid : ObjectGuid)
  | setAssistant (guid : ObjectGuid) (assistant : Bool)
  | setMainTank (guid : ObjectGuid)
  | setMainAssistant (guid : ObjectGuid)
  /-- A player logs in, and `_LoadGroup` links him to the group of his row of `group_member`; that
  can be a subgroup of another group. -/
  | login (guid : ObjectGuid) (other : Option UInt8)
  | logout (guid : ObjectGuid)
  /-- A player is added to a map: after his login, and at the end of a teleport. -/
  | addToWorld (guid : ObjectGuid)
  /-- A player is taken off a map at the start of a teleport. -/
  | removeFromWorld (guid : ObjectGuid)
  /-- A player who is in no raid of a battleground gets into one of another group. -/
  | enterBattleGround (guid : ObjectGuid) (subgroup : UInt8)
  /-- A player leaves the raid of a battleground of another group. -/
  | leaveBattleGround (guid : ObjectGuid)

namespace Realm

/-- Runs a request of a group that exists. -/
def withGroup (r : Realm) (f : Group → Realm) : Realm :=
  match r.group with
  | some g => f g
  | none => r

/-- `_LoadGroup`: a player who logs in is linked to the group that has him in its rows; the groups
of battlegrounds have no rows, and take him back when he enters. -/
def loadGroup (r : Realm) (guid : ObjectGuid) (player : Player) : Player :=
  match r.group with
  | none => player
  | some g =>
      match g.getMemberSlot guid with
      | none => player
      | some slot =>
          if g.isBGGroup then player.setBattleGroundRaid .this slot.group
          else player.setGroup (some .this) slot.group

/-- A player who may be in a subgroup of another group logs in. -/
def login (r : Realm) (guid : ObjectGuid) (other : Option UInt8) : Realm :=
  if (r.players guid).isSome then r
  else
    let fresh : Player := ⟨⟨other.map fun _ => .other, other.getD 0⟩, ⟨none, 0⟩, false⟩
    { r with players := Function.update r.players guid (some (r.loadGroup guid fresh)) }

/-- One event. -/
def step (r : Realm) : Event → Realm
  | .create guid name battleground =>
      if r.group.isSome then r else r.create guid name battleground
  | .addMember guid name => r.withGroup fun g => (r.addMember g guid name).getD r
  | .removeMember guid => r.withGroup fun g => r.removeMember g guid
  | .changeLeader guid => r.withGroup fun g => { r with group := some (g.setLeader guid) }
  | .updateOfflineLeader due => r.withGroup fun g => r.updateOfflineLeader g due
  | .convertToRaid => r.withGroup fun g => { r with group := some g.convertToRaid }
  | .changeMembersGroup guid group => r.withGroup fun g => r.changeMembersGroup g guid group
  | .swapMembersGroup guid swapGuid => r.withGroup fun g => r.swapMembersGroup g guid swapGuid
  | .setAssistant guid assistant => r.withGroup fun g =>
      if g.isRaidGroup then
        { r with group := some (g.writeSlot guid fun slot => { slot with assistant }) }
      else r
  | .setMainTank guid => r.withGroup fun g =>
      if g.isRaidGroup then { r with group := some (g.setMainTank guid) } else r
  | .setMainAssistant guid => r.withGroup fun g =>
      if g.isRaidGroup then { r with group := some (g.setMainAssistant guid) } else r
  | .login guid other => r.login guid other
  | .logout guid => { r with players := Function.update r.players guid none }
  | .addToWorld guid => r.updatePlayer guid fun player => { player with inWorld := true }
  | .removeFromWorld guid => r.updatePlayer guid fun player => { player with inWorld := false }
  | .enterBattleGround guid subgroup =>
      if (r.group.any fun g => g.isBGGroup) ∨
          ((r.players guid).any fun player => player.originalGroup.target.isSome) then r
      else r.updatePlayer guid fun player => player.setBattleGroundRaid .other subgroup
  | .leaveBattleGround guid =>
      if (r.players guid).any fun player => player.group.target = some .other then
        r.updatePlayer guid Player.removeFromBattleGroundRaid
      else r

end Realm

end TwowCore.Groups
