import TwowCore.Lib.Entries
import TwowCore.Lib.Run

/-!
# Chat channels

A channel holds its members in the order of their guids, with flags for its owner, its moderators and the
muted, and the guids that are banned. Every request names the player it comes from; what the channel looks
up about players, by guid or by name, is part of the input of a step, since players come and go between
requests. The packets that answer a request are left out. The manager of the channels makes a channel when
someone joins by its name, and deletes it when the last member has left.
-/

namespace TwowCore.Chat

open TwowCore.Lib

abbrev ObjectGuid := ℕ

/-- `SEC_OBSERVER`. -/
def secObserver : ℕ := 1

/-- `MEMBER_FLAG_OWNER`. -/
def memberFlagOwner : UInt8 := 0x01

/-- `MEMBER_FLAG_MODERATOR`. -/
def memberFlagModerator : UInt8 := 0x02

/-- `MEMBER_FLAG_MUTED`. -/
def memberFlagMuted : UInt8 := 0x08

/-- `CHANNEL_FLAG_CUSTOM`. -/
def channelFlagCustom : UInt8 := 0x01

/-- `CHANNEL_FLAG_GENERAL`. -/
def channelFlagGeneral : UInt8 := 0x10

/-- What a channel looks at of a player. -/
structure ChannelUser where
  guid : ObjectGuid
  security : ℕ
  guildId : UInt32
  team : UInt32

/-- The players as they are at a request: `GetPlayer` of the channel by guid and by name, `GetPlayer` of
`sObjectMgr` by name, and `CONFIG_BOOL_ALLOW_TWO_SIDE_INTERACTION_CHANNEL`. -/
structure Users where
  getPlayer : ObjectGuid → Option ChannelUser
  getPlayerNamed : String → Option ChannelUser
  objectMgrPlayer : String → Option ChannelUser
  allowTwoSideInteraction : Bool

/-- `GetSecurity` of a player that may not be there. -/
def Users.security (users : Users) (guid : ObjectGuid) : ℕ :=
  match users.getPlayer guid with
  | none => 0
  | some user => user.security

/-- `Channel::PlayerInfo`. -/
structure PlayerInfo where
  player : ObjectGuid
  flags : UInt8
  deriving DecidableEq

namespace PlayerInfo

variable (info : PlayerInfo)

/-- `HasFlag`. -/
def hasFlag (flag : UInt8) : Bool := decide (info.flags &&& flag ≠ 0)

/-- Sets or clears a flag. -/
def putFlag (flag : UInt8) (state : Bool) : PlayerInfo :=
  { info with flags := if state = true then info.flags ||| flag else info.flags &&& ~~~flag }

def isOwner : Bool := info.hasFlag memberFlagOwner

def setOwner (state : Bool) : PlayerInfo := info.putFlag memberFlagOwner state

def isModerator : Bool := info.hasFlag memberFlagModerator

def setModerator (state : Bool) : PlayerInfo := info.putFlag memberFlagModerator state

def setMuted (state : Bool) : PlayerInfo := info.putFlag memberFlagMuted state

@[simp] theorem player_putFlag (flag : UInt8) (state : Bool) : (info.putFlag flag state).player = info.player := rfl

/-- Setting or clearing one flag leaves another as it is. -/
theorem hasFlag_putFlag {flag other : UInt8} (h : flag &&& other = 0) (state : Bool) :
    (info.putFlag flag state).hasFlag other = info.hasFlag other := by
  have hbit : ∀ i, (flag.toBitVec.getLsbD i && other.toBitVec.getLsbD i) = false := by
    intro i
    rw [← BitVec.getLsbD_and, ← UInt8.toBitVec_and, h]
    exact BitVec.getLsbD_zero
  have hflags : (info.putFlag flag state).flags &&& other = info.flags &&& other := by
    refine UInt8.eq_of_toBitVec_eq (BitVec.eq_of_getLsbD_eq fun i hi => ?_)
    have hi' := hbit i
    cases state
    all_goals
      simp only [putFlag, Bool.false_eq_true, if_true, if_false, UInt8.toBitVec_and, UInt8.toBitVec_or,
        UInt8.toBitVec_not, BitVec.getLsbD_and, BitVec.getLsbD_or, BitVec.getLsbD_not, hi, decide_true,
        Bool.true_and]
      cases hflag : flag.toBitVec.getLsbD i
      · simp
      · rw [hflag, Bool.true_and] at hi'
        simp [hi']
  rw [hasFlag, hasFlag, hflags]

/-- A flag that is cleared is not there. -/
theorem hasFlag_putFlag_false (flag : UInt8) : (info.putFlag flag false).hasFlag flag = false := by
  have hflags : (info.putFlag flag false).flags &&& flag = 0 := by
    refine UInt8.eq_of_toBitVec_eq (BitVec.eq_of_getLsbD_eq fun i hi => ?_)
    simp only [putFlag, Bool.false_eq_true, if_false, UInt8.toBitVec_and, UInt8.toBitVec_not, BitVec.getLsbD_and,
      BitVec.getLsbD_not, hi, decide_true, Bool.true_and]
    cases flag.toBitVec.getLsbD i <;> simp
  rw [hasFlag, hflags]
  rfl

/-- Who enters has no flags. -/
theorem hasFlag_mk_zero (player : ObjectGuid) (flag : UInt8) : (PlayerInfo.mk player 0).hasFlag flag = false := by
  simp [hasFlag]

end PlayerInfo

/-- `Channel`. `listed` belongs to the players: those whose list `m_channels` has the channel, once for each
time it is in the list. -/
structure Channel where
  announce : Bool
  moderate : Bool
  password : String
  flags : UInt8
  securityLevel : ℕ
  channelId : UInt32
  ownerGuid : ObjectGuid
  players : List (ObjectGuid × PlayerInfo)
  banned : List ObjectGuid
  listed : List ObjectGuid

namespace Channel

variable (c : Channel) (users : Users)

/-- `HasFlag`. -/
def hasFlag (flag : UInt8) : Bool := decide (c.flags &&& flag ≠ 0)

/-- `IsConstant`. -/
def isConstant : Bool := decide (c.channelId ≠ 0)

/-- `IsOn`. -/
def isOn (guid : ObjectGuid) : Bool := (entryOf guid c.players).isSome

/-- `IsBanned`. -/
def isBanned (guid : ObjectGuid) : Bool := decide (guid ∈ c.banned)

/-- `m_players[guid].IsModerator()` of a member. -/
def isModerator (guid : ObjectGuid) : Bool := (entryOf guid c.players).any PlayerInfo.isModerator

/-- `m_players[guid]` changed by `f`; `operator[]` makes an entry where there is none. -/
def modify (guid : ObjectGuid) (f : PlayerInfo → PlayerInfo) : Channel :=
  { c with players := setEntry guid (f ((entryOf guid c.players).getD ⟨0, 0⟩)) c.players }

/-- `SetOwner` of a guid. -/
def setOwner (guid : ObjectGuid) : Channel :=
  match users.getPlayer guid with
  | none => c
  | some user =>
      if c.hasFlag channelFlagGeneral = true ∧ user.security < secObserver then c
      else
        let cleared := if c.ownerGuid ≠ 0 ∧ c.isOn c.ownerGuid = true then
          c.modify c.ownerGuid fun info => info.setOwner false else c
        let owned := { cleared with ownerGuid := guid }
        if guid ≠ 0 then owned.modify guid fun info => info.setOwner true else owned

/-- `Join`. -/
def join (guid : ObjectGuid) (password : String) (checkPassword : Bool) : Channel :=
  if c.isOn guid = true then c
  else if c.isBanned guid = true then c
  else if checkPassword = true ∧ c.password ≠ "" ∧ password ≠ c.password then c
  else if c.securityLevel ≠ 0 ∧ (users.getPlayer guid).all (·.security < c.securityLevel) = true then c
  else if (users.getPlayer guid).any (·.guildId ≠ 0) = true ∧ c.flags = 0x38 then c
  else
    let listed := if (users.getPlayer guid).isSome = true then c.listed ++ [guid] else c.listed
    let joined := { c with listed, players := setEntry guid ⟨guid, 0⟩ c.players }
    if joined.hasFlag channelFlagCustom = true ∧ joined.isConstant = false ∧ joined.ownerGuid = 0 then
      (joined.setOwner users guid).modify guid fun info => info.setModerator true
    else joined

/-- `Leave`; with `send` the channel is taken off the player's list. -/
def leave (guid : ObjectGuid) (send : Bool) : Channel :=
  if c.isOn guid = false then c
  else
    let changeowner := (entryOf guid c.players).any PlayerInfo.isOwner
    let left := { c with
      players := eraseEntry guid c.players
      listed := if send = true then c.listed.filter (· ≠ guid) else c.listed }
    if changeowner = true then
      match left.players with
      | [] => left.setOwner users 0
      | first :: _ => left.setOwner users first.2.player
    else left

/-- `KickOrBan`. -/
def kickOrBan (guid : ObjectGuid) (targetName : String) (ban : Bool) : Channel :=
  if c.isOn guid = false then c
  else if c.isModerator guid = false ∧ users.security guid < secObserver then c
  else
    match users.objectMgrPlayer targetName with
    | none => c
    | some target =>
        if c.isOn target.guid = false then c
        else
          let changeowner := decide (c.ownerGuid = target.guid)
          if users.security guid < secObserver ∧ changeowner = true ∧ guid ≠ c.ownerGuid then c
          else
            let kicked := { c with
              banned := if ban = true ∧ c.isBanned target.guid = false then target.guid :: c.banned else c.banned
              players := eraseEntry target.guid c.players
              listed := c.listed.filter (· ≠ target.guid) }
            if changeowner = true then
              match kicked.players with
              | [] => kicked.setOwner users 0
              | _ :: _ => kicked.setOwner users guid
            else kicked

/-- `UnBan`. -/
def unBan (guid : ObjectGuid) (targetName : String) : Channel :=
  if c.isOn guid = false then c
  else if c.isModerator guid = false ∧ users.security guid < secObserver then c
  else
    match users.objectMgrPlayer targetName with
    | none => c
    | some target => { c with banned := c.banned.filter (· ≠ target.guid) }

/-- `Password`. -/
def setPassword (guid : ObjectGuid) (password : String) : Channel :=
  if c.isOn guid = false then c
  else if c.isModerator guid = false ∧ users.security guid < secObserver then c
  else { c with password }

/-- `SetMode`. -/
def setMode (guid : ObjectGuid) (targetName : String) (moderator set : Bool) : Channel :=
  match users.getPlayer guid with
  | none => c
  | some player =>
      if c.isOn guid = false then c
      else if c.isModerator guid = false ∧ player.security < secObserver then c
      else
        match users.getPlayerNamed targetName with
        | none => c
        | some target =>
            if moderator = true ∧ guid = c.ownerGuid ∧ target.guid = c.ownerGuid then c
            else if c.isOn target.guid = false then c
            else if (player.security < secObserver ∨ target.security < secObserver) ∧ player.team ≠ target.team ∧
                users.allowTwoSideInteraction = false then c
            else if c.ownerGuid = target.guid ∧ c.ownerGuid ≠ guid then c
            else if moderator = true then
              if c.hasFlag channelFlagGeneral = true ∧ target.security < secObserver then c
              else c.modify target.guid fun info => info.setModerator set
            else c.modify target.guid fun info => info.setMuted set

/-- `SetOwner` of a name. -/
def setOwnerNamed (guid : ObjectGuid) (targetName : String) : Channel :=
  match users.getPlayer guid with
  | none => c
  | some player =>
      if c.isOn guid = false then c
      else if player.security < secObserver ∧ guid ≠ c.ownerGuid then c
      else
        match users.objectMgrPlayer targetName with
        | none => c
        | some target =>
            if c.isOn target.guid = false then c
            else if target.team ≠ player.team ∧ users.allowTwoSideInteraction = false then c
            else if c.hasFlag channelFlagGeneral = true ∧ target.security < secObserver then c
            else (c.modify target.guid fun info => info.setModerator true).setOwner users target.guid

/-- `Announce`. -/
def toggleAnnounce (guid : ObjectGuid) : Channel :=
  if c.isOn guid = false then c
  else if c.isModerator guid = false ∧ users.security guid < secObserver then c
  else { c with announce := !c.announce }

/-- `Moderate`. -/
def toggleModerate (guid : ObjectGuid) : Channel :=
  if c.isOn guid = false then c
  else if c.isModerator guid = false ∧ users.security guid < secObserver then c
  else { c with moderate := !c.moderate }

/-- One turn of the loop of `Player::CleanupChannels`, at this channel. -/
def cleanupChannel (guid : ObjectGuid) (c : Channel) : Channel :=
  { c with listed := c.listed.erase guid }.leave users guid false

/-- `Player::CleanupChannels`, as far as this channel goes: it is left once for each time it is in the list. -/
def cleanupChannels (guid : ObjectGuid) : Channel :=
  (cleanupChannel users guid)^[c.listed.count guid] c

end Channel

/-- What players ask of a channel. -/
inductive Request where
  | join (password : String) (checkPassword : Bool)
  | leave
  | kickOrBan (targetName : String) (ban : Bool)
  | unBan (targetName : String)
  | password (password : String)
  | setMode (targetName : String) (moderator set : Bool)
  | setOwner (targetName : String)
  | announce
  | moderate
  /-- The player is destroyed or leaves the world. -/
  | cleanup

/-- A request with the player it comes from and the players as they are then. -/
structure Input where
  users : Users
  guid : ObjectGuid
  request : Request

/-- What a request does to the channel. -/
def Channel.step (c : Channel) (input : Input) : Channel :=
  match input.request with
  | .join password checkPassword => c.join input.users input.guid password checkPassword
  | .leave => c.leave input.users input.guid true
  | .kickOrBan targetName ban => c.kickOrBan input.users input.guid targetName ban
  | .unBan targetName => c.unBan input.users input.guid targetName
  | .password password => c.setPassword input.users input.guid password
  | .setMode targetName moderator set => c.setMode input.users input.guid targetName moderator set
  | .setOwner targetName => c.setOwnerNamed input.users input.guid targetName
  | .announce => c.toggleAnnounce input.users input.guid
  | .moderate => c.toggleModerate input.users input.guid
  | .cleanup => c.cleanupChannels input.users input.guid

/-- A channel as the constructor leaves it. -/
def Channel.new (announce : Bool) (flags : UInt8) (securityLevel : ℕ) (channelId : UInt32) : Channel :=
  ⟨announce, false, "", flags, securityLevel, channelId, 0, [], [], []⟩

/-- What comes to the channel of a name in a `ChannelMgr`. `LeftChannel` follows every request to leave and every
turn of `CleanupChannels`; the latter calls it for the manager of the player's team. -/
inductive MgrInput where
  | request (input : Input)
  | leftChannel

/-- The channel of a name: `GetOrCreateChannel` makes it as the constructor does, `GetChannel` needs one that is
there, and `LeftChannel` deletes it when nobody is on it and it is neither constant nor secured. -/
def mgrStep (new : Channel) : Option Channel → MgrInput → Option Channel
  | some c, .request input => some (c.step input)
  | none, .request input =>
      match input.request with
      | .join _ _ => some (new.step input)
      | _ => none
  | some c, .leftChannel =>
      if c.players = [] ∧ c.isConstant = false ∧ c.securityLevel = 0 then none else some c
  | none, .leftChannel => none

end TwowCore.Chat
