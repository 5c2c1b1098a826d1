import TwowCore.Guilds.Guild
import TwowCore.Lib.Run

/-!
# Requests to the guild

The handlers of the guild packets. A handler reads the rank of the sender from his player, and the
rank of the one it is about from the slot. `guarded` names the right a request is checked for and
the rank it is checked with, and `Realm.receive` is what the request does. A disbanded guild is
`none`.
-/

namespace TwowCore.Guilds

/-- A request of a player in the world. A name or a text is as `normalizePlayerName` leaves it. -/
inductive Request where
  | invite (target : ℕ)
  | accept
  | decline
  | remove (name : Text)
  | promote (name : Text)
  | demote (name : Text)
  | leave
  | disband
  | leader (name : Text)
  | motd (text : Text)
  | publicNote (name note : Text)
  | officerNote (name note : Text)
  | infoText (text : Text)
  | rank (rankId : ℕ) (rights : UInt32) (name : Text)
  | addRank (name : Text)
  | delRank
  | chat
  | officerChat
  | roster
  deriving DecidableEq

/-- What happens to the guild: a request, or a change of where a player is. -/
inductive Event where
  | request (sender : ℕ) (request : Request)
  /-- The login query is answered; the player enters the world later. -/
  | login (guid : ℕ)
  | logout (guid : ℕ)
  | leaveMap (guid : ℕ)
  | enterMap (guid : ℕ)
  /-- `MasterPlayer::LoadPlayer`. -/
  | update (guid : ℕ)
  /-- Another guild takes the player, or lets him go. -/
  | elsewhere (guid : ℕ) (member : Bool)
  /-- The database executes a statement that waits. -/
  | execute (index : ℕ)
  deriving DecidableEq

/-- The right a request is checked for, and the rank it is checked with. -/
def Request.guarded (p : Player) : Request → Option (ℕ × GuildRankRights)
  | .invite _ => some (p.rank, .invite)
  | .remove _ => some (p.rank, .remove)
  | .promote _ => some (p.rank, .promote)
  | .demote _ => some (p.rank, .demote)
  | .motd _ => some (p.rank, .setMotd)
  | .publicNote _ _ => some (p.rank, .epNote)
  | .officerNote _ _ => some (p.rank, .eoffNote)
  | .infoText _ => some (p.rank, .modifyGuildInfo)
  | .chat => some (p.masterRank, .gchatSpeak)
  | .officerChat => some (p.masterRank, .offchatSpeak)
  | .roster => some (p.rank, .viewOffNote)
  | _ => none

variable [SqlText]

namespace Realm

/-- Rewrites a player, wherever he is. -/
def writeSession (r : Realm) (guid : ℕ) (f : Player → Player) : Realm :=
  { r with players := Lib.writeKey Player.guid guid f r.players }

/-- `HandleGuildInviteOpcode`. -/
def handleGuildInvite (r : Realm) (p : Player) (target : ℕ) : Realm :=
  match r.findPlayer target with
  | none => r
  | some player =>
      if !player.inWorld ∨ player.inGuild ∨ player.elsewhere ∨ player.invited then r
      else if r.guild.hasRankRight p.rank .invite then
        r.writeSession target fun player => { player with invited := true }
      else r

/-- `HandleGuildAcceptOpcode`. -/
def handleGuildAccept (r : Realm) (p : Player) : Realm :=
  if !p.invited ∨ p.inGuild ∨ p.elsewhere then r
  else (r.addMember p.guid r.guild.getLowestRank).getD r

/-- `HandleGuildDeclineOpcode`. -/
def handleGuildDecline (r : Realm) (p : Player) : Realm :=
  if p.inGuild ∨ p.elsewhere ∨ !p.invited then r
  else r.writeSession p.guid fun player => { player with invited := false }

/-- What a handler does with the answer of `DelMember`. -/
def disbandIf : Realm × Bool → Option Realm
  | (_, true) => none
  | (r, false) => some r

/-- `HandleGuildRemoveOpcode`. -/
def handleGuildRemove (r : Realm) (p : Player) (name : Text) : Option Realm :=
  if !r.guild.hasRankRight p.rank .remove then some r
  else
    match r.guild.getMemberSlotByName name with
    | none => some r
    | some slot =>
        if slot.rankId = 0 then some r
        else if p.rank ≥ slot.rankId then some r
        else disbandIf (r.delMember slot.guid)

/-- `HandleGuildPromoteOpcode`. -/
def handleGuildPromote (r : Realm) (p : Player) (name : Text) : Realm :=
  if !r.guild.hasRankRight p.rank .promote then r
  else
    match r.guild.getMemberSlotByName name with
    | none => r
    | some slot =>
        if slot.guid = p.guid then r
        else if p.rank + 1 ≥ slot.rankId then r
        else r.changeRank slot.guid (slot.rankId - 1)

/-- `HandleGuildDemoteOpcode`. -/
def handleGuildDemote (r : Realm) (p : Player) (name : Text) : Realm :=
  if !r.guild.hasRankRight p.rank .demote then r
  else
    match r.guild.getMemberSlotByName name with
    | none => r
    | some slot =>
        if slot.guid = p.guid then r
        else if p.rank ≥ slot.rankId then r
        else if slot.rankId ≥ r.guild.getLowestRank then r
        else r.changeRank slot.guid (slot.rankId + 1)

/-- `HandleGuildLeaveOpcode`. -/
def handleGuildLeave (r : Realm) (p : Player) : Option Realm :=
  if p.guid = r.guild.leaderGuid ∧ r.guild.members.length > 1 then some r
  else if p.guid = r.guild.leaderGuid then none
  else disbandIf (r.delMember p.guid)

/-- `HandleGuildDisbandOpcode`. -/
def handleGuildDisband (r : Realm) (p : Player) : Option Realm :=
  if p.guid ≠ r.guild.leaderGuid then some r else none

/-- `HandleGuildLeaderOpcode`. -/
def handleGuildLeader (r : Realm) (p : Player) (name : Text) : Realm :=
  if p.guid ≠ r.guild.leaderGuid then r
  else
    match r.guild.getMemberSlot p.guid with
    | none => r
    | some oldSlot =>
        match r.guild.getMemberSlotByName name with
        | none => r
        | some slot =>
            if oldSlot.guid = slot.guid then r
            else r.setNewLeader slot.guid (some oldSlot.guid)

/-- `HandleGuildMOTDOpcode`. -/
def handleGuildMOTD (r : Realm) (p : Player) (motd : Text) : Realm :=
  if motd.length > guildMotdMaxLength then r
  else if r.guild.hasRankRight p.rank .setMotd then r.setMOTD motd
  else r

/-- `HandleGuildSetPublicNoteOpcode`. -/
def handleGuildSetPublicNote (r : Realm) (p : Player) (name note : Text) : Realm :=
  if !r.guild.hasRankRight p.rank .epNote then r
  else
    match r.guild.getMemberSlotByName name with
    | none => r
    | some slot => if note.length > guildNoteMaxLength then r else r.setPublicNote slot note

/-- `HandleGuildSetOfficerNoteOpcode`. -/
def handleGuildSetOfficerNote (r : Realm) (p : Player) (name note : Text) : Realm :=
  if !r.guild.hasRankRight p.rank .eoffNote then r
  else
    match r.guild.getMemberSlotByName name with
    | none => r
    | some slot => if note.length > guildNoteMaxLength then r else r.setOfficerNote slot note

/-- `HandleGuildChangeInfoTextOpcode`. -/
def handleGuildChangeInfoText (r : Realm) (p : Player) (text : Text) : Realm :=
  if text.length > guildInfoMaxLength then r
  else if r.guild.hasRankRight p.rank .modifyGuildInfo then r.setGINFO text
  else r

/-- `HandleGuildRankOpcode`. The leader never loses a right. -/
def handleGuildRank (r : Realm) (p : Player) (rankId : ℕ) (rights : UInt32) (name : Text) : Realm :=
  if p.guid ≠ r.guild.leaderGuid then r
  else
    (r.setRankName rankId name).setRankRights rankId
      (if rankId = 0 then GuildRankRights.all.value else rights)

/-- `HandleGuildAddRankOpcode`. -/
def handleGuildAddRank (r : Realm) (p : Player) (name : Text) : Realm :=
  if p.guid ≠ r.guild.leaderGuid then r
  else if r.guild.ranks.length ≥ ranksMaxCount then r
  else r.createRank name chatRights

/-- `HandleGuildDelRankOpcode`. -/
def handleGuildDelRank (r : Realm) (p : Player) : Realm :=
  if p.guid ≠ r.guild.leaderGuid then r else r.delRank

/-- What a request of a member does. -/
def receiveMember (r : Realm) (p : Player) : Request → Option Realm
  | .accept => some (r.handleGuildAccept p)
  | .decline => some (r.handleGuildDecline p)
  | .chat => some r
  | .officerChat => some r
  | .roster => some r
  | .invite target => some (r.handleGuildInvite p target)
  | .remove name => r.handleGuildRemove p name
  | .promote name => some (r.handleGuildPromote p name)
  | .demote name => some (r.handleGuildDemote p name)
  | .leave => r.handleGuildLeave p
  | .disband => r.handleGuildDisband p
  | .leader name => some (r.handleGuildLeader p name)
  | .motd text => some (r.handleGuildMOTD p text)
  | .publicNote name note => some (r.handleGuildSetPublicNote p name note)
  | .officerNote name note => some (r.handleGuildSetOfficerNote p name note)
  | .infoText text => some (r.handleGuildChangeInfoText p text)
  | .rank rankId rights name => some (r.handleGuildRank p rankId rights name)
  | .addRank name => some (r.handleGuildAddRank p name)
  | .delRank => some (r.handleGuildDelRank p)

/-- What a request does. One who is not a member can only answer an invitation. -/
def receive (r : Realm) (p : Player) (request : Request) : Option Realm :=
  if p.inGuild ∨ request = .accept ∨ request = .decline then r.receiveMember p request else some r

/-- `Player::_LoadGuild`: what a player who logs in knows of the guild. His login query is answered from
what the database has. -/
def loadGuild (r : Realm) (guid : ℕ) : Player :=
  let row := r.stored.members.find? fun row => row.guid = guid
  let rank := (row.map MemberRow.rank).getD 0
  { guid, inWorld := false, inGuild := row.isSome, elsewhere := false, rank, invited := false
    masterInGuild := row.isSome, masterRank := rank }

end Realm

/-- One event of the guild. The request of a player who is not in the world waits. -/
def guildStep : Option Realm → Event → Option Realm
  | none, _ => none
  | some r, .request sender request =>
      match r.findPlayer sender with
      | none => some r
      | some p => if p.inWorld then r.receive p request else some r
  | some r, .login guid =>
      match r.findPlayer guid with
      | some _ => some r
      | none => some { r with players := r.players ++ [r.loadGuild guid] }
  | some r, .logout guid => some { r with players := Lib.eraseKey Player.guid guid r.players }
  | some r, .leaveMap guid => some (r.writeSession guid fun p => { p with inWorld := false })
  | some r, .enterMap guid => some (r.writeSession guid fun p => { p with inWorld := true })
  | some r, .update guid =>
      some (r.writeSession guid fun p =>
        { p with masterInGuild := p.inGuild, masterRank := p.rank })
  | some r, .elsewhere guid member =>
      some (r.writeSession guid fun p => if p.inGuild then p else { p with elsewhere := member })
  | some r, .execute index => some (r.execute index)

end TwowCore.Guilds
