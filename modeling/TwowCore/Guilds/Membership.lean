import Mathlib.Logic.Function.Basic
import TwowCore.Guilds.Guild
import TwowCore.Lib.Run

/-!
# Membership and petitions

Which guild a character is in stands in the members of the guild, in the index of the manager, in
`guild_member`, and in a field of the player while he has a session. `Registered` says that these
agree as far as they must, that nobody signs twice and that no member signs.

Read `addMember` first. It asks the field of a player with a session and the members of this one
guild otherwise. So it is right for one who signed a petition and is offline, since a member has no
signature. It is wrong for one whose login is under way: he is taken in as offline, and enters the
world as the guildless character his login query found. The rows are written by statements that wait
for a worker of the database, so the same happens to one who logs in before his row is there. `Careful`
leaves both out.
-/

namespace TwowCore.Guilds.Membership

/-- The guild as far as its members go. -/
structure Roster where
  id : ℕ
  name : Text
  leaderGuid : ℕ
  members : List ℕ
  deriving DecidableEq, Repr

/-- `PetitionSignature`. -/
structure Signature where
  player : ℕ
  account : ℕ
  deriving DecidableEq, Repr

/-- `Petition`. -/
structure Petition where
  id : ℕ
  ownerGuid : ℕ
  name : Text
  signatures : List Signature
  deriving DecidableEq, Repr

/-- A player with a session: whether he is in the world, `PLAYER_GUILDID` and the guild that has
invited him, 0 being none. -/
structure Player where
  guid : ℕ
  inWorld : Bool
  guildId : ℕ
  guildIdInvited : ℕ
  deriving DecidableEq, Repr

/-- A statement on `guild_member`, whose key is the character. -/
inductive RowStatement where
  | insert (guid id : ℕ)
  | delete (guid : ℕ)
  | deleteGuild (id : ℕ)
  deriving DecidableEq, Repr

/-- The guild of each row after a statement. A key that is taken is not inserted again. -/
def RowStatement.exec (rows : ℕ → Option ℕ) : RowStatement → ℕ → Option ℕ
  | .insert guid id => if (rows guid).isSome then rows else Function.update rows guid (some id)
  | .delete guid => Function.update rows guid none
  | .deleteGuild id => fun guid => if rows guid = some id then none else rows guid

/-- The manager of guilds and petitions, the players, the logins under way with the guild their
query found, the guild of each row of `guild_member` that the database has, and the statements that
wait for it. `account` and `known` are what the cache of characters says. -/
structure GuildMgr where
  guilds : List Roster
  guid2guild : ℕ → Option ℕ
  petitions : List Petition
  players : List Player
  logins : List (ℕ × ℕ)
  stored : ℕ → Option ℕ
  pending : List RowStatement
  nextGuildId : ℕ
  nextPetitionId : ℕ
  account : ℕ → ℕ
  known : ℕ → Bool
  minPetitionSigns : ℕ

namespace Petition

/-- `GetSignatureForPlayerGuid`. -/
def signedBy (p : Petition) (guid : ℕ) : Bool := p.signatures.any fun s => s.player = guid

/-- `GetSignatureForAccount`. -/
def signedByAccount (p : Petition) (account : ℕ) : Bool :=
  p.signatures.any fun s => s.account = account

/-- `DeleteSignature` of the signature that `GetSignatureForPlayerGuid` finds. -/
def deleteSignature (p : Petition) (guid : ℕ) : Petition :=
  { p with signatures := p.signatures.eraseP fun s => s.player = guid }

end Petition

/-- The loop of `RemovePetitionSignature`: the first signature of a character is taken out. -/
def removeSignature (guid : ℕ) : List Petition → List Petition
  | [] => []
  | p :: rest =>
      if p.signedBy guid then p.deleteSignature guid :: rest else p :: removeSignature guid rest

namespace GuildMgr

/-- `GetGuildById`. -/
def getGuildById (s : GuildMgr) (id : ℕ) : Option Roster := s.guilds.find? fun g => g.id = id

/-- `GetPetitionById`. -/
def getPetitionById (s : GuildMgr) (id : ℕ) : Option Petition :=
  s.petitions.find? fun p => p.id = id

/-- The player of a guid, also when he is not in the world. -/
def findPlayer (s : GuildMgr) (guid : ℕ) : Option Player := s.players.find? fun p => p.guid = guid

/-- Rewrites a player, wherever he is. -/
def writePlayer (s : GuildMgr) (guid : ℕ) (f : Player → Player) : GuildMgr :=
  { s with players := Lib.writeKey Player.guid guid f s.players }

/-- Rewrites a guild. -/
def writeGuild (s : GuildMgr) (id : ℕ) (f : Roster → Roster) : GuildMgr :=
  { s with guilds := Lib.writeKey Roster.id id f s.guilds }

/-- `GetPetitionSignsRequired`. -/
def getPetitionSignsRequired (s : GuildMgr) : ℕ := min 9 s.minPetitionSigns

/-- `RemovePetitionSignature`. -/
def removePetitionSignature (s : GuildMgr) (guid : ℕ) : GuildMgr :=
  { s with petitions := removeSignature guid s.petitions }

/-- A character joins: the slot, the index, the row, and the player if he has a session. -/
def join (s : GuildMgr) (id guid : ℕ) : GuildMgr :=
  ({ s with
    guid2guild := Function.update s.guid2guild guid (some id)
    pending := s.pending ++ [RowStatement.insert guid id] }.writeGuild id fun g =>
      { g with members := if guid ∈ g.members then g.members else g.members ++ [guid] }).writePlayer
    guid fun p => { p with guildId := id, guildIdInvited := 0 }

/-- `Guild::AddMember`, and whether it ends in `GuildAddStatus::OK`. -/
def addMember (s : GuildMgr) (g : Roster) (guid : ℕ) : GuildMgr × Bool :=
  match s.findPlayer guid with
  | some p =>
      if p.guildId ≠ 0 then (s, false) else ((s.removePetitionSignature guid).join g.id guid, true)
  | none =>
      if guid ∈ g.members then (s, false)
      else if s.known guid then ((s.removePetitionSignature guid).join g.id guid, true)
      else (s.removePetitionSignature guid, false)

/-- The end of `Guild::DelMember`. A player hears of it in the world. -/
def eraseMember (s : GuildMgr) (id guid : ℕ) : GuildMgr :=
  ({ s with
    guid2guild := Function.update s.guid2guild guid none
    pending := s.pending ++ [RowStatement.delete guid] }.writeGuild id fun g =>
      { g with members := g.members.filter (· ≠ guid) }).writePlayer guid fun p =>
    if p.inWorld then { p with guildId := 0 } else p

/-- `Guild::DelMember`, outside of `Disband`. The flag asks the caller to disband the guild. Of
those who stay, `best` is the one with the highest rank. -/
def delMember (s : GuildMgr) (g : Roster) (guid : ℕ) (best : Option ℕ) : GuildMgr × Bool :=
  if g.leaderGuid = guid then
    match best with
    | none => (s, true)
    | some leader =>
        ((s.writeGuild g.id fun g => { g with leaderGuid := leader }).eraseMember g.id guid,
          (g.members.filter (· ≠ guid)).isEmpty)
  else (s.eraseMember g.id guid, (g.members.filter (· ≠ guid)).isEmpty)

/-- `Guild::Disband`: every member is taken out, and then the guild. -/
def disband (s : GuildMgr) (g : Roster) : GuildMgr :=
  let s' := g.members.foldl (fun s guid => s.eraseMember g.id guid) s
  { s' with guilds := Lib.eraseKey Roster.id g.id s'.guilds }

/-- What the callers of `DelMember` do. -/
def delMemberOrDisband (s : GuildMgr) (g : Roster) (guid : ℕ) (best : Option ℕ) : GuildMgr :=
  match s.delMember g guid best with
  | (s', false) => s'
  | (s', true) =>
      match s'.getGuildById g.id with
      | none => s'
      | some g' => s'.disband g'

/-- `Guild::Create` and `AddGuild`: the guild of a leader, and of those who signed. -/
def create (s : GuildMgr) (name : Text) (leader : ℕ) (signers : List ℕ) : GuildMgr :=
  if s.guilds.any fun g => g.name = name then s
  else
    let g : Roster := ⟨s.nextGuildId, name, leader, []⟩
    let issued : GuildMgr := { s with
      nextGuildId := s.nextGuildId + 1
      pending := s.pending ++ [RowStatement.deleteGuild s.nextGuildId] }
    match { issued with guilds := s.guilds ++ [g] }.addMember g leader with
    | (_, false) => issued
    | (founded, true) =>
        signers.foldl (fun s signer =>
          match s.getGuildById g.id with
          | none => s
          | some g => (s.addMember g signer).1) founded

/-- `DeletePetition`. -/
def deletePetition (s : GuildMgr) (id : ℕ) : GuildMgr :=
  { s with petitions := Lib.eraseKey Petition.id id s.petitions }

/-- `AddPetitionSignature`. -/
def addPetitionSignature (s : GuildMgr) (id guid : ℕ) : GuildMgr :=
  match s.getPetitionById id with
  | none => s
  | some petition =>
      if petition.signatures.length ≥ s.getPetitionSignsRequired ∨
          petition.signedByAccount (s.account guid) ∨ petition.signedBy guid then s
      else
        let moved := removeSignature guid s.petitions
        -- `AddNewSignature`
        if petition.signatures.length = s.minPetitionSigns then { s with petitions := moved }
        else
          { s with
            petitions := Lib.writeKey Petition.id id (fun p =>
              { p with signatures := p.signatures ++ [⟨guid, s.account guid⟩] }) moved }

/-- `HandleGuildCreateOpcode`. -/
def handleGuildCreate (s : GuildMgr) (p : Player) (name : Text) : GuildMgr :=
  if p.guildId ≠ 0 then s else s.create name p.guid []

/-- `HandlePetitionBuyOpcode`, when the charter is paid and stored. -/
def handlePetitionBuy (s : GuildMgr) (p : Player) (name : Text) : GuildMgr :=
  if p.guildId ≠ 0 then s
  else if s.petitions.any fun petition => petition.ownerGuid = p.guid then s
  else if s.guilds.any fun g => g.name = name then s
  else
    { s with
      petitions := s.petitions ++ [⟨s.nextPetitionId, p.guid, name, []⟩]
      nextPetitionId := s.nextPetitionId + 1 }

/-- `HandlePetitionSignOpcode`. -/
def handlePetitionSign (s : GuildMgr) (p : Player) (id : ℕ) : GuildMgr :=
  match s.getPetitionById id with
  | none => s
  | some petition =>
      if petition.signatures.length = s.minPetitionSigns then s
      else if petition.ownerGuid = p.guid then s
      else if p.guildId ≠ 0 then s
      else if p.guildIdInvited ≠ 0 then s
      else if petition.signatures.length ≥ s.getPetitionSignsRequired then s
      else if petition.signedByAccount (s.account p.guid) ∨ petition.signedBy p.guid then s
      else s.addPetitionSignature id p.guid

/-- `HandleTurnInPetitionOpcode`. -/
def handleTurnInPetition (s : GuildMgr) (p : Player) (id : ℕ) : GuildMgr :=
  match s.getPetitionById id with
  | none => s
  | some petition =>
      if p.guildId ≠ 0 then s
      else if p.guid ≠ petition.ownerGuid then s
      else if petition.signatures.length ≠ s.minPetitionSigns then s
      else if s.guilds.any fun g => g.name = petition.name then s
      else (s.create petition.name p.guid (petition.signatures.map Signature.player)).deletePetition id

/-- `HandleGuildInviteOpcode`, when the rank of the sender allows it; a module may let it reach a
member of another guild. -/
def handleGuildInvite (s : GuildMgr) (p : Player) (target : ℕ) : GuildMgr :=
  match s.getGuildById p.guildId, s.findPlayer target with
  | some _, some player =>
      if !player.inWorld ∨ player.guildIdInvited ≠ 0 then s
      else s.writePlayer target fun player => { player with guildIdInvited := p.guildId }
  | _, _ => s

/-- `HandleGuildAcceptOpcode`. -/
def handleGuildAccept (s : GuildMgr) (p : Player) : GuildMgr :=
  match s.getGuildById p.guildIdInvited with
  | none => s
  | some g => if p.guildId ≠ 0 then s else (s.addMember g p.guid).1

/-- `HandleGuildDeclineOpcode`. -/
def handleGuildDecline (s : GuildMgr) (p : Player) : GuildMgr :=
  if p.guildId ≠ 0 ∨ p.guildIdInvited = 0 then s
  else s.writePlayer p.guid fun p => { p with guildIdInvited := 0 }

/-- `HandleGuildRemoveOpcode`, when the ranks of the two allow it. -/
def handleGuildRemove (s : GuildMgr) (p : Player) (target : ℕ) (best : Option ℕ) : GuildMgr :=
  match s.getGuildById p.guildId with
  | none => s
  | some g => if target ∈ g.members then s.delMemberOrDisband g target best else s

/-- `HandleGuildLeaveOpcode`. -/
def handleGuildLeave (s : GuildMgr) (p : Player) (best : Option ℕ) : GuildMgr :=
  match s.getGuildById p.guildId with
  | none => s
  | some g =>
      if p.guid = g.leaderGuid ∧ g.members.length > 1 then s
      else if p.guid = g.leaderGuid then s.disband g
      else s.delMemberOrDisband g p.guid best

/-- `HandleGuildDisbandOpcode`. -/
def handleGuildDisband (s : GuildMgr) (p : Player) : GuildMgr :=
  match s.getGuildById p.guildId with
  | none => s
  | some g => if p.guid ≠ g.leaderGuid then s else s.disband g

/-- An open invitation is dropped when the switch does not happen. -/
def dropInvite (s : GuildMgr) (p : Player) (toGuildId : ℕ) : GuildMgr :=
  if toGuildId ≠ 0 ∧ p.guildIdInvited = toGuildId then
    s.writePlayer p.guid fun p => { p with guildIdInvited := 0 }
  else s

/-- `ApplyGuildSwitch`. -/
def applyGuildSwitch (s : GuildMgr) (member fromGuildId toGuildId petitionId : ℕ)
    (best : Option ℕ) : GuildMgr :=
  match s.findPlayer member with
  | none => s
  | some p =>
      if !p.inWorld then s
      else
        match s.getGuildById fromGuildId with
        | none => s.dropInvite p toGuildId
        | some old =>
            if p.guildId ≠ fromGuildId then s.dropInvite p toGuildId
            else if old.leaderGuid = member then s.dropInvite p toGuildId
            else if petitionId ≠ 0 then
              match s.getPetitionById petitionId with
              | none => s
              | some petition =>
                  if petition.signatures.length ≥ s.getPetitionSignsRequired ∨
                      petition.ownerGuid = member ∨ petition.signedByAccount (s.account member) ∨
                      petition.signedBy member ∨ p.guildIdInvited ≠ 0 then s
                  else (s.delMemberOrDisband old member best).addPetitionSignature petitionId member
            else
              match s.getGuildById toGuildId with
              | none => s.dropInvite p toGuildId
              | some new =>
                  if new.id = old.id ∨ p.guildIdInvited ≠ toGuildId then s.dropInvite p toGuildId
                  else
                    let left := s.delMemberOrDisband old member best
                    match left.addMember new member with
                    | (joined, true) => joined
                    | (failed, false) => failed.dropInvite p toGuildId

/-- A worker of the database executes a statement that waits, any one. -/
def execute (s : GuildMgr) (index : ℕ) : GuildMgr :=
  match s.pending[index]? with
  | none => s
  | some statement =>
      { s with stored := statement.exec s.stored, pending := s.pending.eraseIdx index }

/-- The login query of a character is answered. -/
def loginQuery (s : GuildMgr) (guid : ℕ) : GuildMgr :=
  match s.findPlayer guid with
  | some _ => s
  | none =>
      if s.logins.any fun l => l.1 = guid then s
      else { s with logins := s.logins ++ [(guid, (s.stored guid).getD 0)] }

/-- `Player::_LoadGuild`, at the end of a login. -/
def loadGuild (s : GuildMgr) (guid : ℕ) : GuildMgr :=
  match s.logins.find? fun l => l.1 = guid with
  | none => s
  | some l =>
      let guildId := if (s.getGuildById l.2).isSome then l.2 else 0
      { s with
        logins := s.logins.filter fun l => l.1 ≠ guid
        players := s.players ++ [⟨guid, true, guildId, 0⟩] }

end GuildMgr

/-- A request of a player in the world. `best` is the member `GetSuitableNewLeader` finds. -/
inductive Request where
  | guildCreate (name : Text)
  | petitionBuy (name : Text)
  | petitionSign (id : ℕ)
  | turnInPetition (id : ℕ)
  | invite (target : ℕ)
  | accept
  | decline
  | remove (target : ℕ) (best : Option ℕ)
  | leave (best : Option ℕ)
  | disband
  deriving DecidableEq

/-- What happens to guilds and petitions. -/
inductive Event where
  | request (sender : ℕ) (request : Request)
  | guildSwitch (member fromGuildId toGuildId petitionId : ℕ) (best : Option ℕ)
  /-- The charter is destroyed. -/
  | deletePetition (id : ℕ)
  | loginQuery (guid : ℕ)
  | login (guid : ℕ)
  | logout (guid : ℕ)
  | leaveMap (guid : ℕ)
  | enterMap (guid : ℕ)
  /-- The database executes a statement that waits. -/
  | execute (index : ℕ)
  deriving DecidableEq

/-- What a request does. -/
def GuildMgr.receive (s : GuildMgr) (p : Player) : Request → GuildMgr
  | .guildCreate name => s.handleGuildCreate p name
  | .petitionBuy name => s.handlePetitionBuy p name
  | .petitionSign id => s.handlePetitionSign p id
  | .turnInPetition id => s.handleTurnInPetition p id
  | .invite target => s.handleGuildInvite p target
  | .accept => s.handleGuildAccept p
  | .decline => s.handleGuildDecline p
  | .remove target best => s.handleGuildRemove p target best
  | .leave best => s.handleGuildLeave p best
  | .disband => s.handleGuildDisband p

/-- One event. -/
def membershipStep (s : GuildMgr) : Event → GuildMgr
  | .request sender request =>
      match s.findPlayer sender with
      | none => s
      | some p => if p.inWorld then s.receive p request else s
  | .guildSwitch member fromGuildId toGuildId petitionId best =>
      s.applyGuildSwitch member fromGuildId toGuildId petitionId best
  | .deletePetition id => s.deletePetition id
  | .loginQuery guid => s.loginQuery guid
  | .login guid => s.loadGuild guid
  | .logout guid => { s with players := Lib.eraseKey Player.guid guid s.players }
  | .leaveMap guid => s.writePlayer guid fun p => { p with inWorld := false }
  | .enterMap guid => s.writePlayer guid fun p => { p with inWorld := true }
  | .execute index => s.execute index

end TwowCore.Guilds.Membership
