import Mathlib.Data.List.Nodup
import TwowCore.Lib.Keyed
import TwowCore.Lib.SqlLiteral

/-!
# The guild

A guild keeps its ranks and members in memory, writes every change to its three tables with a
statement of its own, and tells the player of a member about it as long as he is in the world. A
`Realm` is the guild with the three: `Guild`, the players and the tables as they are after the
statements issued so far. The database has executed only some of these: `stored` is what it has, and
`pending` waits in the queue of the workers, who keep no order.

Read `changeRank` and `delMember` first. The one writes the slot, the field of the player and the
column; the other takes the slot out, and gives the guild a new leader when it was his.
-/

namespace TwowCore.Guilds

/-- The bytes of a text. -/
abbrev Text := List UInt8

/-- How a text is written into a statement and read back. `literal` is the text between the quotes
of an SQL string. -/
class SqlText where
  escape : Text → Text
  literal : Text → Text
  literal_escape : ∀ text, literal (escape text) = text

/-- The texts of MySQL. -/
instance mySqlText : SqlText where
  escape := Lib.escapeText
  literal := Lib.literalText
  literal_escape := Lib.literalText_escapeText

/-- `GUILD_RANKS_MIN_COUNT`. -/
def ranksMinCount : ℕ := 5

/-- `GUILD_RANKS_MAX_COUNT`. -/
def ranksMaxCount : ℕ := 10

/-- `GUILD_NOTE_MAX_LENGTH`. -/
def guildNoteMaxLength : ℕ := 31

/-- `GUILD_INFO_MAX_LENGTH`. -/
def guildInfoMaxLength : ℕ := 500

/-- `GUILD_MOTD_MAX_LENGTH`. -/
def guildMotdMaxLength : ℕ := 128

/-- `GuildRankRights`. -/
inductive GuildRankRights where
  | empty
  | gchatListen
  | gchatSpeak
  | offchatListen
  | offchatSpeak
  | promote
  | demote
  | invite
  | remove
  | setMotd
  | epNote
  | viewOffNote
  | eoffNote
  | modifyGuildInfo
  | all
  deriving DecidableEq, Repr

/-- The number of a right. -/
def GuildRankRights.value : GuildRankRights → UInt32
  | .empty => 0x40
  | .gchatListen => 0x41
  | .gchatSpeak => 0x42
  | .offchatListen => 0x44
  | .offchatSpeak => 0x48
  | .promote => 0xC0
  | .demote => 0x140
  | .invite => 0x50
  | .remove => 0x60
  | .setMotd => 0x1040
  | .epNote => 0x2040
  | .viewOffNote => 0x4040
  | .eoffNote => 0x8040
  | .modifyGuildInfo => 0x10040
  | .all => 0xFF1FF

/-- `RankInfo`. -/
structure RankInfo where
  name : Text
  rights : UInt32
  deriving DecidableEq, Repr

/-- `MemberSlot`. -/
structure MemberSlot where
  guid : ℕ
  name : Text
  rankId : ℕ
  publicNote : Text
  officerNote : Text
  deriving DecidableEq, Repr

/-- The guild in memory. -/
structure Guild where
  leaderGuid : ℕ
  motd : Text
  info : Text
  ranks : List RankInfo
  members : List MemberSlot
  deriving DecidableEq, Repr

/-- A player with a session. `inGuild`, `elsewhere` and `rank` are `PLAYER_GUILDID`, this guild or
another, and `PLAYER_GUILDRANK`; `masterInGuild` and `masterRank` are the copies his `MasterPlayer`
has. A player on the way to another map is not in the world. -/
structure Player where
  guid : ℕ
  inWorld : Bool
  inGuild : Bool
  elsewhere : Bool
  rank : ℕ
  invited : Bool
  masterInGuild : Bool
  masterRank : ℕ
  deriving DecidableEq, Repr

/-- A row of `guild_rank`. -/
structure RankRow where
  rid : ℕ
  rname : Text
  rights : UInt32
  deriving DecidableEq, Repr

/-- A row of `guild_member`. -/
structure MemberRow where
  guid : ℕ
  rank : ℕ
  pnote : Text
  offnote : Text
  deriving DecidableEq, Repr

/-- The row of the guild in `guild`, and its rows in `guild_rank` and `guild_member`. -/
structure Tables where
  leaderguid : ℕ
  motd : Text
  info : Text
  ranks : List RankRow
  members : List MemberRow
  deriving DecidableEq, Repr

/-- A statement the guild issues; a text is what stands between the quotes. -/
inductive Statement where
  | insertRank (rid : ℕ) (rname : Text) (rights : UInt32)
  | deleteRanks
  | deleteRanksFrom (rid : ℕ)
  | updateRankName (rid : ℕ) (rname : Text)
  | updateRankRights (rid : ℕ) (rights : UInt32)
  | insertMember (guid rank : ℕ) (pnote offnote : Text)
  | deleteMembers
  | deleteMember (guid : ℕ)
  | updateRank (guid rank : ℕ)
  | updatePnote (guid : ℕ) (pnote : Text)
  | updateOffnote (guid : ℕ) (offnote : Text)
  | updateLeader (guid : ℕ)
  | updateMotd (motd : Text)
  | updateInfo (info : Text)

/-- The guild, the players, the tables and the names of the characters. A guid without a character
in order has no name. -/
structure Realm where
  guild : Guild
  players : List Player
  tables : Tables
  stored : Tables
  pending : List Statement
  characters : ℕ → Option Text

variable [SqlText]

open SqlText (escape literal)

/-- What a statement does to the tables. The key of `guild_rank` is the rank, that of
`guild_member` the guid. -/
def Tables.exec (t : Tables) : Statement → Tables
  | .insertRank rid rname rights =>
      if rid ∈ t.ranks.map RankRow.rid then t
      else { t with ranks := t.ranks ++ [⟨rid, literal rname, rights⟩] }
  | .deleteRanks => { t with ranks := [] }
  | .deleteRanksFrom rid => { t with ranks := t.ranks.filter (·.rid < rid) }
  | .updateRankName rid rname =>
      { t with
        ranks := Lib.writeKey RankRow.rid rid (fun row => { row with rname := literal rname })
          t.ranks }
  | .updateRankRights rid rights =>
      { t with
        ranks := Lib.writeKey RankRow.rid rid (fun row => { row with rights := rights }) t.ranks }
  | .insertMember guid rank pnote offnote =>
      if guid ∈ t.members.map MemberRow.guid then t
      else { t with members := t.members ++ [⟨guid, rank, literal pnote, literal offnote⟩] }
  | .deleteMembers => { t with members := [] }
  | .deleteMember guid => { t with members := Lib.eraseKey MemberRow.guid guid t.members }
  | .updateRank guid rank =>
      { t with
        members := Lib.writeKey MemberRow.guid guid (fun row => { row with rank := rank })
          t.members }
  | .updatePnote guid pnote =>
      { t with
        members := Lib.writeKey MemberRow.guid guid
          (fun row => { row with pnote := literal pnote }) t.members }
  | .updateOffnote guid offnote =>
      { t with
        members := Lib.writeKey MemberRow.guid guid
          (fun row => { row with offnote := literal offnote }) t.members }
  | .updateLeader guid => { t with leaderguid := guid }
  | .updateMotd motd => { t with motd := literal motd }
  | .updateInfo info => { t with info := literal info }

namespace Guild

/-- `GetLowestRank`. -/
def getLowestRank (g : Guild) : ℕ := g.ranks.length - 1

/-- `GetMemberSlot` of a guid. -/
def getMemberSlot (g : Guild) (guid : ℕ) : Option MemberSlot :=
  g.members.find? fun slot => slot.guid = guid

/-- `GetMemberSlot` of a name. -/
def getMemberSlotByName (g : Guild) (name : Text) : Option MemberSlot :=
  g.members.find? fun slot => slot.name = name

/-- `GetRankRights`. -/
def getRankRights (g : Guild) (rankId : ℕ) : UInt32 :=
  match g.ranks[rankId]? with
  | none => 0
  | some rank => rank.rights

/-- `HasRankRight`. -/
def hasRankRight (g : Guild) (rankId : ℕ) (right : GuildRankRights) : Bool :=
  g.getRankRights rankId &&& right.value != GuildRankRights.empty.value

/-- One turn of the loop of `GetSuitableNewLeader`. -/
def betterLeader (leaderGuid : ℕ) (best : Option MemberSlot) (slot : MemberSlot) :
    Option MemberSlot :=
  if slot.guid = leaderGuid then best
  else
    match best with
    | none => some slot
    | some other => if other.rankId > slot.rankId then some slot else some other

/-- The rank a member is loaded with: nobody may have a rank that does not exist. -/
def existingRank (g : Guild) (rank : ℕ) : ℕ :=
  if rank ≥ g.ranks.length then g.getLowestRank else rank

/-- `GetSuitableNewLeader`. -/
def getSuitableNewLeader (g : Guild) : Option MemberSlot :=
  g.members.foldl (betterLeader g.leaderGuid) none

end Guild

namespace Realm

/-- Issues a statement. -/
def issue (r : Realm) (statement : Statement) : Realm :=
  { r with tables := r.tables.exec statement, pending := r.pending ++ [statement] }

/-- A worker of the database executes a statement that waits, any one. -/
def execute (r : Realm) (index : ℕ) : Realm :=
  match r.pending[index]? with
  | none => r
  | some statement =>
      { r with stored := r.stored.exec statement, pending := r.pending.eraseIdx index }

/-- Everything is executed: while the server starts no statement waits. -/
def settle (r : Realm) : Realm := { r with stored := r.tables, pending := [] }

/-- Rewrites the player of a guid, who is found only in the world. -/
def writePlayer (r : Realm) (guid : ℕ) (f : Player → Player) : Realm :=
  { r with
    players := Lib.writeKey Player.guid guid (fun p => if p.inWorld then f p else p) r.players }

/-- Rewrites the slot of a member. -/
def writeSlot (r : Realm) (guid : ℕ) (f : MemberSlot → MemberSlot) : Realm :=
  { r with guild.members := Lib.writeKey MemberSlot.guid guid f r.guild.members }

/-- `MemberSlot::ChangeRank`. -/
def changeRank (r : Realm) (guid newRank : ℕ) : Realm :=
  (((r.writeSlot guid fun slot => { slot with rankId := newRank }).writePlayer guid
    fun p => { p with rank := newRank }).issue (.updateRank guid newRank))

/-- `MemberSlot::SetPublicNote`. -/
def setPublicNote (r : Realm) (slot : MemberSlot) (note : Text) : Realm :=
  if slot.publicNote = note then r
  else
    -- the escaped text is the one that stays in memory
    (r.writeSlot slot.guid fun slot => { slot with publicNote := escape note }).issue
      (.updatePnote slot.guid (escape note))

/-- `MemberSlot::SetOfficerNote`. -/
def setOfficerNote (r : Realm) (slot : MemberSlot) (note : Text) : Realm :=
  if slot.officerNote = note then r
  else
    (r.writeSlot slot.guid fun slot => { slot with officerNote := escape note }).issue
      (.updateOffnote slot.guid (escape note))

/-- `Guild::SetMOTD`. -/
def setMOTD (r : Realm) (motd : Text) : Realm :=
  { r with guild.motd := motd }.issue (.updateMotd (escape motd))

/-- `Guild::SetGINFO`. -/
def setGINFO (r : Realm) (ginfo : Text) : Realm :=
  { r with guild.info := ginfo }.issue (.updateInfo (escape ginfo))

/-- `Guild::CreateRank`. -/
def createRank (r : Realm) (name : Text) (rights : UInt32) : Realm :=
  if r.guild.ranks.length ≥ ranksMaxCount then r
  else
    { r with guild.ranks := r.guild.ranks ++ [RankInfo.mk name rights] }.issue
      (.insertRank r.guild.ranks.length (escape name) rights)

/-- `Guild::DelRank`. -/
def delRank (r : Realm) : Realm :=
  if r.guild.ranks.length ≤ ranksMinCount then r
  else
    { r with guild.ranks := r.guild.ranks.dropLast }.issue
      (.deleteRanksFrom r.guild.getLowestRank)

/-- `Guild::SetRankName`. -/
def setRankName (r : Realm) (rankId : ℕ) (name : Text) : Realm :=
  if rankId ≥ r.guild.ranks.length then r
  else
    { r with guild.ranks := r.guild.ranks.modify rankId fun rank => { rank with name } }.issue
      (.updateRankName rankId (escape name))

/-- `Guild::SetRankRights`. -/
def setRankRights (r : Realm) (rankId : ℕ) (rights : UInt32) : Realm :=
  if rankId ≥ r.guild.ranks.length then r
  else
    { r with guild.ranks := r.guild.ranks.modify rankId fun rank => { rank with rights } }.issue
      (.updateRankRights rankId rights)

/-- `Guild::SetLeader`. -/
def setLeader (r : Realm) (guid : ℕ) : Realm :=
  (({ r with guild.leaderGuid := guid }.changeRank guid 0).issue (.updateLeader guid))

/-- `Guild::SetNewLeader`; the leader that was has no slot when he is not there at loading. -/
def setNewLeader (r : Realm) (new : ℕ) (old : Option ℕ) : Realm :=
  match old with
  | none => r.setLeader new
  | some old => (r.setLeader new).changeRank old 1

/-- The end of `DelMember`. -/
def eraseMember (r : Realm) (guid : ℕ) : Realm :=
  (({ r with guild.members := Lib.eraseKey MemberSlot.guid guid r.guild.members }.writePlayer guid
    fun p => { p with inGuild := false, rank := 0 }).issue (.deleteMember guid))

/-- `Guild::DelMember`, outside of `Disband`. The flag asks the caller to disband the guild. -/
def delMember (r : Realm) (guid : ℕ) : Realm × Bool :=
  if r.guild.leaderGuid = guid then
    match r.guild.getSuitableNewLeader with
    | none => (r, true)
    | some best =>
        let r' := (r.setNewLeader best.guid ((r.guild.getMemberSlot guid).map (·.guid))).eraseMember
          guid
        (r', r'.guild.members.isEmpty)
  else
    let r' := r.eraseMember guid
    (r', r'.guild.members.isEmpty)

/-- The player of a guid, also when he is not in the world. -/
def findPlayer (r : Realm) (guid : ℕ) : Option Player :=
  r.players.find? fun p => p.guid = guid

/-- What `AddMember` does for a character that may join. -/
def joinMember (r : Realm) (guid rank : ℕ) (name : Text) : Realm :=
  let slot : MemberSlot := ⟨guid, name, rank, [], []⟩
  { r with
    guild.members := Lib.eraseKey MemberSlot.guid guid r.guild.members ++ [slot]
    players := Lib.writeKey Player.guid guid
      (fun p => { p with inGuild := true, rank := rank, invited := false }) r.players }.issue
    (.insertMember guid rank (escape []) (escape []))

/-- `Guild::AddMember`, when it ends in `GuildAddStatus::OK`. -/
def addMember (r : Realm) (guid rank : ℕ) : Option Realm :=
  match r.characters guid with
  | none => none
  | some name =>
      match r.findPlayer guid with
      | some p => if p.inGuild ∨ p.elsewhere then none else some (r.joinMember guid rank name)
      | none =>
          if (r.guild.getMemberSlot guid).isSome then none
          else some (r.joinMember guid rank name)

/-- The names of the default ranks, in the language of the leader. -/
structure DefaultNames where
  guildMaster : Text
  officer : Text
  veteran : Text
  member : Text
  initiate : Text

/-- The rights of a rank with which one may only chat. -/
def chatRights : UInt32 :=
  GuildRankRights.gchatListen.value ||| GuildRankRights.gchatSpeak.value

/-- `Guild::CreateDefaultGuildRanks`. -/
def createDefaultGuildRanks (r : Realm) (names : DefaultNames) : Realm :=
  ((((((r.issue .deleteRanks).createRank names.guildMaster GuildRankRights.all.value).createRank
    names.officer GuildRankRights.all.value).createRank names.veteran chatRights).createRank
    names.member chatRights).createRank names.initiate chatRights)

/-- The row of a new guild; `motd` is its message. -/
def foundingTables (motd : Text) (leader : ℕ) : Tables :=
  { leaderguid := leader, motd := literal (escape motd), info := literal (escape [])
    ranks := [], members := [] }

/-- The guild before its ranks and members. -/
def founding (players : List Player) (characters : ℕ → Option Text) (motd : Text) (leader : ℕ) :
    Realm :=
  { guild := { leaderGuid := leader, motd, info := [], ranks := [], members := [] }
    players, characters
    tables := foundingTables motd leader
    stored := foundingTables motd leader
    pending := [.deleteMembers] }

/-- Adds one who signed the petition. -/
def addSigner (r : Realm) (signer : ℕ) : Realm :=
  (r.addMember signer r.guild.getLowestRank).getD r

/-- `Guild::Create`: the guild of a leader, and of those who signed his petition. -/
def create (players : List Player) (characters : ℕ → Option Text) (names : DefaultNames)
    (motd : Text) (leader : ℕ) (signers : List ℕ) : Option Realm :=
  (((founding players characters motd leader).createDefaultGuildRanks names).addMember leader
    0).map (signers.foldl addSigner)

/-- One turn of the loop of `LoadRanksFromDB`. -/
def loadRank (ranks : List RankInfo) (row : RankRow) : List RankInfo :=
  ranks ++
    [{ name := row.rname
       rights := if ranks.isEmpty then row.rights ||| GuildRankRights.all.value else row.rights }]

/-- Writes a rank anew, in the repair of `LoadRanksFromDB`. -/
def reinsertRank (t : Tables) (rank : ℕ × RankInfo) : Tables :=
  t.exec (.insertRank rank.1 (escape rank.2.name) rank.2.rights)

/-- `Guild::LoadRanksFromDB`; the rows come in the order of their ranks. -/
def loadRanksFromDB (r : Realm) (names : DefaultNames) : Realm :=
  let ranks := r.tables.ranks.foldl loadRank []
  if ranks.length < ranksMinCount then
    { r with guild.ranks := [] }.createDefaultGuildRanks names
  else if r.tables.ranks.map RankRow.rid ≠ List.range ranks.length then
    { r with
      guild.ranks := ranks
      tables := ((List.range ranks.length).zip ranks).foldl reinsertRank
        (r.tables.exec .deleteRanks) }
  else { r with guild.ranks := ranks }

/-- One turn of the loop of `LoadMembersFromDB`. -/
def loadMember (r : Realm) (row : MemberRow) : Realm :=
  match r.characters row.guid with
  | none => r.issue (.deleteMember row.guid)
  | some name =>
      let slot : MemberSlot :=
        ⟨row.guid, name, r.guild.existingRank row.rank, row.pnote, row.offnote⟩
      { r with
        guild.members := Lib.eraseKey MemberSlot.guid row.guid r.guild.members ++ [slot] }

/-- `Guild::LoadMembersFromDB`. -/
def loadMembersFromDB (r : Realm) : Option Realm :=
  let r' := r.tables.members.foldl loadMember r
  if r'.guild.members.isEmpty then none else some r'

/-- One turn of the loop of `CheckGuildStructure`. -/
def demoteUsurper (r : Realm) (slot : MemberSlot) : Realm :=
  if slot.rankId = 0 ∧ r.guild.leaderGuid ≠ slot.guid then r.changeRank slot.guid 1 else r

/-- `Guild::CheckGuildStructure`; `none` asks for the guild to be disbanded. -/
def checkGuildStructure (r : Realm) : Option Realm :=
  let repaired : Option Realm :=
    match r.guild.getMemberSlot r.guild.leaderGuid with
    | none =>
        let (r', empty) := r.delMember r.guild.leaderGuid
        if empty then none else some r'
    | some slot => some (if slot.rankId ≠ 0 then r.setLeader slot.guid else r)
  repaired.map fun r' => r'.guild.members.foldl demoteUsurper r'

/-- The guild as `GuildMgr::LoadGuilds` loads it, before anybody has logged in. -/
def load (tables : Tables) (characters : ℕ → Option Text) (names : DefaultNames) :
    Option Realm :=
  let row : Realm :=
    { guild :=
        { leaderGuid := tables.leaderguid, motd := tables.motd, info := tables.info, ranks := []
          members := [] }
      players := [], tables, stored := tables, pending := [], characters }
  ((row.loadRanksFromDB names).loadMembersFromDB.bind checkGuildStructure).map settle

end Realm

end TwowCore.Guilds
