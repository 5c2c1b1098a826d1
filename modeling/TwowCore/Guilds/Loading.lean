import TwowCore.Lib.MergeJoin
import TwowCore.Guilds.Guild

/-!
# Loading all guilds

`LoadGuilds` reads `guild`, `guild_rank` and `guild_member` side by side, each sorted by the guild id.
Every guild takes its ranks and its members from the two results where the guild before it has left them.

`loadOwn` is a guild made of its own rows. `loadGuilds_own` says that the loop gives every guild just this.
-/

namespace TwowCore.Guilds

/-- A row of the first query, as far as it is needed here. -/
structure GuildResultRow where
  guildid : ℕ
  name : Text
  leaderguid : ℕ
  deriving DecidableEq, Repr

/-- A row of the second query. -/
structure RankResultRow where
  guildid : ℕ
  rid : ℕ
  rname : Text
  rights : UInt32
  deriving DecidableEq, Repr

/-- A row of the third query. Where there is no character the fields from `name` on are empty or 0. -/
structure MemberResultRow where
  guildid : ℕ
  guid : ℕ
  rank : ℕ
  pnote : Text
  offnote : Text
  name : Text
  level : UInt8
  playerClass : UInt8
  zone : UInt32
  logoutTime : UInt64
  account : Int32
  deriving DecidableEq

/-- `MemberSlot`, with what is read from `characters`. -/
structure LoadedMember extends MemberSlot where
  level : UInt8
  playerClass : UInt8
  zoneId : UInt32
  logoutTime : UInt64
  accountId : Int32
  deriving DecidableEq

/-- A guild that is loaded. -/
structure LoadedGuild where
  id : ℕ
  name : Text
  leaderGuid : ℕ
  ranks : List RankInfo
  members : List LoadedMember
  deriving DecidableEq

/-- What the loading takes from elsewhere: the names of the default ranks and `GetZoneIdFromDB`. -/
structure LoadEnv where
  names : Realm.DefaultNames
  zoneIdFromDB : ℕ → UInt32

/-- `CLASSMASK_ALL_PLAYABLE`. -/
def classmaskAllPlayable : ℕ :=
  2 ^ 0 + 2 ^ 1 + 2 ^ 2 + 2 ^ 3 + 2 ^ 4 + 2 ^ 6 + 2 ^ 7 + 2 ^ 8 + 2 ^ 10

/-- The bit of a class is in `CLASSMASK_ALL_PLAYABLE`. A shift counts modulo 32. -/
def playableClass (playerClass : UInt8) : Bool :=
  classmaskAllPlayable.testBit ((playerClass.toNat + 31) % 32)

/-- The ranks of `CreateDefaultGuildRanks`. -/
def defaultRanks (names : Realm.DefaultNames) : List RankInfo :=
  [⟨names.guildMaster, GuildRankRights.all.value⟩, ⟨names.officer, GuildRankRights.all.value⟩,
    ⟨names.veteran, Realm.chatRights⟩, ⟨names.member, Realm.chatRights⟩,
    ⟨names.initiate, Realm.chatRights⟩]

/-- The end of a turn of the loop of `LoadRanksFromDB`: the ranks, and `broken_ranks`. -/
def addRankRow (ranks : List RankInfo × Bool) (row : RankResultRow) : List RankInfo × Bool :=
  (ranks.1 ++ [⟨row.rname,
      if ranks.1.isEmpty then row.rights ||| GuildRankRights.all.value else row.rights⟩],
    ranks.2 || row.rid ≠ ranks.1.length)

/-- The end of a turn of the loop of `LoadMembersFromDB`. -/
def addMemberRow (env : LoadEnv) (ranks : List RankInfo) (members : List LoadedMember)
    (row : MemberResultRow) : List LoadedMember :=
  let newmember : LoadedMember :=
    { guid := row.guid, name := row.name
      rankId := if row.rank ≥ ranks.length then ranks.length - 1 else row.rank
      publicNote := row.pnote, officerNote := row.offnote, level := row.level
      playerClass := row.playerClass
      zoneId := if row.zone = 0 then env.zoneIdFromDB row.guid else row.zone
      logoutTime := row.logoutTime, accountId := row.account }
  if row.level < 1 then members
  else if ¬ playableClass row.playerClass then members
  else if row.name = [] then members
  else Lib.eraseKey (fun m : LoadedMember => m.guid) row.guid members ++ [newmember]

/-- `LoadRanksFromDB`, with the ids of the guilds whose ranks it deletes and what it leaves of the result.
A query without rows gives no result. -/
def loadRanks (env : LoadEnv) (id : ℕ) :
    Option (List RankResultRow) → List RankInfo × List ℕ × Option (List RankResultRow)
  | none => (defaultRanks env.names, [], none)
  | some rows =>
      let read := Lib.takeOwn RankResultRow.guildid addRankRow id rows ([], false) []
      (if read.1.1.length < ranksMinCount then defaultRanks env.names else read.1.1, read.2.1,
        some read.2.2)

/-- `LoadMembersFromDB`, likewise. No members are `none`. -/
def loadMembers (env : LoadEnv) (id : ℕ) (ranks : List RankInfo) :
    Option (List MemberResultRow) →
      Option (List LoadedMember) × List ℕ × Option (List MemberResultRow)
  | none => (none, [], none)
  | some rows =>
      let read := Lib.takeOwn MemberResultRow.guildid (addMemberRow env ranks) id rows [] []
      (if read.1.isEmpty then none else some read.1, read.2.1, some read.2.2)

namespace LoadedGuild

/-- `ChangeRank` of the member with a guid. -/
def changeRank (g : LoadedGuild) (guid newRank : ℕ) : LoadedGuild :=
  { g with
    members := Lib.writeKey (fun m : LoadedMember => m.guid) guid
      (fun m => { m with rankId := newRank }) g.members }

/-- `SetLeader`. -/
def setLeader (g : LoadedGuild) (guid : ℕ) : LoadedGuild :=
  { g with leaderGuid := guid }.changeRank guid 0

/-- `DelMember` of a leader who is no member. `none` asks for the guild to be disbanded. -/
def delLeader (g : LoadedGuild) : Option LoadedGuild :=
  match (g.members.map LoadedMember.toMemberSlot).foldl (Guild.betterLeader g.leaderGuid) none with
  | none => none
  | some best =>
      let led := g.setLeader best.guid
      let out : LoadedGuild :=
        { led with
          members := Lib.eraseKey (fun m : LoadedMember => m.guid) g.leaderGuid led.members }
      if out.members.isEmpty then none else some out

/-- The loop at the end of `CheckGuildStructure`. -/
def demoteUsurpers (g : LoadedGuild) : LoadedGuild :=
  { g with
    members := g.members.map fun m =>
      if m.rankId = 0 ∧ g.leaderGuid ≠ m.guid then { m with rankId := 1 } else m }

/-- `CheckGuildStructure`. -/
def checkGuildStructure (g : LoadedGuild) : Option LoadedGuild :=
  match g.members.find? fun m => m.guid = g.leaderGuid with
  | none => g.delLeader.map demoteUsurpers
  | some slot =>
      some (if slot.rankId ≠ 0 then (g.setLeader g.leaderGuid).demoteUsurpers else g.demoteUsurpers)

end LoadedGuild

/-- What `LoadGuilds` has done so far: the guilds, the ids that were deleted from `guild_rank` and
`guild_member`, and what is left of the two results. -/
structure LoadState where
  guilds : List LoadedGuild
  unknownRanks : List ℕ
  unknownMembers : List ℕ
  ranksResult : Option (List RankResultRow)
  membersResult : Option (List MemberResultRow)

/-- One turn of `LoadGuilds`. -/
def loadNext (env : LoadEnv) (s : LoadState) (row : GuildResultRow) : LoadState :=
  let ranks := loadRanks env row.guildid s.ranksResult
  let members := loadMembers env row.guildid ranks.1 s.membersResult
  let newGuild := members.1.bind fun members =>
    LoadedGuild.checkGuildStructure ⟨row.guildid, row.name, row.leaderguid, ranks.1, members⟩
  { guilds := s.guilds ++ newGuild.toList
    unknownRanks := s.unknownRanks ++ ranks.2.1
    unknownMembers := s.unknownMembers ++ members.2.1
    ranksResult := ranks.2.2
    membersResult := members.2.2 }

/-- `Query`: no result when there are no rows. -/
def queryResult {α : Type} (rows : List α) : Option (List α) := if rows = [] then none else some rows

/-- `LoadGuilds`. -/
def loadGuilds (env : LoadEnv) (guilds : List GuildResultRow) (ranks : List RankResultRow)
    (members : List MemberResultRow) : LoadState :=
  guilds.foldl (loadNext env) ⟨[], [], [], queryResult ranks, queryResult members⟩

/-! ## A guild and its own rows -/

/-- A row that is not deleted. -/
def MemberResultRow.Valid (row : MemberResultRow) : Prop :=
  1 ≤ row.level ∧ playableClass row.playerClass = true ∧ row.name ≠ []

instance MemberResultRow.instDecidableValid (row : MemberResultRow) : Decidable row.Valid :=
  inferInstanceAs (Decidable (_ ∧ _ ∧ _))

/-- The ranks of a guild with such rows, in their order. The first has all rights. -/
def ownRanks (env : LoadEnv) (rows : List RankResultRow) : List RankInfo :=
  if rows.length < ranksMinCount then defaultRanks env.names
  else rows.mapIdx fun i row =>
    ⟨row.rname, if i = 0 then row.rights ||| GuildRankRights.all.value else row.rights⟩

/-- The member that a row stands for. -/
def ownMember (env : LoadEnv) (ranks : List RankInfo) (row : MemberResultRow) : LoadedMember :=
  { guid := row.guid, name := row.name
    rankId := if row.rank ≥ ranks.length then ranks.length - 1 else row.rank
    publicNote := row.pnote, officerNote := row.offnote, level := row.level
    playerClass := row.playerClass
    zoneId := if row.zone = 0 then env.zoneIdFromDB row.guid else row.zone
    logoutTime := row.logoutTime, accountId := row.account }

/-- The members with such valid rows, one for each guid. -/
def ownMembers (env : LoadEnv) (ranks : List RankInfo) (rows : List MemberResultRow) :
    List LoadedMember :=
  (rows.filter fun row => row.Valid).foldl (fun members row =>
    Lib.eraseKey (fun m : LoadedMember => m.guid) row.guid members ++ [ownMember env ranks row]) []

/-- A guild made of its own rows. -/
def loadOwn (env : LoadEnv) (g : GuildResultRow) (ranks : List RankResultRow)
    (members : List MemberResultRow) : Option LoadedGuild :=
  if ∃ row ∈ members, row.Valid then
    LoadedGuild.checkGuildStructure
      ⟨g.guildid, g.name, g.leaderguid, ownRanks env ranks, ownMembers env (ownRanks env ranks) members⟩
  else none

variable {env : LoadEnv}

theorem foldl_addRankRow (rows : List RankResultRow) (start : List RankInfo × Bool) :
    (rows.foldl addRankRow start).1 = start.1 ++ rows.mapIdx fun i row =>
      ⟨row.rname, if start.1.length + i = 0 then row.rights ||| GuildRankRights.all.value
        else row.rights⟩ := by
  induction rows generalizing start with
  | nil => simp
  | cons row rows ih =>
      rw [List.foldl_cons, ih, List.mapIdx_cons]
      have hempty : start.1.isEmpty = decide (start.1.length + 0 = 0) := by
        cases start.1 <;> simp
      show (start.1 ++ [_]) ++ _ = start.1 ++ _
      rw [List.append_assoc, List.singleton_append, hempty]
      simp only [addRankRow, List.length_append, List.length_singleton, decide_eq_true_eq]
      congr 2
      refine List.mapIdx_eq_mapIdx_iff.mpr fun i hi => ?_
      have hindex : start.1.length + 1 + i = start.1.length + (i + 1) := by omega
      rw [hindex]

/-- The ranks are made of the rows of the guild. -/
theorem loadRanks_eq {rows : List RankResultRow} {id : ℕ}
    (h : rows.Pairwise fun a b => a.guildid ≤ b.guildid) :
    loadRanks env id (some rows) =
      (ownRanks env (rows.filter fun row => row.guildid = id),
        (rows.filter fun row => row.guildid < id).map RankResultRow.guildid,
        some (rows.filter fun row => id < row.guildid)) := by
  have hread := foldl_addRankRow (rows.filter fun row => row.guildid = id) ([], false)
  have hlen := congrArg List.length hread
  unfold loadRanks
  simp only
  rw [Lib.takeOwn_eq addRankRow h]
  simp only [List.nil_append]
  unfold ownRanks
  rw [List.nil_append, List.length_mapIdx] at hlen
  rw [hlen, hread]
  simp

theorem addMemberRow_eq (ranks : List RankInfo) (rows : List MemberResultRow)
    (start : List LoadedMember) :
    rows.foldl (addMemberRow env ranks) start =
      (rows.filter fun row => row.Valid).foldl (fun members row =>
        Lib.eraseKey (fun m : LoadedMember => m.guid) row.guid members ++
          [ownMember env ranks row]) start := by
  induction rows generalizing start with
  | nil => rfl
  | cons row rows ih =>
      rw [List.foldl_cons, ih]
      unfold addMemberRow
      simp only
      by_cases hvalid : row.Valid
      · rw [List.filter_cons_of_pos (by simpa using hvalid), List.foldl_cons,
          if_neg (by
            have hlevel := hvalid.1
            rw [UInt8.lt_iff_toNat_lt]
            rw [UInt8.le_iff_toNat_le] at hlevel
            omega),
          if_neg (by
            rw [not_not]
            exact hvalid.2.1), if_neg hvalid.2.2]
        rfl
      · rw [List.filter_cons_of_neg (by simpa using hvalid)]
        congr 1
        by_cases hlevel : row.level < 1
        · rw [if_pos hlevel]
        · by_cases hclass : playableClass row.playerClass = true
          · by_cases hname : row.name = []
            · rw [if_neg hlevel, if_neg (not_not.mpr hclass), if_pos hname]
            · refine absurd ⟨?_, hclass, hname⟩ hvalid
              rw [UInt8.lt_iff_toNat_lt] at hlevel
              rw [UInt8.le_iff_toNat_le]
              omega
          · rw [if_neg hlevel, if_pos hclass]

variable (env) in
/-- There are members when there is a valid row. -/
theorem ownMembers_isEmpty (ranks : List RankInfo) (rows : List MemberResultRow) :
    (ownMembers env ranks rows).isEmpty = true ↔ ¬ ∃ row ∈ rows, row.Valid := by
  have hsome : ∀ (rows : List MemberResultRow) (start : List LoadedMember), rows ≠ [] →
      rows.foldl (fun members row =>
        Lib.eraseKey (fun m : LoadedMember => m.guid) row.guid members ++
          [ownMember env ranks row]) start ≠ [] := by
    intro rows
    induction rows using List.reverseRecOn with
    | nil => exact fun _ h => absurd rfl h
    | append_singleton rows row _ =>
        intro start _
        rw [List.foldl_append]
        simp
  rw [List.isEmpty_iff]
  constructor
  · rintro h ⟨row, hrow, hvalid⟩
    refine hsome (rows.filter fun row => row.Valid) [] ?_ h
    exact List.ne_nil_of_mem (List.mem_filter.mpr ⟨hrow, by simpa using hvalid⟩)
  · intro h
    have hnil : (rows.filter fun row => decide row.Valid) = [] := by
      rw [List.filter_eq_nil_iff]
      intro row hrow hvalid
      exact h ⟨row, hrow, by simpa using hvalid⟩
    show (rows.filter fun row => row.Valid).foldl _ [] = []
    rw [hnil]
    rfl

/-- The members are made of the valid rows of the guild. -/
theorem loadMembers_eq {rows : List MemberResultRow} {id : ℕ} {ranks : List RankInfo}
    (h : rows.Pairwise fun a b => a.guildid ≤ b.guildid) :
    loadMembers env id ranks (some rows) =
      (if ∃ row ∈ (rows.filter fun row : MemberResultRow => row.guildid = id), row.Valid then
          some (ownMembers env ranks (rows.filter fun row => row.guildid = id)) else none,
        (rows.filter fun row => row.guildid < id).map MemberResultRow.guildid,
        some (rows.filter fun row => id < row.guildid)) := by
  unfold loadMembers
  simp only
  rw [Lib.takeOwn_eq (addMemberRow env ranks) h, addMemberRow_eq]
  show (if (ownMembers env ranks (rows.filter fun row => row.guildid = id)).isEmpty then none
    else some (ownMembers env ranks (rows.filter fun row => row.guildid = id)), _, _) = _
  by_cases hsome : ∃ row ∈ (rows.filter fun row : MemberResultRow => row.guildid = id), row.Valid
  · rw [if_pos hsome, if_neg (by
      rw [ownMembers_isEmpty env, not_not]
      exact hsome)]
    rfl
  · rw [if_neg hsome, if_pos ((ownMembers_isEmpty env ranks _).mpr hsome)]
    rfl

/-! ## The merge join -/

/-- The rows that the guilds with these ids have left. -/
def leftOf {ρ : Type} (key : ρ → ℕ) (last : Option ℕ) (rows : List ρ) : List ρ :=
  match last with
  | none => rows
  | some last => rows.filter fun row => last < key row

theorem sorted_leftOf {ρ : Type} {key : ρ → ℕ} {rows : List ρ}
    (h : rows.Pairwise fun a b => key a ≤ key b) (last : Option ℕ) :
    (leftOf key last rows).Pairwise fun a b => key a ≤ key b := by
  cases last with
  | none => exact h
  | some last => exact h.filter _

/-- A later guild finds all its rows. -/
theorem own_leftOf {ρ : Type} (key : ρ → ℕ) (rows : List ρ) {last : Option ℕ} {id : ℕ}
    (h : ∀ l ∈ last, l < id) :
    (leftOf key last rows).filter (fun row => key row = id) = rows.filter fun row => key row = id := by
  cases last with
  | none => rfl
  | some last => exact Lib.filter_key_filter (h last rfl) rows

/-- And leaves those behind it. -/
theorem leftOf_leftOf {ρ : Type} {key : ρ → ℕ} {rows : List ρ} {last : Option ℕ} {id : ℕ}
    (h : ∀ l ∈ last, l < id) :
    (leftOf key last rows).filter (fun row => id < key row) = leftOf key (some id) rows := by
  cases last with
  | none => rfl
  | some last =>
      have hlt := h last rfl
      show (rows.filter _).filter _ = rows.filter _
      rw [List.filter_filter]
      refine List.filter_congr fun row _ => ?_
      by_cases hkey : id < key row
      · simp only [hkey, decide_true, Bool.true_and, decide_eq_true_eq]
        omega
      · simp [hkey]

/-- A result stands behind the rows of the last guild. -/
def StandsBehind {ρ : Type} (key : ρ → ℕ) (last : Option ℕ) (rows : List ρ)
    (result : Option (List ρ)) : Prop :=
  result = some (leftOf key last rows) ∨ (rows = [] ∧ result = none)

/-- The ids that are deleted lie between two guilds. -/
def Between (last : Option ℕ) (id : ℕ) (ids : List ℕ) : Prop :=
  ∀ u ∈ ids, (∀ l ∈ last, l < u) ∧ u < id

theorem between_leftOf {ρ : Type} {key : ρ → ℕ} {rows : List ρ} {last : Option ℕ} {id : ℕ} :
    Between last id (((leftOf key last rows).filter fun row => key row < id).map key) := by
  intro u hu
  obtain ⟨row, hrow, rfl⟩ := List.mem_map.mp hu
  obtain ⟨hleft, hless⟩ := List.mem_filter.mp hrow
  refine ⟨fun l hl => ?_, of_decide_eq_true hless⟩
  cases last with
  | none => cases hl
  | some last =>
      obtain rfl : last = l := Option.some.inj hl
      exact of_decide_eq_true (List.mem_filter.mp hleft).2

variable (env) in
theorem loadRanks_stands {rows : List RankResultRow} {last : Option ℕ} {id : ℕ}
    {result : Option (List RankResultRow)} (h : rows.Pairwise fun a b => a.guildid ≤ b.guildid)
    (hlast : ∀ l ∈ last, l < id) (hstands : StandsBehind RankResultRow.guildid last rows result) :
    (loadRanks env id result).1 = ownRanks env (rows.filter fun row => row.guildid = id) ∧
      Between last id (loadRanks env id result).2.1 ∧
      StandsBehind RankResultRow.guildid (some id) rows (loadRanks env id result).2.2 := by
  rcases hstands with rfl | ⟨rfl, rfl⟩
  · rw [loadRanks_eq (sorted_leftOf h last)]
    exact ⟨congrArg (ownRanks env) (own_leftOf _ _ hlast), between_leftOf,
      Or.inl (congrArg some (leftOf_leftOf hlast))⟩
  · exact ⟨rfl, fun u hu => absurd hu List.not_mem_nil, Or.inr ⟨rfl, rfl⟩⟩

variable (env) in
theorem loadMembers_stands (ranks : List RankInfo) {rows : List MemberResultRow} {last : Option ℕ}
    {id : ℕ} {result : Option (List MemberResultRow)}
    (h : rows.Pairwise fun a b => a.guildid ≤ b.guildid) (hlast : ∀ l ∈ last, l < id)
    (hstands : StandsBehind MemberResultRow.guildid last rows result) :
    (loadMembers env id ranks result).1 =
        (if ∃ row ∈ (rows.filter fun row : MemberResultRow => row.guildid = id), row.Valid then
          some (ownMembers env ranks (rows.filter fun row => row.guildid = id)) else none) ∧
      Between last id (loadMembers env id ranks result).2.1 ∧
      StandsBehind MemberResultRow.guildid (some id) rows (loadMembers env id ranks result).2.2 := by
  rcases hstands with rfl | ⟨rfl, rfl⟩
  · have hown := own_leftOf MemberResultRow.guildid rows hlast
    rw [loadMembers_eq (sorted_leftOf h last), hown]
    exact ⟨rfl, between_leftOf, Or.inl (congrArg some (leftOf_leftOf hlast))⟩
  · refine ⟨?_, fun u hu => absurd hu List.not_mem_nil, Or.inr ⟨rfl, rfl⟩⟩
    rw [if_neg]
    · rfl
    · rintro ⟨row, hrow, -⟩
      cases hrow

/-- The rows of a guild. -/
abbrev ranksOf (ranks : List RankResultRow) (g : GuildResultRow) : List RankResultRow :=
  ranks.filter fun row => row.guildid = g.guildid

/-- The rows of its members. -/
abbrev membersOf (members : List MemberResultRow) (g : GuildResultRow) : List MemberResultRow :=
  members.filter fun row => row.guildid = g.guildid

variable (env) in
/-- The guilds that follow are made of their own rows, and only ids of no guild are deleted. -/
theorem foldl_loadNext {ranks : List RankResultRow} {members : List MemberResultRow}
    (hranks : ranks.Pairwise fun a b => a.guildid ≤ b.guildid)
    (hmembers : members.Pairwise fun a b => a.guildid ≤ b.guildid) (guilds : List GuildResultRow) :
    ∀ (s : LoadState) (last : Option ℕ), guilds.Pairwise (fun a b => a.guildid < b.guildid) →
      (∀ g ∈ guilds, ∀ l ∈ last, l < g.guildid) →
      StandsBehind RankResultRow.guildid last ranks s.ranksResult →
      StandsBehind MemberResultRow.guildid last members s.membersResult →
      (guilds.foldl (loadNext env) s).guilds =
          s.guilds ++ guilds.filterMap (fun g => loadOwn env g (ranksOf ranks g) (membersOf members g)) ∧
        ∀ u, u ∈ (guilds.foldl (loadNext env) s).unknownRanks ∨
            u ∈ (guilds.foldl (loadNext env) s).unknownMembers →
          u ∈ s.unknownRanks ∨ u ∈ s.unknownMembers ∨
            (∀ l ∈ last, l < u) ∧ ∀ g ∈ guilds, g.guildid ≠ u := by
  induction guilds with
  | nil =>
      intro s last _ _ _ _
      exact ⟨(List.append_nil _).symm, fun u hu => hu.imp_right Or.inl⟩
  | cons g guilds ih =>
      intro s last hsorted hlast hr hm
      obtain ⟨hg, hrest⟩ := List.pairwise_cons.mp hsorted
      have hlt : ∀ l ∈ last, l < g.guildid := hlast g List.mem_cons_self
      obtain ⟨hownR, hbetweenR, hstandsR⟩ := loadRanks_stands env hranks hlt hr
      obtain ⟨hownM, hbetweenM, hstandsM⟩ := loadMembers_stands env
        (loadRanks env g.guildid s.ranksResult).1 hmembers hlt hm
      obtain ⟨hguilds, hunknown⟩ := ih (loadNext env s g) (some g.guildid) hrest
        (fun g' hg' l hl => by
          obtain rfl : g.guildid = l := Option.some.inj hl
          exact hg g' hg') hstandsR hstandsM
      refine ⟨?_, fun u hu => ?_⟩
      · have hnext : (loadNext env s g).guilds =
            s.guilds ++ (loadOwn env g (ranksOf ranks g) (membersOf members g)).toList := by
          show s.guilds ++ Option.toList _ = s.guilds ++ Option.toList _
          rw [hownM, hownR]
          unfold loadOwn
          split
          · rfl
          · rfl
        rw [List.foldl_cons, hguilds, hnext, List.append_assoc]
        cases hown : loadOwn env g (ranksOf ranks g) (membersOf members g) with
        | none =>
            simp only [List.filterMap_cons, hown]
            rfl
        | some loaded =>
            simp only [List.filterMap_cons, hown]
            rfl
      · have hnew : Between last g.guildid ((loadRanks env g.guildid s.ranksResult).2.1 ++
            (loadMembers env g.guildid (loadRanks env g.guildid s.ranksResult).1
              s.membersResult).2.1) := by
          intro v hv
          rcases List.mem_append.mp hv with hv | hv
          · exact hbetweenR v hv
          · exact hbetweenM v hv
        -- What lies before this guild is no later one.
        have hoff : ∀ v, (∀ l ∈ last, l < v) ∧ v < g.guildid →
            (∀ l ∈ last, l < v) ∧ ∀ g' ∈ g :: guilds, g'.guildid ≠ v := by
          rintro v ⟨hv, hless⟩
          refine ⟨hv, fun g' hg' => ?_⟩
          rcases List.mem_cons.mp hg' with rfl | hg'
          · omega
          · have hafter := hg g' hg'
            omega
        rcases hunknown u hu with hu | hu | ⟨hu, hnone⟩
        · rcases List.mem_append.mp hu with hu | hu
          · exact Or.inl hu
          · exact Or.inr (Or.inr (hoff u (hnew u (List.mem_append_left _ hu))))
        · rcases List.mem_append.mp hu with hu | hu
          · exact Or.inr (Or.inl hu)
          · exact Or.inr (Or.inr (hoff u (hnew u (List.mem_append_right _ hu))))
        · have hgreater := hu g.guildid rfl
          refine Or.inr (Or.inr ⟨fun l hl => (hlt l hl).trans hgreater, fun g' hg' => ?_⟩)
          rcases List.mem_cons.mp hg' with rfl | hg'
          · omega
          · exact hnone g' hg'

/-! ## The structure of a guild -/

/-- A member apart from the rank. -/
def LoadedMember.withoutRank (m : LoadedMember) : LoadedMember := { m with rankId := 0 }

namespace LoadedGuild

/-- A guild that differs from another in its leader and in ranks of members. -/
def SameRows (g g' : LoadedGuild) : Prop :=
  g'.id = g.id ∧ g'.ranks = g.ranks ∧
    g'.members.map LoadedMember.withoutRank = g.members.map LoadedMember.withoutRank

variable {g g' : LoadedGuild}

theorem sameRows_changeRank (g : LoadedGuild) (guid newRank : ℕ) :
    g.SameRows (g.changeRank guid newRank) := by
  refine ⟨rfl, rfl, ?_⟩
  show ((g.members.map fun m => if m.guid = guid then { m with rankId := newRank } else m).map
    LoadedMember.withoutRank) = _
  rw [List.map_map]
  refine List.map_congr_left fun m _ => ?_
  show LoadedMember.withoutRank (if m.guid = guid then { m with rankId := newRank } else m) = _
  split_ifs <;> rfl

theorem sameRows_setLeader (g : LoadedGuild) (guid : ℕ) : g.SameRows (g.setLeader guid) :=
  sameRows_changeRank { g with leaderGuid := guid } guid 0

theorem sameRows_demoteUsurpers (g : LoadedGuild) : g.SameRows g.demoteUsurpers := by
  refine ⟨rfl, rfl, ?_⟩
  show ((g.members.map fun m => if m.rankId = 0 ∧ g.leaderGuid ≠ m.guid then
    { m with rankId := 1 } else m).map LoadedMember.withoutRank) = _
  rw [List.map_map]
  refine List.map_congr_left fun m _ => ?_
  show LoadedMember.withoutRank
    (if m.rankId = 0 ∧ g.leaderGuid ≠ m.guid then { m with rankId := 1 } else m) = _
  split_ifs <;> rfl

theorem SameRows.trans {g'' : LoadedGuild} (h : g.SameRows g') (h' : g'.SameRows g'') :
    g.SameRows g'' :=
  ⟨h'.1.trans h.1, h'.2.1.trans h.2.1, h'.2.2.trans h.2.2⟩

/-- Somebody can lead a guild of others. -/
theorem exists_best (leader : ℕ) {members : List MemberSlot} (hne : members ≠ [])
    (hother : ∀ m ∈ members, m.guid ≠ leader) :
    ∃ best, members.foldl (Guild.betterLeader leader) none = some best := by
  have hsome : ∀ (members : List MemberSlot) (best : MemberSlot),
      ∃ best', members.foldl (Guild.betterLeader leader) (some best) = some best' := by
    intro members
    induction members with
    | nil => exact fun best => ⟨best, rfl⟩
    | cons m members ih =>
        intro best
        have hstep : ∃ next, Guild.betterLeader leader (some best) m = some next := by
          unfold Guild.betterLeader
          by_cases hlead : m.guid = leader
          · rw [if_pos hlead]
            exact ⟨best, rfl⟩
          · rw [if_neg hlead]
            simp only
            split
            · exact ⟨m, rfl⟩
            · exact ⟨best, rfl⟩
        obtain ⟨next, hnext⟩ := hstep
        rw [List.foldl_cons, hnext]
        exact ih next
  cases members with
  | nil => exact absurd rfl hne
  | cons m members =>
      have hfirst : Guild.betterLeader leader none m = some m := by
        unfold Guild.betterLeader
        rw [if_neg (hother m List.mem_cons_self)]
      rw [List.foldl_cons, hfirst]
      exact hsome members m

/-- A leader who is no member is replaced. -/
theorem delLeader_spec (hne : g.members ≠ [])
    (hleader : ∀ m ∈ g.members, m.guid ≠ g.leaderGuid) :
    ∃ g', g.delLeader = some g' ∧ g.SameRows g' := by
  obtain ⟨best, hbest⟩ := exists_best g.leaderGuid
    (mt List.map_eq_nil_iff.mp hne : g.members.map LoadedMember.toMemberSlot ≠ []) (by
      intro slot hslot
      obtain ⟨m, hm, rfl⟩ := List.mem_map.mp hslot
      exact hleader m hm)
  have hrows := sameRows_setLeader g best.guid
  have hguids : (g.setLeader best.guid).members.map (fun m => m.guid) =
      g.members.map fun m => m.guid := by
    have hmap := congrArg (List.map fun m : LoadedMember => m.guid) hrows.2.2
    rw [List.map_map, List.map_map] at hmap
    exact hmap
  have hkept : Lib.eraseKey (fun m : LoadedMember => m.guid) g.leaderGuid
      (g.setLeader best.guid).members = (g.setLeader best.guid).members := by
    refine Lib.eraseKey_of_notMem ?_
    rw [hguids]
    intro hmem
    obtain ⟨m, hm, heq⟩ := List.mem_map.mp hmem
    exact hleader m hm heq
  have hsome : (g.setLeader best.guid).members.isEmpty = false := by
    rw [List.isEmpty_eq_false_iff]
    intro hnil
    rw [hnil] at hguids
    exact hne (List.map_eq_nil_iff.mp hguids.symm)
  unfold delLeader
  rw [hbest]
  simp only
  rw [hkept, if_neg (by rw [hsome]; exact Bool.false_ne_true)]
  exact ⟨_, rfl, hrows.1, hrows.2.1, hrows.2.2⟩

/-- A guild with members keeps its rows, and only leader and ranks of members are put right. -/
theorem checkGuildStructure_spec (hne : g.members ≠ []) :
    ∃ g', g.checkGuildStructure = some g' ∧ g.SameRows g' := by
  unfold checkGuildStructure
  cases hfind : g.members.find? fun m => m.guid = g.leaderGuid with
  | none =>
      have hleader : ∀ m ∈ g.members, m.guid ≠ g.leaderGuid := by
        intro m hm
        simpa using List.find?_eq_none.mp hfind m hm
      obtain ⟨g', hg', hrows⟩ := delLeader_spec hne hleader
      refine ⟨g'.demoteUsurpers, ?_, hrows.trans (sameRows_demoteUsurpers g')⟩
      simp only [hg', Option.map_some]
  | some slot =>
      refine ⟨_, rfl, ?_⟩
      split
      · exact (sameRows_setLeader g _).trans (sameRows_demoteUsurpers _)
      · exact sameRows_demoteUsurpers g

end LoadedGuild

/-- `LoadGuilds` makes every guild of its own rows. A guild survives when one of its member rows is valid;
then it has its own ranks and the members of its valid rows. Only rows of ids that are no guilds are
deleted as such. -/
theorem loadGuilds_own (env : LoadEnv) {guilds : List GuildResultRow} {ranks : List RankResultRow}
    {members : List MemberResultRow}
    (hguilds : guilds.Pairwise fun a b => a.guildid < b.guildid)
    (hranks : ranks.Pairwise fun a b => a.guildid ≤ b.guildid)
    (hmembers : members.Pairwise fun a b => a.guildid ≤ b.guildid) :
    (loadGuilds env guilds ranks members).guilds =
        guilds.filterMap (fun g => loadOwn env g (ranksOf ranks g) (membersOf members g)) ∧
      (∀ g, (∃ row ∈ membersOf members g, row.Valid) →
        ∃ loaded, loadOwn env g (ranksOf ranks g) (membersOf members g) = some loaded ∧
          loaded.id = g.guildid ∧ loaded.ranks = ownRanks env (ranksOf ranks g) ∧
          loaded.members.map LoadedMember.withoutRank =
            (ownMembers env (ownRanks env (ranksOf ranks g)) (membersOf members g)).map
              LoadedMember.withoutRank) ∧
      (∀ g, (¬ ∃ row ∈ membersOf members g, row.Valid) →
        loadOwn env g (ranksOf ranks g) (membersOf members g) = none) ∧
      ∀ id, id ∈ (loadGuilds env guilds ranks members).unknownRanks ∨
          id ∈ (loadGuilds env guilds ranks members).unknownMembers →
        ∀ g ∈ guilds, g.guildid ≠ id := by
  have hstart : ∀ {ρ : Type} (key : ρ → ℕ) (rows : List ρ),
      StandsBehind key none rows (queryResult rows) := by
    intro ρ key rows
    unfold queryResult
    by_cases hnil : rows = []
    · rw [if_pos hnil]
      exact Or.inr ⟨hnil, rfl⟩
    · rw [if_neg hnil]
      exact Or.inl rfl
  obtain ⟨hloaded, hunknown⟩ := foldl_loadNext env hranks hmembers guilds
    ⟨[], [], [], queryResult ranks, queryResult members⟩ none hguilds
    (fun g _ l hl => by cases hl) (hstart _ _) (hstart _ _)
  refine ⟨hloaded, fun g hvalid => ?_, fun g hnone => if_neg hnone, fun id hid => ?_⟩
  · have hne : ownMembers env (ownRanks env (ranksOf ranks g)) (membersOf members g) ≠ [] := by
      intro hnil
      have hempty := (ownMembers_isEmpty env (ownRanks env (ranksOf ranks g))
        (membersOf members g)).mp (by rw [hnil]; rfl)
      exact hempty hvalid
    unfold loadOwn
    rw [if_pos hvalid]
    obtain ⟨loaded, hsome, hrows⟩ := LoadedGuild.checkGuildStructure_spec
      (g := ⟨g.guildid, g.name, g.leaderguid, ownRanks env (ranksOf ranks g),
        ownMembers env (ownRanks env (ranksOf ranks g)) (membersOf members g)⟩) hne
    exact ⟨loaded, hsome, hrows.1, hrows.2.1, hrows.2.2⟩
  · rcases hunknown id hid with hid | hid | ⟨-, hid⟩
    · cases hid
    · cases hid
    · exact hid

/-- Guilds 2, 4 and 6; 4 has no rows, and there are rows of 1, 3 and 5. -/
def someGuilds : List GuildResultRow := [⟨2, [97], 20⟩, ⟨4, [98], 40⟩, ⟨6, [99], 60⟩]

def someRanks : List RankResultRow :=
  [⟨1, 0, [], 0⟩, ⟨2, 0, [], 0⟩, ⟨2, 1, [], 0⟩, ⟨5, 0, [], 0⟩, ⟨6, 0, [], 0⟩]

def someMembers : List MemberResultRow :=
  [⟨2, 20, 0, [], [], [97], 60, 1, 1, 0, 0⟩, ⟨3, 30, 0, [], [], [98], 60, 1, 1, 0, 0⟩,
    ⟨6, 60, 0, [], [], [99], 60, 1, 1, 0, 0⟩]

/-- The names of the ranks do not matter. -/
def someLoadEnv : LoadEnv := ⟨⟨[], [], [], [], []⟩, fun _ => 0⟩

theorem loadGuilds_own_some :
    (loadGuilds someLoadEnv someGuilds someRanks someMembers).guilds =
      someGuilds.filterMap fun g =>
        loadOwn someLoadEnv g (ranksOf someRanks g) (membersOf someMembers g) :=
  (loadGuilds_own someLoadEnv (by decide) (by decide) (by decide)).1

end TwowCore.Guilds
