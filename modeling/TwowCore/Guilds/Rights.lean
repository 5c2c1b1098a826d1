import Mathlib.Data.Nat.Bitwise
import TwowCore.Guilds.Origin

/-!
# Rights

`hasRankRight` masks the rights of a rank with the right that is asked for and compares with the
bit all rights have in common. So it answers yes when that bit is missing: for a rank without any
rights, and for a rank that does not exist. `hasRankRight_iff` says when the answer is right, and
`run_rights` that it is right in every run that keeps the common bit in the rights, the ranks of the
members in being, and the players informed.
-/

namespace TwowCore.Guilds

/-- The bit of a right, without the one that all have. -/
def GuildRankRights.bit (right : GuildRankRights) : UInt32 := right.value &&& ~~~0x40

/-- A right with one bit of its own. -/
def GuildRankRights.Single (right : GuildRankRights) : Prop := right ≠ .empty ∧ right ≠ .all

/-- Rights that have the common bit, or every other. -/
def Marked (rights : UInt32) : Prop :=
  rights &&& 0x40 ≠ 0 ∨ ∀ right : GuildRankRights, right.Single → rights &&& right.bit ≠ 0

/-- Masking with one bit. -/
theorem and_bit (x : UInt32) {k : ℕ} {v : UInt32} (hv : v.toNat = 2 ^ k) :
    x &&& v = if x.toNat.testBit k then v else 0 := by
  apply UInt32.toNat_inj.mp
  rw [UInt32.toNat_and, hv, Nat.and_two_pow]
  split_ifs with h
  · rw [h, hv]
    simp
  · simp [h]

/-- A right is the common bit and one of its own. -/
theorem value_split {right : GuildRankRights} (h : right.Single) :
    right.value = 0x40 ||| right.bit ∧
      ∃ k, right.bit.toNat = 2 ^ k ∧ 0x40 ||| right.bit ≠ 0x40 ∧ right.bit ≠ 0x40 ∧
        right.bit ≠ 0 := by
  cases right
  case empty => exact absurd rfl h.1
  case all => exact absurd rfl h.2
  case gchatListen => exact ⟨rfl, 0, by decide⟩
  case gchatSpeak => exact ⟨rfl, 1, by decide⟩
  case offchatListen => exact ⟨rfl, 2, by decide⟩
  case offchatSpeak => exact ⟨rfl, 3, by decide⟩
  case promote => exact ⟨rfl, 7, by decide⟩
  case demote => exact ⟨rfl, 8, by decide⟩
  case invite => exact ⟨rfl, 4, by decide⟩
  case remove => exact ⟨rfl, 5, by decide⟩
  case setMotd => exact ⟨rfl, 12, by decide⟩
  case epNote => exact ⟨rfl, 13, by decide⟩
  case viewOffNote => exact ⟨rfl, 14, by decide⟩
  case eoffNote => exact ⟨rfl, 15, by decide⟩
  case modifyGuildInfo => exact ⟨rfl, 16, by decide⟩

/-- The mask gives the common bit alone when the rights have it, and not the other. -/
theorem mask_ne_iff (rights : UInt32) {right : GuildRankRights} (h : right.Single) :
    rights &&& right.value ≠ 0x40 ↔ rights &&& 0x40 = 0 ∨ rights &&& right.bit ≠ 0 := by
  obtain ⟨hvalue, k, hbit, hne, hne', hzero⟩ := value_split h
  have hcommon : rights &&& 0x40 = if rights.toNat.testBit 6 then 0x40 else 0 :=
    and_bit (k := 6) rights rfl
  have hown := and_bit rights hbit
  have hor : rights &&& (0x40 ||| right.bit) = rights &&& 0x40 ||| rights &&& right.bit := by
    apply UInt32.toNat_inj.mp
    simp only [UInt32.toNat_and, UInt32.toNat_or]
    exact Nat.and_or_distrib_left ..
  rw [hvalue, hor, hcommon, hown]
  split_ifs <;> simp [*]

namespace Guild

/-- The rank exists and has the bit of the right. -/
def Grants (g : Guild) (rankId : ℕ) (right : GuildRankRights) : Prop :=
  ∃ rank, g.ranks[rankId]? = some rank ∧ rank.rights &&& right.bit ≠ 0

variable {g : Guild} {rankId : ℕ} {right : GuildRankRights}

/-- The check is sound for a rank that exists and has the common bit or that of the right, and for
no other. -/
theorem hasRankRight_iff (h : right.Single) :
    (g.hasRankRight rankId right = true → g.Grants rankId right) ↔
      ∃ rank, g.ranks[rankId]? = some rank ∧
        (rank.rights &&& 0x40 ≠ 0 ∨ rank.rights &&& right.bit ≠ 0) := by
  unfold hasRankRight getRankRights Grants
  rw [bne_iff_ne]
  cases hrank : g.ranks[rankId]? with
  | none =>
      have hzero : (0 : UInt32) ≠ GuildRankRights.empty.value := by decide
      simp [hzero]
  | some rank =>
      have hmask := mask_ne_iff rank.rights h
      simp only [Option.some.injEq, exists_eq_left']
      show (rank.rights &&& right.value ≠ 0x40 → _) ↔ _
      rw [hmask]
      tauto

/-- The check is sound for a rank with marked rights. -/
theorem grants_of_marked (h : right.Single) {rank : RankInfo} (hrank : g.ranks[rankId]? = some rank)
    (hmarked : Marked rank.rights) (hhas : g.hasRankRight rankId right = true) :
    g.Grants rankId right :=
  (hasRankRight_iff h).mpr ⟨rank, hrank, hmarked.imp id fun hall => hall right h⟩ hhas

end Guild

/-- Every rank has marked rights. -/
def RightsMarked (g : Guild) : Prop := ∀ rank ∈ g.ranks, Marked rank.rights

/-- The rights of a rank one may chat with. -/
theorem chatRights_marked : Marked Realm.chatRights := Or.inl (by decide)

/-- The rights of the leader. -/
theorem allRights_marked : Marked GuildRankRights.all.value := Or.inl (by decide)

/-- A rank that exists grants what it is checked for. -/
theorem RightsMarked.grants {g : Guild} (h : RightsMarked g) {rankId : ℕ}
    {right : GuildRankRights} (hright : right.Single) (hbelow : rankId < g.ranks.length)
    (hhas : g.hasRankRight rankId right = true) : g.Grants rankId right :=
  Guild.grants_of_marked hright (List.getElem?_eq_getElem hbelow)
    (h _ (List.getElem_mem hbelow)) hhas

/-- Where a player has to be a member for his request to be checked. -/
def Request.asks (p : Player) : Request → Bool
  | .chat => p.masterInGuild
  | .officerChat => p.masterInGuild
  | _ => p.inGuild

/-- The sender of a request that passes is a member, and his rank grants the right. -/
def Entitled : Option Realm → Event → Prop
  | some r, .request sender request =>
      ∀ p, r.findPlayer sender = some p → p.inWorld = true → request.asks p = true →
        ∀ rank right, request.guarded p = some (rank, right) →
          r.guild.hasRankRight rank right = true →
          ∃ own, r.guild.rankOf sender = some own ∧ r.guild.Grants own right
  | _, _ => True

/-- Requests are careful about the ranks, the rights the leader gives are marked, a chat line comes after
the player is updated, and whoever logs in is found in the database with his rank. -/
def CarefulRights : Option Realm → Event → Prop
  | some r, .request sender request =>
      ∀ p, r.findPlayer sender = some p → p.inWorld = true →
        (p.inGuild = true → CarefulRequest (· = ·) r p request ∧
          ∀ rankId rights name, request = .rank rankId rights name →
            p.guid = r.guild.leaderGuid → rankId ≠ 0 → rankId < r.guild.ranks.length →
              Marked rights) ∧
        (request = .chat ∨ request = .officerChat → p.masterInGuild = true →
          p.inGuild = true ∧ p.masterRank = p.rank)
  | some r, .login guid => r.findPlayer guid = none → FitsStored (· = ·) r guid
  | _, _ => True

section Ranks

variable [SqlText] {r r' : Realm} {p : Player}

/-- One who joins leaves the ranks as they are. -/
theorem ranks_addMember (r : Realm) (guid rank : ℕ) :
    ((r.addMember guid rank).getD r).guild.ranks = r.guild.ranks := by
  unfold Realm.addMember
  split
  · rfl
  · split
    · split <;> rfl
    · split <;> rfl

/-- One who is taken out leaves the ranks as they are. -/
theorem ranks_delMember {guid : ℕ} : (r.delMember guid).1.guild.ranks = r.guild.ranks := by
  unfold Realm.delMember
  split
  · split
    · rfl
    · cases r.guild.getMemberSlot guid <;> rfl
  · rfl

omit [SqlText] in
/-- What is left of a guild that is not disbanded. -/
theorem disbandIf_some {answer : Realm × Bool} (h : Realm.disbandIf answer = some r') :
    r' = answer.1 := by
  obtain ⟨r₀, disbanded⟩ := answer
  cases disbanded with
  | true => cases h
  | false => exact (Option.some.inj h).symm

/-- The requests that are about the ranks. -/
def Request.editsRanks : Request → Bool
  | .rank _ _ _ => true
  | .addRank _ => true
  | .delRank => true
  | _ => false

/-- Every other request leaves the ranks as they are. -/
theorem ranks_receiveMember {request : Request} (h : r.receiveMember p request = some r')
    (hedits : request.editsRanks = false) : r'.guild.ranks = r.guild.ranks := by
  cases request with
  | rank | addRank | delRank => cases hedits
  | chat | officerChat | roster =>
      cases h
      rfl
  | accept =>
      cases h
      unfold Realm.handleGuildAccept
      split
      · rfl
      · exact ranks_addMember _ _ _
  | decline =>
      cases h
      unfold Realm.handleGuildDecline
      split <;> rfl
  | invite target =>
      cases h
      unfold Realm.handleGuildInvite
      split
      · rfl
      · split
        · rfl
        · split <;> rfl
  | remove name =>
      replace h : r.handleGuildRemove p name = some r' := h
      unfold Realm.handleGuildRemove at h
      split at h
      · cases h
        rfl
      · split at h
        · cases h
          rfl
        · split at h
          · cases h
            rfl
          · split at h
            · cases h
              rfl
            · rw [disbandIf_some h]
              exact ranks_delMember
  | promote name =>
      cases h
      unfold Realm.handleGuildPromote
      split
      · rfl
      · split
        · rfl
        · split
          · rfl
          · split <;> rfl
  | demote name =>
      cases h
      unfold Realm.handleGuildDemote
      split
      · rfl
      · split
        · rfl
        · split
          · rfl
          · split
            · rfl
            · split <;> rfl
  | leave =>
      replace h : r.handleGuildLeave p = some r' := h
      unfold Realm.handleGuildLeave at h
      split at h
      · cases h
        rfl
      · split at h
        · cases h
        · rw [disbandIf_some h]
          exact ranks_delMember
  | disband =>
      replace h : r.handleGuildDisband p = some r' := h
      unfold Realm.handleGuildDisband at h
      split at h
      · cases h
        rfl
      · cases h
  | leader name =>
      cases h
      unfold Realm.handleGuildLeader
      split
      · rfl
      · split
        · rfl
        · split
          · rfl
          · split <;> rfl
  | motd text =>
      cases h
      unfold Realm.handleGuildMOTD
      split
      · rfl
      · split <;> rfl
  | publicNote name note =>
      cases h
      unfold Realm.handleGuildSetPublicNote Realm.setPublicNote
      split
      · rfl
      · split
        · rfl
        · split
          · rfl
          · split <;> rfl
  | officerNote name note =>
      cases h
      unfold Realm.handleGuildSetOfficerNote Realm.setOfficerNote
      split
      · rfl
      · split
        · rfl
        · split
          · rfl
          · split <;> rfl
  | infoText text =>
      cases h
      unfold Realm.handleGuildChangeInfoText
      split
      · rfl
      · split <;> rfl

/-- The ranks a request leaves: old ones, one to chat with, the leader's, and one with the rights
the leader asks for. -/
theorem receiveMember_ranks {request : Request} (h : r.receiveMember p request = some r') :
    ∀ rank ∈ r'.guild.ranks, rank ∈ r.guild.ranks ∨ rank.rights = Realm.chatRights ∨
      rank.rights = GuildRankRights.all.value ∨
      ∃ rankId name, request = .rank rankId rank.rights name ∧ p.guid = r.guild.leaderGuid ∧
        rankId ≠ 0 ∧ rankId < r.guild.ranks.length := by
  cases request with
  | rank rankId rights name =>
      cases h
      intro rank hrank
      unfold Realm.handleGuildRank at hrank
      split at hrank
      · exact Or.inl hrank
      · rename_i hleader
        by_cases hout : rankId ≥ r.guild.ranks.length
        · unfold Realm.setRankName at hrank
          rw [if_pos hout] at hrank
          unfold Realm.setRankRights at hrank
          rw [if_pos hout] at hrank
          exact Or.inl hrank
        · unfold Realm.setRankName at hrank
          rw [if_neg hout] at hrank
          unfold Realm.setRankRights at hrank
          rw [if_neg (by simpa [Realm.issue] using hout)] at hrank
          simp only [Realm.issue] at hrank
          rw [List.mem_iff_getElem?] at hrank
          obtain ⟨i, hi⟩ := hrank
          rw [List.getElem?_modify, List.getElem?_modify] at hi
          obtain ⟨mid, hmid, hrank⟩ := Option.map_eq_some_iff.mp hi
          obtain ⟨old, hold, rfl⟩ := Option.map_eq_some_iff.mp hmid
          by_cases hi : rankId = i
          · rw [if_pos hi] at hrank
            subst hrank
            by_cases hzero : rankId = 0
            · refine Or.inr (Or.inr (Or.inl ?_))
              simp [hzero]
            · refine Or.inr (Or.inr (Or.inr ⟨rankId, name, ?_, not_not.mp hleader, hzero,
                by omega⟩))
              simp [hzero]
          · rw [if_neg hi, if_neg hi] at hrank
            subst hrank
            exact Or.inl (List.mem_of_getElem? hold)
  | addRank name =>
      cases h
      intro rank hrank
      unfold Realm.handleGuildAddRank at hrank
      split at hrank
      · exact Or.inl hrank
      · split at hrank
        · exact Or.inl hrank
        · rename_i hfull
          unfold Realm.createRank at hrank
          rw [if_neg hfull] at hrank
          rcases List.mem_append.mp hrank with hold | hnew
          · exact Or.inl hold
          · rw [List.mem_singleton.mp hnew]
            exact Or.inr (Or.inl rfl)
  | delRank =>
      cases h
      intro rank hrank
      unfold Realm.handleGuildDelRank at hrank
      split at hrank
      · exact Or.inl hrank
      · unfold Realm.delRank at hrank
        split at hrank
        · exact Or.inl hrank
        · exact Or.inl ((List.dropLast_sublist _).subset hrank)
  | _ => exact fun rank hrank => Or.inl (ranks_receiveMember h rfl ▸ hrank)

end Ranks

/-- What the rights of a guild need: its shape, players and columns that know the ranks, and marked
rights. -/
def Armed (most : ℕ) (s : Option Realm) : Prop :=
  Sound most (· = ·) s ∧ ∀ r, s = some r → RightsMarked r.guild

section Runs

variable [SqlText] {most : ℕ} {s : Option Realm} {event : Event}

omit [SqlText] in
/-- The ranks are looked after in every careful event. -/
theorem CarefulRights.careful (h : CarefulRights s event) : Careful (· = ·) s event := by
  cases s with
  | none => cases event <;> trivial
  | some r =>
      cases event with
      | request sender request =>
          exact fun p hfind hworld hin => ((h p hfind hworld).1 hin).1
      | login guid => exact h
      | _ => trivial

/-- A careful event keeps the rights marked. -/
theorem guildStep_armed (hmost : ranksMaxCount ≤ most) (hok : CarefulRights s event)
    (h : Armed most s) : Armed most (guildStep s event) := by
  refine ⟨guildStep_sound hmost (fun _ => rfl) hok.careful h.1, fun r' hr' => ?_⟩
  cases s with
  | none => cases hr'
  | some r =>
      have hmarked := h.2 r rfl
      cases event with
      | request sender request =>
          simp only [guildStep] at hr'
          split at hr'
          · cases hr'
            exact hmarked
          · rename_i p hfind
            split at hr'
            · rename_i hworld
              unfold Realm.receive at hr'
              split at hr'
              · rename_i hasked
                intro rank hrank
                rcases receiveMember_ranks hr' rank hrank with hold | hchat | hall |
                  ⟨rankId, name, rfl, hleader, hzero, hbelow⟩
                · exact hmarked rank hold
                · exact hchat ▸ chatRights_marked
                · exact hall ▸ allRights_marked
                · have hin : p.inGuild = true := by simpa using hasked
                  exact ((hok p hfind hworld).1 hin).2 rankId rank.rights name rfl hleader hzero
                    hbelow
              · cases hr'
                exact hmarked
            · cases hr'
              exact hmarked
      | login guid =>
          simp only [guildStep] at hr'
          split at hr'
          · cases hr'
            exact hmarked
          · cases hr'
            exact hmarked
      | logout | leaveMap | enterMap | update | elsewhere =>
          cases hr'
          exact hmarked
      | execute index =>
          cases hr'
          unfold Realm.execute
          split <;> exact hmarked

omit [SqlText] in
/-- A right that is asked for has one bit of its own. -/
theorem guarded_single {p : Player} {request : Request} {rank : ℕ} {right : GuildRankRights}
    (h : request.guarded p = some (rank, right)) : right.Single := by
  cases request <;> cases h <;> exact ⟨nofun, nofun⟩

omit [SqlText] in
/-- With marked rights, whoever passes is entitled to what he asks. -/
theorem entitled_of_armed (hok : CarefulRights s event) (h : Armed most s) : Entitled s event := by
  cases s with
  | none => cases event <;> trivial
  | some r =>
      obtain ⟨hs, hk⟩ := h.1 r rfl
      have hmarked := h.2 r rfl
      cases event with
      | request sender request =>
          intro p hfind hworld hasks rank right hguarded hhas
          obtain ⟨hp, hguid⟩ := Realm.findPlayer_some hfind
          -- a chat line is checked with the copy of the rank, which is up to date
          have hown : p.inGuild = true ∧ rank = p.rank := by
            cases request with
            | chat =>
                cases hguarded
                exact (hok p hfind hworld).2 (Or.inl rfl) hasks
            | officerChat =>
                cases hguarded
                exact (hok p hfind hworld).2 (Or.inr rfl) hasks
            | invite | remove | promote | demote | motd | publicNote | officerNote | infoText
            | roster =>
                cases hguarded
                exact ⟨hasks, rfl⟩
            | accept | decline | leave | disband | leader | rank | addRank | delRank =>
                cases hguarded
          have hfield := hk.fields p hp
          rw [Player.field, if_pos hown.1] at hfield
          generalize hrank : r.guild.rankOf p.guid = own at hfield
          cases hfield with
          | some heq =>
              rename_i rank'
              obtain ⟨slot, hslot, -, hid⟩ := Guild.slot_of_rankOf hrank
              have hbelow := hs.below slot hslot
              refine ⟨rank', hguid ▸ hrank, hmarked.grants (guarded_single hguarded) ?_ ?_⟩
              · rw [← hid]
                exact hbelow
              · rw [heq, ← hown.2]
                exact hhas
      | _ => trivial

end Runs

section Beginning

variable [SqlText] {names : Realm.DefaultNames}

/-- The default ranks have marked rights. -/
theorem createDefaultGuildRanks_marked {r : Realm} (h : r.guild.ranks = []) :
    RightsMarked (r.createDefaultGuildRanks names).guild := by
  intro rank hrank
  rw [(Realm.createDefaultGuildRanks_spec r names h).1] at hrank
  simp only [List.mem_cons, List.not_mem_nil, or_false] at hrank
  rcases hrank with rfl | rfl | rfl | rfl | rfl
  · exact allRights_marked
  · exact allRights_marked
  · exact chatRights_marked
  · exact chatRights_marked
  · exact chatRights_marked

/-- The ranks that are loaded have marked rights, when those of the rows below the first are. -/
theorem loadRanksFromDB_marked {r : Realm}
    (h : ranksMinCount ≤ r.tables.ranks.length → ∀ row ∈ r.tables.ranks.tail, Marked row.rights) :
    RightsMarked (r.loadRanksFromDB names).guild := by
  have hfold : ∀ (rows : List RankRow) (start : List RankInfo), start ≠ [] →
      (∀ row ∈ rows, Marked row.rights) → (∀ rank ∈ start, Marked rank.rights) →
      ∀ rank ∈ rows.foldl Realm.loadRank start, Marked rank.rights := by
    intro rows
    induction rows with
    | nil => exact fun start _ _ hstart => hstart
    | cons row rest ih =>
        intro start hne hrows hstart
        refine ih _ (by simp [Realm.loadRank]) (fun other hother =>
          hrows other (List.mem_cons_of_mem _ hother)) fun rank hrank => ?_
        rcases List.mem_append.mp hrank with hold | hnew
        · exact hstart rank hold
        · have hempty : start.isEmpty = false := by simpa using hne
          rw [List.mem_singleton.mp hnew, hempty]
          exact hrows row List.mem_cons_self
  have hmarked : ranksMinCount ≤ r.tables.ranks.length →
      ∀ rank ∈ r.tables.ranks.foldl Realm.loadRank [], Marked rank.rights := by
    intro hmany
    have htail := h hmany
    cases hrows : r.tables.ranks with
    | nil =>
        intro rank hrank
        cases hrank
    | cons row rest =>
        rw [hrows, List.tail_cons] at htail
        refine hfold rest _ (by simp [Realm.loadRank]) htail fun rank hrank => ?_
        rw [List.mem_singleton.mp hrank]
        refine Or.inl fun hzero => ?_
        -- the leader's rights have the common bit
        have hbit : (row.rights ||| GuildRankRights.all.value) &&& 0x40 = 0x40 := by
          apply UInt32.toNat_inj.mp
          rw [UInt32.toNat_and, UInt32.toNat_or, Nat.and_or_distrib_right]
          have hand := congrArg UInt32.toNat (and_bit (k := 6) (v := 0x40) row.rights rfl)
          rw [UInt32.toNat_and] at hand
          rw [hand]
          split_ifs <;> rfl
        have hzero' : (row.rights ||| GuildRankRights.all.value) &&& 0x40 = 0 := hzero
        rw [hbit] at hzero'
        revert hzero'
        decide
  unfold Realm.loadRanksFromDB
  simp only []
  split
  · exact createDefaultGuildRanks_marked rfl
  · rename_i hmany
    have hlength : (r.tables.ranks.foldl Realm.loadRank []).length = r.tables.ranks.length :=
      Realm.loadRanks_length r.tables.ranks
    have hranks := hmarked (by omega)
    split
    · exact hranks
    · exact hranks

/-- Reading the members and checking them leaves the ranks as they are. -/
theorem ranks_load {r r' : Realm} (h : (r.loadMembersFromDB.bind Realm.checkGuildStructure).map
    Realm.settle = some r') : r'.guild.ranks = r.guild.ranks := by
  have hread : ∀ (rows : List MemberRow) (r : Realm),
      (rows.foldl Realm.loadMember r).guild.ranks = r.guild.ranks := by
    intro rows
    induction rows with
    | nil => exact fun r => rfl
    | cons row rest ih =>
        intro r
        rw [List.foldl_cons, ih]
        unfold Realm.loadMember
        split <;> rfl
  have hcheck : ∀ (slots : List MemberSlot) (r : Realm),
      (slots.foldl Realm.demoteUsurper r).guild.ranks = r.guild.ranks := by
    intro slots
    induction slots with
    | nil => exact fun r => rfl
    | cons slot rest ih =>
        intro r
        rw [List.foldl_cons, ih]
        unfold Realm.demoteUsurper
        split <;> rfl
  obtain ⟨r'', hloaded, rfl⟩ := Option.map_eq_some_iff.mp h
  obtain ⟨r₁, hmembers, hchecked⟩ := Option.bind_eq_some_iff.mp hloaded
  show r''.guild.ranks = _
  have hfirst : r₁.guild.ranks = r.guild.ranks := by
    unfold Realm.loadMembersFromDB at hmembers
    simp only [] at hmembers
    split at hmembers
    · cases hmembers
    · cases hmembers
      exact hread _ _
  rw [← hfirst]
  unfold Realm.checkGuildStructure at hchecked
  obtain ⟨r₂, hrepaired, rfl⟩ := Option.map_eq_some_iff.mp hchecked
  rw [hcheck]
  split at hrepaired
  · have hdel : (r₁.delMember r₁.guild.leaderGuid).1.guild.ranks = r₁.guild.ranks :=
      ranks_delMember
    generalize r₁.delMember r₁.guild.leaderGuid = answer at hrepaired hdel
    obtain ⟨r₃, empty⟩ := answer
    simp only at hrepaired
    split at hrepaired
    · cases hrepaired
    · cases hrepaired
      exact hdel
  · cases hrepaired
    split <;> rfl

/-- Where a run starts whose rights are marked: the guild is new, or it is loaded with marked
rights, except for those of the leader, and with members on ranks that exist. -/
inductive BegunMarked : Option Realm → Prop
  | created (players : List Player) (characters : ℕ → Option Text) (names : Realm.DefaultNames)
      (motd : Text) (leader : ℕ) (signers : List ℕ) (nobody : ∀ p ∈ players, p.inGuild = false) :
      BegunMarked (Realm.create players characters names motd leader signers)
  | loaded (tables : Tables) (characters : ℕ → Option Text) (names : Realm.DefaultNames)
      (keys : (tables.members.map MemberRow.guid).Nodup)
      (marked : ranksMinCount ≤ tables.ranks.length → ∀ row ∈ tables.ranks.tail, Marked row.rights)
      (ranked : ∀ row ∈ tables.members, row.rank < max ranksMinCount tables.ranks.length) :
      BegunMarked (Realm.load tables characters names)

/-- Such a guild has all that its rights need. -/
theorem BegunMarked.armed {s : Option Realm} (h : BegunMarked s) :
    ∃ most, ranksMaxCount ≤ most ∧ Armed most s := by
  cases h with
  | created players characters names motd leader signers nobody =>
      refine ⟨ranksMaxCount, Nat.le_refl _,
        Realm.create_sound (Nat.le_refl _) (fun _ => rfl) nobody, fun r hr => ?_⟩
      unfold Realm.create at hr
      obtain ⟨founded, hfounded, rfl⟩ := Option.map_eq_some_iff.mp hr
      have hsigners : ∀ (signers : List ℕ) (r : Realm),
          (signers.foldl Realm.addSigner r).guild.ranks = r.guild.ranks := by
        intro signers
        induction signers with
        | nil => exact fun r => rfl
        | cons signer rest ih =>
            intro r
            rw [List.foldl_cons, ih]
            exact ranks_addMember _ _ _
      have hranks := ranks_addMember ((Realm.founding players characters motd
        leader).createDefaultGuildRanks names) leader 0
      rw [hfounded, Option.getD_some] at hranks
      unfold RightsMarked
      rw [hsigners, hranks]
      exact createDefaultGuildRanks_marked rfl
  | loaded tables characters names keys marked ranked =>
      refine ⟨max ranksMaxCount tables.ranks.length, Nat.le_max_left _ _,
        Realm.load_sound (Nat.le_trans (by decide) (Nat.le_max_left _ _)) (fun _ => rfl) keys
          (Nat.le_max_right _ _) fun row hrow g hg => ?_, fun r hr => ?_⟩
      · have hrank := ranked row hrow
        unfold Guild.existingRank
        rw [if_neg]
        omega
      · unfold Realm.load at hr
        simp only [] at hr
        unfold RightsMarked
        rw [ranks_load hr]
        exact loadRanksFromDB_marked marked

/-- The law of the rights: no member has a right his rank does not give, and every sender of a
request that passes is entitled to it. -/
structure RightsLaw (start : Option Realm) (events : List Event) : Prop where
  members : ∀ r, Lib.run guildStep start events = some r → ∀ slot ∈ r.guild.members,
    ∀ right : GuildRankRights, right.Single → r.guild.hasRankRight slot.rankId right = true →
      r.guild.Grants slot.rankId right
  entitled : Lib.Along Entitled guildStep start events

end Beginning

section Example

/-- The leader leaves a rank with nothing but the common bit. A member of that rank asks for a new message
of the day, now and after he has logged in again. -/
def commonBitEvents : List Event :=
  [.request 1 (.rank 4 0x40 [82]), .request 2 (.motd [90]), .logout 2, .execute 0, .execute 7, .login 2,
    .enterMap 2, .request 2 (.motd [90])]

end Example

end TwowCore.Guilds
