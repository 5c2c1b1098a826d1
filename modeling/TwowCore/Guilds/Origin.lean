import TwowCore.Guilds.Ranks

/-!
# Where a guild comes from

A guild is created by a leader, with or without a petition, or loaded when the server starts. Both
give it its shape. Loading repairs what it finds: a member on a rank that does not exist gets the
lowest, the first rank goes to the leader, and a guild without its leader gets another.
-/

namespace TwowCore.Guilds

section Origin

variable [SqlText] {most : ℕ} {R : ℕ → ℕ → Prop}

namespace Realm

section Default

/-- The default ranks of a guild without ranks. -/
theorem createDefaultGuildRanks_spec (r : Realm) (names : DefaultNames)
    (h : r.guild.ranks = []) :
    (r.createDefaultGuildRanks names).guild.ranks =
        [⟨names.guildMaster, GuildRankRights.all.value⟩, ⟨names.officer, GuildRankRights.all.value⟩,
          ⟨names.veteran, chatRights⟩, ⟨names.member, chatRights⟩, ⟨names.initiate, chatRights⟩] ∧
      (r.createDefaultGuildRanks names).guild.leaderGuid = r.guild.leaderGuid ∧
      (r.createDefaultGuildRanks names).guild.members = r.guild.members ∧
      (r.createDefaultGuildRanks names).tables.members = r.tables.members ∧
      (r.createDefaultGuildRanks names).players = r.players ∧
      (r.createDefaultGuildRanks names).characters = r.characters := by
  obtain ⟨⟨leader, motd, info, ranks, members⟩, players, tables, stored, pending, characters⟩ := r
  obtain rfl : ranks = [] := h
  simp [createDefaultGuildRanks, createRank, issue, Tables.exec, ranksMaxCount]

variable {r : Realm} {names : DefaultNames}

/-- Those who signed join on the lowest rank. -/
theorem addSigners_sound (hR : ∀ rank, R rank rank) {signers : List ℕ} (hs : Structured most r.guild)
    (hk : Known R r) :
    Structured most (signers.foldl addSigner r).guild ∧ Known R (signers.foldl addSigner r) := by
  induction signers generalizing r with
  | nil => exact ⟨hs, hk⟩
  | cons signer rest ih =>
      have hkept : Kept most R r (r.addSigner signer) [] := by
        unfold addSigner
        cases hadd : r.addMember signer r.guild.getLowestRank with
        | none => exact Kept.same hs hk
        | some r' => exact addMember_kept hR hs hk hadd
      exact ih hkept.structured hkept.known

/-- A new guild has its shape, and its players know their ranks. -/
theorem create_sound (hmost : ranksMaxCount ≤ most) (hR : ∀ rank, R rank rank) {players : List Player}
    {characters : ℕ → Option Text} {motd : Text} {leader : ℕ} {signers : List ℕ}
    (hplayers : ∀ p ∈ players, p.inGuild = false) :
    Sound most R (create players characters names motd leader signers) := by
  intro r hr
  unfold create at hr
  obtain ⟨founded, hfounded, rfl⟩ := Option.map_eq_some_iff.mp hr
  obtain ⟨hranks, hleader, hmembers, htables, hsame, -⟩ := createDefaultGuildRanks_spec
    (founding players characters motd leader) names rfl
  generalize (founding players characters motd leader).createDefaultGuildRanks names = empty at *
  have hnobody : ∀ guid, empty.guild.rankOf guid = none := fun guid => by
    unfold Guild.rankOf Guild.getMemberSlot
    rw [hmembers]
    rfl
  have hknown : Known R empty := by
    refine ⟨fun guid => ?_, fun p hp => ?_⟩
    · unfold Tables.columnOf
      rw [hnobody, htables]
      exact Option.Rel.none
    · rw [hsame] at hp
      rw [hnobody, Player.field, if_neg (by simp [hplayers p hp])]
      exact Option.Rel.none
  obtain ⟨hnew, name, -, rfl⟩ := addMember_some hknown.outside hfounded
  have hfirst : (empty.joinMember leader 0 name).guild.members = [⟨leader, name, 0, [], []⟩] := by
    show Lib.eraseKey _ _ empty.guild.members ++ _ = _
    rw [hmembers]
    rfl
  have hlength : (empty.joinMember leader 0 name).guild.ranks.length = 5 := by
    show empty.guild.ranks.length = 5
    rw [hranks]
    rfl
  have hstart : Structured most (empty.joinMember leader 0 name).guild ∧
      Known R (empty.joinMember leader 0 name) := by
    refine ⟨⟨?_, ?_, ?_, ?_, ?_, ?_⟩, joinMember_known hR hknown hnew⟩
    · rw [hfirst]
      exact List.nodup_singleton _
    · exact Nat.le_of_eq hlength.symm
    · rw [hlength]
      unfold ranksMaxCount at hmost
      omega
    · rw [hfirst, hlength]
      simp
    · rw [hfirst]
      exact ⟨_, List.mem_singleton_self _, hleader.symm⟩
    · have hguid : (empty.joinMember leader 0 name).guild.leaderGuid = leader := hleader
      rw [hfirst, hguid]
      simp
  exact addSigners_sound hR hstart.1 hstart.2

end Default

section Load

variable {r : Realm}

/-- A guild while its rows are read: what is in `rest` is still to come. -/
structure Loading (R : ℕ → ℕ → Prop) (r : Realm) (rest : List MemberRow) : Prop where
  distinct : (r.guild.members.map MemberSlot.guid).Nodup
  below : ∀ slot ∈ r.guild.members, slot.rankId < r.guild.ranks.length
  columns : ∀ guid, guid ∉ rest.map MemberRow.guid →
    Option.Rel R (r.guild.rankOf guid) (r.tables.columnOf guid)
  rows : ∀ row ∈ rest, r.tables.columnOf row.guid = some row.rank
  unread : ∀ row ∈ rest, r.guild.rankOf row.guid = none
  keys : (rest.map MemberRow.guid).Nodup
  nobody : r.players = []
  ranked : 0 < r.guild.ranks.length

/-- The ranks after a row is read. -/
theorem rankOf_loadMember (row : MemberRow) (other : ℕ) :
    (r.loadMember row).guild.rankOf other =
      if other = row.guid ∧ (r.characters row.guid).isSome then
        some (r.guild.existingRank row.rank)
      else r.guild.rankOf other := by
  unfold loadMember
  cases hname : r.characters row.guid with
  | none => simp [issue]
  | some name =>
      show ((Lib.eraseKey MemberSlot.guid row.guid r.guild.members ++ [_]).find?
        fun slot : MemberSlot => slot.guid = other).map _ = _
      rw [List.find?_append, Lib.find_eraseKey]
      by_cases h : other = row.guid
      · rw [if_pos h, Option.none_or, List.find?_singleton, if_pos (by simp [h])]
        exact (if_pos ⟨h, rfl⟩).symm
      · rw [if_neg h, List.find?_singleton, if_neg (by simpa using Ne.symm h), Option.or_none]
        exact (if_neg fun hand => h hand.1).symm

/-- The columns after a row is read. -/
theorem columnOf_loadMember (row : MemberRow) (other : ℕ) :
    (r.loadMember row).tables.columnOf other =
      if other = row.guid ∧ r.characters row.guid = none then none
      else r.tables.columnOf other := by
  unfold loadMember
  cases hname : r.characters row.guid with
  | none =>
      show ((Lib.eraseKey MemberRow.guid row.guid r.tables.members).find?
        fun row => row.guid = other).map _ = _
      rw [Lib.find_eraseKey]
      by_cases h : other = row.guid
      · rw [if_pos h, if_pos ⟨h, rfl⟩]
        rfl
      · rw [if_neg h, if_neg fun hand => h hand.1]
        rfl
  | some name => simp

/-- Reading a row. -/
theorem loadMember_loading {row : MemberRow} {rest : List MemberRow}
    (h : Loading R r (row :: rest)) (hrank : R (r.guild.existingRank row.rank) row.rank) :
    Loading R (r.loadMember row) rest ∧
      (r.loadMember row).guild.ranks = r.guild.ranks := by
  have hkeys := h.keys
  rw [List.map_cons, List.nodup_cons] at hkeys
  have hne : ∀ other ∈ rest, other.guid ≠ row.guid := fun other hother heq =>
    hkeys.1 (heq ▸ List.mem_map_of_mem hother)
  have hranks : (r.loadMember row).guild.ranks = r.guild.ranks := by
    unfold loadMember
    split <;> rfl
  refine ⟨⟨?_, ?_, ?_, ?_, ?_, hkeys.2, ?_, hranks ▸ h.ranked⟩, hranks⟩
  · have hnot : row.guid ∉ r.guild.members.map MemberSlot.guid :=
      Guild.rankOf_none.mp (h.unread row List.mem_cons_self)
    unfold loadMember
    split
    · exact h.distinct
    · show ((Lib.eraseKey MemberSlot.guid row.guid r.guild.members ++ [_]).map _).Nodup
      rw [Lib.eraseKey_of_notMem hnot, List.map_append, List.map_singleton]
      refine List.nodup_append.mpr ⟨h.distinct, List.nodup_singleton _, fun a ha b hb hab => ?_⟩
      have hguid : a = row.guid := hab.trans (List.mem_singleton.mp hb)
      exact hnot (hguid ▸ ha)
  · rw [hranks]
    unfold loadMember
    split
    · exact h.below
    · intro slot hslot
      rcases List.mem_append.mp hslot with hold | hnew
      · exact h.below slot (Lib.mem_eraseKey.mp hold).1
      · rw [List.mem_singleton.mp hnew]
        have hranked := h.ranked
        show (if row.rank ≥ r.guild.ranks.length then r.guild.ranks.length - 1 else row.rank) <
          r.guild.ranks.length
        split_ifs <;> omega
  · intro guid hguid
    rw [rankOf_loadMember, columnOf_loadMember]
    by_cases heq : guid = row.guid
    · cases hname : r.characters row.guid with
      | none =>
          rw [if_neg (by simp), if_pos ⟨heq, rfl⟩, heq, h.unread row List.mem_cons_self]
          exact Option.Rel.none
      | some name =>
          rw [if_pos ⟨heq, rfl⟩, if_neg (by simp), heq, h.rows row List.mem_cons_self]
          exact Option.Rel.some hrank
    · rw [if_neg fun hand => heq hand.1, if_neg fun hand => heq hand.1]
      refine h.columns guid ?_
      rw [List.map_cons, List.mem_cons, not_or]
      exact ⟨heq, hguid⟩
  · intro other hother
    rw [columnOf_loadMember, if_neg fun hand => hne other hother hand.1]
    exact h.rows other (List.mem_cons_of_mem _ hother)
  · intro other hother
    rw [rankOf_loadMember, if_neg fun hand => hne other hother hand.1]
    exact h.unread other (List.mem_cons_of_mem _ hother)
  · unfold loadMember
    split <;> exact h.nobody

/-- Reading all rows. -/
theorem loadMembers_loading {rest : List MemberRow} (h : Loading R r rest)
    (hrank : ∀ row ∈ rest, R (r.guild.existingRank row.rank) row.rank) :
    Loading R (rest.foldl loadMember r) [] ∧
      (rest.foldl loadMember r).guild.ranks = r.guild.ranks := by
  induction rest generalizing r with
  | nil => exact ⟨h, rfl⟩
  | cons row rest ih =>
      obtain ⟨hstep, hranks⟩ := loadMember_loading h (hrank row List.mem_cons_self)
      obtain ⟨hend, hsame⟩ := ih hstep fun other hother => by
        unfold Guild.existingRank Guild.getLowestRank
        rw [hranks]
        exact hrank other (List.mem_cons_of_mem _ hother)
      exact ⟨hend, hsame.trans hranks⟩

omit [SqlText] in
/-- The new leader that is found is a member, and not the old one. -/
theorem getSuitableNewLeader_some {g : Guild} {best : MemberSlot}
    (h : g.getSuitableNewLeader = some best) : best ∈ g.members ∧ best.guid ≠ g.leaderGuid := by
  have hfold : ∀ (members : List MemberSlot) (start : Option MemberSlot),
      members.foldl (Guild.betterLeader g.leaderGuid) start = some best →
        start = some best ∨ best ∈ members ∧ best.guid ≠ g.leaderGuid := by
    intro members
    induction members with
    | nil => exact fun start h => Or.inl h
    | cons slot rest ih =>
        intro start hstart
        rcases ih _ hstart with hbetter | ⟨hmem, hne⟩
        · unfold Guild.betterLeader at hbetter
          split at hbetter
          · exact Or.inl hbetter
          · rename_i hne
            split at hbetter
            · cases hbetter
              exact Or.inr ⟨List.mem_cons_self, hne⟩
            · split at hbetter
              · cases hbetter
                exact Or.inr ⟨List.mem_cons_self, hne⟩
              · exact Or.inl hbetter
        · exact Or.inr ⟨List.mem_cons_of_mem _ hmem, hne⟩
  rcases hfold g.members none h with hnone | hbest
  · cases hnone
  · exact hbest

/-- A loaded guild while its structure is checked: the leader has his rank, and so may those in
`rest`. -/
structure Checking (most : ℕ) (R : ℕ → ℕ → Prop) (r : Realm) (rest : List MemberSlot) : Prop where
  distinct : (r.guild.members.map MemberSlot.guid).Nodup
  enough : ranksMinCount ≤ r.guild.ranks.length
  notMany : r.guild.ranks.length ≤ most
  below : ∀ slot ∈ r.guild.members, slot.rankId < r.guild.ranks.length
  led : ∃ slot ∈ r.guild.members, slot.guid = r.guild.leaderGuid ∧ slot.rankId = 0
  usurpers : ∀ slot ∈ r.guild.members, slot.rankId = 0 →
    slot.guid = r.guild.leaderGuid ∨ slot ∈ rest
  known : Known R r
  nobody : r.players = []

/-- One turn of the loop of the check. -/
theorem demoteUsurper_checking (hR : ∀ rank, R rank rank) {slot : MemberSlot}
    {rest : List MemberSlot} (h : Checking most R r (slot :: rest)) :
    Checking most R (r.demoteUsurper slot) rest := by
  unfold demoteUsurper
  split
  · rename_i husurper
    have henough := h.enough
    unfold ranksMinCount at henough
    refine ⟨?_, h.enough, h.notMany, ?_, ?_, ?_, ?_, ?_⟩
    · rw [changeRank_guids]
      exact h.distinct
    · intro new hnew
      obtain ⟨old, hold, rfl⟩ := mem_changeRank.mp hnew
      split_ifs
      · show 1 < r.guild.ranks.length
        omega
      · exact h.below old hold
    · obtain ⟨leader, hleader, hguid, hzero⟩ := h.led
      refine ⟨leader, mem_changeRank.mpr ⟨leader, hleader, if_neg ?_⟩, hguid, hzero⟩
      rw [hguid]
      exact husurper.2
    · intro new hnew hzero
      obtain ⟨old, hold, rfl⟩ := mem_changeRank.mp hnew
      by_cases hguid : old.guid = slot.guid
      · rw [if_pos hguid] at hzero
        cases hzero
      · rw [if_neg hguid] at hzero ⊢
        rcases h.usurpers old hold hzero with hleader | hmem
        · exact Or.inl hleader
        · rcases List.mem_cons.mp hmem with rfl | hrest
          · exact absurd rfl hguid
          · exact Or.inr hrest
    · refine changeRank_known hR h.known fun p hp => ?_
      rw [h.nobody] at hp
      cases hp
    · show Lib.writeKey _ _ _ r.players = []
      rw [h.nobody]
      rfl
  · rename_i hnot
    refine ⟨h.distinct, h.enough, h.notMany, h.below, h.led, fun new hnew hzero => ?_, h.known,
      h.nobody⟩
    rcases h.usurpers new hnew hzero with hleader | hmem
    · exact Or.inl hleader
    · rcases List.mem_cons.mp hmem with rfl | hrest
      · refine Or.inl ?_
        by_contra hother
        exact hnot ⟨hzero, Ne.symm hother⟩
      · exact Or.inr hrest

/-- The loop of the check. -/
theorem demoteUsurpers_checking (hR : ∀ rank, R rank rank) {rest : List MemberSlot}
    (h : Checking most R r rest) : Checking most R (rest.foldl demoteUsurper r) [] := by
  induction rest generalizing r with
  | nil => exact h
  | cons slot rest ih => exact ih (demoteUsurper_checking hR h)

omit [SqlText] in
/-- A guild that is checked has its shape. -/
theorem Checking.structured (h : Checking most R r []) : Structured most r.guild := by
  obtain ⟨leader, hleader, hguid, hzero⟩ := h.led
  refine ⟨h.distinct, h.enough, h.notMany, h.below, ⟨leader, hleader, hguid⟩, fun slot hslot => ?_⟩
  constructor
  · intro hfirst
    exact (h.usurpers slot hslot hfirst).resolve_right nofun
  · intro heq
    have hrank := Guild.rankOf_slot h.distinct hslot
    rw [heq, ← hguid, Guild.rankOf_slot h.distinct hleader, hzero] at hrank
    exact (Option.some.inj hrank).symm

/-- A loaded guild whose leader is there. -/
theorem checkLeader_checking (hR : ∀ rank, R rank rank) {slot : MemberSlot}
    (h : Loading R r []) (henough : ranksMinCount ≤ r.guild.ranks.length)
    (hmany : r.guild.ranks.length ≤ most) (hslot : slot ∈ r.guild.members) :
    Checking most R (r.setLeader slot.guid) (r.setLeader slot.guid).guild.members := by
  have hknown : Known R r := ⟨fun guid => h.columns guid nofun, fun p hp => by
    rw [h.nobody] at hp
    cases hp⟩
  have hleader : Known R { r with guild.leaderGuid := slot.guid } :=
    hknown.congr (fun _ => rfl) (fun _ => rfl) rfl
  refine ⟨?_, henough, hmany, ?_, ?_, fun _ hnew _ => Or.inr hnew, ?_, ?_⟩
  · unfold setLeader
    show ((_ : Realm).changeRank slot.guid 0).guild.members.map MemberSlot.guid |>.Nodup
    rw [changeRank_guids]
    exact h.distinct
  · intro new hnew
    obtain ⟨old, hold, rfl⟩ := mem_changeRank.mp hnew
    split_ifs
    · exact h.ranked
    · exact h.below old hold
  · exact ⟨{ slot with rankId := 0 }, mem_changeRank.mpr ⟨slot, hslot, if_pos rfl⟩, rfl, rfl⟩
  · have hchanged : Known R (({ r with guild.leaderGuid := slot.guid } : Realm).changeRank
        slot.guid 0) := by
      refine changeRank_known hR hleader fun p hp => ?_
      replace hp : p ∈ r.players := hp
      rw [h.nobody] at hp
      cases hp
    exact hchanged.congr (fun _ => rfl) (fun _ => rfl) rfl
  · show Lib.writeKey _ _ _ r.players = []
    rw [h.nobody]
    rfl

/-- The check gives a loaded guild its shape, or disbands it. -/
theorem checkGuildStructure_sound (hR : ∀ rank, R rank rank) {r' : Realm}
    (h : Loading R r []) (henough : ranksMinCount ≤ r.guild.ranks.length)
    (hmany : r.guild.ranks.length ≤ most) (hcheck : r.checkGuildStructure = some r') :
    Structured most r'.guild ∧ Known R r' := by
  suffices hchecking : ∃ r₀, Checking most R r₀ r₀.guild.members ∧
      r' = r₀.guild.members.foldl demoteUsurper r₀ by
    obtain ⟨r₀, hr₀, rfl⟩ := hchecking
    have hdone := demoteUsurpers_checking hR hr₀
    exact ⟨hdone.structured, hdone.known⟩
  unfold checkGuildStructure at hcheck
  obtain ⟨r₀, hrepaired, heq⟩ := Option.map_eq_some_iff.mp hcheck
  refine ⟨r₀, ?_, heq.symm⟩
  cases hleader : r.guild.getMemberSlot r.guild.leaderGuid with
  | some slot =>
      obtain ⟨hslot, hguid⟩ := Guild.getMemberSlot_some hleader
      simp only [hleader, Option.some.injEq] at hrepaired
      by_cases hzero : slot.rankId = 0
      · rw [if_neg (not_not.mpr hzero)] at hrepaired
        subst hrepaired
        refine ⟨h.distinct, henough, hmany, h.below, ⟨slot, hslot, hguid, hzero⟩,
          fun _ hnew _ => Or.inr hnew, ⟨fun guid => h.columns guid nofun, fun p hp => ?_⟩, h.nobody⟩
        rw [h.nobody] at hp
        cases hp
      · rw [if_pos hzero] at hrepaired
        subst hrepaired
        exact checkLeader_checking hR h henough hmany hslot
  | none =>
      -- another member becomes the leader; the one who is not there is not taken out again
      have hnot : r.guild.rankOf r.guild.leaderGuid = none := by
        unfold Guild.rankOf
        rw [hleader]
        rfl
      unfold delMember at hrepaired
      simp only [hleader, if_true, Option.map_none] at hrepaired
      cases hbest : r.guild.getSuitableNewLeader with
      | none => simp [hbest] at hrepaired
      | some best =>
          obtain ⟨hmem, hne⟩ := getSuitableNewLeader_some hbest
          simp only [hbest, setNewLeader] at hrepaired
          have hset := checkLeader_checking hR h henough hmany hmem
          generalize hold : r.guild.leaderGuid = old at hrepaired hnot hne
          split at hrepaired
          · cases hrepaired
          · cases hrepaired
            have hkept : old ∉ (r.setLeader best.guid).guild.members.map MemberSlot.guid := by
              unfold setLeader
              show old ∉ ((_ : Realm).changeRank best.guid 0).guild.members.map MemberSlot.guid
              rw [changeRank_guids]
              exact Guild.rankOf_none.mp hnot
            have hmembers : ((r.setLeader best.guid).eraseMember old).guild.members =
                (r.setLeader best.guid).guild.members := Lib.eraseKey_of_notMem hkept
            have hnobody : ((r.setLeader best.guid).eraseMember old).players = [] := by
              show Lib.writeKey _ _ _ (r.setLeader best.guid).players = []
              rw [hset.nobody]
              rfl
            refine ⟨?_, hset.enough, hset.notMany, ?_, ?_, fun _ hnew _ => Or.inr hnew,
              eraseMember_known hset.known fun p hp => ?_, hnobody⟩
            · rw [hmembers]
              exact hset.distinct
            · rw [hmembers]
              exact hset.below
            · rw [hmembers]
              exact hset.led
            · rw [hset.nobody] at hp
              cases hp

omit [SqlText] in
/-- Every row is loaded as a rank. -/
theorem loadRanks_length (rows : List RankRow) : (rows.foldl loadRank []).length = rows.length := by
  have hlength : ∀ (rows : List RankRow) (start : List RankInfo),
      (rows.foldl loadRank start).length = start.length + rows.length := by
    intro rows
    induction rows with
    | nil => exact fun start => rfl
    | cons row rest ih =>
        intro start
        rw [List.foldl_cons, ih, List.length_cons]
        simp only [loadRank, List.length_append, List.length_singleton]
        omega
  have hrows := hlength rows []
  rwa [List.length_nil, Nat.zero_add] at hrows

/-- The ranks that are loaded are as many as the rows, or the default ones. -/
theorem loadRanksFromDB_spec (r : Realm) (names : DefaultNames) :
    ((r.loadRanksFromDB names).guild.ranks.length = r.tables.ranks.length ∧
        ranksMinCount ≤ r.tables.ranks.length ∨
      (r.loadRanksFromDB names).guild.ranks.length = ranksMinCount ∧
        r.tables.ranks.length < ranksMinCount) ∧
    (r.loadRanksFromDB names).guild.members = r.guild.members ∧
    (r.loadRanksFromDB names).tables.members = r.tables.members ∧
    (r.loadRanksFromDB names).players = r.players := by
  have hreinsert : ∀ (ranks : List (ℕ × RankInfo)) (t : Tables),
      (ranks.foldl reinsertRank t).members = t.members := by
    intro ranks
    induction ranks with
    | nil => exact fun t => rfl
    | cons rank rest ih =>
        intro t
        rw [List.foldl_cons, ih]
        simp only [reinsertRank, Tables.exec]
        split <;> rfl
  have hrows := loadRanks_length r.tables.ranks
  unfold loadRanksFromDB
  simp only []
  split
  · obtain ⟨hdefault, -, hmembers, htables, hplayers, -⟩ := createDefaultGuildRanks_spec
      { r with guild.ranks := [] } names rfl
    refine ⟨Or.inr ⟨?_, by omega⟩, hmembers, htables, hplayers⟩
    rw [hdefault]
    rfl
  · split
    · exact ⟨Or.inl ⟨hrows, by omega⟩, rfl, hreinsert _ _, rfl⟩
    · exact ⟨Or.inl ⟨hrows, by omega⟩, rfl, rfl, rfl⟩

end Load

/-- A loaded guild has its shape, when not too many ranks are loaded. The guids are the key of
`guild_member`. -/
theorem load_sound (hmost : ranksMinCount ≤ most) (hR : ∀ rank, R rank rank) {tables : Tables} {characters : ℕ → Option Text}
    {names : DefaultNames} (hkeys : (tables.members.map MemberRow.guid).Nodup)
    (hmany : tables.ranks.length ≤ most)
    (hrank : ∀ row ∈ tables.members, ∀ g : Guild,
      (g.ranks.length = tables.ranks.length ∧ ranksMinCount ≤ tables.ranks.length ∨
        g.ranks.length = ranksMinCount ∧ tables.ranks.length < ranksMinCount) →
      R (g.existingRank row.rank) row.rank) :
    Sound most R (load tables characters names) := by
  intro r' hr'
  unfold load at hr'
  obtain ⟨r'', hchecked, rfl⟩ := Option.map_eq_some_iff.mp hr'
  obtain ⟨r₁, hmembers, hcheck⟩ := Option.bind_eq_some_iff.mp hchecked
  have hspec := loadRanksFromDB_spec ⟨⟨tables.leaderguid, tables.motd, tables.info, [], []⟩, [],
    tables, tables, [], characters⟩ names
  obtain ⟨hlength, hnone, htables, hnobody⟩ := hspec
  generalize Realm.loadRanksFromDB _ names = r₀ at *
  replace hlength : r₀.guild.ranks.length = tables.ranks.length ∧
      ranksMinCount ≤ tables.ranks.length ∨ r₀.guild.ranks.length = ranksMinCount ∧
        tables.ranks.length < ranksMinCount := hlength
  have hcount : ranksMinCount ≤ r₀.guild.ranks.length ∧ r₀.guild.ranks.length ≤ most := by
    unfold ranksMinCount at *
    omega
  have hloading : Loading R r₀ r₀.tables.members := by
    have hempty : r₀.guild.members = [] := hnone
    rw [htables]
    refine ⟨?_, ?_, fun guid hguid => ?_, fun row hrow => ?_, fun row hrow => ?_, hkeys, hnobody, ?_⟩
    · rw [hempty]
      exact List.nodup_nil
    · rw [hempty]
      nofun
    · have hrankOf : r₀.guild.rankOf guid = none := Guild.rankOf_none.mpr (by simp [hempty])
      have hcolumn : r₀.tables.columnOf guid = none := by
        unfold Tables.columnOf
        rw [Option.map_eq_none_iff, List.find?_eq_none, htables]
        intro row hrow heq
        exact hguid (of_decide_eq_true heq ▸ List.mem_map_of_mem hrow)
      rw [hrankOf, hcolumn]
      exact Option.Rel.none
    · unfold Tables.columnOf
      rw [htables, Lib.find_key hkeys hrow rfl]
      rfl
    · exact Guild.rankOf_none.mpr (by simp [hempty])
    · unfold ranksMinCount at hcount
      omega
  have hdone := loadMembers_loading hloading fun row hrow => hrank row (htables ▸ hrow) _ hlength
  unfold loadMembersFromDB at hmembers
  simp only [] at hmembers
  split at hmembers
  · cases hmembers
  · cases hmembers
    obtain ⟨hstructured, hknown⟩ :=
      checkGuildStructure_sound hR hdone.1 (hdone.2 ▸ hcount.1) (hdone.2 ▸ hcount.2) hcheck
    exact ⟨hstructured, hknown.congr (fun _ => rfl) (fun _ => rfl) rfl⟩

end Realm

/-- Where a run of a guild starts: it is new, and nobody is in it yet, or loaded with ten ranks at
most. The guids are the key of `guild_member`. -/
inductive Begun : Option Realm → Prop
  | created (players : List Player) (characters : ℕ → Option Text) (names : Realm.DefaultNames)
      (motd : Text) (leader : ℕ) (signers : List ℕ) (nobody : ∀ p ∈ players, p.inGuild = false) :
      Begun (Realm.create players characters names motd leader signers)
  | loaded (tables : Tables) (characters : ℕ → Option Text) (names : Realm.DefaultNames)
      (keys : (tables.members.map MemberRow.guid).Nodup)
      (notMany : tables.ranks.length ≤ ranksMaxCount) :
      Begun (Realm.load tables characters names)

/-- Every guild begins with its shape. -/
theorem Begun.sound {s : Option Realm} (h : Begun s) : Sound ranksMaxCount (· ≤ ·) s := by
  cases h with
  | created players characters names motd leader signers nobody =>
      exact Realm.create_sound (Nat.le_refl _) (fun _ => Nat.le_refl _) nobody
  | loaded tables characters names keys notMany =>
      refine Realm.load_sound (by decide) (fun _ => Nat.le_refl _) keys notMany fun row _ g hg => ?_
      unfold Guild.existingRank Guild.getLowestRank
      split <;> omega

/-- The law of the ranks: the guild keeps its shape, and every request is respectful. -/
structure RankLaw (start : Option Realm) (events : List Event) : Prop where
  structured : ∀ r, Lib.run guildStep start events = some r → Structured ranksMaxCount r.guild
  respectful : Lib.Along Respectful guildStep start events

end Origin

section Example

variable {R : ℕ → ℕ → Prop}

/-- Nobody is between two maps, and no rank that could be deleted is in use. -/
def Realm.Calm (r : Realm) : Prop :=
  (∀ p ∈ r.players, p.inWorld = true) ∧
    (ranksMinCount < r.guild.ranks.length → ∀ slot ∈ r.guild.members,
      slot.rankId ≠ r.guild.getLowestRank)

instance (r : Realm) : Decidable r.Calm := inferInstanceAs (Decidable (_ ∧ _))

/-- In a calm guild every request is careful. -/
theorem careful_of_calm {s : Option Realm} {sender : ℕ} {request : Request}
    (h : s.all (fun r => decide r.Calm) = true) : Careful R s (.request sender request) := by
  cases s with
  | none => trivial
  | some r =>
      obtain ⟨hworld, hunused⟩ := of_decide_eq_true h
      intro p _ _ _
      refine ⟨fun _ _ => hunused, fun touched _ p hp _ hout => ?_⟩
      rw [hworld p hp] at hout
      cases hout

/-- A login is careful when the database has the rank. -/
theorem careful_login (hR : ∀ rank, R rank rank) {s : Option Realm} {guid : ℕ}
    (h : s.all (fun r => decide (r.stored.columnOf guid = r.guild.rankOf guid)) = true) :
    Careful R s (.login guid) := by
  cases s with
  | none => trivial
  | some r =>
      intro _
      unfold FitsStored
      rw [of_decide_eq_true h]
      cases r.guild.rankOf guid with
      | none => exact Option.Rel.none
      | some rank => exact Option.Rel.some (hR rank)

/-- Players who have just logged in, outside of any guild. -/
def strangers (guids : List ℕ) : List Player :=
  guids.map fun guid => ⟨guid, true, false, false, 0, false, false, 0⟩

/-- A guild of player 1, whose petition the others have signed. -/
def signed (signers : List ℕ) : Option Realm :=
  Realm.create (strangers (1 :: signers)) (fun guid => some [guid.toUInt8])
    ⟨[77], [79], [86], [69], [73]⟩ [] 1 signers

/-- An officer is demoted while he is offline, and logs in before the database has executed the
statement. -/
def staleEvents : List Event :=
  [.request 1 (.promote [2]), .request 1 (.promote [2]), .request 1 (.promote [2]),
    .request 1 (.promote [3]), .request 1 (.promote [3])] ++ List.replicate 15 (.execute 0) ++
    [.logout 2, .request 1 (.demote [2]), .login 2, .enterMap 2]

/-- He removes a member who has the rank he has now. -/
theorem login_staleRow : ¬RankLaw (signed [2, 3]) (staleEvents ++ [.request 2 (.remove [3])]) := by
  intro hlaw
  have hrespectful := (Lib.along_append.mp hlaw.respectful).2.1
  have hend : (Lib.run guildStep (signed [2, 3]) staleEvents).any (fun r =>
      decide (r.guild.rankOf 2 = some 2) && (r.guild.members.any fun slot =>
        decide (slot.guid = 3 ∧ slot.rankId = 2)) &&
      (guildStep (some r) (.request 2 (.remove [3]))).all fun r' =>
        decide (r'.guild.rankOf 3 = none)) = true := by
    decide +kernel
  obtain ⟨r, hr, hall⟩ := (Option.any_eq_true _ _).mp hend
  rw [hr] at hrespectful
  obtain ⟨hboth, hgone⟩ := Bool.and_eq_true_iff.mp hall
  obtain ⟨hown, hany⟩ := Bool.and_eq_true_iff.mp hboth
  obtain ⟨slot, hslot, heq⟩ := List.any_eq_true.mp hany
  obtain ⟨hguid, hrank⟩ := of_decide_eq_true heq
  obtain ⟨rank, hrank', hlt⟩ := hrespectful slot hslot (by omega) fun r' hr' hkept => by
    rw [hr', Option.all_some] at hgone
    rw [hguid, of_decide_eq_true hgone] at hkept
    cases hkept
  rw [of_decide_eq_true hown] at hrank'
  cases hrank'
  omega

/-- The lowest rank is added and deleted, and the member logs in again. -/
def promotedEvents : List Event :=
  [.request 1 (.promote [2]), .request 1 (.addRank [82]), .request 1 .delRank, .logout 2,
    .execute 0, .execute 7, .execute 7, .login 2]

end Example

end TwowCore.Guilds
