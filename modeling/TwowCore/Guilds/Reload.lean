import TwowCore.Guilds.Rights

/-!
# Reloading a guild

Every change of a guild is written to memory and, by a statement of its own, to the tables.
`Mirrored` says that the tables hold what is in memory and that loading will find nothing to repair;
`Mirrored.load` is that loading then gives the guild back. A note breaks it that is changed by
escaping, since the escaped text is the one that stays in memory, and so do ranks and leaders that
loading repairs. `CarefulCall` leaves these out.
-/

namespace TwowCore.Guilds

section Reloading

variable [SqlText]

open SqlText (escape literal)

/-- A call that changes a guild, or a restart of the server. -/
inductive Call where
  | addMember (guid rank : ℕ)
  | delMember (guid : ℕ)
  | changeRank (guid newRank : ℕ)
  | setLeader (guid : ℕ)
  | setNewLeader (guid : ℕ)
  | createRank (name : Text) (rights : UInt32)
  | delRank
  | setRankName (rankId : ℕ) (name : Text)
  | setRankRights (rankId : ℕ) (rights : UInt32)
  | setPublicNote (guid : ℕ) (note : Text)
  | setOfficerNote (guid : ℕ) (note : Text)
  | setMOTD (text : Text)
  | setGINFO (text : Text)
  | restart (names : Realm.DefaultNames)

namespace Realm

/-- What a call does. `none` is a guild that is disbanded, as `DelMember` asks its caller. -/
def call (r : Realm) : Call → Option Realm
  | .addMember guid rank => some ((r.addMember guid rank).getD r)
  | .delMember guid => disbandIf (r.delMember guid)
  | .changeRank guid newRank =>
      match r.guild.getMemberSlot guid with
      | none => some r
      | some slot => some (r.changeRank slot.guid newRank)
  | .setLeader guid =>
      match r.guild.getMemberSlot guid with
      | none => some r
      | some slot => some (r.setLeader slot.guid)
  | .setNewLeader guid =>
      match r.guild.getMemberSlot guid, r.guild.getMemberSlot r.guild.leaderGuid with
      | some new, some old =>
          if new.guid = old.guid then some r else some (r.setNewLeader new.guid (some old.guid))
      | _, _ => some r
  | .createRank name rights => some (r.createRank name rights)
  | .delRank => some r.delRank
  | .setRankName rankId name => some (r.setRankName rankId name)
  | .setRankRights rankId rights => some (r.setRankRights rankId rights)
  | .setPublicNote guid note =>
      match r.guild.getMemberSlot guid with
      | none => some r
      | some slot => some (r.setPublicNote slot note)
  | .setOfficerNote guid note =>
      match r.guild.getMemberSlot guid with
      | none => some r
      | some slot => some (r.setOfficerNote slot note)
  | .setMOTD text => some (r.setMOTD text)
  | .setGINFO text => some (r.setGINFO text)
  | .restart names => load r.tables r.characters names

end Realm

/-- One call on a guild. -/
def callStep (s : Option Realm) (c : Call) : Option Realm := s.bind fun r => r.call c

/-- A call that loading has nothing to repair after, and that sets no note that escaping changes. -/
def CarefulCall : Option Realm → Call → Prop
  | some r, .addMember _ rank => rank ≠ 0 ∧ rank < r.guild.ranks.length
  | some r, .changeRank guid newRank =>
      guid ∈ r.guild.members.map MemberSlot.guid →
        newRank < r.guild.ranks.length ∧ (newRank = 0 ↔ guid = r.guild.leaderGuid)
  | some r, .setLeader guid =>
      guid ∈ r.guild.members.map MemberSlot.guid → guid = r.guild.leaderGuid
  | some r, .delRank => ranksMinCount < r.guild.ranks.length → r.guild.LowestUnused
  | some _, .setRankRights rankId rights =>
      rankId = 0 → rights ||| GuildRankRights.all.value = rights
  | some r, .setPublicNote guid note =>
      ∀ slot, r.guild.getMemberSlot guid = some slot → note = slot.publicNote ∨ escape note = note
  | some r, .setOfficerNote guid note =>
      ∀ slot, r.guild.getMemberSlot guid = some slot → note = slot.officerNote ∨ escape note = note
  | _, _ => True

/-- The rank a row is loaded as. -/
def RankRow.load (rid : ℕ) (row : RankRow) : RankInfo :=
  ⟨row.rname, if rid = 0 then row.rights ||| GuildRankRights.all.value else row.rights⟩

/-- The slot a row is loaded as, when its rank exists. -/
def MemberRow.load (characters : ℕ → Option Text) (row : MemberRow) : MemberSlot :=
  ⟨row.guid, (characters row.guid).getD [], row.rank, row.pnote, row.offnote⟩

/-- The tables hold what is in memory. -/
structure Copied (r : Realm) : Prop where
  ranks : ∀ i : ℕ, r.guild.ranks[i]? = r.tables.ranks[i]?.map (RankRow.load i)
  rids : ∀ (i : ℕ) (row : RankRow), r.tables.ranks[i]? = some row → row.rid = i
  members : r.guild.members = r.tables.members.map (MemberRow.load r.characters)
  named : ∀ row ∈ r.tables.members, (r.characters row.guid).isSome
  leader : r.tables.leaderguid = r.guild.leaderGuid
  motd : r.tables.motd = r.guild.motd
  info : r.tables.info = r.guild.info
  outside : ∀ p ∈ r.players, p.inGuild = false → r.guild.rankOf p.guid = none

/-- The tables hold what is in memory, and there is nothing to repair. -/
structure Mirrored (r : Realm) : Prop extends Copied r where
  structured : Structured ranksMaxCount r.guild

namespace Copied

variable {r : Realm} {guid newRank : ℕ}

omit [SqlText] in
/-- A row that is rewritten like its slot. -/
theorem writeRow {t : List MemberRow} {members : List MemberSlot} {characters : ℕ → Option Text}
    {f : MemberRow → MemberRow} {g : MemberSlot → MemberSlot}
    (h : members = t.map (MemberRow.load characters))
    (hwrite : ∀ row ∈ t, row.guid = guid →
      (f row).load characters = g (row.load characters)) :
    Lib.writeKey MemberSlot.guid guid g members =
      (Lib.writeKey MemberRow.guid guid f t).map (MemberRow.load characters) := by
  rw [h]
  exact (Lib.map_writeKey (fun _ => rfl) hwrite).symm

omit [SqlText] in
/-- Rows that are rewritten keep their guids, and so their characters. -/
theorem namedRows {t : List MemberRow} {characters : ℕ → Option Text} {f : MemberRow → MemberRow}
    (hguid : ∀ row, (f row).guid = row.guid) (h : ∀ row ∈ t, (characters row.guid).isSome) :
    ∀ row ∈ Lib.writeKey MemberRow.guid guid f t, (characters row.guid).isSome := by
  intro row hrow
  obtain ⟨old, hold, rfl⟩ := Lib.mem_writeKey.mp hrow
  split_ifs
  · rw [hguid]
    exact h old hold
  · exact h old hold

/-- `ChangeRank` writes slot and row alike. -/
theorem changeRank (h : Copied r) : Copied (r.changeRank guid newRank) := by
  refine ⟨h.ranks, h.rids, writeRow h.members fun row _ _ => rfl,
    namedRows (fun _ => rfl) h.named, h.leader, h.motd, h.info, fun p hp hin => ?_⟩
  obtain ⟨p₀, hp₀, rfl⟩ := Lib.mem_writeKey.mp hp
  have hout : p₀.inGuild = false → r.guild.rankOf p₀.guid = none := h.outside p₀ hp₀
  rw [Realm.rankOf_changeRank]
  have hsame : ∀ q : Player, q = p₀ ∨ q = { p₀ with rank := newRank } → q.inGuild = false →
      (if q.guid = guid then (r.guild.rankOf q.guid).map fun _ => newRank
        else r.guild.rankOf q.guid) = none := by
    rintro q (rfl | rfl) hin
    · rw [hout hin]
      split_ifs <;> rfl
    · have hnone := hout hin
      simp only [hnone, Option.map_none, ite_self]
  refine hsame _ ?_ hin
  split_ifs
  · exact Or.inr rfl
  · exact Or.inl rfl
  · exact Or.inl rfl

/-- `SetLeader` writes the leader too. -/
theorem setLeader (h : Copied r) : Copied (r.setLeader guid) := by
  have hmoved : Copied { r with guild.leaderGuid := guid, tables.leaderguid := guid } :=
    ⟨h.ranks, h.rids, h.members, h.named, rfl, h.motd, h.info, h.outside⟩
  have hchanged : Copied (({ r with guild.leaderGuid := guid, tables.leaderguid := guid } :
      Realm).changeRank guid 0) := hmoved.changeRank
  exact ⟨hchanged.ranks, hchanged.rids, hchanged.members, hchanged.named, rfl, hchanged.motd,
    hchanged.info, hchanged.outside⟩

/-- `SetNewLeader` writes both slots and rows. -/
theorem setNewLeader {old : Option ℕ} (h : Copied r) : Copied (r.setNewLeader guid old) := by
  cases old with
  | none => exact h.setLeader
  | some old => exact h.setLeader.changeRank

/-- The end of `DelMember` takes out slot and row. -/
theorem eraseMember (h : Copied r) : Copied (r.eraseMember guid) := by
  refine ⟨h.ranks, h.rids, ?_, fun row hrow => h.named row (Lib.mem_eraseKey.mp hrow).1, h.leader,
    h.motd, h.info, fun p hp hin => ?_⟩
  · show Lib.eraseKey MemberSlot.guid guid r.guild.members = _
    rw [h.members]
    exact (Lib.map_eraseKey fun _ => rfl).symm
  · obtain ⟨p₀, hp₀, rfl⟩ := Lib.mem_writeKey.mp hp
    have hout : p₀.inGuild = false → r.guild.rankOf p₀.guid = none := h.outside p₀ hp₀
    rw [Realm.rankOf_eraseMember]
    by_cases hguid : p₀.guid = guid
    · rw [if_pos hguid, if_pos]
      split_ifs
      · exact hguid
      · exact hguid
    · rw [if_neg hguid] at hin ⊢
      rw [if_neg hguid]
      exact hout hin

/-- One who joins gets a slot and a row. -/
theorem joinMember {name : Text} (h : Copied r) (hnew : r.guild.rankOf guid = none)
    (hname : r.characters guid = some name) : Copied (r.joinMember guid newRank name) := by
  have hnot : guid ∉ r.guild.members.map MemberSlot.guid := Guild.rankOf_none.mp hnew
  have hrow : guid ∉ r.tables.members.map MemberRow.guid := by
    rw [h.members, List.map_map] at hnot
    exact hnot
  have htables : (r.joinMember guid newRank name).tables =
      { r.tables with
        members := r.tables.members ++
          [⟨guid, newRank, literal (escape []), literal (escape [])⟩] } := by
    simp only [Realm.joinMember, Realm.issue, Tables.exec, if_neg hrow]
  refine ⟨?_, ?_, ?_, ?_, ?_, ?_, ?_, fun p hp hin => ?_⟩
  · rw [htables]
    exact h.ranks
  · rw [htables]
    exact h.rids
  · rw [htables]
    show Lib.eraseKey _ _ r.guild.members ++ [(⟨guid, name, newRank, [], []⟩ : MemberSlot)] =
      (r.tables.members ++ [_]).map (MemberRow.load r.characters)
    rw [Lib.eraseKey_of_notMem hnot, List.map_append, ← h.members]
    simp only [List.map_singleton, MemberRow.load, SqlText.literal_escape, hname,
      Option.getD_some]
  · rw [htables]
    intro row hmem
    rcases List.mem_append.mp hmem with hold | hjoined
    · exact h.named row hold
    · rw [List.mem_singleton.mp hjoined]
      show (r.characters guid).isSome
      rw [hname]
      rfl
  · rw [htables]
    exact h.leader
  · rw [htables]
    exact h.motd
  · rw [htables]
    exact h.info
  · obtain ⟨p₀, hp₀, rfl⟩ := Lib.mem_writeKey.mp hp
    rw [Realm.rankOf_joinMember]
    by_cases hguid : p₀.guid = guid
    · rw [if_pos hguid] at hin
      cases hin
    · rw [if_neg hguid] at hin ⊢
      rw [if_neg hguid]
      exact h.outside p₀ hp₀ hin

/-- A note that escaping leaves alone is written to slot and row alike. -/
theorem setPublicNote {slot : MemberSlot} {note : Text} (h : Copied r)
    (hnote : note = slot.publicNote ∨ escape note = note) :
    Copied (r.setPublicNote slot note) := by
  unfold Realm.setPublicNote
  split
  · exact h
  · rename_i hchanged
    have hplain : escape note = note := hnote.resolve_left fun heq => hchanged heq.symm
    refine ⟨h.ranks, h.rids, writeRow h.members fun row _ _ => ?_,
      namedRows (fun _ => rfl) h.named, h.leader, h.motd, h.info, fun p hp hin => ?_⟩
    · simp only [MemberRow.load, SqlText.literal_escape]
      rw [hplain]
    · show Guild.rankOf (Realm.writeSlot r slot.guid _).guild p.guid = none
      rw [Realm.rankOf_writeSlot]
      · exact h.outside p hp hin
      · exact fun _ => rfl
      · exact fun _ => rfl

/-- A note of the officers that escaping leaves alone. -/
theorem setOfficerNote {slot : MemberSlot} {note : Text} (h : Copied r)
    (hnote : note = slot.officerNote ∨ escape note = note) :
    Copied (r.setOfficerNote slot note) := by
  unfold Realm.setOfficerNote
  split
  · exact h
  · rename_i hchanged
    have hplain : escape note = note := hnote.resolve_left fun heq => hchanged heq.symm
    refine ⟨h.ranks, h.rids, writeRow h.members fun row _ _ => ?_,
      namedRows (fun _ => rfl) h.named, h.leader, h.motd, h.info, fun p hp hin => ?_⟩
    · simp only [MemberRow.load, SqlText.literal_escape]
      rw [hplain]
    · show Guild.rankOf (Realm.writeSlot r slot.guid _).guild p.guid = none
      rw [Realm.rankOf_writeSlot]
      · exact h.outside p hp hin
      · exact fun _ => rfl
      · exact fun _ => rfl

/-- The message is escaped in a copy. -/
theorem setMOTD {text : Text} (h : Copied r) : Copied (r.setMOTD text) :=
  ⟨h.ranks, h.rids, h.members, h.named, h.leader, SqlText.literal_escape text, h.info, h.outside⟩

/-- The info text is escaped in a copy. -/
theorem setGINFO {text : Text} (h : Copied r) : Copied (r.setGINFO text) :=
  ⟨h.ranks, h.rids, h.members, h.named, h.leader, h.motd, SqlText.literal_escape text, h.outside⟩

omit [SqlText] in
/-- As many rows as ranks. -/
theorem ranks_length (h : Copied r) : r.tables.ranks.length = r.guild.ranks.length := by
  by_contra hne
  rcases Nat.lt_or_gt_of_ne hne with hlt | hgt
  · have hrank := h.ranks r.tables.ranks.length
    rw [List.getElem?_eq_getElem hlt, List.getElem?_eq_none (Nat.le_refl _)] at hrank
    cases hrank
  · have hrank := h.ranks r.guild.ranks.length
    rw [List.getElem?_eq_getElem hgt, List.getElem?_eq_none (Nat.le_refl _)] at hrank
    cases hrank

/-- A rank below the first is added with a row. -/
theorem createRank {name : Text} {rights : UInt32} (h : Copied r)
    (hfirst : r.guild.ranks.length = 0 → rights ||| GuildRankRights.all.value = rights) :
    Copied (r.createRank name rights) := by
  have hlength := h.ranks_length
  unfold Realm.createRank
  split
  · exact h
  -- the rows are numbered from 0 on without a gap, so the next number is free
  · have hnot : r.guild.ranks.length ∉ r.tables.ranks.map RankRow.rid := by
      intro hmem
      obtain ⟨row, hrow, hrid⟩ := List.mem_map.mp hmem
      obtain ⟨i, hi⟩ := List.mem_iff_getElem?.mp hrow
      have heq := h.rids i row hi
      have hlt := (List.getElem?_eq_some_iff.mp hi).1
      omega
    have htables : r.tables.exec (.insertRank r.guild.ranks.length (escape name) rights) =
        { r.tables with
          ranks := r.tables.ranks ++ [⟨r.guild.ranks.length, name, rights⟩] } := by
      simp only [Tables.exec, if_neg hnot, SqlText.literal_escape]
    refine ⟨fun i => ?_, fun i row hrow => ?_, ?_, ?_, ?_, ?_, ?_, h.outside⟩
    · simp only [Realm.issue, htables]
      rcases Nat.lt_trichotomy i r.guild.ranks.length with hlt | heq | hgt
      · rw [List.getElem?_append_left hlt, List.getElem?_append_left (by omega)]
        exact h.ranks i
      · subst heq
        rw [List.getElem?_append_right (Nat.le_refl _), List.getElem?_append_right (by omega),
          hlength, Nat.sub_self]
        simp only [List.getElem?_cons_zero, Option.map_some, RankRow.load]
        split_ifs with hzero
        · rw [hfirst hzero]
        · rfl
      · rw [List.getElem?_eq_none (by simp; omega), List.getElem?_eq_none (by simp; omega)]
        rfl
    · simp only [Realm.issue, htables] at hrow
      rcases Nat.lt_or_ge i r.tables.ranks.length with hlt | hge
      · rw [List.getElem?_append_left hlt] at hrow
        exact h.rids i row hrow
      · rw [List.getElem?_append_right hge] at hrow
        obtain ⟨hi, rfl⟩ := List.getElem?_eq_some_iff.mp hrow
        simp only [List.length_singleton] at hi
        simp only [List.getElem_singleton]
        omega
    all_goals simp only [Realm.issue, htables]
    · exact h.members
    · exact h.named
    · exact h.leader
    · exact h.motd
    · exact h.info

omit [SqlText] in
/-- The rows below a rank are the first ones. -/
theorem filter_rids {rows : List RankRow} {first : ℕ}
    (h : ∀ (i : ℕ) (row : RankRow), rows[i]? = some row → row.rid = first + i) (count : ℕ) :
    rows.filter (·.rid < first + count) = rows.take count := by
  induction rows generalizing first count with
  | nil => simp
  | cons row rest ih =>
      have hrid : row.rid = first + 0 := h 0 row rfl
      have hrest : ∀ (i : ℕ) (other : RankRow), rest[i]? = some other →
          other.rid = first + 1 + i := by
        intro i other hother
        have hnext := h (i + 1) other hother
        omega
      cases count with
      | zero =>
          rw [List.take_zero, List.filter_eq_nil_iff]
          intro other hother
          obtain ⟨i, hi⟩ := List.mem_iff_getElem?.mp hother
          have heq := h i other hi
          simp
          omega
      | succ count =>
          have hpos : decide (row.rid < first + (count + 1)) = true := by
            simp
            omega
          have hshift : first + (count + 1) = first + 1 + count := by omega
          rw [List.filter_cons, if_pos hpos, List.take_succ_cons, hshift, ih hrest]

/-- The lowest rank is taken out with its row. -/
theorem delRank (h : Copied r) : Copied r.delRank := by
  have hlength := h.ranks_length
  unfold Realm.delRank
  split
  · exact h
  · have hfilter : r.tables.ranks.filter (·.rid < r.guild.getLowestRank) =
        r.tables.ranks.take r.guild.getLowestRank := by
      have hrids : ∀ (i : ℕ) (row : RankRow), r.tables.ranks[i]? = some row → row.rid = 0 + i := by
        intro i row hrow
        rw [h.rids i row hrow]
        omega
      simpa using filter_rids hrids r.guild.getLowestRank
    refine ⟨fun i => ?_, fun i row hrow => ?_, h.members, h.named, h.leader, h.motd, h.info,
      h.outside⟩
    · simp only [Realm.issue, Tables.exec, hfilter]
      rw [List.dropLast_eq_take]
      by_cases hi : i < r.guild.getLowestRank
      · rw [List.getElem?_take_of_lt hi, List.getElem?_take_of_lt (by exact hi)]
        exact h.ranks i
      · have hge : r.guild.getLowestRank ≤ i := Nat.le_of_not_lt hi
        unfold Guild.getLowestRank at hge ⊢
        rw [List.getElem?_eq_none (by simp; omega), List.getElem?_eq_none (by simp; omega)]
        rfl
    · simp only [Realm.issue, Tables.exec, hfilter] at hrow
      have hi : i < r.guild.getLowestRank := by
        have hlt := (List.getElem?_eq_some_iff.mp hrow).1
        rw [List.length_take] at hlt
        omega
      rw [List.getElem?_take_of_lt hi] at hrow
      exact h.rids i row hrow

omit [SqlText] in
/-- A rank and its row are rewritten alike. -/
theorem writeRank {r' : Realm} {rankId : ℕ} {f : RankInfo → RankInfo} {g : RankRow → RankRow}
    (h : Copied r) (hranks : r'.guild.ranks = r.guild.ranks.modify rankId f)
    (hrows : r'.tables.ranks = Lib.writeKey RankRow.rid rankId g r.tables.ranks)
    (hrid : ∀ row, (g row).rid = row.rid)
    (hload : ∀ row, (g row).load rankId = f (row.load rankId))
    (hguild : r'.guild = { r.guild with ranks := r'.guild.ranks })
    (htables : r'.tables = { r.tables with ranks := r'.tables.ranks })
    (hplayers : r'.players = r.players) (hcharacters : r'.characters = r.characters) :
    Copied r' := by
  have hrow : ∀ i, r'.tables.ranks[i]? =
      r.tables.ranks[i]?.map fun row => if i = rankId then g row else row := by
    intro i
    rw [hrows, Lib.writeKey, List.getElem?_map]
    cases hget : r.tables.ranks[i]? with
    | none => rfl
    | some row =>
        have heq := h.rids i row hget
        simp only [Option.map_some, heq]
  refine ⟨fun i => ?_, fun i row hget => ?_, ?_, ?_, ?_, ?_, ?_, ?_⟩
  · rw [hrow, hranks, List.getElem?_modify, h.ranks i]
    cases r.tables.ranks[i]? with
    | none => rfl
    | some row =>
        simp only [Option.map_some]
        by_cases heq : i = rankId
        · subst heq
          simp [hload]
        · simp [heq, Ne.symm heq]
  · rw [hrow] at hget
    obtain ⟨old, hold, rfl⟩ := Option.map_eq_some_iff.mp hget
    split_ifs
    · rw [hrid]
      exact h.rids i old hold
    · exact h.rids i old hold
  · rw [hguild, htables, hcharacters]
    exact h.members
  · rw [htables, hcharacters]
    exact h.named
  · rw [hguild, htables]
    exact h.leader
  · rw [hguild, htables]
    exact h.motd
  · rw [hguild, htables]
    exact h.info
  · rw [hguild, hplayers]
    exact h.outside

/-- A rank is named. -/
theorem setRankName {rankId : ℕ} {name : Text} (h : Copied r) :
    Copied (r.setRankName rankId name) := by
  unfold Realm.setRankName
  split
  · exact h
  · refine writeRank h rfl rfl (fun _ => rfl) (fun row => ?_) rfl rfl rfl rfl
    simp only [RankRow.load, SqlText.literal_escape]

/-- A rank is given its rights; those of the first have to be all. -/
theorem setRankRights {rankId : ℕ} {rights : UInt32} (h : Copied r)
    (hfirst : rankId = 0 → rights ||| GuildRankRights.all.value = rights) :
    Copied (r.setRankRights rankId rights) := by
  unfold Realm.setRankRights
  split
  · exact h
  · refine writeRank h rfl rfl (fun _ => rfl) (fun row => ?_) rfl rfl rfl rfl
    simp only [RankRow.load]
    split_ifs with hzero
    · rw [hfirst hzero]
    · rfl

end Copied

namespace Mirrored

variable {r : Realm}

omit [SqlText] in
/-- The rows carry the guids of the members. -/
theorem guids (h : Mirrored r) :
    r.tables.members.map MemberRow.guid = r.guild.members.map MemberSlot.guid := by
  rw [h.members, List.map_map]
  rfl

omit [SqlText] in
/-- Reading the ranks gives those in memory. -/
theorem loadRanks (rows : List RankRow) (i : ℕ) :
    (rows.foldl Realm.loadRank [])[i]? = rows[i]?.map (RankRow.load i) := by
  have hfold : ∀ (rows : List RankRow) (start : List RankInfo) (i : ℕ),
      (rows.foldl Realm.loadRank start)[i]? =
        if i < start.length then start[i]? else (rows[i - start.length]?).map (RankRow.load i) := by
    intro rows
    induction rows with
    | nil =>
        intro start i
        split
        · rfl
        · rename_i hge
          simpa using hge
    | cons row rest ih =>
        intro start i
        rw [List.foldl_cons, ih]
        have hlength : (Realm.loadRank start row).length = start.length + 1 := by
          simp [Realm.loadRank]
        rw [hlength]
        rcases Nat.lt_trichotomy i start.length with hlt | heq | hgt
        · rw [if_pos (by omega), if_pos hlt]
          exact List.getElem?_append_left hlt
        · subst heq
          rw [if_pos (by omega), if_neg (Nat.lt_irrefl _), Nat.sub_self]
          unfold Realm.loadRank
          rw [List.getElem?_append_right (Nat.le_refl _), Nat.sub_self]
          cases start with
          | nil => rfl
          | cons a l => rfl
        · rw [if_neg (by omega), if_neg (by omega)]
          have hsub : i - start.length = i - (start.length + 1) + 1 := by omega
          rw [hsub, List.getElem?_cons_succ]
  rw [hfold rows [] i]
  rfl

/-- Reading the members gives those in memory. -/
theorem loadMembers {rows : List MemberRow} {r : Realm}
    (hdistinct : (r.guild.members.map MemberSlot.guid ++ rows.map MemberRow.guid).Nodup)
    (hnamed : ∀ row ∈ rows, (r.characters row.guid).isSome)
    (hbelow : ∀ row ∈ rows, row.rank < r.guild.ranks.length) :
    rows.foldl Realm.loadMember r =
      { r with guild.members := r.guild.members ++ rows.map (MemberRow.load r.characters) } := by
  induction rows generalizing r with
  | nil => simp
  | cons row rest ih =>
      obtain ⟨name, hname⟩ := Option.isSome_iff_exists.mp (hnamed row List.mem_cons_self)
      have hnot : row.guid ∉ r.guild.members.map MemberSlot.guid := fun hmem =>
        (List.nodup_append.mp hdistinct).2.2 _ hmem _ List.mem_cons_self rfl
      have hstep : r.loadMember row =
          { r with guild.members := r.guild.members ++ [row.load r.characters] } := by
        unfold Realm.loadMember MemberRow.load Guild.existingRank
        rw [hname, if_neg (Nat.not_le_of_lt (hbelow row List.mem_cons_self)),
          Lib.eraseKey_of_notMem hnot]
        rfl
      rw [List.foldl_cons, hstep, ih]
      · simp
      · simpa [MemberRow.load] using hdistinct
      · exact fun other hother => hnamed other (List.mem_cons_of_mem _ hother)
      · exact fun other hother => hbelow other (List.mem_cons_of_mem _ hother)

/-- Loading gives the guild back, and repairs nothing. -/
theorem load (h : Mirrored r) (names : Realm.DefaultNames) :
    Realm.load r.tables r.characters names = some { r.settle with players := [] } := by
  have hlength := h.ranks_length
  have henough := h.structured.enough
  have hranks : r.tables.ranks.foldl Realm.loadRank [] = r.guild.ranks := by
    refine List.ext_getElem? fun i => ?_
    rw [loadRanks, h.ranks]
  have hrids : r.tables.ranks.map RankRow.rid = List.range r.guild.ranks.length := by
    refine List.ext_getElem? fun i => ?_
    rw [List.getElem?_map]
    by_cases hi : i < r.tables.ranks.length
    · rw [List.getElem?_range (hlength ▸ hi), List.getElem?_eq_getElem hi]
      exact congrArg some (h.rids i _ (List.getElem?_eq_getElem hi))
    · rw [List.getElem?_eq_none (by omega), List.getElem?_eq_none (by simp; omega)]
      rfl
  obtain ⟨leader, hleader, hguid⟩ := h.structured.led
  have hslot : r.guild.getMemberSlot r.guild.leaderGuid = some leader :=
    Lib.find_key h.structured.distinct hleader hguid
  have hzero : leader.rankId = 0 := (h.structured.leads leader hleader).mpr hguid
  -- nobody but the leader has the first rank, so no one is demoted
  have hnobody : ∀ slots : List MemberSlot, (∀ slot ∈ slots, slot ∈ r.guild.members) →
      slots.foldl Realm.demoteUsurper { r.settle with players := [] } =
        { r.settle with players := [] } := by
    intro slots
    induction slots with
    | nil => exact fun _ => rfl
    | cons slot rest ih =>
        intro hslots
        have hmem := hslots slot List.mem_cons_self
        rw [List.foldl_cons, Realm.demoteUsurper, if_neg]
        · exact ih fun other hother => hslots other (List.mem_cons_of_mem _ hother)
        · rintro ⟨hfirst, hne⟩
          exact hne ((h.structured.leads slot hmem).mp hfirst).symm
  have hread : Realm.loadRanksFromDB
      ⟨⟨r.tables.leaderguid, r.tables.motd, r.tables.info, [], []⟩, [], r.tables, r.tables, [],
        r.characters⟩ names =
      ⟨⟨r.guild.leaderGuid, r.guild.motd, r.guild.info, r.guild.ranks, []⟩, [], r.tables, r.tables, [],
        r.characters⟩ := by
    unfold Realm.loadRanksFromDB
    simp only [hranks]
    rw [if_neg (by omega), if_neg (not_not.mpr hrids), h.leader, h.motd, h.info]
  have hmembers : r.tables.members.foldl Realm.loadMember
      ⟨⟨r.guild.leaderGuid, r.guild.motd, r.guild.info, r.guild.ranks, []⟩, [], r.tables, r.tables, [],
        r.characters⟩ = { r.settle with players := [] } := by
    rw [loadMembers]
    · simp only [List.nil_append]
      rw [← h.members]
      rfl
    · simpa [h.guids] using h.structured.distinct
    · exact h.named
    · intro row hrow
      have hmem : row.load r.characters ∈ r.guild.members := by
        rw [h.members]
        exact List.mem_map_of_mem hrow
      exact h.structured.below _ hmem
  unfold Realm.load Realm.loadMembersFromDB
  simp only []
  rw [hread]
  simp only []
  rw [hmembers]
  have hsome : r.settle.guild.members.isEmpty = false := by
    show r.guild.members.isEmpty = false
    cases hempty : r.guild.members with
    | nil =>
        rw [hempty] at hleader
        cases hleader
    | cons => rfl
  simp only [hsome, Bool.false_eq_true, if_false, Option.bind_some]
  have hfound : r.settle.guild.getMemberSlot r.settle.guild.leaderGuid = some leader := hslot
  unfold Realm.checkGuildStructure
  simp only [hfound, hzero, ne_eq, not_true_eq_false, if_false, Option.map_some]
  show some (Realm.settle (r.guild.members.foldl Realm.demoteUsurper _)) = _
  rw [hnobody r.guild.members fun _ hmem => hmem]
  rfl

end Mirrored

/-- What is left of a mirrored guild is mirrored. -/
def AllMirrored (s : Option Realm) : Prop := ∀ r, s = some r → Mirrored r

section Calls

variable {r r' : Realm}

/-- One who joins below the first rank. -/
theorem Mirrored.addMember {guid rank : ℕ} (h : Mirrored r) (hzero : rank ≠ 0)
    (hbelow : rank < r.guild.ranks.length) : Mirrored ((r.addMember guid rank).getD r) := by
  cases hadd : r.addMember guid rank with
  | none => exact h
  | some r' =>
      obtain ⟨hnew, name, hname, rfl⟩ := Realm.addMember_some h.outside hadd
      exact ⟨h.toCopied.joinMember hnew hname,
        Realm.joinMember_structured h.structured hnew hbelow hzero⟩

/-- One who is taken out; the leader leaves the guild to another. -/
theorem Mirrored.delMember {guid : ℕ} (h : Mirrored r)
    (hdel : Realm.disbandIf (r.delMember guid) = some r') : Mirrored r' := by
  rw [disbandIf_some hdel]
  unfold Realm.delMember at hdel ⊢
  by_cases hleader : r.guild.leaderGuid = guid
  · rw [if_pos hleader] at hdel ⊢
    obtain ⟨slot, hslot, hguid⟩ := h.structured.led
    have hold : r.guild.getMemberSlot guid = some slot :=
      Lib.find_key h.structured.distinct hslot (hguid.trans hleader)
    cases hbest : r.guild.getSuitableNewLeader with
    | none =>
        simp only [hbest, Realm.disbandIf] at hdel
        cases hdel
    | some best =>
        obtain ⟨hmem, hne⟩ := Realm.getSuitableNewLeader_some hbest
        simp only [hold, Option.map_some, hguid]
        have hgiven := Realm.setNewLeader_structured h.structured hmem hne
        refine ⟨(h.toCopied.setNewLeader).eraseMember,
          Realm.eraseMember_structured hgiven ?_⟩
        rw [← hleader]
        exact hne.symm
  · rw [if_neg hleader]
    exact ⟨h.toCopied.eraseMember,
      Realm.eraseMember_structured h.structured (Ne.symm hleader)⟩

omit [SqlText] in
/-- The ranks are changed, and there are still enough of them. -/
theorem Mirrored.ranks_changed (h : Mirrored r) (hcopied : Copied r')
    (hmembers : r'.guild.members = r.guild.members)
    (hleader : r'.guild.leaderGuid = r.guild.leaderGuid)
    (henough : ranksMinCount ≤ r'.guild.ranks.length)
    (hmany : r'.guild.ranks.length ≤ ranksMaxCount)
    (hbelow : ∀ slot ∈ r.guild.members, slot.rankId < r'.guild.ranks.length) : Mirrored r' :=
  ⟨hcopied, h.structured.congr hmembers hleader henough hmany hbelow⟩

/-- A new lowest rank. -/
theorem Mirrored.createRank (h : Mirrored r) (name : Text) (rights : UInt32) :
    Mirrored (r.createRank name rights) := by
  have hs := h.structured
  have henough := hs.enough
  unfold ranksMinCount at henough
  have hcopied : Copied (r.createRank name rights) := h.toCopied.createRank (by omega)
  unfold Realm.createRank at hcopied ⊢
  split
  · exact h
  · rename_i hfull
    rw [if_neg hfull] at hcopied
    refine h.ranks_changed hcopied rfl rfl ?_ ?_ fun slot hslot => ?_
    all_goals simp only [Realm.issue, List.length_append, List.length_singleton]
    · unfold ranksMinCount
      omega
    · omega
    · have hbelow := hs.below slot hslot
      omega

/-- The lowest rank goes, if nobody has it. -/
theorem Mirrored.delRank (h : Mirrored r)
    (hunused : ranksMinCount < r.guild.ranks.length → r.guild.LowestUnused) : Mirrored r.delRank := by
  have hs := h.structured
  have hcopied := h.toCopied.delRank
  have hmany := hs.notMany
  unfold Realm.delRank at hcopied ⊢
  split
  · exact h
  · rename_i hfew
    have hunused := hunused (by omega)
    rw [if_neg hfew] at hcopied
    refine h.ranks_changed hcopied rfl rfl ?_ ?_ fun slot hslot => ?_
    all_goals simp only [Realm.issue, List.length_dropLast]
    · omega
    · omega
    · have hbelow := hs.below slot hslot
      have hnot := hunused slot hslot
      unfold Guild.getLowestRank at hnot
      omega

omit [SqlText] in
/-- One rank is changed. -/
theorem Mirrored.rank_changed {rankId : ℕ} {change : RankInfo → RankInfo} (h : Mirrored r)
    (hcopied : Copied r') (hmembers : r'.guild.members = r.guild.members)
    (hleader : r'.guild.leaderGuid = r.guild.leaderGuid)
    (hranks : r'.guild.ranks = r.guild.ranks.modify rankId change) : Mirrored r' := by
  have hs := h.structured
  have hlength : r'.guild.ranks.length = r.guild.ranks.length := by
    rw [hranks, List.length_modify]
  exact h.ranks_changed hcopied hmembers hleader (hlength ▸ hs.enough) (hlength ▸ hs.notMany)
    fun slot hslot => hlength ▸ hs.below slot hslot

/-- A careful call keeps tables and memory alike. -/
theorem call_mirrored {c : Call} (h : Mirrored r) (hok : CarefulCall (some r) c)
    (hcall : r.call c = some r') : Mirrored r' := by
  have hs := h.structured
  cases c with
  | addMember guid rank =>
      cases hcall
      exact h.addMember hok.1 hok.2
  | delMember guid => exact h.delMember hcall
  | changeRank guid newRank =>
      simp only [Realm.call] at hcall
      split at hcall
      · cases hcall
        exact h
      · rename_i slot hfind
        obtain ⟨hslot, hguid⟩ := Guild.getMemberSlot_some hfind
        obtain ⟨hbelow, hzero⟩ := hok (hguid ▸ List.mem_map_of_mem hslot)
        cases hcall
        rw [hguid]
        exact ⟨h.toCopied.changeRank, Realm.changeRank_structured hs hbelow hzero⟩
  | setLeader guid =>
      simp only [Realm.call] at hcall
      split at hcall
      · cases hcall
        exact h
      · rename_i slot hfind
        obtain ⟨hslot, hguid⟩ := Guild.getMemberSlot_some hfind
        have hleader := hok (hguid ▸ List.mem_map_of_mem hslot)
        cases hcall
        rw [hguid, hleader]
        -- only the leader may be set again: his rank is the first, and it is there
        have henough := hs.enough
        unfold ranksMinCount at henough
        have hsame : Structured ranksMaxCount (r.changeRank r.guild.leaderGuid 0).guild :=
          Realm.changeRank_structured hs (by omega) (iff_of_true rfl rfl)
        exact ⟨h.toCopied.setLeader, hsame⟩
  | setNewLeader guid =>
      simp only [Realm.call] at hcall
      split at hcall
      · rename_i new old hnew hold
        obtain ⟨hslot, hguid⟩ := Guild.getMemberSlot_some hnew
        have holdguid := (Guild.getMemberSlot_some hold).2
        split at hcall
        · cases hcall
          exact h
        · rename_i hne
          cases hcall
          rw [holdguid] at hne ⊢
          exact ⟨h.toCopied.setNewLeader, Realm.setNewLeader_structured hs hslot hne⟩
      · cases hcall
        exact h
  | createRank name rights =>
      cases hcall
      exact h.createRank name rights
  | delRank =>
      cases hcall
      exact h.delRank hok
  | setRankName rankId name =>
      cases hcall
      have hcopied : Copied (r.setRankName rankId name) := h.toCopied.setRankName
      unfold Realm.setRankName at hcopied ⊢
      split
      · exact h
      · rename_i hrank
        rw [if_neg hrank] at hcopied
        exact h.rank_changed hcopied rfl rfl rfl
  | setRankRights rankId rights =>
      cases hcall
      have hcopied : Copied (r.setRankRights rankId rights) := h.toCopied.setRankRights hok
      unfold Realm.setRankRights at hcopied ⊢
      split
      · exact h
      · rename_i hrank
        rw [if_neg hrank] at hcopied
        exact h.rank_changed hcopied rfl rfl rfl
  | setPublicNote guid note =>
      simp only [Realm.call] at hcall
      split at hcall
      · cases hcall
        exact h
      · rename_i slot hfind
        cases hcall
        have hcopied := h.toCopied.setPublicNote (hok slot hfind)
        refine ⟨hcopied, ?_⟩
        unfold Realm.setPublicNote
        split
        · exact hs
        · exact Realm.writeSlot_structured (fun _ => rfl) (fun _ => rfl) hs
  | setOfficerNote guid note =>
      simp only [Realm.call] at hcall
      split at hcall
      · cases hcall
        exact h
      · rename_i slot hfind
        cases hcall
        have hcopied := h.toCopied.setOfficerNote (hok slot hfind)
        refine ⟨hcopied, ?_⟩
        unfold Realm.setOfficerNote
        split
        · exact hs
        · exact Realm.writeSlot_structured (fun _ => rfl) (fun _ => rfl) hs
  | setMOTD text =>
      cases hcall
      exact ⟨h.toCopied.setMOTD, hs.congr rfl rfl hs.enough hs.notMany hs.below⟩
  | setGINFO text =>
      cases hcall
      exact ⟨h.toCopied.setGINFO, hs.congr rfl rfl hs.enough hs.notMany hs.below⟩
  | restart names =>
      -- a restart reads back what memory had, without the players
      simp only [Realm.call, h.load names] at hcall
      cases hcall
      refine ⟨⟨h.ranks, h.rids, h.members, h.named, h.leader, h.motd, h.info, ?_⟩, hs⟩
      intro p hp
      cases hp

end Calls

/-- Those who signed get slots and rows. -/
theorem addSigners_copied {r : Realm} {signers : List ℕ} (h : Copied r) :
    Copied (signers.foldl Realm.addSigner r) := by
  induction signers generalizing r with
  | nil => exact h
  | cons signer rest ih =>
      refine ih ?_
      unfold Realm.addSigner
      cases hadd : r.addMember signer r.guild.getLowestRank with
      | none => exact h
      | some r' =>
          obtain ⟨hnew, name, hname, rfl⟩ := Realm.addMember_some h.outside hadd
          exact h.joinMember hnew hname

/-- A new guild is mirrored. -/
theorem create_mirrored {players : List Player} {characters : ℕ → Option Text}
    {names : Realm.DefaultNames} {motd : Text} {leader : ℕ} {signers : List ℕ}
    (hplayers : ∀ p ∈ players, p.inGuild = false) :
    AllMirrored (Realm.create players characters names motd leader signers) := by
  intro r hr
  refine ⟨?_, (Realm.create_sound (Nat.le_refl _) (fun _ => Nat.le_refl _) hplayers r hr).1⟩
  unfold Realm.create at hr
  obtain ⟨founded, hfounded, rfl⟩ := Option.map_eq_some_iff.mp hr
  have hfounding : Copied (Realm.founding players characters motd leader) :=
    ⟨fun i => rfl, nofun, rfl, nofun, rfl, SqlText.literal_escape motd, SqlText.literal_escape [],
      fun p _ _ => rfl⟩
  have hranked : Copied ((Realm.founding players characters motd leader).createDefaultGuildRanks
      names) := by
    have hissued : Copied ((Realm.founding players characters motd leader).issue .deleteRanks) :=
      ⟨hfounding.ranks, hfounding.rids, hfounding.members, hfounding.named, hfounding.leader,
        hfounding.motd, hfounding.info, hfounding.outside⟩
    refine ((((hissued.createRank fun _ => by decide).createRank fun _ => by decide).createRank
      fun hzero => ?_).createRank fun hzero => ?_).createRank fun hzero => ?_
    all_goals
      exfalso
      revert hzero
      simp [Realm.createRank, Realm.issue, Realm.founding, ranksMaxCount]
  obtain ⟨hnew, name, hname, rfl⟩ := Realm.addMember_some hranked.outside hfounded
  exact addSigners_copied (hranked.joinMember hnew hname)

/-- Loading the guild again gives what is in memory. -/
def Reloads (r : Realm) : Prop :=
  ∀ names, ∃ r', Realm.load r.tables r.characters names = some r' ∧ r'.guild = r.guild

/-- After every run of careful calls on a new guild, loading it again gives what is in memory. -/
theorem run_reloads {players : List Player} {characters : ℕ → Option Text}
    {names : Realm.DefaultNames} {motd : Text} {leader : ℕ} {signers : List ℕ} {calls : List Call}
    (hplayers : ∀ p ∈ players, p.inGuild = false)
    (hok : Lib.Along CarefulCall callStep
      (Realm.create players characters names motd leader signers) calls)
    {r : Realm} (hr : Lib.run callStep
      (Realm.create players characters names motd leader signers) calls = some r) : Reloads r := by
  have hstep : ∀ s c, CarefulCall s c → AllMirrored s → AllMirrored (callStep s c) := by
    intro s c hc hs r' hr'
    obtain ⟨r, hsome, hcall⟩ := Option.bind_eq_some_iff.mp hr'
    subst hsome
    exact call_mirrored (hs r rfl) hc hcall
  have hend := Lib.run_invariant AllMirrored hstep (create_mirrored hplayers) hok
  exact fun names => ⟨_, (hend r hr).load names, rfl⟩

end Reloading

section Example

/-- A note with a quote: memory keeps what the escaping made of it. -/
theorem setPublicNote_quote :
    ∃ r, Lib.run callStep (signed [2]) [.setPublicNote 2 [39]] = some r ∧ ¬Reloads r := by
  have hend : (Lib.run callStep (signed [2]) [.setPublicNote 2 [39]]).any (fun r =>
      (Realm.load r.tables r.characters ⟨[], [], [], [], []⟩).any fun r' =>
        decide (r'.guild ≠ r.guild)) = true := by
    decide +kernel
  obtain ⟨r, hr, hany⟩ := (Option.any_eq_true _ _).mp hend
  obtain ⟨r', hr', hne⟩ := (Option.any_eq_true _ _).mp hany
  refine ⟨r, hr, fun hreloads => ?_⟩
  obtain ⟨r'', hr'', heq⟩ := hreloads ⟨[], [], [], [], []⟩
  rw [hr'] at hr''
  cases hr''
  exact of_decide_eq_true hne heq

/-- Calls on a new guild after which it is loaded as it is in memory: the message has a quote. -/
theorem run_reloads_quote :
    (∀ p ∈ strangers [1, 2], p.inGuild = false) ∧
      Lib.Along CarefulCall callStep (signed [2])
        [.setMOTD [39], .setPublicNote 2 [65], .createRank [82] 0x43, .delRank] ∧
      ∃ r, Lib.run callStep (signed [2])
        [.setMOTD [39], .setPublicNote 2 [65], .createRank [82] 0x43, .delRank] = some r ∧
          Reloads r := by
  have hplayers : ∀ p ∈ strangers [1, 2], p.inGuild = false := by decide
  have hcareful : ∀ {s : Option Realm} {c : Call},
      (∀ r, s = some r → CarefulCall (some r) c) → CarefulCall s c := by
    intro s c h
    cases s with
    | none => cases c <;> trivial
    | some r => exact h r rfl
  have hok : Lib.Along CarefulCall callStep (signed [2])
      [.setMOTD [39], .setPublicNote 2 [65], .createRank [82] 0x43, .delRank] := by
    refine ⟨hcareful fun r _ => trivial, hcareful fun r _ slot _ => Or.inr (by decide),
      hcareful fun r _ => trivial, hcareful fun r hr _ => ?_, trivial⟩
    have hcalm : (Lib.run callStep (signed [2])
        [.setMOTD [39], .setPublicNote 2 [65], .createRank [82] 0x43]).all (fun r =>
          decide (∀ slot ∈ r.guild.members, slot.rankId ≠ r.guild.getLowestRank)) = true := by
      decide +kernel
    have hunused := (Option.all_eq_true _ _).mp hcalm r hr
    unfold Guild.LowestUnused
    simpa using hunused
  have hsome : (Lib.run callStep (signed [2])
      [.setMOTD [39], .setPublicNote 2 [65], .createRank [82] 0x43, .delRank]).isSome = true := by
    decide +kernel
  obtain ⟨r, hr⟩ := Option.isSome_iff_exists.mp hsome
  exact ⟨hplayers, hok, r, hr, run_reloads hplayers hok hr⟩

end Example

end TwowCore.Guilds
