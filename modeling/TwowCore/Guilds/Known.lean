import TwowCore.Guilds.Requests

/-!
# What the players and the tables know of a rank

The rank of a member stands in his slot, in his column of `guild_member` and, while he has a
session, in a field of his player. `Known R` relates the slot to the other two: by `=` where they
agree, by `≤` where the other two may be behind. The lemmas say how the calls that write a slot
keep it.
-/

namespace TwowCore.Guilds

namespace Guild

/-- The rank of a member. -/
def rankOf (g : Guild) (guid : ℕ) : Option ℕ := (g.getMemberSlot guid).map MemberSlot.rankId

variable {g : Guild} {guid : ℕ}

/-- A slot that is found is a member. -/
theorem getMemberSlot_some {slot : MemberSlot} (h : g.getMemberSlot guid = some slot) :
    slot ∈ g.members ∧ slot.guid = guid :=
  ⟨List.mem_of_find?_eq_some h, by simpa using List.find?_some h⟩

/-- A slot that is found by its name is a member. -/
theorem getMemberSlotByName_some {slot : MemberSlot} {name : Text}
    (h : g.getMemberSlotByName name = some slot) : slot ∈ g.members :=
  List.mem_of_find?_eq_some h

/-- The rank of a slot. -/
theorem rankOf_slot (hnodup : (g.members.map MemberSlot.guid).Nodup) {slot : MemberSlot}
    (hmem : slot ∈ g.members) : g.rankOf slot.guid = some slot.rankId := by
  unfold rankOf getMemberSlot
  rw [Lib.find_key hnodup hmem rfl]
  rfl

/-- A rank is that of a slot. -/
theorem slot_of_rankOf {rank : ℕ} (h : g.rankOf guid = some rank) :
    ∃ slot ∈ g.members, slot.guid = guid ∧ slot.rankId = rank := by
  obtain ⟨slot, hslot, hrank⟩ := Option.map_eq_some_iff.mp h
  exact ⟨slot, (getMemberSlot_some hslot).1, (getMemberSlot_some hslot).2, hrank⟩

/-- One who has no rank is not a member. -/
theorem rankOf_none : g.rankOf guid = none ↔ guid ∉ g.members.map MemberSlot.guid := by
  unfold rankOf getMemberSlot
  rw [Option.map_eq_none_iff, List.find?_eq_none]
  constructor
  · intro h hmem
    obtain ⟨slot, hslot, rfl⟩ := List.mem_map.mp hmem
    simpa using h slot hslot
  · intro h slot hslot hguid
    exact h (of_decide_eq_true hguid ▸ List.mem_map_of_mem hslot)

end Guild

/-- The rank in the column of a member. -/
def Tables.columnOf (t : Tables) (guid : ℕ) : Option ℕ :=
  (t.members.find? fun row => row.guid = guid).map MemberRow.rank

/-- The rank in the field of a player. -/
def Player.field (p : Player) : Option ℕ := if p.inGuild then some p.rank else none

/-- What the column and the field know of the rank of each. -/
structure Known (R : ℕ → ℕ → Prop) (r : Realm) : Prop where
  columns : ∀ guid, Option.Rel R (r.guild.rankOf guid) (r.tables.columnOf guid)
  fields : ∀ p ∈ r.players, Option.Rel R (r.guild.rankOf p.guid) p.field

/-- A new rank fits what the player knows who will not hear of it. -/
def FitsOutside (R : ℕ → ℕ → Prop) (r : Realm) (guid : ℕ) (rank : Option ℕ) : Prop :=
  ∀ p ∈ r.players, p.guid = guid → p.inWorld = false → Option.Rel R rank p.field

variable {R : ℕ → ℕ → Prop} {r : Realm} {guid : ℕ}

/-- Who has the same ranks, columns and players knows the same. -/
theorem Known.congr {r' : Realm} (h : Known R r) (hrank : ∀ guid, r'.guild.rankOf guid =
    r.guild.rankOf guid) (hcolumn : ∀ guid, r'.tables.columnOf guid = r.tables.columnOf guid)
    (hplayers : r'.players = r.players) : Known R r' := by
  refine ⟨fun guid => ?_, fun p hp => ?_⟩
  · rw [hrank, hcolumn]
    exact h.columns guid
  · rw [hrank]
    exact h.fields p (hplayers ▸ hp)

/-- One who knows of no rank has none. -/
theorem Known.outside (h : Known R r) (p : Player) (hp : p ∈ r.players) (hin : p.inGuild = false) :
    r.guild.rankOf p.guid = none := by
  have hrel := h.fields p hp
  rw [Player.field, if_neg (by simp [hin])] at hrel
  generalize r.guild.rankOf p.guid = a at hrel
  cases hrel
  rfl

/-- Changing what a player knows besides his rank. -/
theorem Known.writeSession {f : Player → Player} (h : Known R r)
    (hguid : ∀ p, (f p).guid = p.guid) (hfield : ∀ p, (f p).field = p.field) :
    Known R (r.writeSession guid f) := by
  refine ⟨h.columns, fun p hp => ?_⟩
  obtain ⟨p₀, hp₀, rfl⟩ := Lib.mem_writeKey.mp hp
  have hold := h.fields p₀ hp₀
  split
  · rw [hguid, hfield]
    exact hold
  · exact hold

/-- What the database has of a character fits his rank. -/
def FitsStored (R : ℕ → ℕ → Prop) (r : Realm) (guid : ℕ) : Prop :=
  Option.Rel R (r.guild.rankOf guid) (r.stored.columnOf guid)

/-- A player who logs in knows what the database has. -/
theorem Known.login (h : Known R r) (hstored : FitsStored R r guid) :
    Known R { r with players := r.players ++ [r.loadGuild guid] } := by
  refine ⟨h.columns, fun p hp => ?_⟩
  rcases List.mem_append.mp hp with hold | hnew
  · exact h.fields p hold
  · rw [List.mem_singleton.mp hnew]
    have hfield : (r.loadGuild guid).field = r.stored.columnOf guid := by
      have hrow : ∀ row : Option MemberRow,
          (if row.isSome then some ((row.map MemberRow.rank).getD 0) else none) =
            row.map MemberRow.rank := by
        rintro (_ | _) <;> rfl
      exact hrow _
    rw [hfield]
    exact hstored

/-- Executing a statement is not heard of. -/
theorem Known.execute [SqlText] (h : Known R r) (index : ℕ) : Known R (r.execute index) := by
  unfold Realm.execute
  split <;> exact h.congr (fun _ => rfl) (fun _ => rfl) rfl

/-- A player who logs out is no longer asked. -/
theorem Known.logout (h : Known R r) (guid : ℕ) :
    Known R { r with players := Lib.eraseKey Player.guid guid r.players } :=
  ⟨h.columns, fun p hp => h.fields p (Lib.mem_eraseKey.mp hp).1⟩

variable [SqlText]

namespace Realm

section ChangeRank

variable {newRank : ℕ}

/-- The ranks after one is changed. -/
theorem rankOf_changeRank (other : ℕ) :
    (r.changeRank guid newRank).guild.rankOf other =
      if other = guid then (r.guild.rankOf other).map fun _ => newRank
      else r.guild.rankOf other := by
  show ((Lib.writeKey MemberSlot.guid guid _ r.guild.members).find?
    fun slot => slot.guid = other).map _ = _
  rw [Lib.find_writeKey]
  · split_ifs
    · simp [Guild.rankOf, Guild.getMemberSlot, Option.map_map, Function.comp_def]
    · rfl
  · exact fun _ => rfl

/-- The columns after a rank is changed. -/
theorem columnOf_changeRank (other : ℕ) :
    (r.changeRank guid newRank).tables.columnOf other =
      if other = guid then (r.tables.columnOf other).map fun _ => newRank
      else r.tables.columnOf other := by
  show ((Lib.writeKey MemberRow.guid guid _ r.tables.members).find?
    fun row => row.guid = other).map _ = _
  rw [Lib.find_writeKey]
  · split_ifs
    · simp [Tables.columnOf, Option.map_map, Function.comp_def]
    · rfl
  · exact fun _ => rfl

/-- Changing a rank keeps what is known, if those who do not hear of it are not misled. -/
theorem changeRank_known (hR : ∀ rank, R rank rank) (h : Known R r)
    (hout : FitsOutside R r guid ((r.guild.rankOf guid).map fun _ => newRank)) :
    Known R (r.changeRank guid newRank) := by
  refine ⟨fun other => ?_, fun p hp => ?_⟩
  · rw [rankOf_changeRank, columnOf_changeRank]
    have hold := h.columns other
    split_ifs
    · generalize r.guild.rankOf other = a, r.tables.columnOf other = b at hold
      cases hold with
      | none => exact Option.Rel.none
      | some => exact Option.Rel.some (hR newRank)
    · exact hold
  · obtain ⟨p₀, hp₀, rfl⟩ := Lib.mem_writeKey.mp hp
    have hold := h.fields p₀ hp₀
    by_cases hguid : p₀.guid = guid
    · rw [if_pos hguid]
      cases hworld : p₀.inWorld with
      | false =>
          have hfits := hout p₀ hp₀ hguid hworld
          simp only [Bool.false_eq_true, if_false]
          rw [rankOf_changeRank, if_pos hguid, hguid]
          exact hfits
      | true =>
          simp only [if_true]
          rw [rankOf_changeRank, if_pos hguid]
          generalize r.guild.rankOf p₀.guid = a at hold
          simp only [Player.field] at hold ⊢
          cases hin : p₀.inGuild with
          | false =>
              simp only [hin, Bool.false_eq_true, if_false] at hold ⊢
              cases hold
              exact Option.Rel.none
          | true =>
              simp only [hin, if_true] at hold ⊢
              cases hold
              exact Option.Rel.some (hR newRank)
    · rw [if_neg hguid, rankOf_changeRank, if_neg hguid]
      exact hold

end ChangeRank

/-- The ranks after a member is taken out. -/
theorem rankOf_eraseMember (other : ℕ) :
    (r.eraseMember guid).guild.rankOf other =
      if other = guid then none else r.guild.rankOf other := by
  show ((Lib.eraseKey MemberSlot.guid guid r.guild.members).find?
    fun slot => slot.guid = other).map _ = _
  rw [Lib.find_eraseKey]
  split_ifs <;> rfl

/-- The columns after a member is taken out. -/
theorem columnOf_eraseMember (other : ℕ) :
    (r.eraseMember guid).tables.columnOf other =
      if other = guid then none else r.tables.columnOf other := by
  show ((Lib.eraseKey MemberRow.guid guid r.tables.members).find?
    fun row => row.guid = other).map _ = _
  rw [Lib.find_eraseKey]
  split_ifs <;> rfl

/-- Taking a member out keeps what is known, if he hears of it. -/
theorem eraseMember_known (h : Known R r) (hout : FitsOutside R r guid none) :
    Known R (r.eraseMember guid) := by
  refine ⟨fun other => ?_, fun p hp => ?_⟩
  · rw [rankOf_eraseMember, columnOf_eraseMember]
    split_ifs
    · exact Option.Rel.none
    · exact h.columns other
  · obtain ⟨p₀, hp₀, rfl⟩ := Lib.mem_writeKey.mp hp
    by_cases hguid : p₀.guid = guid
    · rw [if_pos hguid]
      cases hworld : p₀.inWorld with
      | false =>
          simp only [Bool.false_eq_true, if_false]
          rw [rankOf_eraseMember, if_pos hguid]
          exact hout p₀ hp₀ hguid hworld
      | true =>
          simp only [if_true]
          rw [rankOf_eraseMember, if_pos hguid]
          exact Option.Rel.none
    · rw [if_neg hguid, rankOf_eraseMember, if_neg hguid]
      exact h.fields p₀ hp₀

section Join

variable {rank : ℕ} {name : Text}

/-- The ranks after a member has joined. -/
theorem rankOf_joinMember (other : ℕ) :
    (r.joinMember guid rank name).guild.rankOf other =
      if other = guid then some rank else r.guild.rankOf other := by
  show ((Lib.eraseKey MemberSlot.guid guid r.guild.members ++ [_]).find?
    fun slot : MemberSlot => slot.guid = other).map _ = _
  rw [List.find?_append, Lib.find_eraseKey]
  by_cases h : other = guid
  · rw [if_pos h, if_pos h, Option.none_or, List.find?_singleton, if_pos (by simp [h])]
    rfl
  · rw [if_neg h, if_neg h, List.find?_singleton, if_neg (by simpa using Ne.symm h),
      Option.or_none]
    rfl

/-- The columns after a member has joined. -/
theorem columnOf_joinMember (hnew : r.tables.columnOf guid = none) (other : ℕ) :
    (r.joinMember guid rank name).tables.columnOf other =
      if other = guid then some rank else r.tables.columnOf other := by
  have hnot : guid ∉ r.tables.members.map MemberRow.guid := by
    intro hmem
    obtain ⟨row, hrow, hguid⟩ := List.mem_map.mp hmem
    have hnone := List.find?_eq_none.mp (Option.map_eq_none_iff.mp hnew) row hrow
    simp [hguid] at hnone
  have htables : (r.joinMember guid rank name).tables.members = r.tables.members ++
      [⟨guid, rank, SqlText.literal (SqlText.escape []), SqlText.literal (SqlText.escape [])⟩] := by
    simp only [joinMember, issue, Tables.exec, if_neg hnot]
  unfold Tables.columnOf at hnew ⊢
  rw [htables, List.find?_append, List.find?_singleton]
  by_cases h : other = guid
  · subst h
    rw [if_pos rfl, Option.map_eq_none_iff.mp hnew, Option.none_or, if_pos (by simp)]
    rfl
  · rw [if_neg h, if_neg (by simpa using Ne.symm h), Option.or_none]

/-- One who joins learns his rank. -/
theorem joinMember_known (hR : ∀ rank, R rank rank) (h : Known R r)
    (hnew : r.guild.rankOf guid = none) : Known R (r.joinMember guid rank name) := by
  have hcolumn : r.tables.columnOf guid = none := by
    have hrel := h.columns guid
    rw [hnew] at hrel
    generalize r.tables.columnOf guid = b at hrel
    cases hrel
    rfl
  refine ⟨fun other => ?_, fun p hp => ?_⟩
  · rw [rankOf_joinMember, columnOf_joinMember hcolumn]
    split_ifs
    · exact Option.Rel.some (hR rank)
    · exact h.columns other
  · obtain ⟨p₀, hp₀, rfl⟩ := Lib.mem_writeKey.mp hp
    by_cases hguid : p₀.guid = guid
    · rw [if_pos hguid, rankOf_joinMember, if_pos hguid]
      exact Option.Rel.some (hR rank)
    · rw [if_neg hguid, rankOf_joinMember, if_neg hguid]
      exact h.fields p₀ hp₀

/-- One who may join is not a member, and joins. -/
theorem addMember_some {r' : Realm}
    (h : ∀ p ∈ r.players, p.inGuild = false → r.guild.rankOf p.guid = none)
    (hadd : r.addMember guid rank = some r') :
    r.guild.rankOf guid = none ∧
      ∃ name, r.characters guid = some name ∧ r' = r.joinMember guid rank name := by
  unfold addMember at hadd
  cases hname : r.characters guid with
  | none => simp [hname] at hadd
  | some name =>
      simp only [hname] at hadd
      cases hfind : r.findPlayer guid with
      | none =>
          simp only [hfind] at hadd
          split at hadd
          · cases hadd
          · rename_i hslot
            refine ⟨?_, name, rfl, (Option.some.inj hadd).symm⟩
            rw [Guild.rankOf, Option.not_isSome_iff_eq_none.mp hslot]
            rfl
      | some p =>
          simp only [hfind] at hadd
          have hmem : p ∈ r.players := List.mem_of_find?_eq_some hfind
          have hguid : p.guid = guid := by simpa using List.find?_some hfind
          split at hadd
          · cases hadd
          · rename_i hin
            refine ⟨?_, name, rfl, (Option.some.inj hadd).symm⟩
            rw [← hguid]
            exact h p hmem (by simpa using fun hmember => hin (Or.inl hmember))

end Join

end Realm

end TwowCore.Guilds
