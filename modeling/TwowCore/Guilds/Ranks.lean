import Mathlib.Tactic.Basic
import TwowCore.Guilds.Known

/-!
# Ranks and the leader

`Structured` is what a guild should be at all times: five to ten ranks, every member on one of
them, and one member on the first, the leader. Of the requests `delRank` alone can break it, since
it does not look whether the rank is in use.

A handler compares the rank in the field of the sender with the rank in the slot of the other. So a
member who is demoted or removed while he is on his way to another map keeps what he could do
before. So does one who logs in while the statement about his rank waits in the queue of the database.
`Request.touches` are the ranks a request changes, and `Careful` leaves the three cases out.
-/

namespace TwowCore.Guilds

/-- The shape of a guild, of `most` ranks at most. -/
structure Structured (most : ℕ) (g : Guild) : Prop where
  distinct : (g.members.map MemberSlot.guid).Nodup
  enough : ranksMinCount ≤ g.ranks.length
  notMany : g.ranks.length ≤ most
  below : ∀ slot ∈ g.members, slot.rankId < g.ranks.length
  led : ∃ slot ∈ g.members, slot.guid = g.leaderGuid
  leads : ∀ slot ∈ g.members, slot.rankId = 0 ↔ slot.guid = g.leaderGuid

/-- The ranks a request changes, with the rank each then has; none is that of one who is removed. -/
def Request.touches (r : Realm) (p : Player) : Request → List (ℕ × Option ℕ)
  | .remove name =>
      match r.guild.getMemberSlotByName name with
      | some slot =>
          if r.guild.hasRankRight p.rank .remove ∧ slot.rankId ≠ 0 ∧ p.rank < slot.rankId then
            [(slot.guid, none)]
          else []
      | none => []
  | .promote name =>
      match r.guild.getMemberSlotByName name with
      | some slot =>
          if r.guild.hasRankRight p.rank .promote ∧ slot.guid ≠ p.guid ∧
              p.rank + 1 < slot.rankId then
            [(slot.guid, some (slot.rankId - 1))]
          else []
      | none => []
  | .demote name =>
      match r.guild.getMemberSlotByName name with
      | some slot =>
          if r.guild.hasRankRight p.rank .demote ∧ slot.guid ≠ p.guid ∧ p.rank < slot.rankId ∧
              slot.rankId < r.guild.getLowestRank then
            [(slot.guid, some (slot.rankId + 1))]
          else []
      | none => []
  | .leave => if p.guid ≠ r.guild.leaderGuid then [(p.guid, none)] else []
  | .leader name =>
      match r.guild.getMemberSlotByName name with
      | some slot =>
          if p.guid = r.guild.leaderGuid ∧ p.guid ≠ slot.guid then
            [(slot.guid, some 0), (p.guid, some 1)]
          else []
      | none => []
  | _ => []

/-- The lowest rank may be deleted: no member has it. -/
def Guild.LowestUnused (g : Guild) : Prop := ∀ slot ∈ g.members, slot.rankId ≠ g.getLowestRank

/-- A request of a player deletes a rank only when nobody has it, and whoever does not hear that
his rank changes still knows one that fits. -/
structure CarefulRequest (R : ℕ → ℕ → Prop) (r : Realm) (p : Player) (request : Request) :
    Prop where
  unused : request = .delRank → p.guid = r.guild.leaderGuid →
    ranksMinCount < r.guild.ranks.length → r.guild.LowestUnused
  heard : ∀ touched ∈ request.touches r p, FitsOutside R r touched.1 touched.2

/-- Every request of a member in the world is careful, and whoever logs in is found in the database with
a rank that fits his. -/
def Careful (R : ℕ → ℕ → Prop) : Option Realm → Event → Prop
  | some r, .request sender request =>
      ∀ p, r.findPlayer sender = some p → p.inWorld = true → p.inGuild = true →
        CarefulRequest R r p request
  | some r, .login guid => r.findPlayer guid = none → FitsStored R r guid
  | _, _ => True

namespace Structured

variable {most : ℕ} {g : Guild}

/-- The leader has the first rank, and he alone. -/
theorem rankOf_leader (h : Structured most g) : g.rankOf g.leaderGuid = some 0 := by
  obtain ⟨slot, hslot, hguid⟩ := h.led
  rw [← hguid, Guild.rankOf_slot h.distinct hslot, (h.leads slot hslot).mpr hguid]

/-- Two guilds with the same members and leader, and enough ranks in the second. -/
theorem congr {g' : Guild} (h : Structured most g) (hmembers : g'.members = g.members)
    (hleader : g'.leaderGuid = g.leaderGuid) (henough : ranksMinCount ≤ g'.ranks.length)
    (hmany : g'.ranks.length ≤ most)
    (hbelow : ∀ slot ∈ g.members, slot.rankId < g'.ranks.length) : Structured most g' := by
  refine ⟨?_, henough, hmany, ?_, ?_, ?_⟩
  · rw [hmembers]
    exact h.distinct
  · rw [hmembers]
    exact hbelow
  · rw [hmembers, hleader]
    exact h.led
  · rw [hmembers, hleader]
    exact h.leads

end Structured

namespace Realm

variable {most : ℕ} {r : Realm} {guid : ℕ}

/-- The lowest rank is a rank, and not the first. -/
theorem getLowestRank_spec (h : Structured most r.guild) :
    r.guild.getLowestRank < r.guild.ranks.length ∧ r.guild.getLowestRank ≠ 0 := by
  have henough := h.enough
  unfold ranksMinCount at henough
  unfold Guild.getLowestRank
  omega

section Slots

variable {f : MemberSlot → MemberSlot}

/-- The ranks after a slot is rewritten that keeps its rank. -/
theorem rankOf_writeSlot (hguid : ∀ slot, (f slot).guid = slot.guid)
    (hrank : ∀ slot, (f slot).rankId = slot.rankId) (other : ℕ) :
    (r.writeSlot guid f).guild.rankOf other = r.guild.rankOf other := by
  show ((Lib.writeKey MemberSlot.guid guid f r.guild.members).find?
    fun slot => slot.guid = other).map _ = _
  rw [Lib.find_writeKey hguid]
  split_ifs
  · simp [Guild.rankOf, Guild.getMemberSlot, Option.map_map, Function.comp_def, hrank]
  · rfl

/-- Rewriting a slot that keeps its rank keeps the shape. -/
theorem writeSlot_structured (hguid : ∀ slot, (f slot).guid = slot.guid)
    (hrank : ∀ slot, (f slot).rankId = slot.rankId) (h : Structured most r.guild) :
    Structured most (r.writeSlot guid f).guild := by
  have hmem : ∀ slot ∈ (r.writeSlot guid f).guild.members, ∃ old ∈ r.guild.members,
      slot.guid = old.guid ∧ slot.rankId = old.rankId := by
    intro slot hslot
    obtain ⟨old, hold, rfl⟩ := Lib.mem_writeKey.mp hslot
    refine ⟨old, hold, ?_⟩
    split_ifs
    · exact ⟨hguid old, hrank old⟩
    · exact ⟨rfl, rfl⟩
  have hkeys : (r.writeSlot guid f).guild.members.map MemberSlot.guid =
      r.guild.members.map MemberSlot.guid := Lib.writeKey_keys fun slot _ => hguid slot
  refine ⟨?_, h.enough, h.notMany, fun slot hslot => ?_, ?_, fun slot hslot => ?_⟩
  · rw [hkeys]
    exact h.distinct
  · obtain ⟨old, hold, -, heq⟩ := hmem slot hslot
    rw [heq]
    exact h.below old hold
  · have hled : r.guild.leaderGuid ∈ (r.writeSlot guid f).guild.members.map MemberSlot.guid := by
      rw [hkeys]
      obtain ⟨slot, hslot, hguid⟩ := h.led
      exact hguid ▸ List.mem_map_of_mem hslot
    obtain ⟨slot, hslot, hguid⟩ := List.mem_map.mp hled
    exact ⟨slot, hslot, hguid⟩
  · obtain ⟨old, hold, heq, hrank⟩ := hmem slot hslot
    rw [heq, hrank]
    exact h.leads old hold

end Slots

end Realm

/-- What a request leaves: the shape, what is known, and every rank it does not touch. -/
structure Kept (most : ℕ) (R : ℕ → ℕ → Prop) (r r' : Realm) (touched : List (ℕ × Option ℕ)) : Prop where
  structured : Structured most r'.guild
  known : Known R r'
  frame : ∀ guid, r.guild.rankOf guid ≠ none →
    r'.guild.rankOf guid = r.guild.rankOf guid ∨ ∃ new, (guid, new) ∈ touched

section Frames

variable {most : ℕ} {R : ℕ → ℕ → Prop} {r : Realm} {touched : List (ℕ × Option ℕ)}

/-- Nothing happens. -/
theorem Kept.same (hs : Structured most r.guild) (hk : Known R r) : Kept most R r r touched :=
  ⟨hs, hk, fun _ _ => Or.inl rfl⟩

/-- Nothing happens to the members and the players. -/
theorem Kept.congr {r' : Realm} (hs : Structured most r'.guild) (hk : Known R r)
    (hmembers : r'.guild.members = r.guild.members)
    (htables : r'.tables.members = r.tables.members) (hplayers : r'.players = r.players) :
    Kept most R r r' touched := by
  have hrank : ∀ guid, r'.guild.rankOf guid = r.guild.rankOf guid := by
    intro guid
    unfold Guild.rankOf Guild.getMemberSlot
    rw [hmembers]
  refine ⟨hs, hk.congr hrank (fun guid => ?_) hplayers, fun guid _ => Or.inl (hrank guid)⟩
  unfold Tables.columnOf
  rw [htables]

/-- A player is told something else than a rank. -/
theorem Kept.session {f : Player → Player} {guid : ℕ} (hs : Structured most r.guild) (hk : Known R r)
    (hguid : ∀ p, (f p).guid = p.guid) (hfield : ∀ p, (f p).field = p.field) :
    Kept most R r (r.writeSession guid f) touched :=
  ⟨hs, hk.writeSession hguid hfield, fun _ _ => Or.inl rfl⟩

end Frames

variable [SqlText]

/-- Nobody but the sender and those on a rank below his changes his rank or is removed. -/
def Respectful : Option Realm → Event → Prop
  | some r, .request sender request =>
      ∀ slot ∈ r.guild.members, slot.guid ≠ sender →
        (∀ r', guildStep (some r) (.request sender request) = some r' →
          r'.guild.rankOf slot.guid ≠ some slot.rankId) →
        ∃ rank, r.guild.rankOf sender = some rank ∧ rank < slot.rankId
  | _, _ => True

namespace Realm

variable {most : ℕ} {r : Realm} {guid newRank : ℕ}

/-- A slot after a rank is changed. -/
theorem mem_changeRank {slot : MemberSlot} :
    slot ∈ (r.changeRank guid newRank).guild.members ↔
      ∃ old ∈ r.guild.members,
        (if old.guid = guid then { old with rankId := newRank } else old) = slot :=
  Lib.mem_writeKey

/-- Changing a rank keeps the guids. -/
theorem changeRank_guids : (r.changeRank guid newRank).guild.members.map MemberSlot.guid =
    r.guild.members.map MemberSlot.guid :=
  Lib.writeKey_keys fun _ _ => rfl

/-- A rank that exists, and is the first for the leader alone, keeps the shape. -/
theorem changeRank_structured (h : Structured most r.guild) (hbelow : newRank < r.guild.ranks.length)
    (hzero : newRank = 0 ↔ guid = r.guild.leaderGuid) :
    Structured most (r.changeRank guid newRank).guild := by
  refine ⟨?_, h.enough, h.notMany, fun slot hslot => ?_, ?_, fun slot hslot => ?_⟩
  · rw [changeRank_guids]
    exact h.distinct
  · obtain ⟨old, hold, rfl⟩ := mem_changeRank.mp hslot
    split_ifs
    · exact hbelow
    · exact h.below old hold
  · obtain ⟨old, hold, hguid⟩ := h.led
    refine ⟨_, mem_changeRank.mpr ⟨old, hold, rfl⟩, ?_⟩
    show _ = r.guild.leaderGuid
    split_ifs
    · exact hguid
    · exact hguid
  · obtain ⟨old, hold, rfl⟩ := mem_changeRank.mp hslot
    show _ ↔ _ = r.guild.leaderGuid
    split_ifs with hguid
    · exact hguid ▸ hzero
    · exact h.leads old hold

/-- The leader hands the guild over. -/
theorem setNewLeader_structured (h : Structured most r.guild) {slot : MemberSlot}
    (hslot : slot ∈ r.guild.members) (hne : slot.guid ≠ r.guild.leaderGuid) :
    Structured most (r.setNewLeader slot.guid (some r.guild.leaderGuid)).guild := by
  have hmem : ∀ new, new ∈ (r.setNewLeader slot.guid (some r.guild.leaderGuid)).guild.members ↔
      ∃ old ∈ r.guild.members, new =
        if old.guid = slot.guid then { old with rankId := 0 }
        else if old.guid = r.guild.leaderGuid then { old with rankId := 1 } else old := by
    intro new
    unfold setNewLeader
    rw [mem_changeRank]
    constructor
    · rintro ⟨mid, hmid, rfl⟩
      obtain ⟨old, hold, rfl⟩ := mem_changeRank.mp hmid
      refine ⟨old, hold, ?_⟩
      by_cases h1 : old.guid = slot.guid
      · rw [if_pos h1, if_pos h1, if_neg]
        exact h1 ▸ hne
      · rw [if_neg h1, if_neg h1]
    · rintro ⟨old, hold, rfl⟩
      refine ⟨_, mem_changeRank.mpr ⟨old, hold, rfl⟩, ?_⟩
      by_cases h1 : old.guid = slot.guid
      · rw [if_pos h1, if_pos h1, if_neg]
        exact h1 ▸ hne
      · rw [if_neg h1, if_neg h1]
  have hranks : (r.setNewLeader slot.guid (some r.guild.leaderGuid)).guild.ranks =
      r.guild.ranks := rfl
  have hleader : (r.setNewLeader slot.guid (some r.guild.leaderGuid)).guild.leaderGuid =
      slot.guid := rfl
  have henough := h.enough
  unfold ranksMinCount at henough
  refine ⟨?_, h.enough, h.notMany, fun new hnew => ?_, ?_, fun new hnew => ?_⟩
  · unfold setNewLeader
    rw [changeRank_guids]
    show ((_ : Realm).changeRank slot.guid 0).guild.members.map MemberSlot.guid |>.Nodup
    rw [changeRank_guids]
    exact h.distinct
  · obtain ⟨old, hold, rfl⟩ := (hmem new).mp hnew
    rw [hranks]
    split_ifs
    · show 0 < _
      omega
    · show 1 < _
      omega
    · exact h.below old hold
  · exact ⟨{ slot with rankId := 0 }, (hmem _).mpr ⟨slot, hslot, (if_pos rfl).symm⟩, rfl⟩
  · obtain ⟨old, hold, rfl⟩ := (hmem new).mp hnew
    rw [hleader]
    split_ifs with h1 h2
    · exact iff_of_true rfl h1
    · exact iff_of_false (by simp) h1
    · exact iff_of_false (fun hzero => h2 ((h.leads old hold).mp hzero)) h1

/-- A member who is not the leader is taken out. -/
theorem eraseMember_structured (h : Structured most r.guild) (hnot : guid ≠ r.guild.leaderGuid) :
    Structured most (r.eraseMember guid).guild := by
  refine ⟨Lib.eraseKey_nodup h.distinct, h.enough, h.notMany, fun slot hslot => ?_, ?_,
    fun slot hslot => ?_⟩
  · exact h.below slot (Lib.mem_eraseKey.mp hslot).1
  · obtain ⟨slot, hslot, hguid⟩ := h.led
    exact ⟨slot, Lib.mem_eraseKey.mpr ⟨hslot, hguid ▸ hnot.symm⟩, hguid⟩
  · exact h.leads slot (Lib.mem_eraseKey.mp hslot).1

/-- One joins on a rank that is not the first. -/
theorem joinMember_structured {name : Text} (h : Structured most r.guild)
    (hnew : r.guild.rankOf guid = none) (hbelow : newRank < r.guild.ranks.length)
    (hzero : newRank ≠ 0) : Structured most (r.joinMember guid newRank name).guild := by
  have hnot : guid ∉ r.guild.members.map MemberSlot.guid := Guild.rankOf_none.mp hnew
  have hmembers : (r.joinMember guid newRank name).guild.members =
      r.guild.members ++ [⟨guid, name, newRank, [], []⟩] := by
    show Lib.eraseKey _ _ _ ++ _ = _
    rw [Lib.eraseKey_of_notMem hnot]
  have hleader : guid ≠ r.guild.leaderGuid := by
    rintro rfl
    rw [h.rankOf_leader] at hnew
    cases hnew
  refine ⟨?_, h.enough, h.notMany, ?_, ?_, ?_⟩
  · rw [hmembers, List.map_append, List.map_singleton]
    refine List.nodup_append.mpr ⟨h.distinct, List.nodup_singleton _, fun a ha b hb hab => ?_⟩
    have hguid : a = guid := hab.trans (List.mem_singleton.mp hb)
    exact hnot (hguid ▸ ha)
  · rw [hmembers]
    intro slot hslot
    rcases List.mem_append.mp hslot with hold | hjoined
    · exact h.below slot hold
    · rw [List.mem_singleton.mp hjoined]
      exact hbelow
  · rw [hmembers]
    obtain ⟨slot, hslot, hguid⟩ := h.led
    exact ⟨slot, List.mem_append_left _ hslot, hguid⟩
  · rw [hmembers]
    intro slot hslot
    rcases List.mem_append.mp hslot with hold | hjoined
    · exact h.leads slot hold
    · rw [List.mem_singleton.mp hjoined]
      exact iff_of_false hzero hleader

end Realm

section Handlers

variable {most : ℕ} {R : ℕ → ℕ → Prop} {r : Realm} {p : Player}

/-- The rank of one member changes. -/
theorem Kept.changeRank (hR : ∀ rank, R rank rank) {guid newRank : ℕ} (hk : Known R r)
    (hs : Structured most (r.changeRank guid newRank).guild) (hmember : r.guild.rankOf guid ≠ none)
    (hout : FitsOutside R r guid (some newRank)) :
    Kept most R r (r.changeRank guid newRank) [(guid, some newRank)] := by
  refine ⟨hs, Realm.changeRank_known hR hk ?_, fun other _ => ?_⟩
  · obtain ⟨rank, hrank⟩ := Option.ne_none_iff_exists'.mp hmember
    rw [hrank]
    exact hout
  · rw [Realm.rankOf_changeRank]
    by_cases h : other = guid
    · exact Or.inr ⟨some newRank, by simp [h]⟩
    · exact Or.inl (if_neg h)

/-- One member is taken out. -/
theorem Kept.eraseMember {guid : ℕ} (hs : Structured most r.guild) (hk : Known R r)
    (hnot : guid ≠ r.guild.leaderGuid) (hout : FitsOutside R r guid none) :
    Kept most R r (r.eraseMember guid) [(guid, none)] := by
  refine ⟨Realm.eraseMember_structured hs hnot, Realm.eraseMember_known hk hout,
    fun other _ => ?_⟩
  rw [Realm.rankOf_eraseMember]
  by_cases h : other = guid
  · exact Or.inr ⟨none, by simp [h]⟩
  · exact Or.inl (if_neg h)

/-- `DelMember` of one who is not the leader. -/
theorem delMember_kept {r' : Realm} {guid : ℕ} (hs : Structured most r.guild) (hk : Known R r)
    (hnot : guid ≠ r.guild.leaderGuid) (hout : FitsOutside R r guid none)
    (h : Realm.disbandIf (r.delMember guid) = some r') : Kept most R r r' [(guid, none)] := by
  have hkept := Kept.eraseMember hs hk hnot hout
  unfold Realm.delMember at h
  rw [if_neg hnot.symm] at h
  cases hempty : (r.eraseMember guid).guild.members.isEmpty with
  | true =>
      simp only [hempty, Realm.disbandIf] at h
      cases h
  | false =>
      simp only [hempty, Realm.disbandIf, Option.some.injEq] at h
      exact h ▸ hkept

/-- The guild is handed over. -/
theorem setNewLeader_kept (hR : ∀ rank, R rank rank) {slot : MemberSlot} (hs : Structured most r.guild)
    (hk : Known R r) (hslot : slot ∈ r.guild.members) (hne : slot.guid ≠ r.guild.leaderGuid)
    (hnew : FitsOutside R r slot.guid (some 0))
    (hold : FitsOutside R r r.guild.leaderGuid (some 1)) :
    Kept most R r (r.setNewLeader slot.guid (some r.guild.leaderGuid))
      [(slot.guid, some 0), (r.guild.leaderGuid, some 1)] := by
  have hrank : ({ r with guild.leaderGuid := slot.guid } : Realm).guild.rankOf slot.guid =
      some slot.rankId := Guild.rankOf_slot hs.distinct hslot
  have hmoved : Known R { r with guild.leaderGuid := slot.guid } :=
    hk.congr (fun _ => rfl) (fun _ => rfl) rfl
  have hfirst : Known R (r.setLeader slot.guid) := by
    have hchanged : Known R (({ r with guild.leaderGuid := slot.guid } : Realm).changeRank
        slot.guid 0) := by
      refine Realm.changeRank_known hR hmoved ?_
      rw [hrank]
      exact hnew
    exact hchanged.congr (fun _ => rfl) (fun _ => rfl) rfl
  have hother : ∀ guid, (r.setLeader slot.guid).guild.rankOf guid =
      if guid = slot.guid then (r.guild.rankOf guid).map fun _ => 0 else r.guild.rankOf guid :=
    Realm.rankOf_changeRank
  refine ⟨Realm.setNewLeader_structured hs hslot hne, ?_, fun guid _ => ?_⟩
  · refine Realm.changeRank_known hR hfirst ?_
    rw [hother, if_neg hne.symm, hs.rankOf_leader]
    intro p hp hguid hworld
    obtain ⟨p₀, hp₀, rfl⟩ := Lib.mem_writeKey.mp hp
    by_cases h : p₀.guid = slot.guid
    · rw [if_pos h] at hguid
      have hsame : p₀.guid = r.guild.leaderGuid := by
        rw [← hguid]
        split_ifs <;> rfl
      exact absurd (h.symm.trans hsame) hne
    · rw [if_neg h] at hguid hworld ⊢
      exact hold p₀ hp₀ hguid hworld
  · show ((r.setLeader slot.guid).changeRank r.guild.leaderGuid 1).guild.rankOf guid = _ ∨ _
    rw [Realm.rankOf_changeRank, hother]
    by_cases h1 : guid = slot.guid
    · exact Or.inr ⟨some 0, by simp [h1]⟩
    · by_cases h2 : guid = r.guild.leaderGuid
      · exact Or.inr ⟨some 1, by simp [h2]⟩
      · rw [if_neg h2, if_neg h1]
        exact Or.inl rfl

/-- One joins on the lowest rank. -/
theorem addMember_kept (hR : ∀ rank, R rank rank) {r' : Realm} {guid : ℕ}
    {touched : List (ℕ × Option ℕ)} (hs : Structured most r.guild) (hk : Known R r)
    (h : r.addMember guid r.guild.getLowestRank = some r') : Kept most R r r' touched := by
  obtain ⟨hnew, name, -, rfl⟩ := Realm.addMember_some hk.outside h
  have hlowest := Realm.getLowestRank_spec hs
  refine ⟨Realm.joinMember_structured hs hnew hlowest.1 hlowest.2,
    Realm.joinMember_known hR hk hnew, fun other hother => ?_⟩
  rw [Realm.rankOf_joinMember]
  by_cases heq : other = guid
  · exact absurd (heq ▸ hnew) hother
  · exact Or.inl (if_neg heq)

/-- A slot is rewritten that keeps its rank, and its row with it. -/
theorem Kept.writeSlot {f : MemberSlot → MemberSlot} {statement : Statement} {guid : ℕ}
    {touched : List (ℕ × Option ℕ)} (hs : Structured most r.guild) (hk : Known R r)
    (hguid : ∀ slot, (f slot).guid = slot.guid) (hrank : ∀ slot, (f slot).rankId = slot.rankId)
    (hcolumn : ∀ other, (r.tables.exec statement).columnOf other = r.tables.columnOf other) :
    Kept most R r ((r.writeSlot guid f).issue statement) touched := by
  have hranks : ∀ other, (r.writeSlot guid f).guild.rankOf other = r.guild.rankOf other :=
    Realm.rankOf_writeSlot hguid hrank
  exact ⟨Realm.writeSlot_structured hguid hrank hs, hk.congr hranks hcolumn rfl,
    fun other _ => Or.inl (hranks other)⟩

omit [SqlText] in
/-- The columns after a row is rewritten that keeps its rank. -/
theorem columnOf_writeRow {t t' : Tables} {f : MemberRow → MemberRow} {guid : ℕ}
    (h : t'.members = Lib.writeKey MemberRow.guid guid f t.members)
    (hguid : ∀ row, (f row).guid = row.guid) (hrank : ∀ row, (f row).rank = row.rank)
    (other : ℕ) : t'.columnOf other = t.columnOf other := by
  unfold Tables.columnOf
  rw [h, Lib.find_writeKey hguid]
  split_ifs
  · simp [Option.map_map, Function.comp_def, hrank]
  · rfl

/-- A note is set. -/
theorem setPublicNote_kept {slot : MemberSlot} {note : Text} {touched : List (ℕ × Option ℕ)}
    (hs : Structured most r.guild) (hk : Known R r) :
    Kept most R r (r.setPublicNote slot note) touched := by
  unfold Realm.setPublicNote
  split
  · exact Kept.same hs hk
  · exact Kept.writeSlot hs hk (fun _ => rfl) (fun _ => rfl)
      (columnOf_writeRow rfl (fun _ => rfl) fun _ => rfl)

/-- A note of the officers is set. -/
theorem setOfficerNote_kept {slot : MemberSlot} {note : Text} {touched : List (ℕ × Option ℕ)}
    (hs : Structured most r.guild) (hk : Known R r) :
    Kept most R r (r.setOfficerNote slot note) touched := by
  unfold Realm.setOfficerNote
  split
  · exact Kept.same hs hk
  · exact Kept.writeSlot hs hk (fun _ => rfl) (fun _ => rfl)
      (columnOf_writeRow rfl (fun _ => rfl) fun _ => rfl)

omit [SqlText] in
/-- The ranks change, and there are still enough of them. -/
theorem Kept.ranks {r' : Realm} {touched : List (ℕ × Option ℕ)} (hs : Structured most r.guild)
    (hk : Known R r) (hguild : r'.guild.members = r.guild.members)
    (hleader : r'.guild.leaderGuid = r.guild.leaderGuid)
    (htables : r'.tables.members = r.tables.members) (hplayers : r'.players = r.players)
    (henough : ranksMinCount ≤ r'.guild.ranks.length)
    (hmany : r'.guild.ranks.length ≤ most)
    (hbelow : ∀ slot ∈ r.guild.members, slot.rankId < r'.guild.ranks.length) :
    Kept most R r r' touched :=
  Kept.congr (hs.congr hguild hleader henough hmany hbelow) hk hguild htables hplayers

/-- A rank is named and given its rights. -/
theorem handleGuildRank_kept {rankId : ℕ} {rights : UInt32} {name : Text}
    {touched : List (ℕ × Option ℕ)} (hs : Structured most r.guild) (hk : Known R r) :
    Kept most R r (r.handleGuildRank p rankId rights name) touched := by
  unfold Realm.handleGuildRank
  split
  · exact Kept.same hs hk
  · by_cases hrank : rankId ≥ r.guild.ranks.length
    · unfold Realm.setRankName
      rw [if_pos hrank]
      unfold Realm.setRankRights
      rw [if_pos hrank]
      exact Kept.same hs hk
    · have hlength : (r.setRankName rankId name).guild.ranks.length = r.guild.ranks.length := by
        unfold Realm.setRankName
        rw [if_neg hrank]
        exact List.length_modify ..
      unfold Realm.setRankRights
      rw [if_neg (hlength ▸ hrank)]
      unfold Realm.setRankName at hlength ⊢
      rw [if_neg hrank] at hlength ⊢
      refine Kept.ranks hs hk rfl rfl rfl rfl ?_ ?_ ?_
      all_goals
        show _
        simp only [Realm.issue, List.length_modify] at hlength ⊢
      · exact hs.enough
      · exact hs.notMany
      · exact hs.below

/-- A rank is added. -/
theorem handleGuildAddRank_kept (hmost : ranksMaxCount ≤ most) {name : Text}
    {touched : List (ℕ × Option ℕ)} (hs : Structured most r.guild) (hk : Known R r) :
    Kept most R r (r.handleGuildAddRank p name) touched := by
  unfold Realm.handleGuildAddRank
  split
  · exact Kept.same hs hk
  · split
    · exact Kept.same hs hk
    · rename_i hfull
      unfold Realm.createRank
      rw [if_neg hfull]
      have henough := hs.enough
      refine Kept.ranks hs hk rfl rfl ?_ rfl ?_ ?_ fun slot hslot => ?_
      · simp only [Realm.issue, Tables.exec]
        split <;> rfl
      all_goals simp only [Realm.issue, List.length_append, List.length_singleton]
      · omega
      · omega
      · have hbelow := hs.below slot hslot
        omega

/-- The lowest rank is deleted, and nobody has it. -/
theorem handleGuildDelRank_kept {touched : List (ℕ × Option ℕ)} (hs : Structured most r.guild)
    (hk : Known R r) (hunused : p.guid = r.guild.leaderGuid →
      ranksMinCount < r.guild.ranks.length → r.guild.LowestUnused) :
    Kept most R r (r.handleGuildDelRank p) touched := by
  unfold Realm.handleGuildDelRank
  split
  · exact Kept.same hs hk
  · rename_i hleader
    unfold Realm.delRank
    split
    · exact Kept.same hs hk
    · rename_i hfew
      have hlowest := hunused (not_not.mp hleader) (by omega)
      have hmany := hs.notMany
      refine Kept.ranks hs hk rfl rfl rfl rfl ?_ ?_ fun slot hslot => ?_
      all_goals simp only [Realm.issue, List.length_dropLast]
      · omega
      · omega
      · have hbelow := hs.below slot hslot
        have hnot := hlowest slot hslot
        unfold Guild.getLowestRank at hnot
        omega

/-- An invitation is accepted. -/
theorem handleGuildAccept_kept (hR : ∀ rank, R rank rank) {r' : Realm}
    {touched : List (ℕ × Option ℕ)} (hs : Structured most r.guild) (hk : Known R r)
    (h : some (r.handleGuildAccept p) = some r') : Kept most R r r' touched := by
  obtain rfl := Option.some.inj h
  unfold Realm.handleGuildAccept
  split
  · exact Kept.same hs hk
  · cases hadd : r.addMember p.guid r.guild.getLowestRank with
    | none => exact Kept.same hs hk
    | some r' => exact addMember_kept hR hs hk hadd

omit [SqlText] in
/-- An invitation is declined. -/
theorem handleGuildDecline_kept {r' : Realm} {touched : List (ℕ × Option ℕ)}
    (hs : Structured most r.guild) (hk : Known R r) (h : some (r.handleGuildDecline p) = some r') :
    Kept most R r r' touched := by
  obtain rfl := Option.some.inj h
  unfold Realm.handleGuildDecline
  split
  · exact Kept.same hs hk
  · exact Kept.session hs hk (fun _ => rfl) fun _ => rfl

omit [SqlText] in
/-- A player is invited. -/
theorem handleGuildInvite_kept {target : ℕ} {touched : List (ℕ × Option ℕ)}
    (hs : Structured most r.guild) (hk : Known R r) :
    Kept most R r (r.handleGuildInvite p target) touched := by
  unfold Realm.handleGuildInvite
  split
  · exact Kept.same hs hk
  · split
    · exact Kept.same hs hk
    · split
      · exact Kept.session hs hk (fun _ => rfl) fun _ => rfl
      · exact Kept.same hs hk

/-- A member is removed. -/
theorem handleGuildRemove_kept {r' : Realm} {name : Text}
    (hs : Structured most r.guild) (hk : Known R r)
    (hheard : ∀ touched ∈ (Request.remove name).touches r p, FitsOutside R r touched.1 touched.2)
    (h : r.handleGuildRemove p name = some r') :
    Kept most R r r' ((Request.remove name).touches r p) := by
  unfold Realm.handleGuildRemove at h
  split at h
  · cases h
    exact Kept.same hs hk
  · rename_i hright
    simp only [Request.touches] at hheard ⊢
    split at h
    · cases h
      exact Kept.same hs hk
    · rename_i slot hfind
      simp only [hfind] at hheard ⊢
      have hslot := Guild.getMemberSlotByName_some hfind
      split at h
      · cases h
        exact Kept.same hs hk
      · rename_i hzero
        split at h
        · cases h
          exact Kept.same hs hk
        · rename_i hhigher
          have hmoves : r.guild.hasRankRight p.rank .remove ∧ slot.rankId ≠ 0 ∧
              p.rank < slot.rankId := ⟨by simpa using hright, hzero, by omega⟩
          rw [if_pos hmoves] at hheard ⊢
          exact delMember_kept hs hk (fun heq => hzero ((hs.leads slot hslot).mpr heq))
            (hheard _ (List.mem_singleton_self _)) h

/-- A member is promoted. -/
theorem handleGuildPromote_kept (hR : ∀ rank, R rank rank) {name : Text}
    (hs : Structured most r.guild) (hk : Known R r)
    (hheard : ∀ touched ∈ (Request.promote name).touches r p, FitsOutside R r touched.1 touched.2) :
    Kept most R r (r.handleGuildPromote p name) ((Request.promote name).touches r p) := by
  unfold Realm.handleGuildPromote
  split
  · exact Kept.same hs hk
  · rename_i hright
    simp only [Request.touches] at hheard ⊢
    split
    · exact Kept.same hs hk
    · rename_i slot hfind
      simp only [hfind] at hheard ⊢
      have hslot := Guild.getMemberSlotByName_some hfind
      split
      · exact Kept.same hs hk
      · rename_i hself
        split
        · exact Kept.same hs hk
        · rename_i hhigher
          have hmoves : r.guild.hasRankRight p.rank .promote ∧ slot.guid ≠ p.guid ∧
              p.rank + 1 < slot.rankId := ⟨by simpa using hright, hself, by omega⟩
          rw [if_pos hmoves] at hheard ⊢
          have hbelow := hs.below slot hslot
          have hnot : slot.guid ≠ r.guild.leaderGuid := fun heq => by
            have hzero := (hs.leads slot hslot).mpr heq
            omega
          refine Kept.changeRank hR hk ?_ ?_ (hheard _ (List.mem_singleton_self _))
          · exact Realm.changeRank_structured hs (by omega) (iff_of_false (by omega) hnot)
          · rw [Guild.rankOf_slot hs.distinct hslot]
            exact Option.some_ne_none _

/-- A member is demoted. -/
theorem handleGuildDemote_kept (hR : ∀ rank, R rank rank) {name : Text}
    (hs : Structured most r.guild) (hk : Known R r)
    (hheard : ∀ touched ∈ (Request.demote name).touches r p, FitsOutside R r touched.1 touched.2) :
    Kept most R r (r.handleGuildDemote p name) ((Request.demote name).touches r p) := by
  unfold Realm.handleGuildDemote
  split
  · exact Kept.same hs hk
  · rename_i hright
    simp only [Request.touches] at hheard ⊢
    split
    · exact Kept.same hs hk
    · rename_i slot hfind
      simp only [hfind] at hheard ⊢
      have hslot := Guild.getMemberSlotByName_some hfind
      split
      · exact Kept.same hs hk
      · rename_i hself
        split
        · exact Kept.same hs hk
        · rename_i hhigher
          split
          · exact Kept.same hs hk
          · rename_i hlow
            have hmoves : r.guild.hasRankRight p.rank .demote ∧ slot.guid ≠ p.guid ∧
                p.rank < slot.rankId ∧ slot.rankId < r.guild.getLowestRank :=
              ⟨by simpa using hright, hself, by omega, by omega⟩
            rw [if_pos hmoves] at hheard ⊢
            have hlowest := Realm.getLowestRank_spec hs
            have hnot : slot.guid ≠ r.guild.leaderGuid := fun heq => by
              have hzero := (hs.leads slot hslot).mpr heq
              omega
            refine Kept.changeRank hR hk ?_ ?_ (hheard _ (List.mem_singleton_self _))
            · exact Realm.changeRank_structured hs (by omega) (iff_of_false (by omega) hnot)
            · rw [Guild.rankOf_slot hs.distinct hslot]
              exact Option.some_ne_none _

/-- A member leaves. -/
theorem handleGuildLeave_kept {r' : Realm}
    (hs : Structured most r.guild) (hk : Known R r)
    (hheard : ∀ touched ∈ Request.leave.touches r p, FitsOutside R r touched.1 touched.2)
    (h : r.handleGuildLeave p = some r') :
    Kept most R r r' (Request.leave.touches r p) := by
  unfold Realm.handleGuildLeave at h
  split at h
  · cases h
    exact Kept.same hs hk
  · split at h
    · cases h
    · rename_i hleader
      simp only [Request.touches, if_pos hleader] at hheard ⊢
      exact delMember_kept hs hk hleader (hheard _ (List.mem_singleton_self _)) h

/-- There is a new leader. -/
theorem handleGuildLeader_kept (hR : ∀ rank, R rank rank) {name : Text}
    (hs : Structured most r.guild) (hk : Known R r)
    (hheard : ∀ touched ∈ (Request.leader name).touches r p, FitsOutside R r touched.1 touched.2) :
    Kept most R r (r.handleGuildLeader p name) ((Request.leader name).touches r p) := by
  unfold Realm.handleGuildLeader
  split
  · exact Kept.same hs hk
  · rename_i hleader
    split
    · exact Kept.same hs hk
    · rename_i oldSlot hold
      have hguid := (Guild.getMemberSlot_some hold).2
      simp only [Request.touches] at hheard ⊢
      split
      · exact Kept.same hs hk
      · rename_i slot hfind
        simp only [hfind] at hheard ⊢
        split
        · exact Kept.same hs hk
        · rename_i hother
          have hmoves : p.guid = r.guild.leaderGuid ∧ p.guid ≠ slot.guid :=
            ⟨not_not.mp hleader, hguid ▸ hother⟩
          rw [if_pos hmoves] at hheard ⊢
          rw [hguid, hmoves.1]
          rw [hmoves.1] at hheard
          refine setNewLeader_kept hR hs hk (Guild.getMemberSlotByName_some hfind) ?_
            (hheard _ List.mem_cons_self)
            (hheard _ (List.mem_cons_of_mem _ (List.mem_singleton_self _)))
          exact hmoves.1 ▸ hmoves.2.symm

/-- The message of the day is set. -/
theorem handleGuildMOTD_kept {text : Text} {touched : List (ℕ × Option ℕ)}
    (hs : Structured most r.guild) (hk : Known R r) :
    Kept most R r (r.handleGuildMOTD p text) touched := by
  unfold Realm.handleGuildMOTD
  split
  · exact Kept.same hs hk
  · split
    · exact Kept.ranks hs hk rfl rfl rfl rfl hs.enough hs.notMany hs.below
    · exact Kept.same hs hk

/-- A note for everybody is asked for. -/
theorem handleGuildSetPublicNote_kept {name note : Text} {touched : List (ℕ × Option ℕ)}
    (hs : Structured most r.guild) (hk : Known R r) :
    Kept most R r (r.handleGuildSetPublicNote p name note) touched := by
  unfold Realm.handleGuildSetPublicNote
  split
  · exact Kept.same hs hk
  · split
    · exact Kept.same hs hk
    · split
      · exact Kept.same hs hk
      · exact setPublicNote_kept hs hk

/-- A note of the officers is asked for. -/
theorem handleGuildSetOfficerNote_kept {name note : Text} {touched : List (ℕ × Option ℕ)}
    (hs : Structured most r.guild) (hk : Known R r) :
    Kept most R r (r.handleGuildSetOfficerNote p name note) touched := by
  unfold Realm.handleGuildSetOfficerNote
  split
  · exact Kept.same hs hk
  · split
    · exact Kept.same hs hk
    · split
      · exact Kept.same hs hk
      · exact setOfficerNote_kept hs hk

/-- The text about the guild is set. -/
theorem handleGuildChangeInfoText_kept {text : Text} {touched : List (ℕ × Option ℕ)}
    (hs : Structured most r.guild) (hk : Known R r) :
    Kept most R r (r.handleGuildChangeInfoText p text) touched := by
  unfold Realm.handleGuildChangeInfoText
  split
  · exact Kept.same hs hk
  · split
    · exact Kept.ranks hs hk rfl rfl rfl rfl hs.enough hs.notMany hs.below
    · exact Kept.same hs hk

/-- What a careful request leaves. -/
theorem receive_kept (hmost : ranksMaxCount ≤ most) (hR : ∀ rank, R rank rank) {r' : Realm} {request : Request}
    (hs : Structured most r.guild) (hk : Known R r)
    (hcareful : p.inGuild = true → CarefulRequest R r p request)
    (h : r.receive p request = some r') : Kept most R r r' (request.touches r p) := by
  unfold Realm.receive at h
  by_cases hin : p.inGuild = true
  · rw [if_pos (Or.inl hin)] at h
    obtain ⟨hunused, hheard⟩ := hcareful hin
    cases request with
    | accept => exact handleGuildAccept_kept hR hs hk h
    | decline => exact handleGuildDecline_kept hs hk h
    | chat | officerChat | roster =>
        cases h
        exact Kept.same hs hk
    | invite target =>
        cases h
        exact handleGuildInvite_kept hs hk
    | remove name => exact handleGuildRemove_kept hs hk hheard h
    | promote name =>
        cases h
        exact handleGuildPromote_kept hR hs hk hheard
    | demote name =>
        cases h
        exact handleGuildDemote_kept hR hs hk hheard
    | leave => exact handleGuildLeave_kept hs hk hheard h
    | disband =>
        replace h : r.handleGuildDisband p = some r' := h
        unfold Realm.handleGuildDisband at h
        split at h
        · cases h
          exact Kept.same hs hk
        · cases h
    | leader name =>
        cases h
        exact handleGuildLeader_kept hR hs hk hheard
    | motd text =>
        cases h
        exact handleGuildMOTD_kept hs hk
    | publicNote name note =>
        cases h
        exact handleGuildSetPublicNote_kept hs hk
    | officerNote name note =>
        cases h
        exact handleGuildSetOfficerNote_kept hs hk
    | infoText text =>
        cases h
        exact handleGuildChangeInfoText_kept hs hk
    | rank rankId rights name =>
        cases h
        exact handleGuildRank_kept hs hk
    | addRank name =>
        cases h
        exact handleGuildAddRank_kept hmost hs hk
    | delRank =>
        cases h
        exact handleGuildDelRank_kept hs hk (hunused rfl)
  · by_cases hanswer : request = .accept ∨ request = .decline
    · rw [if_pos (Or.inr hanswer)] at h
      rcases hanswer with rfl | rfl
      · exact handleGuildAccept_kept hR hs hk h
      · exact handleGuildDecline_kept hs hk h
    · rw [if_neg (by simp [hin, hanswer])] at h
      cases h
      exact Kept.same hs hk

/-- A guild that loses one who is not its leader has members left. -/
theorem delMember_some {guid : ℕ} (hs : Structured most r.guild) (hnot : guid ≠ r.guild.leaderGuid) :
    Realm.disbandIf (r.delMember guid) ≠ none := by
  obtain ⟨slot, hslot, -⟩ := (Realm.eraseMember_structured hs hnot).led
  unfold Realm.delMember
  rw [if_neg hnot.symm]
  have hempty : (r.eraseMember guid).guild.members.isEmpty = false := by
    cases hmembers : (r.eraseMember guid).guild.members with
    | nil =>
        rw [hmembers] at hslot
        cases hslot
    | cons => rfl
  simp only [hempty, Realm.disbandIf]
  exact Option.some_ne_none _

/-- Only the leader disbands a guild. -/
theorem receiveMember_none {request : Request} (hs : Structured most r.guild)
    (h : r.receiveMember p request = none) : p.guid = r.guild.leaderGuid := by
  cases request with
  | remove name =>
      replace h : r.handleGuildRemove p name = none := h
      unfold Realm.handleGuildRemove at h
      split at h
      · cases h
      · split at h
        · cases h
        · rename_i slot hfind
          have hslot := Guild.getMemberSlotByName_some hfind
          split at h
          · cases h
          · rename_i hzero
            split at h
            · cases h
            · exact absurd h (delMember_some hs fun heq => hzero ((hs.leads slot hslot).mpr heq))
  | leave =>
      replace h : r.handleGuildLeave p = none := h
      unfold Realm.handleGuildLeave at h
      split at h
      · cases h
      · split at h
        · assumption
        · rename_i hnot
          exact absurd h (delMember_some hs hnot)
  | disband =>
      replace h : r.handleGuildDisband p = none := h
      unfold Realm.handleGuildDisband at h
      split at h
      · cases h
      · rename_i hleader
        exact not_not.mp hleader
  | _ => cases h

omit [SqlText] in
/-- A request touches the rank of the sender, of one below him, or of another when the sender is
the leader. -/
theorem touches_below (hs : Structured most r.guild) (hk : Known (· ≤ ·) r) (hp : p ∈ r.players)
    (hin : p.inGuild = true) {request : Request} {slot : MemberSlot} {new : Option ℕ}
    (hslot : slot ∈ r.guild.members) (hother : slot.guid ≠ p.guid)
    (h : (slot.guid, new) ∈ request.touches r p) :
    ∃ rank, r.guild.rankOf p.guid = some rank ∧ rank < slot.rankId := by
  have hfield := hk.fields p hp
  rw [Player.field, if_pos hin] at hfield
  have hsame : ∀ target ∈ r.guild.members, slot.guid = target.guid →
      slot.rankId = target.rankId := by
    intro target htarget hguid
    have hrank := Guild.rankOf_slot hs.distinct hslot
    rw [hguid, Guild.rankOf_slot hs.distinct htarget] at hrank
    exact (Option.some.inj hrank).symm
  generalize hrank : r.guild.rankOf p.guid = own at hfield
  cases hfield with
  | some hle =>
      rename_i rank
      refine ⟨rank, rfl, ?_⟩
      cases request with
      | remove name | promote name | demote name =>
          simp only [Request.touches] at h
          split at h
          · rename_i target hfind
            have hmem := Guild.getMemberSlotByName_some hfind
            split at h
            · rename_i hmoves
              have hguid : slot.guid = target.guid := congrArg Prod.fst (List.mem_singleton.mp h)
              have hbelow := hsame target hmem hguid
              omega
            · cases h
          · cases h
      | leave =>
          simp only [Request.touches] at h
          split at h
          · exact absurd (congrArg Prod.fst (List.mem_singleton.mp h)) hother
          · cases h
      | leader name =>
          simp only [Request.touches] at h
          split at h
          · rename_i target hfind
            split at h
            · rename_i hmoves
              rw [hmoves.1, hs.rankOf_leader] at hrank
              cases hrank
              have hzero := (hs.leads slot hslot).not.mpr (hmoves.1 ▸ hother)
              omega
            · cases h
          · cases h
      | _ => cases h

end Handlers

/-- The state of a guild that is not disbanded, as far as its shape goes. -/
def Sound (most : ℕ) (R : ℕ → ℕ → Prop) (s : Option Realm) : Prop :=
  ∀ r, s = some r → Structured most r.guild ∧ Known R r

omit [SqlText] in
/-- The player of a guid is a player, and has it. -/
theorem Realm.findPlayer_some {r : Realm} {guid : ℕ} {p : Player}
    (h : r.findPlayer guid = some p) : p ∈ r.players ∧ p.guid = guid :=
  ⟨List.mem_of_find?_eq_some h, by simpa using List.find?_some h⟩

section Runs

variable {most : ℕ} {R : ℕ → ℕ → Prop} {s : Option Realm} {event : Event}

/-- A careful event keeps the shape. -/
theorem guildStep_sound (hmost : ranksMaxCount ≤ most) (hR : ∀ rank, R rank rank) (hcareful : Careful R s event)
    (h : Sound most R s) : Sound most R (guildStep s event) := by
  intro r' hr'
  cases s with
  | none => cases hr'
  | some r =>
      obtain ⟨hs, hk⟩ := h r rfl
      cases event with
      | request sender request =>
          simp only [guildStep] at hr'
          split at hr'
          · cases hr'
            exact ⟨hs, hk⟩
          · rename_i p hfind
            split at hr'
            · rename_i hworld
              have hkept := receive_kept hmost hR hs hk (hcareful p hfind hworld) hr'
              exact ⟨hkept.structured, hkept.known⟩
            · cases hr'
              exact ⟨hs, hk⟩
      | login guid =>
          simp only [guildStep] at hr'
          split at hr'
          · cases hr'
            exact ⟨hs, hk⟩
          · rename_i hfind
            cases hr'
            exact ⟨hs, hk.login (hcareful hfind)⟩
      | logout guid =>
          cases hr'
          exact ⟨hs, hk.logout guid⟩
      | leaveMap guid | enterMap guid | update guid =>
          cases hr'
          exact ⟨hs, hk.writeSession (fun _ => rfl) fun _ => rfl⟩
      | elsewhere guid member =>
          cases hr'
          refine ⟨hs, hk.writeSession (fun p => ?_) fun p => ?_⟩
          · split <;> rfl
          · split
            · rfl
            · rename_i hin
              simp [Player.field, hin]
      | execute index =>
          cases hr'
          refine ⟨?_, hk.execute index⟩
          unfold Realm.execute
          split <;> exact hs

/-- A careful request is respectful. -/
theorem guildStep_respectful (hmost : ranksMaxCount ≤ most)
    (hcareful : Careful (· ≤ ·) s event) (h : Sound most (· ≤ ·) s) :
    Respectful s event := by
  cases s with
  | none => trivial
  | some r =>
      obtain ⟨hs, hk⟩ := h r rfl
      cases event with
      | request sender request =>
          intro slot hslot hother hchanged
          have hrank := Guild.rankOf_slot hs.distinct hslot
          simp only [guildStep] at hchanged
          cases hfind : r.findPlayer sender with
          | none =>
              simp only [hfind] at hchanged
              exact absurd hrank (hchanged r rfl)
          | some p =>
              obtain ⟨hp, hguid⟩ := Realm.findPlayer_some hfind
              simp only [hfind] at hchanged
              by_cases hworld : p.inWorld = true
              · simp only [hworld, if_true] at hchanged
                cases hreceive : r.receive p request with
                | some r' =>
                    have hkept := receive_kept hmost (fun _ => Nat.le_refl _) hs hk
                      (hcareful p hfind hworld) hreceive
                    have hnot := hchanged r' hreceive
                    rcases hkept.frame slot.guid (by rw [hrank]; exact Option.some_ne_none _) with
                      hsame | ⟨new, hnew⟩
                    · exact absurd (hsame.trans hrank) hnot
                    · cases hin : p.inGuild with
                      | true =>
                          have hbelow := touches_below hs hk hp hin hslot (hguid ▸ hother) hnew
                          exact hguid ▸ hbelow
                      | false =>
                          -- one who is not a member only joins
                          exfalso
                          unfold Realm.receive at hreceive
                          by_cases hanswer : request = .accept ∨ request = .decline
                          · rcases hanswer with rfl | rfl <;> cases hnew
                          · rw [if_neg (by simp [hin, hanswer])] at hreceive
                            cases hreceive
                            exact hnot hrank
                | none =>
                    -- the guild is disbanded, by the leader
                    unfold Realm.receive at hreceive
                    split at hreceive
                    · have hleader := receiveMember_none hs hreceive
                      refine ⟨0, ?_, ?_⟩
                      · rw [← hguid, hleader, hs.rankOf_leader]
                      · refine Nat.pos_of_ne_zero fun hzero => hother ?_
                        rw [(hs.leads slot hslot).mp hzero, ← hleader, hguid]
                    · cases hreceive
              · simp only [hworld] at hchanged
                exact absurd hrank (hchanged r rfl)
      | login | logout | leaveMap | enterMap | update | elsewhere | execute => trivial

end Runs

end TwowCore.Guilds
