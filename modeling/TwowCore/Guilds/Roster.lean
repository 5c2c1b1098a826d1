import Mathlib
import TwowCore.Guilds.Guild
import TwowCore.Lib.LittleEndian

/-!
# The roster of a guild

The body of `SMSG_GUILD_ROSTER` as `Guild::Roster` builds it. The size is estimated first, with a block size
that has no offline time in it. If the estimate is below what a client takes, every member listed is written;
if not, members are written as long as one block more would fit, by a block size that has no offline time in it
either and notes as long as they are typed, not as long as they are stored.
-/

namespace TwowCore.Guilds

/-- `MAX_INTERNAL_PLAYER_NAME`. -/
def maxInternalPlayerName : ℕ := 15

/-- `MAX_UNCOMPRESSED_PACKET_SIZE`. -/
def maxUncompressedPacketSize : ℕ := 0x8000

/-- `GUILD_MEMBER_BLOCK_SIZE`. -/
def guildMemberBlockSize : ℕ :=
  8 + 1 + (1 + maxInternalPlayerName) + 4 + 1 + 1 + 4 + (1 + guildNoteMaxLength) + (1 + guildNoteMaxLength)

/-- `GUILD_MEMBER_BLOCK_SIZE_WITHOUT_NOTE`. -/
def guildMemberBlockSizeWithoutNote : ℕ :=
  8 + 1 + (1 + maxInternalPlayerName) + 4 + 1 + 1 + 4 + (1 + 0) + (1 + 0)

/-- `GUILD_MAX_MEMBERS`. -/
def guildMaxMembers : ℕ :=
  (0x8000 - 10 - ranksMaxCount - guildInfoMaxLength - guildMotdMaxLength) / guildMemberBlockSizeWithoutNote

/-- A note as `SetPublicNote` and `SetOfficerNote` leave it, of what a player may type. -/
inductive StoredNote : List UInt8 → Prop where
  | empty : StoredNote []
  | set (note : List UInt8) (h : note.length ≤ guildNoteMaxLength) : StoredNote (Lib.escapeText note)

/-- A player who is online, as the roster sees him. -/
structure RosterPlayer where
  name : List UInt8
  level : UInt8
  playerClass : UInt8
  zone : UInt32
  gmDisabledSocials : Bool
  deriving DecidableEq, Repr

/-- `TempMemberInfo`, with the slot it points to. `offlineDays` are the bits of the `float` that is sent. -/
structure TempMemberInfo where
  guid : UInt64
  member : Option RosterPlayer
  name : List UInt8
  rankId : UInt32
  level : UInt8
  playerClass : UInt8
  zone : UInt32
  offlineDays : UInt32
  publicNote : List UInt8
  officerNote : List UInt8
  deriving DecidableEq, Repr

/-- A guild, as its roster shows it. -/
structure RosterGuild where
  motd : List UInt8
  info : List UInt8
  ranks : List UInt32
  members : List TempMemberInfo
  deriving DecidableEq, Repr

/-- `std::sort` by the rank: some order of the members in which the ranks do not fall. -/
structure RankSort where
  sort : List TempMemberInfo → List TempMemberInfo
  perm : ∀ l, (sort l).Perm l
  sorted : ∀ l, (sort l).Pairwise fun a b => a.rankId ≤ b.rankId

/-- A string as a `WorldPacket` has it. -/
def stringBytes (text : List UInt8) : List UInt8 := text ++ [0]

namespace TempMemberInfo

/-- The member is shown as online. -/
def online (m : TempMemberInfo) : Bool := m.member.any fun p => !p.gmDisabledSocials

/-- The bytes `writeMemberData` writes for a member. -/
def block (sendOfficerNote : Bool) (m : TempMemberInfo) : List UInt8 :=
  Lib.littleEndian 8 m.guid.toNat ++ [if m.online then 1 else 0] ++
    (match m.member with
    | some p =>
        stringBytes p.name ++ Lib.littleEndian 4 m.rankId.toNat ++ [p.level, p.playerClass] ++
          Lib.littleEndian 4 p.zone.toNat
    | none =>
        stringBytes m.name ++ Lib.littleEndian 4 m.rankId.toNat ++ [m.level, m.playerClass] ++
          Lib.littleEndian 4 m.zone.toNat ++ Lib.littleEndian 4 m.offlineDays.toNat) ++
    stringBytes m.publicNote ++ stringBytes (if sendOfficerNote then m.officerNote else [])

/-- The bytes a member takes. -/
def blockSize (sendOfficerNote : Bool) (m : TempMemberInfo) : ℕ :=
  22 + (match m.member with
    | some p => p.name.length
    | none => m.name.length + 4) + m.publicNote.length + if sendOfficerNote then m.officerNote.length else 0

theorem length_block (sendOfficerNote : Bool) (m : TempMemberInfo) :
    (m.block sendOfficerNote).length = m.blockSize sendOfficerNote := by
  unfold block blockSize stringBytes
  cases m.member with
  | some p => cases sendOfficerNote <;> simp <;> omega
  | none => cases sendOfficerNote <;> simp <;> omega

end TempMemberInfo

/-- `writeMemberData`. -/
def writeMemberData (inPacketCap sendOfficerNote : Bool) (data : List UInt8) (m : TempMemberInfo) :
    Option (List UInt8) :=
  if inPacketCap = false ∧ maxUncompressedPacketSize ≤ data.length + guildMemberBlockSize then none
  else some (data ++ m.block sendOfficerNote)

/-- The loop that writes members, and counts them, until one is not written. -/
def writeMembers (inPacketCap sendOfficerNote : Bool) : List TempMemberInfo → List UInt8 × UInt32 →
    List UInt8 × UInt32
  | [], written => written
  | m :: rest, (data, finalCount) =>
      match writeMemberData inPacketCap sendOfficerNote data m with
      | some data => writeMembers inPacketCap sendOfficerNote rest (data, finalCount + 1)
      | none => (data, finalCount)

namespace RosterGuild

/-- `totalSize`. -/
def totalSize (g : RosterGuild) : UInt32 :=
  (4 + g.motd.length + 1 + g.info.length + 1 + 4 + 4 * g.ranks.length +
    (g.members.map fun m => guildMemberBlockSizeWithoutNote + m.publicNote.length + 1 +
      m.officerNote.length + 1).sum).toUInt32

/-- `inPacketCap`. -/
def inPacketCap (g : RosterGuild) : Bool := decide (g.totalSize.toNat < maxUncompressedPacketSize)

/-- What is written behind the count. -/
def header (g : RosterGuild) : List UInt8 :=
  stringBytes g.motd ++ stringBytes g.info ++ Lib.littleEndian 4 g.ranks.length ++
    g.ranks.flatMap fun rights => Lib.littleEndian 4 rights.toNat

/-- The members of a cache in the order they are written in, culled to so many. -/
def culled (g : RosterGuild) (s : RankSort) (cache : List TempMemberInfo) (kept : ℕ) : List TempMemberInfo :=
  (if g.inPacketCap then cache else s.sort cache).take kept

/-- Those shown as online, without any who has no player. -/
def onlineMembers (g : RosterGuild) (s : RankSort) : List TempMemberInfo :=
  let cache := g.members.filter TempMemberInfo.online
  (g.culled s cache (min cache.length guildMaxMembers)).filter fun m => m.member.isSome

/-- The others, without any who would be online or has no name. -/
def offlineMembers (g : RosterGuild) (s : RankSort) : List TempMemberInfo :=
  let online := min (g.members.filter TempMemberInfo.online).length guildMaxMembers
  let cache := g.members.filter fun m => !m.online
  (g.culled s cache (min cache.length (guildMaxMembers - online))).filter fun m => !m.online && m.name != []

/-- `Guild::Roster`: the body of the packet. -/
def roster (g : RosterGuild) (s : RankSort) (sendOfficerNote : Bool) : List UInt8 :=
  let count := min g.members.length guildMaxMembers
  let data := Lib.littleEndian 4 count ++ g.header
  let written := writeMembers g.inPacketCap sendOfficerNote (g.offlineMembers s)
    (writeMembers g.inPacketCap sendOfficerNote (g.onlineMembers s) (data, 0))
  Lib.littleEndian 4 written.2.toNat ++ written.1.drop 4

end RosterGuild

/-! ## The loop -/

section Loop

variable {inPacketCap : Bool} (send : Bool)

/-- The bytes of some members. -/
def blockSizes (members : List TempMemberInfo) : ℕ := (members.map fun m => m.blockSize send).sum

variable {send}

theorem writeMembers_of_some {m : TempMemberInfo} {data data' : List UInt8}
    (h : writeMemberData inPacketCap send data m = some data') (rest : List TempMemberInfo) (finalCount : UInt32) :
    writeMembers inPacketCap send (m :: rest) (data, finalCount) =
      writeMembers inPacketCap send rest (data', finalCount + 1) := by
  rw [writeMembers, h]

theorem writeMembers_of_none {m : TempMemberInfo} {data : List UInt8}
    (h : writeMemberData inPacketCap send data m = none) (rest : List TempMemberInfo) (finalCount : UInt32) :
    writeMembers inPacketCap send (m :: rest) (data, finalCount) = (data, finalCount) := by
  rw [writeMembers, h]

variable (inPacketCap send)

/-- The loop writes the blocks of the first members, and counts them. -/
theorem writeMembers_begins (members : List TempMemberInfo) (data : List UInt8) (finalCount : UInt32) :
    ∃ written, written <+: members ∧ writeMembers inPacketCap send members (data, finalCount) =
      (data ++ written.flatMap fun m => m.block send, finalCount + written.length.toUInt32) := by
  induction members generalizing data finalCount with
  | nil => exact ⟨[], List.prefix_rfl, by simp [writeMembers]⟩
  | cons m rest ih =>
      cases hwrite : writeMemberData inPacketCap send data m with
      | none => exact ⟨[], List.nil_prefix, by rw [writeMembers_of_none hwrite]; simp⟩
      | some data' =>
          have hdata : data' = data ++ m.block send := by
            unfold writeMemberData at hwrite
            split at hwrite
            · cases hwrite
            · exact (Option.some.inj hwrite).symm
          obtain ⟨written, hbegins, hresult⟩ := ih data' (finalCount + 1)
          refine ⟨m :: written, List.cons_prefix_cons.mpr ⟨rfl, hbegins⟩, ?_⟩
          rw [writeMembers_of_some hwrite, hresult, hdata, List.flatMap_cons, List.append_assoc, List.length_cons]
          congr 1
          rw [← UInt32.toNat_inj]
          simp only [UInt32.toNat_add, Nat.toUInt32, UInt32.toNat_ofNat', UInt32.toNat_one]
          omega

/-- Without the check at each member all are written. -/
theorem writeMembers_all (members : List TempMemberInfo) (data : List UInt8) (finalCount : UInt32) :
    (writeMembers true send members (data, finalCount)).1.length = data.length + blockSizes send members := by
  induction members generalizing data finalCount with
  | nil => rfl
  | cons m rest ih =>
      have hwrite : writeMemberData true send data m = some (data ++ m.block send) := if_neg (by simp)
      rw [writeMembers_of_some hwrite, ih, List.length_append, m.length_block, blockSizes, blockSizes, List.map_cons,
        List.sum_cons]
      omega

/-- With it the packet ends within the limit if and only if every member that begins below the reserve ends
within the limit. -/
theorem writeMembers_le_iff (members : List TempMemberInfo) (data : List UInt8) (finalCount : UInt32) :
    (writeMembers false send members (data, finalCount)).1.length ≤ maxUncompressedPacketSize ↔
      data.length ≤ maxUncompressedPacketSize ∧ ∀ before m after, members = before ++ m :: after →
        data.length + blockSizes send before + guildMemberBlockSize < maxUncompressedPacketSize →
        data.length + blockSizes send before + m.blockSize send ≤ maxUncompressedPacketSize := by
  induction members generalizing data finalCount with
  | nil => exact ⟨fun h => ⟨h, fun _ _ _ heq => absurd heq (by simp)⟩, fun h => h.1⟩
  | cons m rest ih =>
      by_cases hfull : maxUncompressedPacketSize ≤ data.length + guildMemberBlockSize
      · have hwrite : writeMemberData false send data m = none := if_pos ⟨rfl, hfull⟩
        rw [writeMembers_of_none hwrite]
        refine ⟨fun h => ⟨h, fun before _ _ _ hroom => ?_⟩, fun h => h.1⟩
        omega
      · have hwrite : writeMemberData false send data m = some (data ++ m.block send) := if_neg fun h => hfull h.2
        rw [writeMembers_of_some hwrite, ih, List.length_append, m.length_block]
        have hcons : ∀ before, blockSizes send (m :: before) = m.blockSize send + blockSizes send before :=
          fun before => by rw [blockSizes, List.map_cons, List.sum_cons, blockSizes]
        constructor
        · rintro ⟨hfirst, hrest⟩
          refine ⟨by omega, fun before other after heq hroom => ?_⟩
          cases before with
          | nil =>
              obtain ⟨rfl, -⟩ := List.cons.inj heq
              exact hfirst
          | cons head before =>
              obtain ⟨rfl, htail⟩ := List.cons.inj heq
              have h := hrest before other after htail
              rw [hcons] at hroom ⊢
              omega
        · rintro ⟨-, hall⟩
          refine ⟨?_, fun before other after heq hroom => ?_⟩
          · have h := hall [] m rest rfl
            simp only [blockSizes, List.map_nil, List.sum_nil, Nat.add_zero] at h
            exact h (by omega)
          · have h := hall (m :: before) other after (by rw [heq]; rfl)
            rw [hcons] at h
            omega

/-- Once a member is not written none is: the online members and the others are one list. -/
theorem writeMembers_append (first second : List TempMemberInfo) (data : List UInt8) (finalCount : UInt32) :
    writeMembers inPacketCap send (first ++ second) (data, finalCount) =
      writeMembers inPacketCap send second (writeMembers inPacketCap send first (data, finalCount)) := by
  induction first generalizing data finalCount with
  | nil => rfl
  | cons m rest ih =>
      rw [List.cons_append]
      cases hwrite : writeMemberData inPacketCap send data m with
      | some data' =>
          rw [writeMembers_of_some hwrite, writeMembers_of_some hwrite]
          exact ih data' (finalCount + 1)
      | none =>
          rw [writeMembers_of_none hwrite, writeMembers_of_none hwrite]
          -- a member is left out for what is written already, not for his own block
          have hstop : inPacketCap = false ∧
              maxUncompressedPacketSize ≤ data.length + guildMemberBlockSize := by
            by_contra hroom
            rw [writeMemberData, if_neg hroom] at hwrite
            cases hwrite
          cases second with
          | nil => rfl
          | cons other others =>
              have hother : writeMemberData inPacketCap send data other = none := if_pos hstop
              rw [writeMembers_of_none hother]

end Loop

namespace RosterGuild

variable (g : RosterGuild) (s : RankSort) (send : Bool)

/-- The members in the order they are written in. -/
def listed : List TempMemberInfo := g.onlineMembers s ++ g.offlineMembers s

/-- The bytes before the members. -/
def headerSize : ℕ := 4 + (g.motd.length + 1) + (g.info.length + 1) + 4 + 4 * g.ranks.length

theorem length_header (count : ℕ) : (Lib.littleEndian 4 count ++ g.header).length = g.headerSize := by
  have hranks : (g.ranks.flatMap fun rights => Lib.littleEndian 4 rights.toNat).length = 4 * g.ranks.length := by
    rw [List.length_flatMap]
    simp [Nat.mul_comm]
  unfold header headerSize stringBytes
  simp only [List.length_append, Lib.length_littleEndian, hranks, List.length_singleton]
  omega

/-- The packet is within the limit and its count is that of the members behind it. -/
def Proper (body : List UInt8) : Prop :=
  body.length ≤ maxUncompressedPacketSize ∧ ∃ written : List TempMemberInfo, (∀ m ∈ written, m ∈ g.members) ∧
    body = Lib.littleEndian 4 written.length ++ g.header ++ written.flatMap fun m => m.block send

/-- The roster fits: where the estimate is within the limit, the members listed are; where it is not, every
member that begins at least a block before the limit ends within it. -/
def Fits : Prop :=
  if g.inPacketCap then g.headerSize + blockSizes send (g.listed s) ≤ maxUncompressedPacketSize
  else g.headerSize ≤ maxUncompressedPacketSize ∧ ∀ before m after, g.listed s = before ++ m :: after →
    g.headerSize + blockSizes send before + guildMemberBlockSize < maxUncompressedPacketSize →
    g.headerSize + blockSizes send before + m.blockSize send ≤ maxUncompressedPacketSize

variable {g s}

/-- The members listed are members, and no more than there may be. -/
theorem mem_culled {cache : List TempMemberInfo} {kept : ℕ} (hcache : ∀ m ∈ cache, m ∈ g.members)
    {m : TempMemberInfo} (h : m ∈ g.culled s cache kept) : m ∈ g.members := by
  have hmem := List.mem_of_mem_take h
  split at hmem
  · exact hcache m hmem
  · exact hcache m ((s.perm cache).mem_iff.mp hmem)

theorem mem_listed {m : TempMemberInfo} (h : m ∈ g.listed s) : m ∈ g.members := by
  rcases List.mem_append.mp h with h | h
  · exact mem_culled (fun m hm => (List.mem_filter.mp hm).1) (List.mem_filter.mp h).1
  · exact mem_culled (fun m hm => (List.mem_filter.mp hm).1) (List.mem_filter.mp h).1

theorem length_listed : (g.listed s).length ≤ guildMaxMembers := by
  have honline : (g.onlineMembers s).length ≤
      min (g.members.filter TempMemberInfo.online).length guildMaxMembers :=
    (List.length_filter_le _ _).trans (List.length_take_le _ _)
  have hoffline : (g.offlineMembers s).length ≤ guildMaxMembers -
      min (g.members.filter TempMemberInfo.online).length guildMaxMembers :=
    ((List.length_filter_le _ _).trans (List.length_take_le _ _)).trans (min_le_right _ _)
  rw [listed, List.length_append]
  omega

/-- What the roster is: the first members listed behind their number. -/
theorem roster_begins : ∃ written, written <+: g.listed s ∧ g.roster s send =
      Lib.littleEndian 4 written.length ++ g.header ++ written.flatMap (fun m => m.block send) ∧
    (g.roster s send).length = (writeMembers g.inPacketCap send (g.listed s)
      (Lib.littleEndian 4 (min g.members.length guildMaxMembers) ++ g.header, 0)).1.length := by
  obtain ⟨written, hbegins, hresult⟩ := writeMembers_begins g.inPacketCap send (g.listed s)
    (Lib.littleEndian 4 (min g.members.length guildMaxMembers) ++ g.header) 0
  -- there are at most 868 members, so the count does not wrap
  have hcount : ((0 : UInt32) + written.length.toUInt32).toNat = written.length := by
    have hle := hbegins.length_le.trans length_listed
    have hmax : guildMaxMembers = 868 := rfl
    simp only [UInt32.toNat_add, Nat.toUInt32, UInt32.toNat_ofNat', UInt32.toNat_zero]
    omega
  have hbody : g.roster s send =
      Lib.littleEndian 4 written.length ++ g.header ++ written.flatMap fun m => m.block send := by
    unfold roster
    simp only
    rw [← writeMembers_append, ← listed, hresult]
    simp only
    rw [hcount, List.append_assoc, List.append_assoc, List.drop_left' (Lib.length_littleEndian _ _)]
  refine ⟨written, hbegins, hbody, ?_⟩
  rw [hbody, hresult]
  simp only [List.length_append, Lib.length_littleEndian]

variable (g s)

theorem roster_length_le_iff : (g.roster s send).length ≤ maxUncompressedPacketSize ↔ g.Fits s send := by
  obtain ⟨-, -, -, hlength⟩ := roster_begins (g := g) (s := s) send
  rw [hlength, Fits]
  cases g.inPacketCap with
  | true => rw [writeMembers_all, length_header, if_pos rfl]
  | false => rw [writeMembers_le_iff, length_header, if_neg Bool.false_ne_true]

/-- The roster is within the limit, with the number of its members in its count, if and only if it fits. -/
theorem roster_proper_iff : g.Proper send (g.roster s send) ↔ g.Fits s send := by
  obtain ⟨written, hbegins, hbody, -⟩ := roster_begins (g := g) (s := s) send
  rw [← roster_length_le_iff]
  exact ⟨fun h => h.1, fun h => ⟨h, written, fun m hm => mem_listed (hbegins.subset hm), hbody⟩⟩

/-- The texts of the guild are no longer than the server lets them be. -/
structure Within : Prop where
  motd : g.motd.length ≤ guildMotdMaxLength
  info : g.info.length ≤ guildInfoMaxLength
  ranks : g.ranks.length ≤ ranksMaxCount
  names : ∀ m ∈ g.members, m.name.length ≤ maxInternalPlayerName ∧
    ∀ p ∈ m.member, p.name.length ≤ maxInternalPlayerName
  notes : ∀ m ∈ g.members, StoredNote m.publicNote ∧ StoredNote m.officerNote

end RosterGuild

/-- A sort by the rank. -/
def byRank : RankSort where
  sort l := l.mergeSort fun a b => decide (a.rankId ≤ b.rankId)
  perm l := List.mergeSort_perm l _
  sorted l := by
    have h := @List.pairwise_mergeSort _ (fun a b : TempMemberInfo => decide (a.rankId ≤ b.rankId))
      (fun a b c hab hbc => by simpa using UInt32.le_trans (by simpa using hab) (by simpa using hbc))
      (fun a b => by simpa using UInt32.le_total a.rankId b.rankId) l
    exact h.imp fun hle => by simpa using hle

/-- A member who is away, with a name of fifteen letters and without notes. -/
def absentMember (i : ℕ) : TempMemberInfo where
  guid := i.toUInt64 + 1
  member := none
  name := List.replicate 12 0x61 ++ [0x61 + (i / 676).toUInt8, 0x61 + (i / 26 % 26).toUInt8, 0x61 + (i % 26).toUInt8]
  rankId := 4
  level := 60
  playerClass := 1
  zone := 1519
  offlineDays := 0x3f800000
  publicNote := []
  officerNote := []

/-- A guild of so many of them. -/
def absentGuild (n : ℕ) : RosterGuild where
  motd := []
  info := []
  ranks := List.replicate 5 0x43
  members := (List.range n).map absentMember

theorem absentMember_of_mem {n : ℕ} {m : TempMemberInfo} (h : m ∈ (absentGuild n).members) :
    ∃ i, m = absentMember i := by
  obtain ⟨i, -, rfl⟩ := List.mem_map.mp h
  exact ⟨i, rfl⟩

theorem length_absentGuild (n : ℕ) : (absentGuild n).members.length = n := by
  rw [absentGuild, List.length_map, List.length_range]

/-- A sum over the members of what is the same of all. -/
theorem sum_absentGuild (n : ℕ) (f : TempMemberInfo → ℕ) (size : ℕ) (h : ∀ i, f (absentMember i) = size) :
    ((absentGuild n).members.map f).sum = n * size := by
  have hconst : (absentGuild n).members.map f = List.replicate n size := by
    refine List.eq_replicate_iff.mpr ⟨by rw [List.length_map, length_absentGuild], fun n hn => ?_⟩
    obtain ⟨m, hm, rfl⟩ := List.mem_map.mp hn
    obtain ⟨i, rfl⟩ := absentMember_of_mem hm
    exact h i
  rw [hconst, List.sum_replicate, smul_eq_mul]

/-- The estimate leaves out the offline time: 839 members estimated at 32751 bytes take 34429. -/
theorem roster_too_long :
    ¬ ∀ (g : RosterGuild) (s : RankSort) (send : Bool), g.Within → g.Proper send (g.roster s send) := by
  intro hall
  obtain ⟨n, hn⟩ : ∃ n, n = 839 := ⟨839, rfl⟩
  have hwithin : (absentGuild n).Within := by
    refine ⟨Nat.zero_le _, Nat.zero_le _, by simp [absentGuild, ranksMaxCount], fun m hm => ?_, fun m hm => ?_⟩ <;>
      obtain ⟨i, rfl⟩ := absentMember_of_mem hm
    · exact ⟨by simp [absentMember, maxInternalPlayerName], nofun⟩
    · exact ⟨.empty, .empty⟩
  have hcap : (absentGuild n).inPacketCap = true := by
    have hsum := sum_absentGuild n (fun m => guildMemberBlockSizeWithoutNote + m.publicNote.length + 1 +
      m.officerNote.length + 1) 39 fun _ => rfl
    unfold RosterGuild.inPacketCap RosterGuild.totalSize
    rw [hsum, hn]
    decide
  have hoffline : (absentGuild n).members.filter (fun m => !m.online) = (absentGuild n).members :=
    List.filter_eq_self.mpr fun m hm => by
      obtain ⟨i, rfl⟩ := absentMember_of_mem hm
      rfl
  have honline : (absentGuild n).members.filter TempMemberInfo.online = [] :=
    List.filter_eq_nil_iff.mpr fun m hm => by
      obtain ⟨i, rfl⟩ := absentMember_of_mem hm
      exact Bool.false_ne_true
  -- nobody is online, and there are fewer than 868: all are listed, in the order they are in
  have hlisted : (absentGuild n).listed byRank = (absentGuild n).members := by
    have hall : (absentGuild n).members.filter (fun m => !m.online && m.name != []) = (absentGuild n).members :=
      List.filter_eq_self.mpr fun m hm => by
        obtain ⟨i, rfl⟩ := absentMember_of_mem hm
        rfl
    have hkept : min (absentGuild n).members.length (guildMaxMembers - min 0 guildMaxMembers) = n := by
      rw [length_absentGuild, hn]
      rfl
    unfold RosterGuild.listed RosterGuild.onlineMembers RosterGuild.offlineMembers RosterGuild.culled
    rw [honline, hoffline, hcap]
    simp only [if_true, List.take_nil, List.filter_nil, List.nil_append, List.length_nil, hkept]
    rw [List.take_of_length_le (length_absentGuild n).le, hall]
  have hfits := (RosterGuild.roster_length_le_iff (absentGuild n) byRank false).mp
    (hall (absentGuild n) byRank false hwithin).1
  rw [RosterGuild.Fits, hcap, if_pos rfl, hlisted, blockSizes, sum_absentGuild n _ 41 fun _ => rfl, hn] at hfits
  exact absurd hfits (by decide)

end TwowCore.Guilds
