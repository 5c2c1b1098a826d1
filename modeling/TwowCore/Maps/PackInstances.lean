import Mathlib.Data.Finset.Dedup
import TwowCore.Lib.Renumber

/-!
# Packing instances and groups

At the start of a world server the tables of saved instances are cleaned and packed: `CleanupInstances` deletes
binds of characters and groups that are gone, instances nobody is bound to and what refers to no instance;
`PackInstances` moves all numbers past the reserved ones and then gives them out again from the first that is
not reserved; `PackGroupIds` does the same for groups. A table is the list of its rows, of which the columns with
the numbers are kept.

`CleanupInstances` runs in a transaction, whose statements are queued until the commit. What it selects is
therefore the state before, and only the last two deletions see what the others have done.
-/

namespace TwowCore.Instances

open TwowCore.Lib

/-- `RESERVED_INSTANCES_LAST`. -/
def reservedInstancesLast : ℕ := 100

/-- The tables. -/
structure InstanceTables where
  /-- `characters.guid`. -/
  characters : List ℕ
  /-- `groups.groupId` and `groups.leaderGuid`. -/
  groups : List (ℕ × ℕ)
  /-- `group_member.groupId` and `group_member.memberGuid`. -/
  groupMember : List (ℕ × ℕ)
  /-- `instance.id` and `instance.map`. -/
  instances : List (ℕ × ℕ)
  /-- `character_instance.guid` and `character_instance.instance`. -/
  characterInstance : List (ℕ × ℕ)
  /-- `group_instance.leaderGuid` and `group_instance.instance`. -/
  groupInstance : List (ℕ × ℕ)
  /-- `creature_respawn.guid` and `creature_respawn.instance`. -/
  creatureRespawn : List (ℕ × ℕ)
  /-- `gameobject_respawn.guid` and `gameobject_respawn.instance`. -/
  gameobjectRespawn : List (ℕ × ℕ)
  /-- `corpse.guid` and `corpse.instance`. -/
  corpse : List (ℕ × ℕ)

namespace InstanceTables

variable (t : InstanceTables)

/-- The numbers in `instance`. -/
def ids : List ℕ := t.instances.map Prod.fst

/-- The numbers of the groups. -/
def groupIds : List ℕ := t.groups.map Prod.fst

/-- Some character or group is bound to the instance. -/
def Bound (id : ℕ) : Prop := id ∈ t.characterInstance.map Prod.snd ∨ id ∈ t.groupInstance.map Prod.snd

instance (id : ℕ) : Decidable (t.Bound id) := inferInstanceAs (Decidable (_ ∨ _))

/-- `CleanupInstances`. -/
def cleanupInstances : InstanceTables :=
  let cleaned := { t with
    instances := t.instances.filter fun row => t.Bound row.1
    characterInstance := t.characterInstance.filter fun row => row.1 ∈ t.characters ∧ row.2 ∈ t.ids
    groupInstance := t.groupInstance.filter fun row =>
      row.1 ∈ t.characters ∧ row.1 ∈ t.groups.map Prod.snd ∧ row.2 ∈ t.ids }
  { cleaned with
    creatureRespawn := t.creatureRespawn.filter fun row => row.2 < reservedInstancesLast ∨ row.2 ∈ cleaned.ids
    gameobjectRespawn := t.gameobjectRespawn.filter fun row =>
      row.2 < reservedInstancesLast ∨ row.2 ∈ cleaned.ids }

/-- All columns with numbers of instances, changed by one function, those of respawns by another. -/
def mapInstances (f respawn corpse : ℕ → ℕ) : InstanceTables :=
  { t with
    instances := t.instances.map fun row => (f row.1, row.2)
    characterInstance := t.characterInstance.map fun row => (row.1, f row.2)
    groupInstance := t.groupInstance.map fun row => (row.1, f row.2)
    creatureRespawn := t.creatureRespawn.map fun row => (row.1, respawn row.2)
    gameobjectRespawn := t.gameobjectRespawn.map fun row => (row.1, respawn row.2)
    corpse := t.corpse.map fun row => (row.1, corpse row.2) }

/-- The first transaction of `PackInstances`: the numbers are moved up, those of respawns only when they are not
reserved, and rows of the continents are deleted. -/
def shiftInstances : InstanceTables :=
  let shifted := t.mapInstances (· + reservedInstancesLast)
    (fun i => if reservedInstancesLast ≤ i then i + reservedInstancesLast else i) (· + reservedInstancesLast)
  { shifted with instances := shifted.instances.filter fun row => ¬row.2 ≤ 1 }

/-- `PackInstances`. The numbers are gone through in the order of a `std::set`. -/
def packInstances : InstanceTables :=
  let shifted := t.shiftInstances
  let pack := renumber shifted.ids.toFinset.sort reservedInstancesLast
  shifted.mapInstances pack pack pack

/-- `PackGroupIds`, and the next number that `m_GroupIds` will give. -/
def packGroupIds : InstanceTables × ℕ :=
  let kept := if 0 ∈ t.groupIds then
    { t with
      groups := t.groups.filter fun row => row.1 ≠ 0
      groupMember := t.groupMember.filter fun row => row.1 ≠ 0 }
    else t
  let set := kept.groupIds.toFinset.sort
  ({ kept with
      groups := kept.groups.map fun row => (renumber set 1 row.1, row.2)
      groupMember := kept.groupMember.map fun row => (renumber set 1 row.1, row.2) },
    1 + set.length)

/-- The start of a server. -/
def startup : InstanceTables × ℕ := t.cleanupInstances.packInstances.packGroupIds

end InstanceTables

/-- What holds of the tables while a server runs: the numbers of instances are different and not reserved, and no
instance is on a continent; groups have different numbers. -/
structure WellKept (t : InstanceTables) : Prop where
  nodup : t.ids.Nodup
  reserved : ∀ id ∈ t.ids, reservedInstancesLast ≤ id
  dungeon : ∀ row ∈ t.instances, 1 < row.2
  groups : t.groupIds.Nodup

/-- The number an instance gets: its rank among all, after the reserved ones. A number without an instance is only
moved up. -/
def packed (ids : List ℕ) (i : ℕ) : ℕ :=
  if i ∈ ids then reservedInstancesLast + rank ids i else i + reservedInstancesLast

/-- The number a group gets. -/
def packedGroup (ids : List ℕ) (i : ℕ) : ℕ := if i ∈ ids then 1 + rank ids i else i

section Sets

variable {ids : List ℕ}

/-- A rank is the same in the set. -/
theorem rank_sort (h : ids.Nodup) (i : ℕ) : rank ids.toFinset.sort i = rank ids i := by
  have hperm : ids.toFinset.sort.Perm ids :=
    (List.perm_ext_iff_of_nodup (Finset.sort_nodup _ _) h).mpr fun j => by
      rw [Finset.mem_sort, List.mem_toFinset]
  exact hperm.countP_eq _

/-- Renumbering a set from a number that is not above any of it. -/
theorem renumber_sort (h : ids.Nodup) {next : ℕ} (hle : ∀ id ∈ ids, next ≤ id) (i : ℕ) :
    renumber ids.toFinset.sort next i = if i ∈ ids then next + rank ids i else i := by
  have hmem : ∀ j, j ∈ ids.toFinset.sort ↔ j ∈ ids := fun j => by rw [Finset.mem_sort, List.mem_toFinset]
  rw [renumber_eq (Finset.sortedLT_sort _).pairwise fun id hid => hle id ((hmem id).mp hid), rank_sort h]
  simp only [hmem]

theorem rank_shift (i k : ℕ) : rank (ids.map (· + k)) (i + k) = rank ids i := by
  rw [rank, rank, List.countP_map]
  congr 1
  funext j
  simp only [Function.comp_apply, decide_eq_decide]
  omega

theorem mem_shift {i k : ℕ} : i + k ∈ ids.map (· + k) ↔ i ∈ ids := by
  rw [List.mem_map]
  exact ⟨fun ⟨j, hj, heq⟩ => (Nat.add_right_cancel heq) ▸ hj, fun hi => ⟨i, hi, rfl⟩⟩

/-- Renumbering what was moved up. -/
theorem renumber_shift (h : ids.Nodup) (i : ℕ) :
    renumber (ids.map (· + reservedInstancesLast)).toFinset.sort reservedInstancesLast (i + reservedInstancesLast) =
      packed ids i := by
  have hle : ∀ id ∈ ids.map (· + reservedInstancesLast), reservedInstancesLast ≤ id := by
    intro id hid
    obtain ⟨j, -, rfl⟩ := List.mem_map.mp hid
    exact Nat.le_add_left _ _
  rw [renumber_sort (h.map fun _ _ heq => Nat.add_right_cancel heq) hle, rank_shift, packed]
  simp only [mem_shift]

/-- A reserved number stays. -/
theorem renumber_reserved {i : ℕ} (hi : i < reservedInstancesLast) :
    renumber (ids.map (· + reservedInstancesLast)).toFinset.sort reservedInstancesLast i = i := by
  refine renumber_of_lt (Finset.sortedLT_sort _).pairwise (fun id hid => ?_) hi
  rw [Finset.mem_sort, List.mem_toFinset] at hid
  obtain ⟨j, -, rfl⟩ := List.mem_map.mp hid
  exact Nat.le_add_left _ _

theorem packed_inj {i j : ℕ} (hi : i ∈ ids) (hj : j ∈ ids) (h : packed ids i = packed ids j) : i = j := by
  rw [packed, packed, if_pos hi, if_pos hj] at h
  exact rank_inj hi hj (Nat.add_left_cancel h)

theorem packedGroup_inj {i j : ℕ} (hi : i ∈ ids) (hj : j ∈ ids) (h : packedGroup ids i = packedGroup ids j) :
    i = j := by
  rw [packedGroup, packedGroup, if_pos hi, if_pos hj] at h
  exact rank_inj hi hj (Nat.add_left_cancel h)

end Sets

namespace InstanceTables

variable {t : InstanceTables}

@[simp] theorem ids_mapInstances (f respawn corpse : ℕ → ℕ) :
    (t.mapInstances f respawn corpse).ids = t.ids.map f := by
  rw [ids, ids, mapInstances, List.map_map, List.map_map]
  rfl

/-- The tables with every instance at the number it gets. -/
def packedTables (t : InstanceTables) : InstanceTables :=
  t.mapInstances (packed t.ids) (fun i => if reservedInstancesLast ≤ i then packed t.ids i else i) (packed t.ids)

theorem ids_packedTables : t.packedTables.ids = t.ids.map (packed t.ids) := by
  rw [packedTables, ids_mapInstances]

/-- All numbers are changed at once. -/
theorem packInstances_eq (h : WellKept t) : t.packInstances = t.packedTables := by
  -- no instance is on a continent
  have hshift : t.shiftInstances = t.mapInstances (· + reservedInstancesLast)
      (fun i => if reservedInstancesLast ≤ i then i + reservedInstancesLast else i) (· + reservedInstancesLast) := by
    unfold shiftInstances
    dsimp only
    rw [List.filter_eq_self.mpr]
    intro row hrow
    obtain ⟨row', hrow', rfl⟩ := List.mem_map.mp hrow
    have hdungeon := h.dungeon row' hrow'
    simp only [decide_eq_true_eq]
    omega
  have hmove := renumber_shift h.nodup
  have hrespawn : ∀ i, renumber (t.ids.map (· + reservedInstancesLast)).toFinset.sort reservedInstancesLast
      (if reservedInstancesLast ≤ i then i + reservedInstancesLast else i) =
        if reservedInstancesLast ≤ i then packed t.ids i else i := by
    intro i
    split_ifs with hi
    · exact hmove i
    · exact renumber_reserved (by omega)
  unfold packInstances
  dsimp only
  rw [hshift, ids_mapInstances]
  simp only [packedTables, mapInstances, List.map_map, Function.comp_def, hmove, hrespawn]

theorem ids_cleanupInstances : t.cleanupInstances.ids = t.ids.filter fun id => t.Bound id := by
  rw [ids, ids, cleanupInstances, List.filter_map]
  rfl

theorem wellKept_cleanupInstances (h : WellKept t) : WellKept t.cleanupInstances where
  nodup := by
    rw [ids_cleanupInstances]
    exact h.nodup.filter _
  reserved id hid := by
    rw [ids_cleanupInstances] at hid
    exact h.reserved id (List.mem_of_mem_filter hid)
  dungeon row hrow := h.dungeon row (List.mem_of_mem_filter hrow)
  groups := h.groups

/-- After cleaning, who is bound is bound to an instance. -/
theorem bound_mem_ids {id : ℕ} (h : t.cleanupInstances.Bound id) : id ∈ t.cleanupInstances.ids := by
  rw [ids_cleanupInstances, List.mem_filter, decide_eq_true_iff]
  rcases h with hcharacter | hgroup
  · obtain ⟨row, hrow, rfl⟩ := List.mem_map.mp hcharacter
    obtain ⟨hold, hkept⟩ := List.mem_filter.mp hrow
    exact ⟨(of_decide_eq_true hkept).2, Or.inl (List.mem_map_of_mem hold)⟩
  · obtain ⟨row, hrow, rfl⟩ := List.mem_map.mp hgroup
    obtain ⟨hold, hkept⟩ := List.mem_filter.mp hrow
    exact ⟨(of_decide_eq_true hkept).2.2, Or.inr (List.mem_map_of_mem hold)⟩

/-- After cleaning, a respawn past the reserved numbers is in an instance. -/
theorem respawn_mem_ids {row : ℕ × ℕ}
    (hrow : row ∈ t.cleanupInstances.creatureRespawn ++ t.cleanupInstances.gameobjectRespawn)
    (hle : reservedInstancesLast ≤ row.2) : row.2 ∈ t.cleanupInstances.ids := by
  rcases List.mem_append.mp hrow with hcreature | hobject
  · exact (of_decide_eq_true (List.mem_filter.mp hcreature).2).resolve_left (by omega)
  · exact (of_decide_eq_true (List.mem_filter.mp hobject).2).resolve_left (by omega)

/-- A bind and its instance are renumbered alike. -/
theorem bound_packedTables (h : ∀ id, t.Bound id → id ∈ t.ids) {id : ℕ} (hid : t.packedTables.Bound id) :
    id ∈ t.packedTables.ids := by
  rw [ids_packedTables]
  rcases hid with hcharacter | hgroup
  · obtain ⟨row, hrow, rfl⟩ := List.mem_map.mp hcharacter
    obtain ⟨row', hrow', rfl⟩ := List.mem_map.mp hrow
    exact List.mem_map_of_mem (h _ (Or.inl (List.mem_map_of_mem hrow')))
  · obtain ⟨row, hrow, rfl⟩ := List.mem_map.mp hgroup
    obtain ⟨row', hrow', rfl⟩ := List.mem_map.mp hrow
    exact List.mem_map_of_mem (h _ (Or.inr (List.mem_map_of_mem hrow')))

/-- So are a respawn and its instance. -/
theorem respawn_packedTables
    (h : ∀ row ∈ t.creatureRespawn ++ t.gameobjectRespawn, reservedInstancesLast ≤ row.2 → row.2 ∈ t.ids)
    {row : ℕ × ℕ} (hrow : row ∈ t.packedTables.creatureRespawn ++ t.packedTables.gameobjectRespawn)
    (hle : reservedInstancesLast ≤ row.2) : row.2 ∈ t.packedTables.ids := by
  rw [ids_packedTables]
  have hrow' : ∃ row' ∈ t.creatureRespawn ++ t.gameobjectRespawn,
      row = (row'.1, if reservedInstancesLast ≤ row'.2 then packed t.ids row'.2 else row'.2) := by
    rcases List.mem_append.mp hrow with hcreature | hobject
    · obtain ⟨row', hmem, heq⟩ := List.mem_map.mp hcreature
      exact ⟨row', List.mem_append_left _ hmem, heq.symm⟩
    · obtain ⟨row', hmem, heq⟩ := List.mem_map.mp hobject
      exact ⟨row', List.mem_append_right _ hmem, heq.symm⟩
  obtain ⟨row', hmem, rfl⟩ := hrow'
  dsimp only at hle ⊢
  split_ifs at hle ⊢ with hreserved
  · exact List.mem_map_of_mem (h row' hmem hreserved)
  · exact absurd hle hreserved

/-- The groups that are left are renumbered at once. -/
theorem packGroupIds_eq (h : t.groupIds.Nodup) :
    t.packGroupIds.1.groups =
        (t.groups.filter (·.1 ≠ 0)).map (fun row => (packedGroup (t.groupIds.filter (· ≠ 0)) row.1, row.2)) ∧
      t.packGroupIds.1.groupMember =
        (if 0 ∈ t.groupIds then t.groupMember.filter (·.1 ≠ 0) else t.groupMember).map
          (fun row => (packedGroup (t.groupIds.filter (· ≠ 0)) row.1, row.2)) ∧
      t.packGroupIds.2 = 1 + (t.groupIds.filter (· ≠ 0)).length := by
  have hpack : ∀ i, renumber (t.groupIds.filter (· ≠ 0)).toFinset.sort 1 i =
      packedGroup (t.groupIds.filter (· ≠ 0)) i := by
    refine renumber_sort (h.filter _) fun id hid => ?_
    have hne := of_decide_eq_true (List.mem_filter.mp hid).2
    omega
  have hlength : (t.groupIds.filter (· ≠ 0)).toFinset.sort.length = (t.groupIds.filter (· ≠ 0)).length := by
    rw [Finset.length_sort, List.toFinset_card_of_nodup (h.filter _)]
  have hgroups : t.groupIds.filter (· ≠ 0) = (t.groups.filter (·.1 ≠ 0)).map Prod.fst := by
    rw [groupIds, List.filter_map]
    rfl
  unfold packGroupIds
  dsimp only
  split_ifs with hzero
  · rw [groupIds, ← hgroups]
    simp only [hpack, hlength, and_self]
  · have hall : ∀ id ∈ t.groupIds, decide (id ≠ 0) = true := fun id hid =>
      decide_eq_true fun heq => hzero (heq ▸ hid)
    have hrows : t.groups.filter (·.1 ≠ 0) = t.groups :=
      List.filter_eq_self.mpr fun row hrow => hall row.1 (List.mem_map_of_mem hrow)
    rw [List.filter_eq_self.mpr hall] at hpack hlength ⊢
    simp only [hpack, hlength, hrows, and_self]

/-- `PackGroupIds` touches the tables of groups only. -/
theorem packGroupIds_rest (t : InstanceTables) :
    ∃ groups groupMember, t.packGroupIds.1 = { t with groups, groupMember } := by
  unfold packGroupIds
  dsimp only
  split_ifs
  · exact ⟨_, _, rfl⟩
  · exact ⟨_, _, rfl⟩

end InstanceTables

/-- What a start makes of the cleaned tables `c`: the numbers of instances are replaced by consecutive ones, different
ones by different ones and the same everywhere, every bind and respawn is still that of an instance, and so it is
for groups. -/
structure Restarted (c s : InstanceTables) (next : ℕ) : Prop where
  wellKept : WellKept s
  instances : s.instances = c.instances.map fun row => (packed c.ids row.1, row.2)
  characterInstance : s.characterInstance = c.characterInstance.map fun row => (row.1, packed c.ids row.2)
  groupInstance : s.groupInstance = c.groupInstance.map fun row => (row.1, packed c.ids row.2)
  creatureRespawn : s.creatureRespawn = c.creatureRespawn.map fun row =>
    (row.1, if reservedInstancesLast ≤ row.2 then packed c.ids row.2 else row.2)
  gameobjectRespawn : s.gameobjectRespawn = c.gameobjectRespawn.map fun row =>
    (row.1, if reservedInstancesLast ≤ row.2 then packed c.ids row.2 else row.2)
  corpse : s.corpse = c.corpse.map fun row => (row.1, packed c.ids row.2)
  inj : ∀ i ∈ c.ids, ∀ j ∈ c.ids, packed c.ids i = packed c.ids j → i = j
  dense : ∀ id ∈ s.ids, id < reservedInstancesLast + s.ids.length
  bound : ∀ id, s.Bound id → id ∈ s.ids
  respawn : ∀ row ∈ s.creatureRespawn ++ s.gameobjectRespawn, reservedInstancesLast ≤ row.2 → row.2 ∈ s.ids
  groups : s.groups = (c.groups.filter (·.1 ≠ 0)).map fun row =>
    (packedGroup (c.groupIds.filter (· ≠ 0)) row.1, row.2)
  groupMember : ∀ row ∈ c.groupMember, row.1 ∈ c.groupIds → row.1 ≠ 0 →
    (packedGroup (c.groupIds.filter (· ≠ 0)) row.1, row.2) ∈ s.groupMember
  next : ∀ id ∈ s.groupIds, 0 < id ∧ id < next

open InstanceTables in
/-- A start of the server keeps every bind, respawn and member with its instance or group, whatever the tables
hold. -/
theorem startup_spec (t : InstanceTables) (h : WellKept t) :
    Restarted t.cleanupInstances t.startup.1 t.startup.2 := by
  have hcleaned := wellKept_cleanupInstances h
  have hbound : ∀ id, t.cleanupInstances.Bound id → id ∈ t.cleanupInstances.ids := fun _ => bound_mem_ids
  have hrespawns : ∀ row ∈ t.cleanupInstances.creatureRespawn ++ t.cleanupInstances.gameobjectRespawn,
      reservedInstancesLast ≤ row.2 → row.2 ∈ t.cleanupInstances.ids := fun _ => respawn_mem_ids
  unfold startup
  generalize t.cleanupInstances = c at *
  rw [packInstances_eq hcleaned]
  obtain ⟨groups, groupMember, hrest⟩ := packGroupIds_rest c.packedTables
  obtain ⟨hgroups, hmember, hnext⟩ := packGroupIds_eq (t := c.packedTables) hcleaned.groups
  generalize c.packedTables.packGroupIds.2 = next at hnext ⊢
  rw [hrest] at hgroups hmember ⊢
  have hgroups' : groups = (c.groups.filter (·.1 ≠ 0)).map fun row =>
      (packedGroup (c.groupIds.filter (· ≠ 0)) row.1, row.2) := hgroups
  have hmember' : groupMember =
      (if 0 ∈ c.groupIds then c.groupMember.filter (·.1 ≠ 0) else c.groupMember).map fun row =>
        (packedGroup (c.groupIds.filter (· ≠ 0)) row.1, row.2) := hmember
  have hpacked : ∀ i ∈ c.ids, packed c.ids i = reservedInstancesLast + rank c.ids i := fun i hi => if_pos hi
  -- the numbers of the instances and of the groups afterwards
  have hids : ids { c.packedTables with groups, groupMember } = c.ids.map (packed c.ids) := ids_packedTables
  have hkept : (c.groupIds.filter (· ≠ 0)).Nodup := hcleaned.groups.filter _
  have hgroupIds : groups.map Prod.fst =
      (c.groupIds.filter (· ≠ 0)).map (packedGroup (c.groupIds.filter (· ≠ 0))) := by
    rw [hgroups', List.map_map, InstanceTables.groupIds, List.filter_map, List.map_map]
    rfl
  constructor
  · refine ⟨?_, ?_, ?_, ?_⟩
    · rw [hids]
      exact hcleaned.nodup.map_on fun i hi j hj => packed_inj hi hj
    · intro id hid
      rw [hids] at hid
      obtain ⟨i, hi, rfl⟩ := List.mem_map.mp hid
      rw [hpacked i hi]
      exact Nat.le_add_right _ _
    · intro row hrow
      obtain ⟨row', hrow', rfl⟩ := List.mem_map.mp hrow
      exact hcleaned.dungeon row' hrow'
    · show (groups.map Prod.fst).Nodup
      rw [hgroupIds]
      exact hkept.map_on fun i hi j hj => packedGroup_inj hi hj
  · rfl
  · rfl
  · rfl
  · rfl
  · rfl
  · rfl
  · exact fun i hi j hj => packed_inj hi hj
  · intro id hid
    rw [hids] at hid ⊢
    obtain ⟨i, hi, rfl⟩ := List.mem_map.mp hid
    rw [hpacked i hi, List.length_map]
    exact Nat.add_lt_add_left (rank_lt_length hi) _
  · exact fun id hid => bound_packedTables hbound hid
  · exact fun row hrow hle => respawn_packedTables hrespawns hrow hle
  · exact hgroups
  · intro row hrow hgroup hne
    show _ ∈ groupMember
    rw [hmember']
    refine List.mem_map.mpr ⟨row, ?_, rfl⟩
    split_ifs
    · exact List.mem_filter.mpr ⟨hrow, decide_eq_true hne⟩
    · exact hrow
  · intro id hid
    have hid' : id ∈ groups.map Prod.fst := hid
    rw [hgroupIds] at hid'
    obtain ⟨i, hi, rfl⟩ := List.mem_map.mp hid'
    have hrank := rank_lt_length hi
    rw [packedGroup, if_pos hi, hnext]
    exact ⟨by omega, Nat.add_lt_add_left hrank 1⟩

/-- Two instances, one of which nobody is bound to, a bind of a character that is gone, and a group. -/
def twoInstances : InstanceTables :=
  { characters := [1, 2]
    groups := [(7, 1)]
    groupMember := [(7, 1), (7, 2)]
    instances := [(130, 389), (104, 36)]
    characterInstance := [(2, 130), (3, 104)]
    groupInstance := [(1, 130)]
    creatureRespawn := [(50, 0), (51, 130)]
    gameobjectRespawn := []
    corpse := [(1, 0), (2, 130)] }

theorem startup_spec_twoInstances :
    Restarted twoInstances.cleanupInstances twoInstances.startup.1 twoInstances.startup.2 :=
  startup_spec twoInstances ⟨by decide, by decide, by decide, by decide⟩

end TwowCore.Instances
