import TwowCore.Pools.Relations

/-!
# What loading leaves

The flags and the links when `LoadFromDB` is done: it ends unless the last pool is the last 16-bit number, the
recursions over the pools end then, and a pool without a mother is spawned unless its link was dropped.
-/

namespace TwowCore.Pools

open TwowCore.Lib

namespace PoolTemplateData

theorem isAutoSpawn_congr {t t' : PoolTemplateData} (h : t'.poolFlags = t.poolFlags) :
    t'.isAutoSpawn = t.isAutoSpawn := by
  unfold isAutoSpawn
  rw [h]

theorem isAutoSpawn_set (t : PoolTemplateData) (flags : UInt32)
    (h : t.poolFlags = flags ||| autoSpawnFlag) : t.isAutoSpawn = true := by
  refine decide_eq_true fun hzero => ?_
  rw [h] at hzero
  have hbit := congrArg (fun n : UInt32 => n.toBitVec.getLsbD 0) hzero
  simp [autoSpawnFlag] at hbit

theorem isAutoSpawn_clear (t : PoolTemplateData) : t.clearAutoSpawn.isAutoSpawn = false := by
  refine decide_eq_false fun hne => hne ?_
  have hflag : ~~~autoSpawnFlag &&& autoSpawnFlag = 0 := by decide
  show t.poolFlags &&& ~~~autoSpawnFlag &&& autoSpawnFlag = 0
  rw [UInt32.and_assoc, hflag, UInt32.and_zero]

end PoolTemplateData

namespace PoolManager

variable {F : Type} {float : FloatOps F} {world : World} {s s' : PoolManager F} {tables : Tables F}

/-- The flag of a pool. -/
def autoSpawns (s : PoolManager F) (pool : UInt16) : Bool := (s.template pool).isAutoSpawn

/-- Of the pools of the table those are spawned that have no mother. -/
def FlagsAgree (entries : List UInt16) (s : PoolManager F) : Prop :=
  ∀ pool ∈ entries, s.autoSpawns pool = true ↔ s.poolSearch pool = none

/-- The rows of `pool_template` set no link. -/
theorem loadTemplates_links (rows : List TemplateRow) (s : PoolManager F) :
    (rows.foldl loadTemplate s).maxPoolId = s.maxPoolId ∧ (rows.foldl loadTemplate s).size = s.size ∧
      (rows.foldl loadTemplate s).poolGroups = s.poolGroups ∧
      (rows.foldl loadTemplate s).poolSearch = s.poolSearch := by
  induction rows generalizing s with
  | nil => exact ⟨rfl, rfl, rfl, rfl⟩
  | cons row rest ih => exact ih (s.loadTemplate row)

theorem loadTemplate_autoSpawns (s : PoolManager F) (row : TemplateRow) (pool : UInt16) :
    (s.loadTemplate row).autoSpawns pool = (decide (pool = row.entry) || s.autoSpawns pool) := by
  unfold autoSpawns loadTemplate
  dsimp only
  by_cases hpool : pool = row.entry
  · subst hpool
    rw [Function.update_self, PoolTemplateData.isAutoSpawn_set _ row.flags rfl, decide_eq_true rfl,
      Bool.true_or]
  · rw [Function.update_of_ne hpool, decide_eq_false hpool, Bool.false_or]

/-- Every pool of `pool_template` has the flag at first. -/
theorem loadTemplates_autoSpawns (rows : List TemplateRow) (s : PoolManager F) {pool : UInt16}
    (h : pool ∈ rows.map TemplateRow.entry ∨ s.autoSpawns pool = true) :
    (rows.foldl loadTemplate s).autoSpawns pool = true := by
  induction rows generalizing s with
  | nil => exact h.resolve_left List.not_mem_nil
  | cons row rest ih =>
      refine ih (s.loadTemplate row) ?_
      rw [loadTemplate_autoSpawns, Bool.or_eq_true, decide_eq_true_eq]
      rw [List.map_cons, List.mem_cons] at h
      tauto

/-- The link of a row and the flag of its child change together. -/
theorem loadPool_flagsAgree (row : PoolRow F) {entries : List UInt16} (h : FlagsAgree entries s) :
    FlagsAgree entries (loadPool float s row) := by
  intro pool hpool
  unfold loadPool
  split_ifs
  · exact h pool hpool
  · show (Function.update s.template row.poolId _ pool).isAutoSpawn = true ↔
      insertNew s.poolSearch row.poolId row.motherPool pool = none
    by_cases hchild : pool = row.poolId
    · subst hchild
      have hlink : insertNew s.poolSearch row.poolId row.motherPool row.poolId ≠ none := by
        unfold insertNew
        split_ifs with hthere
        · exact Option.isSome_iff_ne_none.mp hthere
        · rw [Function.update_self]
          exact Option.some_ne_none _
      rw [Function.update_self, PoolTemplateData.isAutoSpawn_clear]
      exact ⟨fun hclear => absurd hclear Bool.false_ne_true, fun hnone => absurd hnone hlink⟩
    · have hsame : insertNew s.poolSearch row.poolId row.motherPool pool = s.poolSearch pool := by
        unfold insertNew
        split_ifs
        · rfl
        · rw [Function.update_of_ne hchild]
      rw [Function.update_of_ne hchild, hsame]
      exact h pool hpool

theorem loadPools_flagsAgree (rows : List (PoolRow F)) {entries : List UInt16}
    (h : FlagsAgree entries s) : FlagsAgree entries (rows.foldl (loadPool float) s) := by
  induction rows generalizing s with
  | nil => exact h
  | cons row rest ih => exact ih (loadPool_flagsAgree row h)

theorem loadPools_bounds (float : FloatOps F) (rows : List (PoolRow F)) (s : PoolManager F) :
    (rows.foldl (loadPool float) s).maxPoolId = s.maxPoolId ∧
      (rows.foldl (loadPool float) s).size = s.size := by
  induction rows generalizing s with
  | nil => exact ⟨rfl, rfl⟩
  | cons row rest ih =>
      have hrow : (loadPool float s row).maxPoolId = s.maxPoolId ∧
          (loadPool float s row).size = s.size := by
        unfold loadPool
        split_ifs <;> exact ⟨rfl, rfl⟩
      exact ⟨(ih _).1.trans hrow.1, (ih _).2.trans hrow.2⟩

/-- What is read of the tables. -/
theorem readTables_spec (float : FloatOps F) (world : World) (tables : Tables F) :
    (readTables float world tables).maxPoolId = tables.maxPoolId ∧
      (readTables float world tables).size = tables.maxPoolId + 1 ∧
      LinksBounded (readTables float world tables) ∧
      FlagsAgree (tables.templates.map TemplateRow.entry) (readTables float world tables) ∧
      ((tables.pools.map PoolRow.poolId).Nodup → LinksAgree (readTables float world tables)) ∧
      (tables.pools = [] → (readTables float world tables).poolSearch = fun _ => none) := by
  obtain ⟨hmax, hsize, hgroups, hsearch⟩ := loadTemplates_links tables.templates
    (new tables.maxPoolId (tables.maxPoolId + 1) : PoolManager F)
  have hmembers := readMembers_sameLinks float world tables
    (tables.templates.foldl loadTemplate (new tables.maxPoolId (tables.maxPoolId + 1)))
  have hnone := hmembers.search.trans hsearch
  obtain ⟨hmax', hsize'⟩ := loadPools_bounds float tables.pools
    (tables.gameobjects.foldl (loadGameobject float world) (tables.creatures.foldl
      (loadCreature float world) (tables.templates.foldl loadTemplate
        (new tables.maxPoolId (tables.maxPoolId + 1)))))
  refine ⟨hmax'.trans (hmembers.maxPoolId.trans hmax),
    hsize'.trans (hmembers.size.trans hsize), ?_, ?_, fun hnodup => ?_, fun hempty => ?_⟩
  · refine loadPools_bounded tables.pools ⟨?_, ?_, ?_⟩ <;>
      · rw [hnone]
        exact nofun
  · refine loadPools_flagsAgree tables.pools fun pool hpool => ?_
    rw [hnone]
    refine iff_of_true ?_ rfl
    rw [← loadTemplates_autoSpawns tables.templates
      (new tables.maxPoolId (tables.maxPoolId + 1) : PoolManager F) (Or.inl hpool)]
    exact PoolTemplateData.isAutoSpawn_congr (hmembers.flags pool)
  · refine loadPools_agree tables.pools hnodup (fun row _ => ?_) ⟨fun child mother => ?_, fun mother => ?_⟩
    · rw [hnone]
      rfl
    · rw [hmembers.groups, hgroups, hnone]
      exact iff_of_false List.not_mem_nil nofun
    · rw [hmembers.groups, hgroups]
      exact List.nodup_nil
  · unfold readTables
    rw [hempty]
    exact hnone

/-- The flags of the first so many pools are checked. -/
structure ChancesChecked (float : FloatOps F) (s : PoolManager F) (turns : ℕ) (s' : PoolManager F) :
    Prop where
  search : s'.poolSearch = s.poolSearch
  groups : s'.poolGroups = s.poolGroups
  size : s'.size = s.size
  checkPool : ∀ pool, checkPool float s' pool = checkPool float s pool
  flags : ∀ pool, s'.autoSpawns pool =
    (s.autoSpawns pool && (decide (turns ≤ pool.toNat) || PoolManager.checkPool float s pool))

theorem checkChances_checked (i : UInt16) (h : ChancesChecked float s i.toNat s') :
    ChancesChecked float s (i.toNat + 1) (checkChances float i s') := by
  have hturn : ∀ pool : UInt16, pool ≠ i →
      decide (i.toNat + 1 ≤ pool.toNat) = decide (i.toNat ≤ pool.toNat) := by
    intro pool hne
    have hne' : pool.toNat ≠ i.toNat := fun heq => hne (UInt16.toNat_inj.mp heq)
    exact decide_eq_decide.mpr ⟨fun hle => by omega, fun hle => by omega⟩
  have hself := h.flags i
  rw [decide_eq_true le_rfl, Bool.true_or, Bool.and_true] at hself
  have hlast : decide (i.toNat + 1 ≤ i.toNat) = false := decide_eq_false (Nat.not_succ_le_self _)
  unfold checkChances
  split_ifs with hcleared
  · obtain ⟨-, hfails⟩ := Bool.and_eq_true_iff.mp hcleared
    rw [Bool.not_eq_true', h.checkPool] at hfails
    refine ⟨h.search, h.groups, h.size, h.checkPool, fun pool => ?_⟩
    show (Function.update s'.template i _ pool).isAutoSpawn = _
    by_cases hpool : pool = i
    · subst hpool
      rw [Function.update_self, PoolTemplateData.isAutoSpawn_clear, hlast, hfails, Bool.or_self,
        Bool.and_false]
    · rw [Function.update_of_ne hpool, hturn pool hpool]
      exact h.flags pool
  · refine ⟨h.search, h.groups, h.size, h.checkPool, fun pool => ?_⟩
    by_cases hpool : pool = i
    · subst hpool
      have hkept : (s'.template pool).isAutoSpawn = s'.autoSpawns pool := rfl
      rw [hkept, hself, h.checkPool] at hcleared
      rw [hself, hlast, Bool.false_or]
      revert hcleared
      cases s.autoSpawns pool <;> cases PoolManager.checkPool float s pool <;> decide
    · rw [hturn pool hpool]
      exact h.flags pool

/-- The last pool is a 16-bit number. -/
theorem maxPoolId_lt (tables : Tables F) : tables.maxPoolId < 2 ^ 16 := by
  unfold Tables.maxPoolId
  induction tables.templates with
  | nil => exact Nat.two_pow_pos 16
  | cons row rest ih => exact max_lt row.entry.toNat_lt ih

/-- Every pool of the table is at most the last. -/
theorem le_maxPoolId {pool : UInt16} (h : pool ∈ tables.templates.map TemplateRow.entry) :
    pool.toNat ≤ tables.maxPoolId := by
  unfold Tables.maxPoolId
  revert h
  induction tables.templates with
  | nil => exact fun h => absurd h List.not_mem_nil
  | cons row rest ih =>
      intro h
      rcases List.mem_cons.mp h with rfl | hrest
      · exact le_max_left _ _
      · exact (ih hrest).trans (le_max_right _ _)

/-- Loading ends, and what is left is what the two checks leave of the tables. -/
theorem loadFromDB_spec (float : FloatOps F) (world : World) (hrows : tables.templates ≠ [])
    (hmax : tables.maxPoolId ≠ 65535) {fuel : ℕ} (hfuel : 2 ^ 16 < fuel) :
    ∃ checked s, loadFromDB float world fuel tables = some s ∧
      (tables.pools ≠ [] →
        checkCircular world fuel (readTables float world tables) = some checked) ∧
      Pruned (readTables float world tables) checked ∧
      (LinksAgree (readTables float world tables) → LinksAgree checked) ∧
      (∀ pool, Ends checked.poolSearch pool) ∧
      ChancesChecked float checked (tables.maxPoolId + 1) s := by
  obtain ⟨hmaxRead, hsizeRead, hbounded, -, -, hempty⟩ := readTables_spec float world tables
  have hlt := maxPoolId_lt tables
  obtain ⟨checked, hchecked, hcircular, hpruned, hagree, hends⟩ : ∃ checked,
      checkPools world fuel tables (readTables float world tables) = some checked ∧
      (tables.pools ≠ [] →
        checkCircular world fuel (readTables float world tables) = some checked) ∧
      Pruned (readTables float world tables) checked ∧
      (LinksAgree (readTables float world tables) → LinksAgree checked) ∧
      ∀ pool, Ends checked.poolSearch pool := by
    by_cases hpools : tables.pools = []
    · refine ⟨_, if_pos (List.isEmpty_iff.mpr hpools), fun hne => absurd hpools hne, .refl _, id,
        fun pool => ends_of_none ?_⟩
      rw [hempty hpools]
    · obtain ⟨checked, hcheck, hrest⟩ :=
        checkCircular_spec world (hmaxRead ▸ hlt) hfuel hbounded
      refine ⟨checked, ?_, fun _ => hcheck, hrest⟩
      unfold checkPools
      rw [if_neg fun hnil => hpools (List.isEmpty_iff.mp hnil)]
      exact hcheck
  have hsize : checked.size = tables.maxPoolId + 1 := hpruned.size.trans hsizeRead
  have hbound : checked.size < 2 ^ 16 := by omega
  have hturns : checked.size - (0 : UInt16).toNat < fuel := by omega
  have hstart : ChancesChecked float checked (0 : UInt16).toNat checked := by
    refine ⟨rfl, rfl, rfl, fun _ => rfl, fun pool => ?_⟩
    rw [UInt16.toNat_zero, decide_eq_true (Nat.zero_le pool.toNat), Bool.true_or, Bool.and_true]
  obtain ⟨s, hloop, hchances⟩ := forUInt16_spec (fun i s => some (checkChances float i s))
    (ChancesChecked float checked) hbound (fun i s' _ h => ⟨_, rfl, checkChances_checked i h⟩)
    (Nat.zero_le _) hturns hstart
  refine ⟨checked, s, ?_, hcircular, hpruned, hagree, hends, hsize ▸ hchances⟩
  unfold loadFromDB
  rw [if_neg hrows]
  simp only [Option.bind_eq_bind, hchecked, Option.bind_some]
  exact hloop

end PoolManager

end TwowCore.Pools
