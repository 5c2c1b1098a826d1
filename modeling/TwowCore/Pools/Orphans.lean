import TwowCore.Pools.Forest

/-!
# Pools whose link is dropped

Which links the check for circles drops is seen in the tables: none, when the rows of `pool_pool` make no
circle and the spawns below one pool may be in one pool. `KeepsLinks` says that of the tables, and
`checkChain_keeps` and `checkChain_consistent` follow a chain in the two directions. A pool whose link is
dropped has lost its flag when the row was read, and does not get it back.
-/

namespace TwowCore.Pools

open TwowCore.Lib Relation

/-- Spawns on two maps may be in one pool. -/
def MapEntry.Together (a b : MapEntry) : Prop :=
  a = b ∨ a.instanceable = false ∧ b.instanceable = false

instance (a b : MapEntry) : Decidable (a.Together b) := by
  unfold MapEntry.Together
  infer_instance

theorem MapEntry.Together.symm {a b : MapEntry} (h : a.Together b) : b.Together a :=
  h.imp Eq.symm And.symm

theorem MapEntry.Together.trans {a b c : MapEntry} (h : a.Together b) (h' : b.Together c) :
    a.Together c := by
  rcases h with rfl | ⟨ha, hb⟩
  · exact h'
  · rcases h' with rfl | ⟨-, hc⟩
    · exact Or.inr ⟨ha, hb⟩
    · exact Or.inr ⟨ha, hc⟩

/-- What the rows of members give: their pools to the spawns, and their maps to the pools. -/
structure Placed where
  pools : UInt32 → Option UInt16
  maps : UInt16 → Option MapEntry

/-- One row more. It counts when its spawn is on a map and in no pool, its pool is there, its chance is a
percentage and its map may be in the pool. -/
def Placed.row {F : Type} (float : FloatOps F) (maxPoolId : ℕ) (mapOf : MemberRow F → Option MapEntry)
    (p : Placed) (row : MemberRow F) : Placed :=
  match mapOf row with
  | none => p
  | some mapEntry =>
      if (p.pools row.guid).getD 0 ≠ 0 ∨ maxPoolId < row.poolId.toNat ∨
          (float.lt row.chance float.zero || float.lt float.hundred row.chance) = true then p
      else
        match p.maps row.poolId with
        | none =>
            ⟨insertNew p.pools row.guid row.poolId,
              Function.update p.maps row.poolId (some mapEntry)⟩
        | some poolMapEntry =>
            if poolMapEntry.Together mapEntry then ⟨insertNew p.pools row.guid row.poolId, p.maps⟩
            else p

/-- The map of the spawn of a row, if the row is one for a pool. -/
def World.creatureRowMap {F : Type} (world : World) (row : MemberRow F) : Option MapEntry :=
  if row.entryId = 0 ∧ world.rareRespawnPoolBypass row.guid then none
  else (world.creatureMap row.guid).bind world.mapStorage

/-- The map of the spawn of a row, if it can be looted. -/
def World.gameobjectRowMap {F : Type} (world : World) (row : MemberRow F) : Option MapEntry :=
  (world.gameobjectData row.guid).bind fun data =>
    if data.2 ∈ lootableTypes then world.mapStorage data.1 else none

/-- An entry is stored under its id. -/
def World.Lawful (world : World) : Prop :=
  ∀ id mapEntry, world.mapStorage id = some mapEntry → mapEntry.id = id

namespace Tables

variable {F : Type} (float : FloatOps F) (world : World) (tables : Tables F)

/-- A row of `pool_pool` is not skipped: its pools are there and differ, and its chance is a percentage. -/
def accepts (row : PoolRow F) : Bool :=
  decide (row.poolId.toNat ≤ tables.maxPoolId ∧ row.motherPool ≠ row.poolId ∧
    row.motherPool.toNat ≤ tables.maxPoolId) &&
      !(float.lt row.chance float.zero || float.lt float.hundred row.chance)

/-- The mother that the rows of `pool_pool` give to a pool. -/
def motherOf (pool : UInt16) : Option UInt16 :=
  (tables.pools.find? fun row => decide (row.poolId = pool) && tables.accepts float row).map
    PoolRow.motherPool

/-- The maps that the rows of members give to the pools. -/
def mapOf : UInt16 → Option MapEntry :=
  let creatures := tables.creatures.foldl
    (Placed.row float tables.maxPoolId world.creatureRowMap) ⟨fun _ => none, fun _ => none⟩
  (tables.gameobjects.foldl (Placed.row float tables.maxPoolId world.gameobjectRowMap)
    ⟨fun _ => none, creatures.maps⟩).maps

/-- A link that is checked. The check starts from every pool but the last, and comes to that one when it has
a child. -/
def Linked (child mother : UInt16) : Prop :=
  tables.motherOf float child = some mother ∧
    (child.toNat < tables.maxPoolId ∨ ∃ other, tables.motherOf float other = some child)

/-- The links make no circle, and the spawns below one pool may be in one pool. -/
structure KeepsLinks : Prop where
  noCircle : ∀ pool, ¬TransGen (tables.Linked float) pool pool
  together : ∀ pool other top, ReflTransGen (tables.Linked float) pool top →
    ReflTransGen (tables.Linked float) other top → ∀ a b, tables.mapOf float world pool = some a →
      tables.mapOf float world other = some b → a.Together b

end Tables

namespace PoolManager

variable {F : Type} {float : FloatOps F} {world : World} {s s' : PoolManager F} {tables : Tables F}

/-- The maps of the pools. -/
def maps (s : PoolManager F) (pool : UInt16) : Option MapEntry := (s.template pool).mapEntry

section Reading

/-- What `CheckAndRemember` does. -/
theorem checkAndRemember_cases (world : World) (s : PoolManager F) (mapId : ℕ) (pool : UInt16) :
    (world.mapStorage mapId = none ∧ s.checkAndRemember world mapId pool = (false, s)) ∨
    ∃ mapEntry, world.mapStorage mapId = some mapEntry ∧
      (s.maps pool = none ∧ (s.checkAndRemember world mapId pool).1 = true ∧
          (s.checkAndRemember world mapId pool).2.maps =
            Function.update s.maps pool (some mapEntry) ∨
        ∃ poolMapEntry, s.maps pool = some poolMapEntry ∧
          s.checkAndRemember world mapId pool = (decide (poolMapEntry.Together mapEntry), s)) := by
  unfold checkAndRemember
  cases hentry : world.mapStorage mapId with
  | none => exact Or.inl ⟨rfl, rfl⟩
  | some mapEntry =>
      refine Or.inr ⟨mapEntry, rfl, ?_⟩
      cases hpool : (s.template pool).mapEntry with
      | none =>
          refine Or.inl ⟨hpool, rfl, ?_⟩
          funext other
          unfold maps
          dsimp only
          by_cases hother : other = pool
          · subst hother
            rw [Function.update_self, Function.update_self]
          · rw [Function.update_of_ne hother, Function.update_of_ne hother]
      | some poolMapEntry =>
          refine Or.inr ⟨poolMapEntry, hpool, ?_⟩
          dsimp only
          unfold MapEntry.Together
          split_ifs with hsame hinstance hinstance' <;> simp_all

/-- The spawns that `CheckAndRemember` does not touch. -/
theorem checkAndRemember_searches (world : World) (s : PoolManager F) (mapId : ℕ) (pool : UInt16) :
    (s.checkAndRemember world mapId pool).2.creatureSearch = s.creatureSearch ∧
      (s.checkAndRemember world mapId pool).2.gameobjectSearch = s.gameobjectSearch := by
  unfold checkAndRemember
  split
  · exact ⟨rfl, rfl⟩
  · split
    · exact ⟨rfl, rfl⟩
    · split_ifs <;> exact ⟨rfl, rfl⟩

/-- A row whose pool is not there or whose chance is no percentage. -/
theorem checkPoolAndChance_eq_false {pool : UInt16} {chance : F} :
    checkPoolAndChance float s pool chance = false ↔
      s.maxPoolId < pool.toNat ∨ (float.lt chance float.zero || float.lt float.hundred chance) = true := by
  unfold checkPoolAndChance
  split_ifs with hpool hchance
  · exact iff_of_true rfl (Or.inl hpool)
  · exact iff_of_true rfl (Or.inr hchance)
  · exact iff_of_false nofun (not_or.mpr ⟨hpool, hchance⟩)

/-- A row that does not count. -/
theorem placedRow_skip {maxPoolId : ℕ} {mapOf : MemberRow F → Option MapEntry} {p : Placed}
    {row : MemberRow F} (h : mapOf row = none ∨ (p.pools row.guid).getD 0 ≠ 0 ∨
      maxPoolId < row.poolId.toNat ∨
        (float.lt row.chance float.zero || float.lt float.hundred row.chance) = true) :
    Placed.row float maxPoolId mapOf p row = p := by
  unfold Placed.row
  cases hmap : mapOf row with
  | none => rfl
  | some mapEntry =>
      rw [hmap] at h
      exact if_pos (h.resolve_left (Option.some_ne_none _))

/-- A row that is not skipped is placed as `CheckAndRemember` says. -/
theorem placedRow_checked {mapOf : MemberRow F → Option MapEntry} {search : UInt32 → Option UInt16}
    {row : MemberRow F} {mapId : ℕ} (hmap : mapOf row = world.mapStorage mapId)
    (hskip : ¬((search row.guid).getD 0 ≠ 0 ∨ s.maxPoolId < row.poolId.toNat ∨
      (float.lt row.chance float.zero || float.lt float.hundred row.chance) = true)) :
    Placed.row float s.maxPoolId mapOf ⟨search, s.maps⟩ row =
      ⟨if (s.checkAndRemember world mapId row.poolId).1 then insertNew search row.guid row.poolId
        else search, (s.checkAndRemember world mapId row.poolId).2.maps⟩ := by
  unfold Placed.row
  rcases checkAndRemember_cases world s mapId row.poolId with
    ⟨hnone, hresult⟩ | ⟨mapEntry, hentry, ⟨hpool, htrue, hmaps⟩ | ⟨poolMapEntry, hpool, hresult⟩⟩
  · rw [hmap, hnone, hresult]
    rfl
  · simp only [hmap, hentry, if_neg hskip, hpool, htrue, hmaps, if_true]
  · simp only [hmap, hentry, if_neg hskip, hpool, hresult, decide_eq_true_eq]
    split_ifs <;> rfl

/-- A row of the creatures. -/
theorem loadCreature_placed (s : PoolManager F) (row : MemberRow F) :
    Placed.row float s.maxPoolId world.creatureRowMap ⟨s.creatureSearch, s.maps⟩ row =
      ⟨(loadCreature float world s row).creatureSearch, (loadCreature float world s row).maps⟩ ∧
    (loadCreature float world s row).gameobjectSearch = s.gameobjectSearch := by
  unfold loadCreature
  cases hmap : world.creatureMap row.guid with
  | none => exact ⟨placedRow_skip (Or.inl (by simp [World.creatureRowMap, hmap])), rfl⟩
  | some mapId =>
      dsimp only
      split_ifs with hbypass hlisted hchance hchecked
      · exact ⟨placedRow_skip (Or.inl (if_pos hbypass)), rfl⟩
      · exact ⟨placedRow_skip (Or.inr (Or.inl hlisted)), rfl⟩
      · exact ⟨placedRow_skip (Or.inr (Or.inr (checkPoolAndChance_eq_false.mp hchance))), rfl⟩
      all_goals
        have hrow : world.creatureRowMap row = world.mapStorage mapId := by
          unfold World.creatureRowMap
          rw [if_neg hbypass, hmap, Option.bind_some]
        obtain ⟨hsearch, hother⟩ := checkAndRemember_searches world s mapId row.poolId
        refine ⟨?_, hother⟩
        rw [placedRow_checked hrow (not_or.mpr
          ⟨hlisted, fun h => hchance (checkPoolAndChance_eq_false.mpr h)⟩)]
      · rw [hchecked, hsearch]
        rfl
      · rw [if_pos (Bool.eq_true_of_not_eq_false hchecked), hsearch]
        rfl

/-- A row of the gameobjects. -/
theorem loadGameobject_placed (s : PoolManager F) (row : MemberRow F) :
    Placed.row float s.maxPoolId world.gameobjectRowMap ⟨s.gameobjectSearch, s.maps⟩ row =
      ⟨(loadGameobject float world s row).gameobjectSearch, (loadGameobject float world s row).maps⟩ := by
  unfold loadGameobject
  cases hdata : world.gameobjectData row.guid with
  | none => exact placedRow_skip (Or.inl (by simp [World.gameobjectRowMap, hdata]))
  | some data =>
      obtain ⟨mapId, type⟩ := data
      dsimp only
      by_cases htype : type ∈ lootableTypes
      case neg =>
        rw [if_pos htype]
        exact placedRow_skip (Or.inl (by simp [World.gameobjectRowMap, hdata, htype]))
      rw [if_neg (not_not.mpr htype)]
      split_ifs with hlisted hchance hchecked
      · exact placedRow_skip (Or.inr (Or.inl hlisted))
      · exact placedRow_skip (Or.inr (Or.inr (checkPoolAndChance_eq_false.mp hchance)))
      all_goals
        have hrow : world.gameobjectRowMap row = world.mapStorage mapId := by
          unfold World.gameobjectRowMap
          rw [hdata, Option.bind_some, if_pos htype]
        rw [placedRow_checked hrow (not_or.mpr
          ⟨hlisted, fun h => hchance (checkPoolAndChance_eq_false.mpr h)⟩)]
        obtain ⟨-, hsearch⟩ := checkAndRemember_searches world s mapId row.poolId
      · rw [hchecked, hsearch]
        rfl
      · rw [if_pos (Bool.eq_true_of_not_eq_false hchecked), hsearch]
        rfl

/-- All rows of the creatures. -/
theorem loadCreatures_placed (float : FloatOps F) (world : World) (rows : List (MemberRow F))
    (s : PoolManager F) :
    rows.foldl (Placed.row float s.maxPoolId world.creatureRowMap) ⟨s.creatureSearch, s.maps⟩ =
      ⟨(rows.foldl (loadCreature float world) s).creatureSearch,
        (rows.foldl (loadCreature float world) s).maps⟩ ∧
    (rows.foldl (loadCreature float world) s).gameobjectSearch = s.gameobjectSearch := by
  induction rows generalizing s with
  | nil => exact ⟨rfl, rfl⟩
  | cons row rest ih =>
      obtain ⟨hrow, hgameobjects⟩ := loadCreature_placed s row
      have hmax : (loadCreature float world s row).maxPoolId = s.maxPoolId :=
        (loadCreature_sameLinks s row).maxPoolId
      rw [List.foldl_cons, hrow, ← hmax]
      exact ⟨(ih _).1, (ih _).2.trans hgameobjects⟩

/-- All rows of the gameobjects. -/
theorem loadGameobjects_placed (float : FloatOps F) (world : World) (rows : List (MemberRow F))
    (s : PoolManager F) :
    rows.foldl (Placed.row float s.maxPoolId world.gameobjectRowMap) ⟨s.gameobjectSearch, s.maps⟩ =
      ⟨(rows.foldl (loadGameobject float world) s).gameobjectSearch,
        (rows.foldl (loadGameobject float world) s).maps⟩ := by
  induction rows generalizing s with
  | nil => rfl
  | cons row rest ih =>
      have hmax : (loadGameobject float world s row).maxPoolId = s.maxPoolId :=
        (loadGameobject_sameLinks s row).maxPoolId
      rw [List.foldl_cons, loadGameobject_placed, ← hmax]
      exact ih _

theorem acceptsPool_eq (hmax : s.maxPoolId = tables.maxPoolId) (row : PoolRow F) :
    acceptsPool float s row = tables.accepts float row := by
  unfold acceptsPool checkPoolAndChance Tables.accepts
  rw [hmax]
  split_ifs with hchild hself hmother hchance
  · rw [decide_eq_false fun h => absurd h.1 (Nat.not_le.mpr hchild), Bool.false_and]
  · rw [decide_eq_false fun h => h.2.1 hself, Bool.false_and]
  · rw [decide_eq_false fun h => absurd h.2.2 (Nat.not_le.mpr hmother), Bool.false_and]
  · rw [hchance, Bool.not_true, Bool.and_false]
  · rw [decide_eq_true ⟨Nat.not_lt.mp hchild, hself, Nat.not_lt.mp hmother⟩,
      Bool.eq_false_of_not_eq_true hchance, Bool.not_false, Bool.and_self]

/-- A row of `pool_pool` gives its mother to a pool that has none. -/
theorem loadPool_poolSearch (hmax : s.maxPoolId = tables.maxPoolId) (row : PoolRow F) (pool : UInt16) :
    (loadPool float s row).poolSearch pool = (s.poolSearch pool).or
      (if row.poolId = pool ∧ tables.accepts float row = true then some row.motherPool else none) := by
  unfold loadPool
  rw [acceptsPool_eq hmax]
  split_ifs with hskip hgives hgives
  · rw [hskip] at hgives
    exact absurd hgives.2 Bool.false_ne_true
  · rw [Option.or_none]
  · show insertNew s.poolSearch row.poolId row.motherPool pool = _
    obtain ⟨rfl, -⟩ := hgives
    unfold insertNew
    cases hlink : s.poolSearch row.poolId with
    | none => rw [Option.isSome_none, if_neg Bool.false_ne_true, Function.update_self, Option.none_or]
    | some old => rw [Option.isSome_some, if_pos rfl, hlink, Option.some_or]
  · show insertNew s.poolSearch row.poolId row.motherPool pool = _
    have hne : pool ≠ row.poolId := fun heq =>
      hgives ⟨heq.symm, Bool.eq_true_of_not_eq_false hskip⟩
    unfold insertNew
    rw [Option.or_none]
    split_ifs
    · rfl
    · rw [Function.update_of_ne hne]

theorem loadPools_poolSearch (rows : List (PoolRow F)) (hmax : s.maxPoolId = tables.maxPoolId)
    (pool : UInt16) :
    (rows.foldl (loadPool float) s).poolSearch pool = (s.poolSearch pool).or
      ((rows.find? fun row => decide (row.poolId = pool) && tables.accepts float row).map
        PoolRow.motherPool) := by
  induction rows generalizing s with
  | nil => rw [List.foldl_nil, List.find?_nil, Option.map_none, Option.or_none]
  | cons row rest ih =>
      have hkept : (loadPool float s row).maxPoolId = tables.maxPoolId :=
        (loadPools_bounds float [row] s).1.trans hmax
      rw [List.foldl_cons, ih hkept, loadPool_poolSearch hmax, Option.or_assoc]
      by_cases hgives : row.poolId = pool ∧ tables.accepts float row = true
      · rw [if_pos hgives, List.find?_cons_of_pos (by simp [hgives]), Option.some_or, Option.map_some]
      · rw [if_neg hgives, List.find?_cons_of_neg (by simpa using hgives), Option.none_or]

theorem loadPools_maps (rows : List (PoolRow F)) (s : PoolManager F) :
    (rows.foldl (loadPool float) s).maps = s.maps := by
  induction rows generalizing s with
  | nil => rfl
  | cons row rest ih =>
      rw [List.foldl_cons, ih]
      unfold loadPool
      split_ifs
      · rfl
      · funext pool
        show (Function.update s.template row.poolId _ pool).mapEntry = (s.template pool).mapEntry
        by_cases hpool : pool = row.poolId
        · rw [hpool, Function.update_self]
          rfl
        · rw [Function.update_of_ne hpool]

theorem loadTemplates_placed (rows : List TemplateRow) (s : PoolManager F) :
    (rows.foldl loadTemplate s).maps = s.maps ∧
      (rows.foldl loadTemplate s).creatureSearch = s.creatureSearch ∧
      (rows.foldl loadTemplate s).gameobjectSearch = s.gameobjectSearch := by
  induction rows generalizing s with
  | nil => exact ⟨rfl, rfl, rfl⟩
  | cons row rest ih =>
      obtain ⟨hmaps, hcreatures, hgameobjects⟩ := ih (s.loadTemplate row)
      refine ⟨hmaps.trans ?_, hcreatures, hgameobjects⟩
      funext pool
      show (Function.update s.template row.entry _ pool).mapEntry = (s.template pool).mapEntry
      by_cases hpool : pool = row.entry
      · rw [hpool, Function.update_self]
      · rw [Function.update_of_ne hpool]

/-- A pool with a link has lost its flag. -/
def LinkedCleared (s : PoolManager F) : Prop := ∀ pool, s.poolSearch pool ≠ none → s.autoSpawns pool = false

theorem loadPools_linkedCleared (rows : List (PoolRow F)) (h : s.LinkedCleared) :
    (rows.foldl (loadPool float) s).LinkedCleared := by
  induction rows generalizing s with
  | nil => exact h
  | cons row rest ih =>
      refine ih fun pool hlinked => ?_
      by_cases hchild : pool = row.poolId
      · subst hchild
        unfold loadPool at hlinked ⊢
        split_ifs at hlinked ⊢
        · exact h row.poolId hlinked
        · show (Function.update s.template row.poolId _ row.poolId).isAutoSpawn = false
          rw [Function.update_self, PoolTemplateData.isAutoSpawn_clear]
      · rw [loadPool_search row hchild] at hlinked
        have hflag := h pool hlinked
        unfold loadPool
        split_ifs
        · exact hflag
        · show (Function.update s.template row.poolId _ pool).isAutoSpawn = false
          rw [Function.update_of_ne hchild]
          exact hflag

/-- The links and the maps that are read are those of the tables. -/
theorem readTables_reads (float : FloatOps F) (world : World) (tables : Tables F) :
    (readTables float world tables).poolSearch = tables.motherOf float ∧
      (readTables float world tables).maps = tables.mapOf float world ∧
      (readTables float world tables).LinkedCleared := by
  unfold readTables
  dsimp only
  obtain ⟨hmaps, hcreatures, hgameobjects⟩ := loadTemplates_placed tables.templates
    (new tables.maxPoolId (tables.maxPoolId + 1) : PoolManager F)
  obtain ⟨hmax, -, -, hsearch⟩ := loadTemplates_links tables.templates
    (new tables.maxPoolId (tables.maxPoolId + 1) : PoolManager F)
  generalize tables.templates.foldl loadTemplate (new tables.maxPoolId (tables.maxPoolId + 1)) = s at *
  have hlinks := readMembers_sameLinks float world tables s
  have hmax' : s.maxPoolId = tables.maxPoolId := hmax
  obtain ⟨hplaced, hother⟩ := loadCreatures_placed float world tables.creatures s
  have hmaxCreatures : (tables.creatures.foldl (loadCreature float world) s).maxPoolId =
      tables.maxPoolId := (foldl_sameLinks loadCreature_sameLinks _ _).maxPoolId.trans hmax'
  refine ⟨?_, ?_, loadPools_linkedCleared tables.pools fun pool hlinked => ?_⟩
  · funext pool
    rw [loadPools_poolSearch tables.pools (hlinks.maxPoolId.trans hmax'), hlinks.search, hsearch]
    rfl
  · have hsecond := loadGameobjects_placed float world tables.gameobjects
      (tables.creatures.foldl (loadCreature float world) s)
    rw [hmax', hcreatures, hmaps] at hplaced
    have hcreatureMaps := (congrArg Placed.maps hplaced).symm
    dsimp only at hcreatureMaps
    rw [hmaxCreatures, hother, hgameobjects, hcreatureMaps] at hsecond
    rw [loadPools_maps]
    exact (congrArg Placed.maps hsecond).symm
  · rw [hlinks.search, hsearch] at hlinked
    exact absurd rfl hlinked

end Reading

section Chains

/-- A map that the rows give is stored. -/
theorem mapOf_stored (hlawful : world.Lawful) {pool : UInt16} {a : MapEntry}
    (h : tables.mapOf float world pool = some a) : world.mapStorage a.id = some a := by
  have hstored : ∀ {id mapEntry}, world.mapStorage id = some mapEntry →
      world.mapStorage mapEntry.id = some mapEntry := by
    intro id mapEntry hid
    rw [hlawful id mapEntry hid]
    exact hid
  -- a row remembers the map of its spawn
  have hrows : ∀ (mapOf : MemberRow F → Option MapEntry), (∀ row mapEntry, mapOf row = some mapEntry →
        world.mapStorage mapEntry.id = some mapEntry) → ∀ (rows : List (MemberRow F)) (p : Placed),
      (∀ pool a, p.maps pool = some a → world.mapStorage a.id = some a) → ∀ pool a,
        (rows.foldl (Placed.row float tables.maxPoolId mapOf) p).maps pool = some a →
          world.mapStorage a.id = some a := by
    intro mapOf hmap rows
    induction rows with
    | nil => exact fun p hp => hp
    | cons row rest ih =>
        refine fun p hp => ih _ fun pool a hpool => ?_
        unfold Placed.row at hpool
        split at hpool
        · exact hp pool a hpool
        · rename_i mapEntry hentry
          split_ifs at hpool
          · exact hp pool a hpool
          · split at hpool
            · dsimp only at hpool
              by_cases hsame : pool = row.poolId
              · rw [hsame, Function.update_self] at hpool
                exact Option.some.inj hpool ▸ hmap row mapEntry hentry
              · rw [Function.update_of_ne hsame] at hpool
                exact hp pool a hpool
            · split_ifs at hpool <;> exact hp pool a hpool
  have hcreatures := hrows world.creatureRowMap (fun row mapEntry hrow => ?_) tables.creatures
    ⟨fun _ => none, fun _ => none⟩ fun _ _ hnone => absurd hnone.symm (Option.some_ne_none _)
  · refine hrows world.gameobjectRowMap (fun row mapEntry hrow => ?_) tables.gameobjects
      ⟨fun _ => none, _⟩ hcreatures pool a h
    unfold World.gameobjectRowMap at hrow
    obtain ⟨data, -, hdata⟩ := Option.bind_eq_some_iff.mp hrow
    split_ifs at hdata
    exact hstored hdata
  · unfold World.creatureRowMap at hrow
    split_ifs at hrow
    obtain ⟨mapId, -, hmap⟩ := Option.bind_eq_some_iff.mp hrow
    exact hstored hmap

/-- The links are those of the tables, and every map of a pool is that of spawns below it. -/
structure MapsBelow (float : FloatOps F) (world : World) (tables : Tables F) (s : PoolManager F) :
    Prop where
  search : s.poolSearch = tables.motherOf float
  below : ∀ pool a, s.maps pool = some a →
    ∃ other, tables.mapOf float world other = some a ∧ ReflTransGen (tables.Linked float) other pool

/-- The maps of a child and of its mother go together. -/
theorem checkMaps_below (hlawful : world.Lawful) (hkeeps : tables.KeepsLinks float world)
    (h : MapsBelow float world tables s) {child mother : UInt16}
    (hlink : tables.Linked float child mother) : (s.checkMaps world child mother).1 = true ∧
      MapsBelow float world tables (s.checkMaps world child mother).2 := by
  unfold checkMaps
  cases hmap : (s.template child).mapEntry with
  | none => exact ⟨rfl, h⟩
  | some a =>
      obtain ⟨other, hother, hreach⟩ := h.below child a hmap
      have hstored := mapOf_stored hlawful hother
      rcases checkAndRemember_cases world s a.id mother with
        ⟨hnone, -⟩ | ⟨mapEntry, hentry, ⟨-, htrue, hmaps⟩ | ⟨b, hb, hresult⟩⟩
      · cases hnone.symm.trans hstored
      · cases hentry.symm.trans hstored
        refine ⟨htrue, (checkAndRemember_sameLinks world s a.id mother).search.trans h.search, ?_⟩
        intro pool c hpool
        rw [hmaps] at hpool
        by_cases hsame : pool = mother
        · rw [hsame, Function.update_self] at hpool
          rw [hsame]
          exact ⟨other, Option.some.inj hpool ▸ hother, hreach.tail hlink⟩
        · rw [Function.update_of_ne hsame] at hpool
          exact h.below pool c hpool
      · cases hentry.symm.trans hstored
        obtain ⟨second, hsecond, habove⟩ := h.below mother b hb
        have htogether := hkeeps.together second other mother habove (hreach.tail hlink) b a hsecond hother
        show (s.checkAndRemember world a.id mother).1 = true ∧
          MapsBelow float world tables (s.checkAndRemember world a.id mother).2
        rw [hresult]
        exact ⟨decide_eq_true htogether, h⟩

/-- The check of a chain drops nothing. -/
theorem checkChain_keeps (hlawful : world.Lawful) (hkeeps : tables.KeepsLinks float world) {fuel : ℕ}
    {checkedPools : List UInt16} {child : UInt16} (h : MapsBelow float world tables s)
    (hchecked : child.toNat < tables.maxPoolId ∨ ∃ other, tables.motherOf float other = some child)
    (hpassed : ∀ pool ∈ checkedPools, TransGen (tables.Linked float) pool child)
    (hchain : checkChain world fuel s checkedPools child = some s') :
    MapsBelow float world tables s' := by
  induction fuel generalizing s checkedPools child with
  | zero => cases hchain
  | succ fuel ih =>
      unfold checkChain at hchain
      cases hmother : s.poolSearch child with
      | none =>
          rw [hmother] at hchain
          cases hchain
          exact h
      | some mother =>
          have hlink : tables.Linked float child mother := ⟨h.search ▸ hmother, hchecked⟩
          obtain ⟨htrue, hbelow⟩ := checkMaps_below hlawful hkeeps h hlink
          have hcircle : mother ∉ child :: checkedPools := by
            intro hmem
            rcases List.mem_cons.mp hmem with rfl | hmem
            · exact hkeeps.noCircle mother (TransGen.single hlink)
            · exact hkeeps.noCircle mother ((hpassed mother hmem).tail hlink)
          simp only [hmother, htrue, Bool.true_eq_false, if_false, if_neg hcircle] at hchain
          refine ih hbelow (Or.inr ⟨child, hlink.1⟩) (fun pool hpool => ?_) hchain
          rcases List.mem_cons.mp hpool with rfl | hpool
          · exact TransGen.single hlink
          · exact (hpassed pool hpool).tail hlink

/-- The maps of the pools are stored. -/
def Stored (world : World) (s : PoolManager F) : Prop :=
  ∀ pool a, s.maps pool = some a → world.mapStorage a.id = some a

/-- When a child has a map its mother has one that goes with it. -/
def Consistent (s : PoolManager F) (child mother : UInt16) : Prop :=
  ∀ a, s.maps child = some a → ∃ b, s.maps mother = some b ∧ a.Together b

/-- The check of the maps makes them consistent, and changes the one of the mother alone. -/
theorem checkMaps_consistent (hstored : s.Stored world) {child mother : UInt16} (hne : mother ≠ child)
    (htrue : (s.checkMaps world child mother).1 = true) :
    (s.checkMaps world child mother).2.Stored world ∧
      (∀ pool a, s.maps pool = some a → (s.checkMaps world child mother).2.maps pool = some a) ∧
      (∀ pool, pool ≠ mother → (s.checkMaps world child mother).2.maps pool = s.maps pool) ∧
      (s.checkMaps world child mother).2.Consistent child mother := by
  unfold checkMaps at htrue ⊢
  cases hmap : (s.template child).mapEntry with
  | none =>
      refine ⟨hstored, fun _ _ h => h, fun _ _ => rfl, fun a ha => ?_⟩
      cases hmap.symm.trans ha
  | some a =>
      rw [hmap] at htrue
      dsimp only at htrue ⊢
      have hchild : s.maps child = some a := hmap
      have hid := hstored child a hmap
      rcases checkAndRemember_cases world s a.id mother with
        ⟨hnone, -⟩ | ⟨mapEntry, hentry, ⟨hpool, -, hmaps⟩ | ⟨b, hb, hresult⟩⟩
      · cases hnone.symm.trans hid
      · cases hentry.symm.trans hid
        have hothers : ∀ pool, pool ≠ mother →
            (s.checkAndRemember world a.id mother).2.maps pool = s.maps pool := fun pool hpool => by
          rw [hmaps, Function.update_of_ne hpool]
        have hmother : (s.checkAndRemember world a.id mother).2.maps mother = some a := by
          rw [hmaps, Function.update_self]
        refine ⟨fun pool c hc => ?_, fun pool c hc => ?_, hothers, fun c hc => ?_⟩
        · by_cases hsame : pool = mother
          · rw [hsame, hmother] at hc
            exact Option.some.inj hc ▸ hid
          · exact hstored pool c ((hothers pool hsame).symm.trans hc)
        · refine (hothers pool ?_).trans hc
          rintro rfl
          cases hpool.symm.trans hc
        · rw [hothers child hne.symm, hchild] at hc
          exact ⟨a, hmother, Or.inl (Option.some.inj hc).symm⟩
      · cases hentry.symm.trans hid
        rw [hresult] at htrue ⊢
        refine ⟨hstored, fun _ _ h => h, fun _ _ => rfl, fun c hc => ⟨b, hb, ?_⟩⟩
        cases hchild.symm.trans hc
        exact (of_decide_eq_true htrue).symm

/-- The check of a chain that drops nothing makes its maps consistent, and changes those of its mothers
alone. -/
theorem checkChain_consistent {parent : UInt16 → Option UInt16} {fuel : ℕ} {checkedPools : List UInt16}
    {child : UInt16} (hstored : s.Stored world) (hends : ∀ pool, Ends parent pool)
    (hsearch : s.poolSearch = parent) (hchain : checkChain world fuel s checkedPools child = some s')
    (hkept : s'.poolSearch = parent) :
    s'.Stored world ∧ (∀ pool a, s.maps pool = some a → s'.maps pool = some a) ∧
      (∀ pool, ¬ReflTransGen (fun c m => parent c = some m) child pool → s'.maps pool = s.maps pool) ∧
      ∀ pool mother, ReflTransGen (fun c m => parent c = some m) child pool → parent pool = some mother →
        s'.Consistent pool mother := by
  induction fuel generalizing s checkedPools child with
  | zero => cases hchain
  | succ fuel ih =>
      unfold checkChain at hchain
      cases hmother : s.poolSearch child with
      | none =>
          rw [hmother] at hchain
          cases hchain
          refine ⟨hstored, fun _ _ h => h, fun _ _ => rfl, fun pool mother habove hpool => ?_⟩
          rcases habove.cases_head with rfl | ⟨next, hnext, -⟩
          · rw [← hsearch, hmother] at hpool
            cases hpool
          · rw [← hsearch, hmother] at hnext
            cases hnext
      | some mother =>
          have hlink : parent child = some mother := hsearch ▸ hmother
          have hsame := checkMaps_sameLinks world s child mother
          have hdropped : s' ≠ (s.checkMaps world child mother).2.removeLink child mother := by
            rintro rfl
            have hnone := removeLink_search (s.checkMaps world child mother).2 child mother child
            rw [if_pos rfl, hkept, hlink] at hnone
            cases hnone
          have hcircle : ¬ReflTransGen (fun c m => parent c = some m) mother child := fun hback =>
            not_circular hends child (TransGen.head' hlink hback)
          have hne : mother ≠ child := fun heq => hcircle (heq ▸ ReflTransGen.refl)
          simp only [hmother] at hchain
          split_ifs at hchain with hmaps hpassed
          · exact absurd (Option.some.inj hchain).symm hdropped
          · exact absurd (Option.some.inj hchain).symm hdropped
          · obtain ⟨hstored₁, hgrow₁, hothers₁, hconsistent₁⟩ := checkMaps_consistent hstored hne
              (Bool.eq_true_of_not_eq_false hmaps)
            obtain ⟨hstored', hgrow, hothers, hconsistent⟩ :=
              ih hstored₁ (hsame.search.trans hsearch) hchain
            refine ⟨hstored', fun pool a ha => hgrow pool a (hgrow₁ pool a ha), fun pool hnot => ?_,
              fun pool top habove hpool => ?_⟩
            · have habove : ¬ReflTransGen (fun c m => parent c = some m) mother pool := fun h =>
                hnot (ReflTransGen.head hlink h)
              rw [hothers pool habove]
              exact hothers₁ pool fun heq => habove (heq ▸ ReflTransGen.refl)
            · rcases habove.cases_head with rfl | ⟨next, hnext, hrest⟩
              · cases hlink.symm.trans hpool
                intro a ha
                rw [hothers child hcircle] at ha
                obtain ⟨b, hb, htogether⟩ := hconsistent₁ a ha
                exact ⟨b, hgrow mother b hb, htogether⟩
              · cases hlink.symm.trans hnext
                exact hconsistent pool top hrest hpool

/-- What holds when some chains have been checked, if nothing has been dropped. -/
structure ChainsChecked (world : World) (s : PoolManager F) (turns : ℕ) (s' : PoolManager F) : Prop where
  pruned : Pruned s s'
  stored : s'.poolSearch = s.poolSearch → s'.Stored world
  grows : s'.poolSearch = s.poolSearch → ∀ pool a, s.maps pool = some a → s'.maps pool = some a
  consistent : s'.poolSearch = s.poolSearch → ∀ i : UInt16, i.toNat < turns → ∀ pool mother,
    ReflTransGen (fun c m => s.poolSearch c = some m) i pool → s.poolSearch pool = some mother →
      s'.Consistent pool mother

/-- What is there at the end has been there before. -/
theorem Pruned.search_eq {s'' : PoolManager F} (h : Pruned s s') (h' : Pruned s' s'')
    (hkept : s''.poolSearch = s.poolSearch) : s'.poolSearch = s.poolSearch := by
  funext pool
  cases hlink : s.poolSearch pool with
  | some mother =>
      have hlast : s''.poolSearch pool = some mother := by rw [hkept, hlink]
      exact h'.search pool mother hlast
  | none =>
      cases hmid : s'.poolSearch pool with
      | none => rfl
      | some mother => cases hlink.symm.trans (h.search pool mother hmid)

/-- One chain more. -/
theorem ChainsChecked.step {fuel : ℕ} (hfuel : 2 ^ 16 < fuel) (hends : ∀ pool, Ends s.poolSearch pool)
    (i : UInt16) (h : ChainsChecked world s i.toNat s') :
    ∃ s'', checkChain world fuel s' [] i = some s'' ∧ ChainsChecked world s (i.toNat + 1) s'' := by
  obtain ⟨s'', hchain, hpruned, -, -⟩ :=
    checkChain_spec world s' (List.not_mem_nil : i ∉ []) List.nodup_nil hfuel
  have hbefore := h.pruned.search_eq hpruned
  have hone := fun hkept : s''.poolSearch = s.poolSearch =>
    checkChain_consistent (h.stored (hbefore hkept)) hends (hbefore hkept) hchain hkept
  refine ⟨s'', hchain, h.pruned.trans hpruned, fun hkept => (hone hkept).1, fun hkept pool a ha => ?_,
    fun hkept j hj pool mother habove hpool => ?_⟩
  · exact (hone hkept).2.1 pool a (h.grows (hbefore hkept) pool a ha)
  · obtain ⟨-, hgrow, hothers, hconsistent⟩ := hone hkept
    by_cases hchainAbove : ReflTransGen (fun c m => s.poolSearch c = some m) i pool
    · exact hconsistent pool mother hchainAbove hpool
    · -- the map of a pool that is not above stays, and so does that of its mother
      have hlt : j.toNat < i.toNat := by
        refine Nat.lt_of_le_of_ne (Nat.le_of_lt_succ hj) fun heq => hchainAbove ?_
        rw [← UInt16.toNat_inj.mp heq]
        exact habove
      intro a ha
      rw [hothers pool hchainAbove] at ha
      obtain ⟨b, hb, htogether⟩ :=
        h.consistent (hbefore hkept) j hlt pool mother habove hpool a ha
      exact ⟨b, hgrow mother b hb, htogether⟩

end Chains

section Circular

variable {fuel : ℕ} {checked : PoolManager F}

/-- When the check for circles drops no link, the tables keep them. -/
theorem keepsLinks_of_checkCircular (hlawful : world.Lawful) (hfuel : 2 ^ 16 < fuel)
    (hcheck : checkCircular world fuel (readTables float world tables) = some checked)
    (hends : ∀ pool, Ends checked.poolSearch pool) (hkept : checked.poolSearch = tables.motherOf float) :
    tables.KeepsLinks float world := by
  obtain ⟨hmax, -, hbounded, -, -, -⟩ := readTables_spec float world tables
  obtain ⟨hsearch, hmaps, -⟩ := readTables_reads float world tables
  have hlt : (readTables float world tables).maxPoolId < 2 ^ 16 := hmax ▸ maxPoolId_lt tables
  have hturns : (readTables float world tables).maxPoolId - (0 : UInt16).toNat < fuel := by omega
  have hkept' : checked.poolSearch = (readTables float world tables).poolSearch :=
    hkept.trans hsearch.symm
  have hacyclic : ∀ pool, Ends (readTables float world tables).poolSearch pool := hkept' ▸ hends
  have hstart : ChainsChecked world (readTables float world tables) (0 : UInt16).toNat
      (readTables float world tables) := by
    refine ⟨.refl _, fun _ pool a ha => ?_, fun _ _ _ h => h, fun _ i hi => ?_⟩
    · rw [hmaps] at ha
      exact mapOf_stored hlawful ha
    · exact absurd hi (Nat.not_lt_zero _)
  obtain ⟨last, hlast, hchecked⟩ := forUInt16_spec
    (fun i s => checkChain world fuel s [] i) (ChainsChecked world (readTables float world tables)) hlt
    (fun i _ _ h => h.step hfuel hacyclic i) (Nat.zero_le _) hturns hstart
  have hsame : last = checked := Option.some.inj (hlast.symm.trans hcheck)
  rw [hsame] at hchecked
  have hlinked : ∀ child mother, tables.Linked float child mother → checked.Consistent child mother := by
    rintro child mother ⟨hlink, hinside⟩
    rw [← hsearch] at hlink
    rcases hinside with hbelow | ⟨other, hother⟩
    · exact hchecked.consistent hkept' child (hmax ▸ hbelow) child mother ReflTransGen.refl hlink
    · rw [← hsearch] at hother
      by_cases hbelow : child.toNat < tables.maxPoolId
      · exact hchecked.consistent hkept' child (hmax ▸ hbelow) child mother ReflTransGen.refl hlink
      · -- the last pool has a child, which is another one
        have hle := hbounded.child_le other child hother
        have hchild := hbounded.child_le child mother hlink
        have hne : other.toNat ≠ child.toNat := fun heq =>
          hbounded.ne other child hother (UInt16.toNat_inj.mp heq).symm
        have hlast : other.toNat < (readTables float world tables).maxPoolId := by omega
        exact hchecked.consistent hkept' other hlast child mother (ReflTransGen.single hother) hlink
  have hup : ∀ pool top, ReflTransGen (tables.Linked float) pool top → ∀ a,
      tables.mapOf float world pool = some a → ∃ b, checked.maps top = some b ∧ a.Together b := by
    intro pool top hreach a ha
    induction hreach with
    | refl => exact ⟨a, hchecked.grows hkept' pool a (by rw [hmaps]; exact ha), Or.inl rfl⟩
    | tail _ hlink ih =>
        obtain ⟨b, hb, hab⟩ := ih
        obtain ⟨c, hc, hbc⟩ := hlinked _ _ hlink b hb
        exact ⟨c, hc, hab.trans hbc⟩
  refine ⟨fun pool hcircle => ?_, fun pool other top hpool hother a b ha hb => ?_⟩
  · have hlinks : tables.Linked float ≤ fun child mother => checked.poolSearch child = some mother :=
      fun child mother hlink => by
        rw [hkept]
        exact hlink.1
    exact not_circular hends pool (TransGen.mono hlinks pool pool hcircle)
  · obtain ⟨c, hc, hac⟩ := hup pool top hpool a ha
    obtain ⟨d, hd, hbd⟩ := hup other top hother b hb
    cases hc.symm.trans hd
    exact hac.trans hbd.symm

/-- When the tables keep the links, the check for circles drops none. -/
theorem checkCircular_keeps (hlawful : world.Lawful) (hfuel : 2 ^ 16 < fuel)
    (hcheck : checkCircular world fuel (readTables float world tables) = some checked)
    (hkeeps : tables.KeepsLinks float world) : checked.poolSearch = tables.motherOf float := by
  obtain ⟨hmax, -⟩ := readTables_spec float world tables
  obtain ⟨hsearch, hmaps, -⟩ := readTables_reads float world tables
  have hlt : (readTables float world tables).maxPoolId < 2 ^ 16 := hmax ▸ maxPoolId_lt tables
  have hturns : (readTables float world tables).maxPoolId - (0 : UInt16).toNat < fuel := by omega
  have hstart : MapsBelow float world tables (readTables float world tables) :=
    ⟨hsearch, fun pool a ha => ⟨pool, by rw [← hmaps]; exact ha, ReflTransGen.refl⟩⟩
  obtain ⟨last, hlast, hkept⟩ := forUInt16_spec
    (fun i s => checkChain world fuel s [] i) (fun _ s => MapsBelow float world tables s) hlt
    (fun i s hi h => by
      obtain ⟨s', hchain, -⟩ :=
        checkChain_spec world s (List.not_mem_nil : i ∉ []) List.nodup_nil hfuel
      exact ⟨s', hchain, checkChain_keeps hlawful hkeeps h (Or.inl (hmax ▸ hi))
        (fun pool hpool => absurd hpool List.not_mem_nil) hchain⟩)
    (Nat.zero_le _) hturns hstart
  have hsame : last = checked := Option.some.inj (hlast.symm.trans hcheck)
  exact hsame ▸ hkept.search

end Circular

/-- Without links nothing is dropped. -/
theorem keepsLinks_of_none (h : ∀ pool, tables.motherOf float pool = none) :
    tables.KeepsLinks float world := by
  have hnone : ∀ {child mother}, ¬tables.Linked float child mother := by
    rintro child mother ⟨hlink, -⟩
    rw [h child] at hlink
    cases hlink
  have hsame : ∀ {pool top}, ReflTransGen (tables.Linked float) pool top → pool = top := by
    intro pool top hreach
    rcases hreach.cases_head with heq | ⟨next, hlink, -⟩
    · exact heq
    · exact absurd hlink hnone
  refine ⟨fun pool hcircle => ?_, fun pool other top hpool hother a b ha hb => ?_⟩
  · obtain ⟨mother, -, hlink⟩ := TransGen.tail'_iff.mp hcircle
    exact hnone hlink
  · rw [hsame hpool] at ha
    rw [hsame hother, ha] at hb
    exact Or.inl (Option.some.inj hb)

/-- What loading leaves of the links is what the tables give just when they keep them. -/
theorem loadFromDB_links (float : FloatOps F) (hlawful : world.Lawful) (hmax : tables.maxPoolId ≠ 65535)
    {fuel : ℕ} (hfuel : 2 ^ 16 < fuel) :
    ∃ s, loadFromDB float world fuel tables = some s ∧
      (s.poolSearch = tables.motherOf float ↔ tables.KeepsLinks float world) ∧
      (∀ pool mother, s.poolSearch pool = some mother → tables.motherOf float pool = some mother) ∧
      (∀ pool, tables.motherOf float pool ≠ none → s.autoSpawns pool = false) ∧
      ∀ pool ∈ tables.templates.map TemplateRow.entry, tables.motherOf float pool = none →
        s.checkPool float pool = true → s.autoSpawns pool = true := by
  by_cases hrows : tables.templates = []
  · have hnone : ∀ pool, tables.motherOf float pool = none := by
      intro pool
      have hzero : tables.maxPoolId = 0 := by
        unfold Tables.maxPoolId
        rw [hrows]
        rfl
      refine Option.map_eq_none_iff.mpr (List.find?_eq_none.mpr fun row _ hgives => ?_)
      have haccepts := (Bool.and_eq_true_iff.mp (Bool.and_eq_true_iff.mp hgives).2).1
      obtain ⟨hchild, hne, hmother⟩ := of_decide_eq_true haccepts
      rw [hzero] at hchild hmother
      exact hne (UInt16.toNat_inj.mp ((Nat.le_zero.mp hmother).trans (Nat.le_zero.mp hchild).symm))
    refine ⟨new tables.maxPoolId 0, if_pos hrows,
      iff_of_true (funext fun pool => (hnone pool).symm) (keepsLinks_of_none hnone), nofun,
      fun pool hne => absurd (hnone pool) hne, fun pool hpool => ?_⟩
    rw [hrows] at hpool
    exact absurd hpool List.not_mem_nil
  · obtain ⟨checked, s, hload, hcircular, hpruned, -, hends, hchances⟩ :=
      loadFromDB_spec float world hrows hmax hfuel
    obtain ⟨hsearch, -, hcleared⟩ := readTables_reads float world tables
    obtain ⟨-, -, -, hflags, -, hempty⟩ := readTables_spec float world tables
    have hread : ∀ pool, checked.autoSpawns pool = (readTables float world tables).autoSpawns pool :=
      fun pool => PoolTemplateData.isAutoSpawn_congr (hpruned.flags pool)
    refine ⟨s, hload, ?_, fun pool mother hlink => ?_, fun pool hne => ?_, fun pool hpool hnone hcheck => ?_⟩
    · rw [hchances.search]
      by_cases hpools : tables.pools = []
      · rw [hempty hpools] at hsearch
        refine iff_of_true (funext fun pool => ?_) (keepsLinks_of_none fun pool => ?_)
        · cases hlink : checked.poolSearch pool with
          | none => rw [← hsearch]
          | some mother =>
              have hbefore := hpruned.search pool mother hlink
              rw [hempty hpools] at hbefore
              cases hbefore
        · rw [← hsearch]
      · exact ⟨keepsLinks_of_checkCircular hlawful hfuel (hcircular hpools) hends,
          checkCircular_keeps hlawful hfuel (hcircular hpools)⟩
    · rw [hchances.search] at hlink
      rw [← hsearch]
      exact hpruned.search pool mother hlink
    · rw [hchances.flags, hread, hcleared pool (by rw [hsearch]; exact hne), Bool.false_and]
    · rw [hchances.checkPool] at hcheck
      rw [hchances.flags, hread, hcheck, Bool.or_true, Bool.and_true]
      refine (hflags pool hpool).mpr ?_
      rw [hsearch]
      exact hnone

end PoolManager

/-- When the tables keep the links of their rows all are there after loading, and every pool of the table that
has no mother and whose chances are right is spawned. When they do not, there is a pool whose link is dropped,
and it is not spawned. -/
theorem loadFromDB_orphans {F : Type} (float : FloatOps F) (world : World) (hlawful : world.Lawful)
    (tables : Tables F) (hmax : tables.maxPoolId ≠ 65535) (fuel : ℕ) (hfuel : 2 ^ 16 < fuel) :
    ∃ s, PoolManager.loadFromDB float world fuel tables = some s ∧
      (tables.KeepsLinks float world → s.poolSearch = tables.motherOf float ∧
        ∀ pool ∈ tables.templates.map TemplateRow.entry, s.checkPool float pool = true →
          s.poolSearch pool = none → (s.template pool).isAutoSpawn = true) ∧
      (¬tables.KeepsLinks float world → ∃ pool mother, tables.motherOf float pool = some mother ∧
        s.poolSearch pool = none ∧ (s.template pool).isAutoSpawn = false) := by
  obtain ⟨s, hload, hkeeps, hold, hcleared, hspawned⟩ :=
    PoolManager.loadFromDB_links float hlawful hmax hfuel
  refine ⟨s, hload, fun h => ?_, fun h => ?_⟩
  · have hlinks := hkeeps.mpr h
    refine ⟨hlinks, fun pool hpool hcheck hnone => hspawned pool hpool ?_ hcheck⟩
    rw [← hlinks]
    exact hnone
  · obtain ⟨pool, hne⟩ := Function.ne_iff.mp fun hlinks => h (hkeeps.mp hlinks)
    cases hlink : s.poolSearch pool with
    | some mother => exact absurd (hlink.trans (hold pool mother hlink).symm) hne
    | none =>
        rw [hlink] at hne
        obtain ⟨mother, hmother⟩ := Option.ne_none_iff_exists'.mp hne.symm
        refine ⟨pool, mother, hmother, hlink, hcleared pool ?_⟩
        rw [hmother]
        exact Option.some_ne_none mother

/-- A pool that is the mother of another. -/
def lineTables : Tables ℤ := { circleTables with pools := [⟨1, 2, 0⟩] }

/-- The circle is broken, and one of its pools is not spawned; the line stays, and its mother is spawned. -/
theorem loadFromDB_orphans_circle_line :
    (∃ s, PoolManager.loadFromDB wholeFloat emptyWorld 65537 circleTables = some s ∧
      ∃ pool mother, circleTables.motherOf wholeFloat pool = some mother ∧ s.poolSearch pool = none ∧
        (s.template pool).isAutoSpawn = false) ∧
    ∃ s, PoolManager.loadFromDB wholeFloat emptyWorld 65537 lineTables = some s ∧
      s.poolSearch = lineTables.motherOf wholeFloat ∧
      ∀ pool ∈ lineTables.templates.map TemplateRow.entry, s.checkPool wholeFloat pool = true →
        s.poolSearch pool = none → (s.template pool).isAutoSpawn = true := by
  have hlawful : emptyWorld.Lawful := by
    intro id mapEntry hid
    unfold emptyWorld at hid
    dsimp only at hid
    split_ifs at hid with hzero
    rw [hzero, ← Option.some.inj hid]
  have hcircle : ¬circleTables.KeepsLinks wholeFloat emptyWorld := fun hkeeps =>
    hkeeps.noCircle 1 (TransGen.tail (TransGen.single ⟨by decide, Or.inl (by decide)⟩)
      (⟨by decide, Or.inl (by decide)⟩ : circleTables.Linked wholeFloat 2 1))
  have hmother : ∀ {child mother}, lineTables.Linked wholeFloat child mother → mother = 2 := by
    rintro child mother ⟨hlink, -⟩
    obtain ⟨row, hrow, rfl⟩ := Option.map_eq_some_iff.mp hlink
    rw [List.mem_singleton.mp (List.mem_of_find?_eq_some hrow)]
  have htop : ∀ mother, ¬lineTables.Linked wholeFloat 2 mother := by
    rintro mother ⟨hlink, -⟩
    have hnone : lineTables.motherOf wholeFloat 2 = none := by decide
    rw [hnone] at hlink
    cases hlink
  have hline : lineTables.KeepsLinks wholeFloat emptyWorld := by
    refine ⟨fun pool hcircle => ?_, fun pool other top _ _ a b ha _ => ?_⟩
    · obtain ⟨last, _, hlast⟩ := TransGen.tail'_iff.mp hcircle
      obtain ⟨next, hnext, -⟩ := TransGen.head'_iff.mp hcircle
      rw [hmother hlast] at hnext
      exact htop next hnext
    · cases (show (none : Option MapEntry) = some a from ha)
  obtain ⟨circle, hcircleLoad, -, hdropped⟩ :=
    loadFromDB_orphans wholeFloat emptyWorld hlawful circleTables (by decide) 65537 (by decide)
  obtain ⟨line, hlineLoad, hkept, -⟩ :=
    loadFromDB_orphans wholeFloat emptyWorld hlawful lineTables (by decide) 65537 (by decide)
  exact ⟨⟨circle, hcircleLoad, hdropped hcircle⟩, line, hlineLoad, hkept hline⟩

/-- The second pool of a circle of two is nobody's child, has right chances and is not spawned. -/
theorem loadFromDB_orphan :
    ∃ fuel s, PoolManager.loadFromDB wholeFloat emptyWorld fuel circleTables = some s ∧
      2 ∈ circleTables.templates.map TemplateRow.entry ∧ s.checkPool wholeFloat 2 = true ∧
      s.poolSearch 2 = none ∧ (s.template 2).isAutoSpawn = false :=
  ⟨5, _, rfl, by decide, by decide, by decide, by decide⟩

end TwowCore.Pools
