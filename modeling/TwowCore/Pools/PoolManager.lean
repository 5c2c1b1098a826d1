import TwowCore.Lib.CountedLoop

/-!
# Pools of spawns

`PoolManager`: pools have creatures, gameobjects and other pools as members. `LoadFromDB` reads them from the
tables, drops the links that go in a circle or join different maps, and clears the flag of the pools that
other pools spawn. Loops on a 16-bit counter have fuel, and no result when it runs out.
-/

namespace TwowCore.Pools

open TwowCore.Lib (forUInt16)

/-- What is asked of a `float`. -/
structure FloatOps (F : Type) where
  zero : F
  hundred : F
  add : F → F → F
  fabs : F → F
  lt : F → F → Bool
  eq : F → F → Bool

/-- `MapEntry`. -/
structure MapEntry where
  id : ℕ
  instanceable : Bool
  deriving DecidableEq, Repr

/-- `POOL_FLAG_AUTO_SPAWN`. -/
def autoSpawnFlag : UInt32 := 1

/-- `PoolTemplateData`. -/
structure PoolTemplateData where
  mapEntry : Option MapEntry
  maxLimit : UInt32
  poolFlags : UInt32
  deriving DecidableEq, Repr

/-- `IsAutoSpawn`. -/
def PoolTemplateData.isAutoSpawn (t : PoolTemplateData) : Bool := t.poolFlags &&& autoSpawnFlag ≠ 0

/-- The pool is not spawned by itself. -/
def PoolTemplateData.clearAutoSpawn (t : PoolTemplateData) : PoolTemplateData :=
  { t with poolFlags := t.poolFlags &&& ~~~autoSpawnFlag }

/-- `PoolObject`. -/
structure PoolObject (G F : Type) where
  guid : G
  chance : F

/-- `PoolGroup`. -/
structure PoolGroup (G F : Type) where
  explicitlyChanced : List (PoolObject G F)
  equalChanced : List (PoolObject G F)

namespace PoolGroup

variable {G F : Type}

/-- All members. -/
def guids (g : PoolGroup G F) : List G :=
  g.explicitlyChanced.map PoolObject.guid ++ g.equalChanced.map PoolObject.guid

/-- `AddEntry`. -/
def addEntry (float : FloatOps F) (g : PoolGroup G F) (item : PoolObject G F) (maxentries : UInt32) :
    PoolGroup G F :=
  if float.eq item.chance float.zero = false ∧ maxentries = 1 then
    { g with explicitlyChanced := g.explicitlyChanced ++ [item] }
  else { g with equalChanced := g.equalChanced ++ [item] }

/-- `CheckPool`. -/
def checkPool (float : FloatOps F) (g : PoolGroup G F) : Bool :=
  if g.equalChanced.isEmpty then
    let chance := (g.explicitlyChanced.map PoolObject.chance).foldl float.add float.zero
    float.eq chance float.hundred || float.eq chance float.zero
  else true

/-- `RemoveOneRelation`: the first one in each list. -/
def removeOneRelation [DecidableEq G] (g : PoolGroup G F) (child : G) : PoolGroup G F where
  explicitlyChanced := g.explicitlyChanced.eraseP fun item => item.guid = child
  equalChanced := g.equalChanced.eraseP fun item => item.guid = child

end PoolGroup

/-- A row of `pool_template`. -/
structure TemplateRow where
  entry : UInt16
  maxLimit : UInt32
  flags : UInt32
  deriving DecidableEq, Repr

/-- A row of the tables of creatures or of gameobjects. -/
structure MemberRow (F : Type) where
  guid : UInt32
  poolId : UInt16
  chance : F
  entryId : UInt32

/-- A row of `pool_pool`. -/
structure PoolRow (F : Type) where
  poolId : UInt16
  motherPool : UInt16
  chance : F

/-- The tables. -/
structure Tables (F : Type) where
  templates : List TemplateRow
  creatures : List (MemberRow F)
  gameobjects : List (MemberRow F)
  pools : List (PoolRow F)

/-- `SELECT MAX(entry)`. -/
def Tables.maxPoolId {F : Type} (tables : Tables F) : ℕ :=
  (tables.templates.map fun row => row.entry.toNat).foldr max 0

/-- What the manager reads of the rest of the world. -/
structure World where
  mapStorage : ℕ → Option MapEntry
  /-- The map of a creature's spawn. -/
  creatureMap : UInt32 → Option ℕ
  rareRespawnPoolBypass : UInt32 → Bool
  /-- The map and the type of a gameobject's spawn. -/
  gameobjectData : UInt32 → Option (ℕ × ℕ)

/-- `GAMEOBJECT_TYPE_CHEST`, `GAMEOBJECT_TYPE_GOOBER` and `GAMEOBJECT_TYPE_FISHINGHOLE`. -/
def lootableTypes : List ℕ := [3, 10, 25]

/-- `PoolManager`. The vectors have `size` entries. -/
structure PoolManager (F : Type) where
  maxPoolId : ℕ
  size : ℕ
  template : UInt16 → PoolTemplateData
  creatureGroups : UInt16 → PoolGroup UInt32 F
  gameobjectGroups : UInt16 → PoolGroup UInt32 F
  poolGroups : UInt16 → PoolGroup UInt16 F
  creatureSearch : UInt32 → Option UInt16
  gameobjectSearch : UInt32 → Option UInt16
  poolSearch : UInt16 → Option UInt16

/-- `insert`: a key that is there keeps its value. -/
def insertNew {K : Type} [DecidableEq K] (search : K → Option UInt16) (key : K) (pool : UInt16) :
    K → Option UInt16 :=
  if (search key).isSome then search else Function.update search key (some pool)

namespace PoolManager

variable {F : Type} (float : FloatOps F) (world : World)

/-- With resized vectors. -/
def new (maxPoolId size : ℕ) : PoolManager F where
  maxPoolId := maxPoolId
  size := size
  template := fun _ => ⟨none, 0, 0⟩
  creatureGroups := fun _ => ⟨[], []⟩
  gameobjectGroups := fun _ => ⟨[], []⟩
  poolGroups := fun _ => ⟨[], []⟩
  creatureSearch := fun _ => none
  gameobjectSearch := fun _ => none
  poolSearch := fun _ => none

/-- One row of `pool_template`. -/
def loadTemplate (s : PoolManager F) (row : TemplateRow) : PoolManager F :=
  { s with
    template := Function.update s.template row.entry
      { s.template row.entry with
        maxLimit := row.maxLimit
        poolFlags := row.flags ||| autoSpawnFlag } }

/-- `CheckAndRemember`. -/
def checkAndRemember (s : PoolManager F) (mapId : ℕ) (pool : UInt16) : Bool × PoolManager F :=
  match world.mapStorage mapId with
  | none => (false, s)
  | some mapEntry =>
      match (s.template pool).mapEntry with
      | none =>
          (true, { s with
            template := Function.update s.template pool
              { s.template pool with mapEntry := some mapEntry } })
      | some poolMapEntry =>
          if poolMapEntry = mapEntry then (true, s)
          else if mapEntry.instanceable then (false, s)
          else if poolMapEntry.instanceable then (false, s)
          else (true, s)

/-- `CheckPoolAndChance`. -/
def checkPoolAndChance (s : PoolManager F) (pool : UInt16) (chance : F) : Bool :=
  if s.maxPoolId < pool.toNat then false
  else if float.lt chance float.zero || float.lt float.hundred chance then false
  else true

/-- One row of the creatures. -/
def loadCreature (s : PoolManager F) (row : MemberRow F) : PoolManager F :=
  match world.creatureMap row.guid with
  | none => s
  | some mapId =>
      if row.entryId = 0 ∧ world.rareRespawnPoolBypass row.guid then s
      else if (s.creatureSearch row.guid).getD 0 ≠ 0 then s
      else if checkPoolAndChance float s row.poolId row.chance = false then s
      else
        let checked := s.checkAndRemember world mapId row.poolId
        if checked.1 = false then checked.2
        else
          { checked.2 with
            creatureGroups := Function.update checked.2.creatureGroups row.poolId
              ((checked.2.creatureGroups row.poolId).addEntry float ⟨row.guid, float.fabs row.chance⟩
                (checked.2.template row.poolId).maxLimit)
            creatureSearch := insertNew checked.2.creatureSearch row.guid row.poolId }

/-- One row of the gameobjects. -/
def loadGameobject (s : PoolManager F) (row : MemberRow F) : PoolManager F :=
  match world.gameobjectData row.guid with
  | none => s
  | some (mapId, type) =>
      if type ∉ lootableTypes then s
      else if (s.gameobjectSearch row.guid).getD 0 ≠ 0 then s
      else if checkPoolAndChance float s row.poolId row.chance = false then s
      else
        let checked := s.checkAndRemember world mapId row.poolId
        if checked.1 = false then checked.2
        else
          { checked.2 with
            gameobjectGroups := Function.update checked.2.gameobjectGroups row.poolId
              ((checked.2.gameobjectGroups row.poolId).addEntry float
                ⟨row.guid, float.fabs row.chance⟩ (checked.2.template row.poolId).maxLimit)
            gameobjectSearch := insertNew checked.2.gameobjectSearch row.guid row.poolId }

/-- A row of `pool_pool` is not skipped. -/
def acceptsPool (s : PoolManager F) (row : PoolRow F) : Bool :=
  if s.maxPoolId < row.poolId.toNat then false
  else if row.motherPool = row.poolId then false
  else checkPoolAndChance float s row.motherPool row.chance

/-- One row of `pool_pool`. -/
def loadPool (s : PoolManager F) (row : PoolRow F) : PoolManager F :=
  if acceptsPool float s row = false then s
  else
    { s with
      poolGroups := Function.update s.poolGroups row.motherPool
        ((s.poolGroups row.motherPool).addEntry float ⟨row.poolId, float.fabs row.chance⟩
          (s.template row.motherPool).maxLimit)
      poolSearch := insertNew s.poolSearch row.poolId row.motherPool
      template := Function.update s.template row.poolId (s.template row.poolId).clearAutoSpawn }

/-- A link is dropped. -/
def removeLink (s : PoolManager F) (child mother : UInt16) : PoolManager F :=
  { s with
    poolGroups := Function.update s.poolGroups mother
      ((s.poolGroups mother).removeOneRelation child)
    poolSearch := Function.update s.poolSearch child none }

/-- The maps of a child and of its mother. -/
def checkMaps (s : PoolManager F) (child mother : UInt16) : Bool × PoolManager F :=
  match (s.template child).mapEntry with
  | none => (true, s)
  | some childMapEntry => s.checkAndRemember world childMapEntry.id mother

/-- The check for a circular reference, from one child on. -/
def checkChain : ℕ → PoolManager F → List UInt16 → UInt16 → Option (PoolManager F)
  | 0, _, _, _ => none
  | fuel + 1, s, checkedPools, child =>
      match s.poolSearch child with
      | none => some s
      | some mother =>
          let checked := s.checkMaps world child mother
          if checked.1 = false then some (checked.2.removeLink child mother)
          else if mother ∈ child :: checkedPools then some (checked.2.removeLink child mother)
          else checkChain fuel checked.2 (child :: checkedPools) mother

/-- `CheckPool`. -/
def checkPool (s : PoolManager F) (pool : UInt16) : Bool :=
  decide (pool.toNat ≤ s.maxPoolId) && (s.gameobjectGroups pool).checkPool float &&
    (s.creatureGroups pool).checkPool float && (s.poolGroups pool).checkPool float

/-- The check of the chances of one pool. -/
def checkChances (pool : UInt16) (s : PoolManager F) : PoolManager F :=
  if (s.template pool).isAutoSpawn && !checkPool float s pool then
    { s with template := Function.update s.template pool (s.template pool).clearAutoSpawn }
  else s

/-- The rows are read. -/
def readTables (tables : Tables F) : PoolManager F :=
  let s := tables.templates.foldl loadTemplate (new tables.maxPoolId (tables.maxPoolId + 1))
  let s := tables.creatures.foldl (loadCreature float world) s
  let s := tables.gameobjects.foldl (loadGameobject float world) s
  tables.pools.foldl (loadPool float) s

/-- All chains are checked. -/
def checkCircular (fuel : ℕ) (s : PoolManager F) : Option (PoolManager F) :=
  forUInt16 s.maxPoolId (fun i s => checkChain world fuel s [] i) fuel 0 s

/-- The check is made when there are rows of `pool_pool`. -/
def checkPools (fuel : ℕ) (tables : Tables F) (s : PoolManager F) : Option (PoolManager F) :=
  if tables.pools.isEmpty then some s else checkCircular world fuel s

/-- `LoadFromDB`. -/
def loadFromDB (fuel : ℕ) (tables : Tables F) : Option (PoolManager F) :=
  if tables.templates = [] then some (new tables.maxPoolId 0)
  else do
    let s := readTables float world tables
    let s ← checkPools world fuel tables s
    forUInt16 s.size (fun i s => some (checkChances float i s)) fuel 0 s

/-- `IsPartOfAPool`, of a pool. -/
def isPartOfAPool (s : PoolManager F) (pool : UInt16) : UInt16 := (s.poolSearch pool).getD 0

/-- `IsPartOfTopPool`, of a pool. -/
def isPartOfTopPool (s : PoolManager F) : ℕ → UInt16 → Option UInt16
  | 0, _ => none
  | depth + 1, pool =>
      let mother := s.isPartOfAPool pool
      if mother ≠ 0 then do
        let top ← isPartOfTopPool s depth mother
        some (if top ≠ 0 then top else mother)
      else some 0

end PoolManager

/-- `SpawnPool` or `DespawnPool`. -/
inductive Call where
  | spawnPool
  | despawnPool
  deriving DecidableEq, Repr

/-- What `SpawnPool` and `DespawnPool` do with the state of a map apart from calling each other: the number
of turns of their loops, and what each turn does before it spawns or despawns a member, if any. -/
structure MapWork (σ : Type) where
  mapEntry : Option MapEntry
  turns : Call → UInt16 → σ → ℕ
  turn : Call → UInt16 → ℕ → σ → σ × Option (Call × UInt16)

namespace PoolManager

variable {F σ : Type}

/-- `SpawnPool` with `Spawn1Object`, and `DespawnPool` with `Despawn1Object`: only members of the pool's own
group are spawned and despawned. -/
def callPool (s : PoolManager F) (work : MapWork σ) : ℕ → Call → UInt16 → σ → Option σ
  | 0, _, _, _ => none
  | depth + 1, call, pool, mapState =>
      (List.range (work.turns call pool mapState)).foldlM
        (fun mapState k =>
          match work.turn call pool k mapState with
          | (mapState, none) => some mapState
          | (mapState, some (next, child)) =>
              if child ∈ (s.poolGroups pool).guids then callPool s work depth next child mapState
              else some mapState)
        mapState

/-- `InitSpawnPool`. -/
def initSpawnPool (s : PoolManager F) (work : MapWork σ) (depth : ℕ) (pool : UInt16) (mapState : σ) :
    Option σ :=
  if (s.template pool).mapEntry.isSome ∧ (s.template pool).mapEntry = work.mapEntry then
    callPool s work depth .spawnPool pool mapState
  else some mapState

/-- `Initialize`. -/
def initPools (s : PoolManager F) (work : MapWork σ) (fuel : ℕ) (mapState : σ) : Option σ :=
  forUInt16 s.size
    (fun pool mapState =>
      if (s.template pool).isAutoSpawn then initSpawnPool s work fuel pool mapState else some mapState)
    fuel 0 mapState

end PoolManager

end TwowCore.Pools
