import TwowCore.Pools.Loading

/-!
# The pools are a forest

When loading ends no chain of mothers comes back, groups and map agree, and every recursion over the pools
ends. It does not end with the last 16-bit number as a pool: the counter of the loops is as narrow as that.
-/

namespace TwowCore.Pools

open TwowCore.Lib

/-- A loop in which no turn fails. -/
theorem foldlM_isSome {α β : Type} {f : β → α → Option β} (h : ∀ b a, (f b a).isSome = true)
    (l : List α) (b : β) : (l.foldlM f b).isSome = true := by
  induction l generalizing b with
  | nil => rfl
  | cons a rest ih =>
      obtain ⟨b', hb'⟩ := Option.isSome_iff_exists.mp (h b a)
      rw [List.foldlM_cons, hb']
      exact ih b'

namespace PoolManager

variable {F σ : Type} {float : FloatOps F} {world : World} {s : PoolManager F} {tables : Tables F}

/-- `IsPartOfTopPool` ends where the chain does. -/
theorem isPartOfTopPool_ends {pool : UInt16} (h : Ends s.poolSearch pool) :
    ∃ depth, (s.isPartOfTopPool depth pool).isSome = true := by
  induction h with
  | intro pool _ ih =>
      by_cases hmother : s.isPartOfAPool pool = 0
      · refine ⟨1, ?_⟩
        unfold isPartOfTopPool
        rw [if_neg (not_not.mpr hmother)]
        rfl
      · have hlink : s.poolSearch pool = some (s.isPartOfAPool pool) := by
          unfold isPartOfAPool at hmother ⊢
          cases hget : s.poolSearch pool with
          | none =>
              rw [hget] at hmother
              exact absurd rfl hmother
          | some mother => rfl
        obtain ⟨depth, hdepth⟩ := ih _ hlink
        obtain ⟨top, htop⟩ := Option.isSome_iff_exists.mp hdepth
        refine ⟨depth + 1, ?_⟩
        unfold isPartOfTopPool
        simp only [if_pos hmother, htop, Option.bind_eq_bind, Option.bind_some, Option.isSome_some]

/-- `SpawnPool` and `DespawnPool` end, whatever their turns do. -/
theorem callPool_ends (hagree : LinksAgree s) (hends : ∀ pool, Ends s.poolSearch pool)
    (work : MapWork σ) (pool : UInt16) :
    ∃ depth, ∀ d, depth ≤ d → ∀ call mapState,
      (callPool s work d call pool mapState).isSome = true := by
  induction pool using (wellFounded_children hends).induction with
  | _ pool ih =>
      have hchild : ∀ child, ∃ depth, child ∈ (s.poolGroups pool).guids → ∀ d, depth ≤ d →
          ∀ call mapState, (callPool s work d call child mapState).isSome = true := by
        intro child
        by_cases hmember : child ∈ (s.poolGroups pool).guids
        · obtain ⟨depth, hdepth⟩ := ih child ((hagree.member child pool).mp hmember)
          exact ⟨depth, fun _ => hdepth⟩
        · exact ⟨0, fun h => absurd h hmember⟩
      choose depth hdepth using hchild
      obtain ⟨most, hmost⟩ := (Set.finite_range depth).bddAbove
      refine ⟨most + 1, fun d hd call mapState => ?_⟩
      obtain ⟨d, rfl⟩ := Nat.exists_eq_add_of_lt (Nat.lt_of_lt_of_le most.succ_pos hd)
      rw [Nat.zero_add] at hd ⊢
      unfold callPool
      refine foldlM_isSome (fun mapState k => ?_) _ _
      split
      · rfl
      · split_ifs with hmember
        · exact hdepth _ hmember d
            ((hmost (Set.mem_range_self _)).trans (Nat.le_of_succ_le_succ hd)) _ _
        · rfl

/-- `Initialize` ends. -/
theorem initPools_ends (hagree : LinksAgree s) (hends : ∀ pool, Ends s.poolSearch pool)
    (hsize : s.size < 2 ^ 16) (work : MapWork σ) (mapState : σ) :
    ∃ fuel, (initPools s work fuel mapState).isSome = true := by
  choose depth hdepth using callPool_ends hagree hends work
  obtain ⟨most, hmost⟩ := (Set.finite_range depth).bddAbove
  have hturn : ∀ (pool : UInt16) (mapState : σ), pool.toNat < s.size → True →
      ∃ mapState', (if (s.template pool).isAutoSpawn then
        initSpawnPool s work (most + 2 ^ 16) pool mapState else some mapState) = some mapState' ∧
        True := by
    intro pool mapState _ _
    unfold initSpawnPool
    split_ifs
    · have hle : depth pool ≤ most + 2 ^ 16 :=
        (hmost (Set.mem_range_self pool)).trans (Nat.le_add_right _ _)
      obtain ⟨mapState', hcall⟩ :=
        Option.isSome_iff_exists.mp (hdepth pool _ hle .spawnPool mapState)
      exact ⟨mapState', hcall, trivial⟩
    · exact ⟨mapState, rfl, trivial⟩
    · exact ⟨mapState, rfl, trivial⟩
  have hfuel : s.size - (0 : UInt16).toNat < most + 2 ^ 16 := by omega
  obtain ⟨mapState', hloop, -⟩ :=
    forUInt16_spec _ (fun _ _ => True) hsize hturn (Nat.zero_le _) hfuel trivial
  refine ⟨most + 2 ^ 16, Option.isSome_iff_exists.mpr ⟨mapState', hloop⟩⟩

/-- Nothing of the groups and of the chains is changed by the last check. -/
theorem ChancesChecked.agree {checked : PoolManager F} {turns : ℕ}
    (h : ChancesChecked float checked turns s) (hagree : LinksAgree checked) : LinksAgree s where
  member child mother := by
    rw [h.groups, h.search]
    exact hagree.member child mother
  once mother := by
    rw [h.groups]
    exact hagree.once mother

/-- Loading ends with a forest unless the last pool is the last 16-bit number. -/
theorem loadFromDB_forest (float : FloatOps F) (world : World)
    (hnodup : (tables.pools.map PoolRow.poolId).Nodup) (hmax : tables.maxPoolId ≠ 65535) {fuel : ℕ}
    (hfuel : 2 ^ 16 < fuel) :
    ∃ s, loadFromDB float world fuel tables = some s ∧ s.size < 2 ^ 16 ∧ LinksAgree s ∧
      ∀ pool, Ends s.poolSearch pool := by
  by_cases hrows : tables.templates = []
  · refine ⟨new tables.maxPoolId 0, ?_, Nat.two_pow_pos 16, ⟨?_, ?_⟩, fun pool => ends_of_none rfl⟩
    · unfold loadFromDB
      rw [if_pos hrows]
    · exact fun child mother => iff_of_false List.not_mem_nil nofun
    · exact fun mother => List.nodup_nil
  · obtain ⟨checked, s, hload, -, hpruned, hagree, hends, hchances⟩ :=
      loadFromDB_spec float world hrows hmax hfuel
    obtain ⟨-, hsize, -, -, hread, -⟩ := readTables_spec float world tables
    have hlt := maxPoolId_lt tables
    refine ⟨s, hload, ?_, hchances.agree (hagree (hread hnodup)), fun pool => ?_⟩
    · rw [hchances.size, hpruned.size, hsize]
      omega
    · rw [hchances.search]
      exact hends pool

/-- With the last 16-bit number as a pool the last loop never ends. -/
theorem loadFromDB_endless (float : FloatOps F) (world : World) (hmax : tables.maxPoolId = 65535)
    (fuel : ℕ) : loadFromDB float world fuel tables = none := by
  have hrows : tables.templates ≠ [] := by
    intro hnil
    unfold Tables.maxPoolId at hmax
    rw [hnil] at hmax
    cases hmax
  obtain ⟨-, hsize, -⟩ := readTables_spec float world tables
  unfold loadFromDB
  rw [if_neg hrows]
  simp only [Option.bind_eq_bind]
  cases hcheck : checkPools world fuel tables (readTables float world tables) with
  | none => rfl
  | some checked =>
      have hkept : checked.size = (readTables float world tables).size := by
        unfold checkPools at hcheck
        split_ifs at hcheck
        · cases hcheck
          rfl
        · exact forUInt16_keeps (fun s => s.size = (readTables float world tables).size)
            (fun _ _ _ hchain hold => (checkChain_size hchain).trans hold) hcheck rfl
      rw [Option.bind_some]
      refine forUInt16_endless ?_ fuel 0 checked
      rw [hkept, hsize, hmax]
      decide

end PoolManager

/-- A `float` that is a number. -/
def wholeFloat : FloatOps ℤ where
  zero := 0
  hundred := 100
  add := (· + ·)
  fabs := fun x => |x|
  lt := fun x y => decide (x < y)
  eq := fun x y => decide (x = y)

/-- One map, and no spawns. -/
def emptyWorld : World where
  mapStorage := fun id => if id = 0 then some ⟨0, false⟩ else none
  creatureMap := fun _ => none
  rareRespawnPoolBypass := fun _ => false
  gameobjectData := fun _ => none

/-- Loading ends, chains of mothers do not come back, groups and map agree and the recursions over the pools
end, exactly when the last pool is not the last 16-bit number. -/
theorem loadFromDB_terminates_iff {F : Type} (float : FloatOps F) (world : World) (tables : Tables F)
    (hnodup : (tables.pools.map PoolRow.poolId).Nodup) :
    (∃ fuel s, PoolManager.loadFromDB float world fuel tables = some s ∧
      (∀ pool, ¬Relation.TransGen (fun child mother => s.poolSearch child = some mother) pool pool) ∧
      (∀ child mother, child ∈ (s.poolGroups mother).guids ↔ s.poolSearch child = some mother) ∧
      (∀ pool, ∃ depth, (s.isPartOfTopPool depth pool).isSome = true) ∧
      (∀ (σ : Type) (work : MapWork σ) (call : Call) (pool : UInt16) (mapState : σ),
        ∃ depth, (s.callPool work depth call pool mapState).isSome = true) ∧
      ∀ (σ : Type) (work : MapWork σ) (mapState : σ),
        ∃ fuel, (s.initPools work fuel mapState).isSome = true) ↔
    tables.maxPoolId ≠ 65535 := by
  constructor
  · rintro ⟨fuel, s, hload, -⟩ hmax
    rw [PoolManager.loadFromDB_endless float world hmax fuel] at hload
    cases hload
  · intro hmax
    obtain ⟨s, hload, hsize, hagree, hends⟩ :=
      PoolManager.loadFromDB_forest float world hnodup hmax (Nat.lt_succ_self _)
    refine ⟨_, s, hload, not_circular hends, hagree.member,
      fun pool => PoolManager.isPartOfTopPool_ends (hends pool), fun σ work call pool mapState => ?_,
      fun σ work mapState => PoolManager.initPools_ends hagree hends hsize work mapState⟩
    obtain ⟨depth, hdepth⟩ := PoolManager.callPool_ends hagree hends work pool
    exact ⟨depth, hdepth depth le_rfl call mapState⟩

/-- Two pools that are each other's mother. -/
def circleTables : Tables ℤ where
  templates := [⟨1, 1, 0⟩, ⟨2, 1, 0⟩, ⟨3, 1, 0⟩]
  creatures := []
  gameobjects := []
  pools := [⟨1, 2, 0⟩, ⟨2, 1, 0⟩]

/-- Loading them ends. -/
theorem loadFromDB_terminates_iff_circle :
    (circleTables.pools.map PoolRow.poolId).Nodup ∧
    ∃ fuel s, PoolManager.loadFromDB wholeFloat emptyWorld fuel circleTables = some s ∧
      (∀ pool, ¬Relation.TransGen (fun child mother => s.poolSearch child = some mother) pool pool) ∧
      (∀ child mother, child ∈ (s.poolGroups mother).guids ↔ s.poolSearch child = some mother) ∧
      (∀ pool, ∃ depth, (s.isPartOfTopPool depth pool).isSome = true) ∧
      (∀ (σ : Type) (work : MapWork σ) (call : Call) (pool : UInt16) (mapState : σ),
        ∃ depth, (s.callPool work depth call pool mapState).isSome = true) ∧
      ∀ (σ : Type) (work : MapWork σ) (mapState : σ),
        ∃ fuel, (s.initPools work fuel mapState).isSome = true :=
  ⟨by decide,
    (loadFromDB_terminates_iff wholeFloat emptyWorld circleTables (by decide)).mpr (by decide)⟩

/-- One pool, with the last number. -/
def lastTables : Tables ℤ where
  templates := [⟨65535, 1, 0⟩]
  creatures := []
  gameobjects := []
  pools := []

/-- With it loading does not end. -/
theorem loadFromDB_last_endless :
    (lastTables.pools.map PoolRow.poolId).Nodup ∧
      ∀ fuel, PoolManager.loadFromDB wholeFloat emptyWorld fuel lastTables = none :=
  ⟨List.nodup_nil, PoolManager.loadFromDB_endless wholeFloat emptyWorld (by decide)⟩

end TwowCore.Pools
