import TwowCore.Pools.PoolManager
import TwowCore.Lib.Links

/-!
# The links between pools

What loading does to the links: reading adds them, the check for circles only drops some, and the check of
the chances changes flags alone. When all is loaded the pools are a forest.
-/

namespace TwowCore.Pools

open TwowCore.Lib

instance finiteUInt16 : Finite UInt16 := Finite.of_injective UInt16.toBitVec fun _ _ h => UInt16.toBitVec_inj.mp h

/-- There are not more pools than 16-bit numbers. -/
theorem length_le_of_nodup {l : List UInt16} (h : l.Nodup) : l.length ≤ 2 ^ 16 := by
  have hsub : l.map UInt16.toNat ⊆ List.range (2 ^ 16) := by
    intro n hn
    obtain ⟨i, -, rfl⟩ := List.mem_map.mp hn
    exact List.mem_range.mpr i.toNat_lt
  have hnodup : (l.map UInt16.toNat).Nodup := h.map fun _ _ hij => UInt16.toNat_inj.mp hij
  have hle := (hnodup.subperm hsub).length_le
  rwa [List.length_map, List.length_range] at hle

namespace PoolGroup

variable {G F : Type}

/-- One member more. -/
theorem guids_addEntry (float : FloatOps F) (g : PoolGroup G F) (item : PoolObject G F)
    (maxentries : UInt32) : (g.addEntry float item maxentries).guids.Perm (item.guid :: g.guids) := by
  unfold addEntry
  split_ifs
  · unfold guids
    simp only [List.map_append, List.map_singleton, List.append_assoc, List.singleton_append]
    exact List.perm_middle
  · unfold guids
    rw [List.map_append, ← List.append_assoc]
    exact List.perm_append_singleton _ _

variable [DecidableEq G]

/-- The member is taken out of both lists. -/
theorem guids_removeOneRelation (g : PoolGroup G F) (child : G) :
    (g.removeOneRelation child).guids =
      (g.explicitlyChanced.map PoolObject.guid).erase child ++
        (g.equalChanced.map PoolObject.guid).erase child := by
  have herase : ∀ l : List (PoolObject G F),
      (l.eraseP fun item => item.guid = child).map PoolObject.guid =
        (l.map PoolObject.guid).erase child := by
    intro l
    rw [List.erase_eq_eraseP, List.eraseP_map]
    congr 2
    funext item
    exact decide_eq_decide.mpr eq_comm
  unfold guids removeOneRelation
  rw [herase, herase]

variable {g : PoolGroup G F} {child : G}

theorem mem_removeOneRelation (h : g.guids.Nodup) (other : G) :
    other ∈ (g.removeOneRelation child).guids ↔ other ≠ child ∧ other ∈ g.guids := by
  have hnodup := List.nodup_append.mp h
  rw [guids_removeOneRelation, List.mem_append, hnodup.1.mem_erase_iff, hnodup.2.1.mem_erase_iff]
  unfold guids
  rw [List.mem_append]
  tauto

theorem nodup_removeOneRelation (h : g.guids.Nodup) : (g.removeOneRelation child).guids.Nodup := by
  rw [guids_removeOneRelation]
  exact h.sublist (List.erase_sublist.append List.erase_sublist)

end PoolGroup

namespace PoolManager

variable {F : Type} {float : FloatOps F} {world : World} {s s' s'' : PoolManager F}

/-- The groups and the map agree, and the pools are there. -/
structure LinksAgree (s : PoolManager F) : Prop where
  member : ∀ child mother, child ∈ (s.poolGroups mother).guids ↔ s.poolSearch child = some mother
  once : ∀ mother, (s.poolGroups mother).guids.Nodup

/-- The links are those of pools that are there, and none is one of a pool to itself. -/
structure LinksBounded (s : PoolManager F) : Prop where
  child_le : ∀ child mother, s.poolSearch child = some mother → child.toNat ≤ s.maxPoolId
  mother_le : ∀ child mother, s.poolSearch child = some mother → mother.toNat ≤ s.maxPoolId
  ne : ∀ child mother, s.poolSearch child = some mother → mother ≠ child

/-- The links and the flags stay. -/
structure SameLinks (s s' : PoolManager F) : Prop where
  maxPoolId : s'.maxPoolId = s.maxPoolId
  size : s'.size = s.size
  groups : s'.poolGroups = s.poolGroups
  search : s'.poolSearch = s.poolSearch
  flags : ∀ pool, (s'.template pool).poolFlags = (s.template pool).poolFlags

theorem SameLinks.refl (s : PoolManager F) : SameLinks s s := ⟨rfl, rfl, rfl, rfl, fun _ => rfl⟩

theorem SameLinks.trans (h : SameLinks s s') (h' : SameLinks s' s'') : SameLinks s s'' where
  maxPoolId := h'.maxPoolId.trans h.maxPoolId
  size := h'.size.trans h.size
  groups := h'.groups.trans h.groups
  search := h'.search.trans h.search
  flags pool := (h'.flags pool).trans (h.flags pool)

theorem update_poolFlags {template : UInt16 → PoolTemplateData} {pool : UInt16}
    {t : PoolTemplateData} (h : t.poolFlags = (template pool).poolFlags) (other : UInt16) :
    (Function.update template pool t other).poolFlags = (template other).poolFlags := by
  by_cases hother : other = pool
  · rw [hother, Function.update_self, h]
  · rw [Function.update_of_ne hother]

/-- `CheckAndRemember` sets maps alone. -/
theorem checkAndRemember_sameLinks (world : World) (s : PoolManager F) (mapId : ℕ) (pool : UInt16) :
    SameLinks s (s.checkAndRemember world mapId pool).2 := by
  unfold checkAndRemember
  split
  · exact .refl s
  · split
    · exact ⟨rfl, rfl, rfl, rfl, update_poolFlags rfl⟩
    · split_ifs <;> exact .refl s

theorem checkMaps_sameLinks (world : World) (s : PoolManager F) (child mother : UInt16) :
    SameLinks s (s.checkMaps world child mother).2 := by
  unfold checkMaps
  split
  · exact .refl s
  · exact checkAndRemember_sameLinks world s _ _

theorem loadCreature_sameLinks (s : PoolManager F) (row : MemberRow F) :
    SameLinks s (loadCreature float world s row) := by
  unfold loadCreature
  split
  · exact .refl s
  · dsimp only
    split_ifs
    · exact .refl s
    · exact .refl s
    · exact .refl s
    · exact checkAndRemember_sameLinks world s _ _
    · obtain ⟨hmax, hsize, hgroups, hsearch, hflags⟩ :=
        checkAndRemember_sameLinks world s _ row.poolId
      exact ⟨hmax, hsize, hgroups, hsearch, hflags⟩

theorem loadGameobject_sameLinks (s : PoolManager F) (row : MemberRow F) :
    SameLinks s (loadGameobject float world s row) := by
  unfold loadGameobject
  split
  · exact .refl s
  · dsimp only
    split_ifs
    · exact .refl s
    · exact .refl s
    · exact checkAndRemember_sameLinks world s _ _
    · obtain ⟨hmax, hsize, hgroups, hsearch, hflags⟩ :=
        checkAndRemember_sameLinks world s _ row.poolId
      exact ⟨hmax, hsize, hgroups, hsearch, hflags⟩
    · exact .refl s

theorem foldl_sameLinks {α : Type} {load : PoolManager F → α → PoolManager F}
    (hload : ∀ s row, SameLinks s (load s row)) (rows : List α) (s : PoolManager F) :
    SameLinks s (rows.foldl load s) := by
  induction rows generalizing s with
  | nil => exact .refl s
  | cons row rest ih => exact (hload s row).trans (ih _)

/-- A row that is accepted puts its link into the map, unless the child has one. -/
theorem insertNew_eq_some {search : UInt16 → Option UInt16} {key pool child mother : UInt16} :
    insertNew search key pool child = some mother ↔
      search child = some mother ∨ (child = key ∧ search key = none ∧ mother = pool) := by
  unfold insertNew
  cases hkey : search key with
  | some old =>
      simp only [Option.isSome_some, if_true, reduceCtorEq, false_and, and_false, or_false]
  | none =>
      rw [if_neg (by simp)]
      by_cases hchild : child = key
      · subst hchild
        simp [hkey, eq_comm]
      · simp [hchild]

/-- What a row is accepted for. -/
theorem acceptsPool_spec {row : PoolRow F} (h : acceptsPool float s row = true) :
    row.poolId.toNat ≤ s.maxPoolId ∧ row.motherPool ≠ row.poolId ∧
      row.motherPool.toNat ≤ s.maxPoolId := by
  unfold acceptsPool at h
  split_ifs at h with hchild hself
  unfold checkPoolAndChance at h
  split_ifs at h with hmother
  exact ⟨by omega, hself, by omega⟩

/-- Reading a row keeps the links inside the bounds. -/
theorem loadPool_bounded (row : PoolRow F) (h : LinksBounded s) :
    LinksBounded (loadPool float s row) := by
  unfold loadPool
  split_ifs with haccepts
  · exact h
  · obtain ⟨hchild, hne, hmother⟩ := acceptsPool_spec (Bool.eq_true_of_not_eq_false haccepts)
    have hlink : ∀ child mother, insertNew s.poolSearch row.poolId row.motherPool child = some mother →
        child.toNat ≤ s.maxPoolId ∧ mother.toNat ≤ s.maxPoolId ∧ mother ≠ child := by
      intro child mother hget
      rcases insertNew_eq_some.mp hget with hold | ⟨rfl, -, rfl⟩
      · exact ⟨h.child_le _ _ hold, h.mother_le _ _ hold, h.ne _ _ hold⟩
      · exact ⟨hchild, hmother, hne⟩
    exact ⟨fun child mother hget => (hlink child mother hget).1,
      fun child mother hget => (hlink child mother hget).2.1,
      fun child mother hget => (hlink child mother hget).2.2⟩

/-- Reading a row of a child that has no link keeps groups and map in step. -/
theorem loadPool_agree (row : PoolRow F) (hnew : s.poolSearch row.poolId = none) (h : LinksAgree s) :
    LinksAgree (loadPool float s row) := by
  unfold loadPool
  split_ifs with haccepts
  · exact h
  · have hfresh : row.poolId ∉ (s.poolGroups row.motherPool).guids := by
      rw [h.member, hnew]
      exact nofun
    have hperm := PoolGroup.guids_addEntry float (s.poolGroups row.motherPool)
      ⟨row.poolId, float.fabs row.chance⟩ (s.template row.motherPool).maxLimit
    refine ⟨fun child mother => ?_, fun mother => ?_⟩
    · show child ∈ (Function.update s.poolGroups row.motherPool _ mother).guids ↔
        insertNew s.poolSearch row.poolId row.motherPool child = some mother
      rw [insertNew_eq_some]
      by_cases hmother : mother = row.motherPool
      · subst hmother
        rw [Function.update_self, hperm.mem_iff, List.mem_cons, h.member]
        tauto
      · rw [Function.update_of_ne hmother, h.member]
        tauto
    · show (Function.update s.poolGroups row.motherPool _ mother).guids.Nodup
      by_cases hmother : mother = row.motherPool
      · subst hmother
        rw [Function.update_self, hperm.nodup_iff]
        exact List.nodup_cons.mpr ⟨hfresh, h.once _⟩
      · rw [Function.update_of_ne hmother]
        exact h.once mother

/-- A row gives only its own child a link. -/
theorem loadPool_search (row : PoolRow F) {child : UInt16} (hne : child ≠ row.poolId) :
    (loadPool float s row).poolSearch child = s.poolSearch child := by
  unfold loadPool
  split_ifs
  · rfl
  · show insertNew s.poolSearch row.poolId row.motherPool child = _
    unfold insertNew
    split_ifs
    · rfl
    · rw [Function.update_of_ne hne]

theorem loadPools_bounded (rows : List (PoolRow F)) (h : LinksBounded s) :
    LinksBounded (rows.foldl (loadPool float) s) := by
  induction rows generalizing s with
  | nil => exact h
  | cons row rest ih => exact ih (loadPool_bounded row h)

theorem loadPools_agree (rows : List (PoolRow F)) (hnodup : (rows.map PoolRow.poolId).Nodup)
    (hnew : ∀ row ∈ rows, s.poolSearch row.poolId = none) (h : LinksAgree s) :
    LinksAgree (rows.foldl (loadPool float) s) := by
  induction rows generalizing s with
  | nil => exact h
  | cons row rest ih =>
      obtain ⟨hrow, hrest⟩ := List.nodup_cons.mp hnodup
      refine ih hrest (fun other hother => ?_) (loadPool_agree row (hnew row List.mem_cons_self) h)
      rw [loadPool_search row fun heq => hrow (heq ▸ List.mem_map_of_mem hother)]
      exact hnew other (List.mem_cons_of_mem _ hother)

/-- The rows before `pool_pool` set no link. -/
theorem readMembers_sameLinks (float : FloatOps F) (world : World) (tables : Tables F)
    (s : PoolManager F) :
    SameLinks s (tables.gameobjects.foldl (loadGameobject float world)
      (tables.creatures.foldl (loadCreature float world) s)) :=
  (foldl_sameLinks loadCreature_sameLinks _ _).trans (foldl_sameLinks loadGameobject_sameLinks _ _)

/-- Links are dropped, nothing else. -/
structure Pruned (s s' : PoolManager F) : Prop where
  maxPoolId : s'.maxPoolId = s.maxPoolId
  size : s'.size = s.size
  search : ∀ child mother, s'.poolSearch child = some mother → s.poolSearch child = some mother
  flags : ∀ pool, (s'.template pool).poolFlags = (s.template pool).poolFlags

theorem Pruned.refl (s : PoolManager F) : Pruned s s := ⟨rfl, rfl, fun _ _ h => h, fun _ => rfl⟩

theorem Pruned.trans (h : Pruned s s') (h' : Pruned s' s'') : Pruned s s'' where
  maxPoolId := h'.maxPoolId.trans h.maxPoolId
  size := h'.size.trans h.size
  search child mother hget := h.search child mother (h'.search child mother hget)
  flags pool := (h'.flags pool).trans (h.flags pool)

theorem SameLinks.pruned (h : SameLinks s s') : Pruned s s' where
  maxPoolId := h.maxPoolId
  size := h.size
  search _ _ hget := h.search ▸ hget
  flags := h.flags

theorem SameLinks.agree (h : SameLinks s s') (hagree : LinksAgree s) : LinksAgree s' where
  member child mother := by
    rw [h.groups, h.search]
    exact hagree.member child mother
  once mother := by
    rw [h.groups]
    exact hagree.once mother

theorem Pruned.bounded (h : Pruned s s') (hbounded : LinksBounded s) : LinksBounded s' where
  child_le child mother hget :=
    h.maxPoolId ▸ hbounded.child_le child mother (h.search child mother hget)
  mother_le child mother hget :=
    h.maxPoolId ▸ hbounded.mother_le child mother (h.search child mother hget)
  ne child mother hget := hbounded.ne child mother (h.search child mother hget)

theorem removeLink_search (s : PoolManager F) (child mother other : UInt16) :
    (s.removeLink child mother).poolSearch other =
      if other = child then none else s.poolSearch other := Function.update_apply _ _ _ _

theorem removeLink_pruned (s : PoolManager F) (child mother : UInt16) :
    Pruned s (s.removeLink child mother) := by
  refine ⟨rfl, rfl, fun other pool hget => ?_, fun _ => rfl⟩
  rw [removeLink_search] at hget
  split_ifs at hget
  exact hget

/-- A dropped link leaves the group and the map. -/
theorem removeLink_agree {child mother : UInt16} (hlink : s.poolSearch child = some mother)
    (h : LinksAgree s) : LinksAgree (s.removeLink child mother) := by
  refine ⟨fun other pool => ?_, fun pool => ?_⟩
  · rw [removeLink_search]
    show other ∈ (Function.update s.poolGroups mother _ pool).guids ↔ _
    by_cases hpool : pool = mother
    · subst hpool
      rw [Function.update_self, PoolGroup.mem_removeOneRelation (h.once _), h.member]
      split_ifs with hother
      · simp [hother]
      · simp [hother]
    · rw [Function.update_of_ne hpool, h.member]
      split_ifs with hother
      · subst hother
        rw [hlink]
        simp [Ne.symm hpool]
      · rfl
  · show (Function.update s.poolGroups mother _ pool).guids.Nodup
    by_cases hpool : pool = mother
    · subst hpool
      rw [Function.update_self]
      exact PoolGroup.nodup_removeOneRelation (h.once _)
    · rw [Function.update_of_ne hpool]
      exact h.once pool

/-- The check from one child on ends, drops links, and the chain from this child ends. -/
theorem checkChain_spec (world : World) (s : PoolManager F) {fuel : ℕ} {checkedPools : List UInt16}
    {child : UInt16} (hnew : child ∉ checkedPools) (hnodup : checkedPools.Nodup)
    (hfuel : 2 ^ 16 < fuel + checkedPools.length) :
    ∃ s', checkChain world fuel s checkedPools child = some s' ∧ Pruned s s' ∧
      Ends s'.poolSearch child ∧ (LinksAgree s → LinksAgree s') := by
  induction fuel generalizing s checkedPools child with
  | zero =>
      have hle := length_le_of_nodup hnodup
      omega
  | succ fuel ih =>
      unfold checkChain
      cases hlink : s.poolSearch child with
      | none => exact ⟨s, rfl, .refl s, ends_of_none hlink, id⟩
      | some mother =>
          have hsame := checkMaps_sameLinks world s child mother
          have hlink' : (s.checkMaps world child mother).2.poolSearch child = some mother :=
            hsame.search ▸ hlink
          have hremoved : Pruned s ((s.checkMaps world child mother).2.removeLink child mother) ∧
              Ends ((s.checkMaps world child mother).2.removeLink child mother).poolSearch child ∧
              (LinksAgree s →
                LinksAgree ((s.checkMaps world child mother).2.removeLink child mother)) := by
            refine ⟨hsame.pruned.trans (removeLink_pruned _ _ _), ends_of_none ?_, fun hagree => ?_⟩
            · rw [removeLink_search, if_pos rfl]
            · exact removeLink_agree hlink' (hsame.agree hagree)
          dsimp only
          split_ifs with hmaps hcircle
          · exact ⟨_, rfl, hremoved⟩
          · exact ⟨_, rfl, hremoved⟩
          · obtain ⟨s', hrest, hpruned, hends, hagree⟩ :=
              ih (s.checkMaps world child mother).2 hcircle
                (List.nodup_cons.mpr ⟨hnew, hnodup⟩) (by rw [List.length_cons]; omega)
            refine ⟨s', hrest, hsame.pruned.trans hpruned, ?_, fun h => hagree (hsame.agree h)⟩
            cases hafter : s'.poolSearch child with
            | none => exact ends_of_none hafter
            | some other =>
                have hother := hpruned.search child other hafter
                rw [hlink'] at hother
                cases hother
                exact ends_of_some hafter hends

/-- The vectors keep their size. -/
theorem checkChain_size {fuel : ℕ} {checkedPools : List UInt16} {child : UInt16}
    (h : checkChain world fuel s checkedPools child = some s') : s'.size = s.size := by
  induction fuel generalizing s checkedPools child with
  | zero => cases h
  | succ fuel ih =>
      unfold checkChain at h
      cases hlink : s.poolSearch child with
      | none =>
          rw [hlink] at h
          cases h
          rfl
      | some mother =>
          have hsame := (checkMaps_sameLinks world s child mother).size
          rw [hlink] at h
          dsimp only at h
          split_ifs at h
          · cases h
            exact hsame
          · cases h
            exact hsame
          · exact (ih h).trans hsame

/-- The first so many chains are checked. -/
structure Checked (s : PoolManager F) (turns : ℕ) (s' : PoolManager F) : Prop where
  pruned : Pruned s s'
  agree : LinksAgree s → LinksAgree s'
  ends : ∀ pool : UInt16, pool.toNat < turns → Ends s'.poolSearch pool

/-- One chain more. -/
theorem checkChain_checked (world : World) {fuel : ℕ} (hfuel : 2 ^ 16 < fuel) (i : UInt16)
    (h : Checked s i.toNat s') :
    ∃ s'', checkChain world fuel s' [] i = some s'' ∧ Checked s (i.toNat + 1) s'' := by
  obtain ⟨s'', hchain, hpruned, hend, hagree⟩ :=
    checkChain_spec world s' (List.not_mem_nil : i ∉ []) List.nodup_nil hfuel
  refine ⟨s'', hchain, h.pruned.trans hpruned, hagree ∘ h.agree, fun pool hpool => ?_⟩
  rcases Nat.lt_or_eq_of_le (Nat.le_of_lt_succ hpool) with hlt | heq
  · exact (h.ends pool hlt).mono hpruned.search
  · exact UInt16.toNat_inj.mp heq ▸ hend

/-- The check of all chains ends, and all chains end then. -/
theorem checkCircular_spec (world : World) {fuel : ℕ} (hmax : s.maxPoolId < 2 ^ 16)
    (hfuel : 2 ^ 16 < fuel) (hbounded : LinksBounded s) :
    ∃ s', checkCircular world fuel s = some s' ∧ Pruned s s' ∧ (LinksAgree s → LinksAgree s') ∧
      ∀ pool, Ends s'.poolSearch pool := by
  have hstart : Checked s (0 : UInt16).toNat s :=
    ⟨.refl s, id, fun pool hpool => absurd hpool (Nat.not_lt_zero _)⟩
  obtain ⟨s', hloop, hpruned, hagree, hends⟩ := forUInt16_spec
    (fun i s => checkChain world fuel s [] i) (Checked s) hmax
    (fun i _ _ h => checkChain_checked world hfuel i h) (Nat.zero_le _)
    (Nat.lt_of_le_of_lt (Nat.sub_le _ _) (hmax.trans hfuel)) hstart
  refine ⟨s', hloop, hpruned, hagree, fun pool => ?_⟩
  -- the last pool has no turn of its own, but its mother has
  have hkept := hpruned.bounded hbounded
  cases hlink : s'.poolSearch pool with
  | none => exact ends_of_none hlink
  | some mother =>
      have hchild := hkept.child_le pool mother hlink
      have hmother := hkept.mother_le pool mother hlink
      have hne : mother.toNat ≠ pool.toNat := fun h =>
        hkept.ne pool mother hlink (UInt16.toNat_inj.mp h)
      rw [hpruned.maxPoolId] at hchild hmother
      rcases Nat.lt_or_eq_of_le hchild with hlt | heq
      · exact hends pool hlt
      · exact ends_of_some hlink (hends mother (by omega))

end PoolManager

end TwowCore.Pools
