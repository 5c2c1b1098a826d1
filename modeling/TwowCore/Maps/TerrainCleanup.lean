import Mathlib

/-!
# The cleanup of terrain grids

`RunPass` goes through the grids of a terrain from a cursor and frees those that the decision function
gives up, at most so many in one call. `sweep` is what `CleanUpGrids` makes of it: a call in each tick, from
where the last one has stopped, until one is done. The decision function may be another in each tick.
-/

namespace TwowCore.Maps

/-- `GRIDS_PER_SIDE`. -/
def gridsPerSide : ℕ := 64

/-- `GRID_COUNT`. -/
def gridCount : ℕ := gridsPerSide * gridsPerSide

/-- `MAX_IDLE_MINUTES`. -/
def maxIdleMinutes : UInt32 := 1440

/-- `ClampIdleMinutes`. -/
def clampIdleMinutes (idleMinutes : UInt32) : UInt32 :=
  if maxIdleMinutes < idleMinutes then maxIdleMinutes else idleMinutes

/-- `IdleSeconds`. -/
def idleSeconds (nowSec lastUseSec : UInt32) : UInt32 := nowSec - lastUseSec

/-- `ShouldFree`. -/
def shouldFree (loaded : Bool) (ref : Int32) (idleMinutes nowSec lastUseSec : UInt32) : Bool :=
  if !loaded || ref ≠ 0 then false
  else if idleMinutes = 0 then true
  else clampIdleMinutes idleMinutes * 60 ≤ idleSeconds nowSec lastUseSec

/-- What the cleanup reads of a grid. -/
structure TerrainGrid where
  loaded : Bool
  ref : Int32
  lastUseSec : UInt32
  deriving DecidableEq, Repr

/-- `BudgetLeft`. -/
def budgetLeft (maxPerTick freed : ℕ) : Bool := maxPerTick == 0 || freed < maxPerTick

/-- A decision function, of the `x` and the `y` of a grid. -/
abbrev Decision := ℕ → ℕ → Bool

/-- The decision function of `CleanUpGrids`. -/
def cleanUpDecision (idleMinutes nowSec : UInt32) (grids : ℕ → ℕ → TerrainGrid) : Decision :=
  fun x y => shouldFree (grids x y).loaded (grids x y).ref idleMinutes nowSec
    (if idleMinutes ≠ 0 then (grids x y).lastUseSec else 0)

/-- The decision on the grid of an index. -/
def Decision.at (decision : Decision) (index : ℕ) : Bool :=
  decision (index % gridsPerSide) (index / gridsPerSide)

/-- `PassResult`. -/
structure PassResult where
  nextCursor : ℕ
  freed : ℕ
  done : Bool
  deriving DecidableEq, Repr

/-- A call of `RunPass`: its result, and the grids it has examined and freed. -/
structure Pass where
  result : PassResult
  examinedGrids : List ℕ
  freedGrids : List ℕ
  deriving DecidableEq, Repr

/-- The loop over the grids that are left, from an index on: where it stops, and the grids it has examined
and freed. -/
def passLoop (maxPerTick : ℕ) (decision : Decision) : ℕ → ℕ → ℕ → ℕ × List ℕ × List ℕ
  | 0, i, _ => (i, [], [])
  | left + 1, i, freed =>
      if budgetLeft maxPerTick freed then
        let frees := decision.at i
        let rest := passLoop maxPerTick decision left (i + 1) (if frees then freed + 1 else freed)
        (rest.1, i :: rest.2.1, if frees then i :: rest.2.2 else rest.2.2)
      else (i, [], [])

/-- `RunPass`. -/
def runPass (cursor maxPerTick : ℕ) (decision : Decision) : Pass :=
  let start := if cursor < gridCount then cursor else 0
  let loop := passLoop maxPerTick decision (gridCount - start) start 0
  { result :=
      if loop.1 < gridCount then ⟨loop.1, loop.2.2.length, false⟩ else ⟨0, loop.2.2.length, true⟩
    examinedGrids := loop.2.1
    freedGrids := loop.2.2 }

/-- The calls from a tick and a cursor on, until one is done, with an upper bound on their number. -/
def sweep (maxPerTick : ℕ) (decision : ℕ → Decision) : ℕ → ℕ → ℕ → List Pass
  | 0, _, _ => []
  | calls + 1, tick, cursor =>
      let pass := runPass cursor maxPerTick (decision tick)
      pass :: if pass.result.done then [] else
        sweep maxPerTick decision calls (tick + 1) pass.result.nextCursor

section Pass

variable (maxPerTick : ℕ) (decision : Decision)

/-- The loop examines the grids up to where it stops, and frees those it decides on. -/
theorem passLoop_spec (left i freed : ℕ) :
    ∃ count ≤ left, passLoop maxPerTick decision left i freed =
        (i + count, List.range' i count, (List.range' i count).filter decision.at) ∧
      (count < left → maxPerTick ≠ 0 ∧
        maxPerTick ≤ freed + ((List.range' i count).filter decision.at).length) ∧
      (maxPerTick ≠ 0 → freed ≤ maxPerTick →
        freed + ((List.range' i count).filter decision.at).length ≤ maxPerTick) := by
  induction left generalizing i freed with
  | zero =>
      refine ⟨0, le_rfl, rfl, fun h => absurd h (Nat.lt_irrefl 0), fun _ hle => ?_⟩
      exact hle
  | succ left ih =>
      unfold passLoop
      by_cases hbudget : budgetLeft maxPerTick freed
      · rw [if_pos hbudget]
        obtain ⟨count, hcount, hloop, hstops, hbound⟩ :=
          ih (i + 1) (if decision.at i then freed + 1 else freed)
        refine ⟨count + 1, Nat.succ_le_succ hcount, ?_, ?_, ?_⟩
        · simp only [hloop, List.range'_succ, List.filter_cons]
          rw [show i + 1 + count = i + (count + 1) by omega]
        · intro hlt
          obtain ⟨hcap, hle⟩ := hstops (Nat.lt_of_succ_lt_succ hlt)
          refine ⟨hcap, ?_⟩
          rw [List.range'_succ, List.filter_cons]
          split_ifs at hle ⊢
          · rw [List.length_cons]
            omega
          · exact hle
        · intro hcap hle
          have hless : freed < maxPerTick := by
            unfold budgetLeft at hbudget
            simpa [hcap] using hbudget
          have hrest := hbound hcap (by split_ifs <;> omega)
          rw [List.range'_succ, List.filter_cons]
          split_ifs at hrest ⊢
          · rw [List.length_cons]
            omega
          · exact hrest
      · rw [if_neg hbudget]
        unfold budgetLeft at hbudget
        simp only [Bool.or_eq_true, beq_iff_eq, decide_eq_true_eq, not_or] at hbudget
        exact ⟨0, Nat.zero_le _, rfl, fun _ => ⟨hbudget.1, by simpa using hbudget.2⟩,
          fun _ hle => hle⟩

/-- A call examines the grids from its cursor to the next one, and frees those it decides on; with a cap
it gets on, and frees no more than that. -/
theorem runPass_spec {cursor : ℕ} (hcursor : cursor < gridCount) :
    ∃ stop, cursor ≤ stop ∧ stop ≤ gridCount ∧
      runPass cursor maxPerTick decision =
        ⟨if stop < gridCount then
            ⟨stop, ((List.range' cursor (stop - cursor)).filter decision.at).length, false⟩
          else ⟨0, ((List.range' cursor (stop - cursor)).filter decision.at).length, true⟩,
          List.range' cursor (stop - cursor),
          (List.range' cursor (stop - cursor)).filter decision.at⟩ ∧
      (maxPerTick = 0 → stop = gridCount) ∧
      (maxPerTick ≠ 0 → cursor < stop ∧
        ((List.range' cursor (stop - cursor)).filter decision.at).length ≤ maxPerTick) := by
  obtain ⟨count, hcount, hloop, hstops, hbound⟩ :=
    passLoop_spec maxPerTick decision (gridCount - cursor) cursor 0
  have hsub : cursor + count - cursor = count := Nat.add_sub_cancel_left cursor count
  refine ⟨cursor + count, Nat.le_add_right _ _, by omega, ?_, ?_, ?_⟩
  · unfold runPass
    simp only [if_pos hcursor, hloop, hsub]
  · intro huncapped
    by_contra hstop
    exact (hstops (by omega)).1 huncapped
  · intro hcap
    rw [hsub]
    refine ⟨?_, by simpa using hbound hcap (Nat.zero_le _)⟩
    by_contra hstill
    obtain rfl : count = 0 := by omega
    have hle := (hstops (by omega)).2
    simp at hle
    exact hcap hle

end Pass

section Sweep

variable {maxPerTick : ℕ} {decision : ℕ → Decision}

/-- What the calls of a sweep from a cursor on do together. -/
structure Sweeps (maxPerTick : ℕ) (decision : ℕ → Decision) (tick cursor : ℕ) (passes : List Pass) :
    Prop where
  ends : passes.getLast?.map (·.result.done) = some true
  examined : passes.flatMap Pass.examinedGrids = List.range' cursor (gridCount - cursor)
  decided : ∀ (call : ℕ) (pass : Pass), passes[call]? = some pass →
    pass.freedGrids = pass.examinedGrids.filter (decision (tick + call)).at
  capped : ∀ pass ∈ passes, pass.result.freed = pass.freedGrids.length ∧
    pass.result.freed ≤ maxPerTick

/-- With a cap each call gets on, so that there are no more calls than grids. -/
theorem sweeps (hcap : maxPerTick ≠ 0) (calls tick : ℕ) {cursor : ℕ} (hcursor : cursor < gridCount)
    (hcalls : gridCount ≤ calls + cursor) :
    Sweeps maxPerTick decision tick cursor (sweep maxPerTick decision calls tick cursor) := by
  induction calls generalizing tick cursor with
  | zero => omega
  | succ calls ih =>
      obtain ⟨stop, hle, hstop, hpass, -, hcapped⟩ :=
        runPass_spec maxPerTick (decision tick) hcursor
      obtain ⟨hless, hfew⟩ := hcapped hcap
      unfold sweep
      simp only [hpass]
      by_cases hdone : stop < gridCount
      · simp only [if_pos hdone, Bool.false_eq_true, if_false]
        have hrest := ih (tick + 1) hdone (by omega)
        refine ⟨?_, ?_, fun call pass hget => ?_, fun pass hmem => ?_⟩
        · rw [List.getLast?_cons]
          have hends := hrest.ends
          cases hlast : (sweep maxPerTick decision calls (tick + 1) stop).getLast? with
          | none =>
              rw [hlast] at hends
              cases hends
          | some last =>
              rw [hlast] at hends
              exact hends
        · rw [List.flatMap_cons, hrest.examined]
          show List.range' cursor (stop - cursor) ++ _ = _
          rw [show stop = cursor + 1 * (stop - cursor) by omega, Nat.add_sub_cancel_left, Nat.one_mul,
            List.range'_append_1]
          congr 1
          omega
        · cases call with
          | zero =>
              obtain rfl := Option.some.inj hget
              rfl
          | succ call =>
              have hnext := hrest.decided call pass hget
              rwa [show tick + 1 + call = tick + (call + 1) by omega] at hnext
        · rcases List.mem_cons.mp hmem with rfl | hmem
          · exact ⟨rfl, hfew⟩
          · exact hrest.capped pass hmem
      · simp only [if_neg hdone, if_true]
        obtain rfl : stop = gridCount := by omega
        refine ⟨rfl, List.append_nil _, fun call pass hget => ?_, fun pass hmem => ?_⟩
        · cases call with
          | zero =>
              obtain rfl := Option.some.inj hget
              rfl
          | succ call => cases hget
        · rw [List.mem_singleton.mp hmem]
          exact ⟨rfl, hfew⟩

/-- With one decision function, the grids freed are those it decides on among those examined. -/
theorem freed_of_decided (once : Decision) {passes : List Pass}
    (h : ∀ pass ∈ passes, pass.freedGrids = pass.examinedGrids.filter once.at) :
    passes.flatMap Pass.freedGrids = (passes.flatMap Pass.examinedGrids).filter once.at := by
  induction passes with
  | nil => rfl
  | cons pass rest ih =>
      rw [List.flatMap_cons, List.flatMap_cons, List.filter_append, h pass List.mem_cons_self,
        ih fun other hother => h other (List.mem_cons_of_mem _ hother)]

/-- A capped sweep ends, examines each grid once in their order, frees no more than the cap in a call, and of
the grids of a call just those that the decision of that tick gives up; and while the decision stays the
same, it frees what one uncapped pass does. -/
theorem sweep_spec (decision : ℕ → Decision) (maxPerTick : ℕ) (hcap : 1 ≤ maxPerTick) (tick calls : ℕ)
    (hcalls : gridCount ≤ calls) :
    let passes := sweep maxPerTick decision calls tick 0
    passes.getLast?.map (·.result.done) = some true ∧
      passes.flatMap Pass.examinedGrids = List.range gridCount ∧
      (∀ pass ∈ passes, pass.freedGrids.length ≤ maxPerTick) ∧
      (∀ (call : ℕ) (pass : Pass), passes[call]? = some pass →
        pass.freedGrids = pass.examinedGrids.filter (decision (tick + call)).at) ∧
      ∀ once : Decision, (∀ t, decision t = once) →
        passes.flatMap Pass.freedGrids = (runPass 0 0 once).freedGrids := by
  have hstart : 0 < gridCount := by decide
  have h : Sweeps maxPerTick decision tick 0 (sweep maxPerTick decision calls tick 0) :=
    sweeps (Nat.one_le_iff_ne_zero.mp hcap) calls tick hstart (by omega)
  refine ⟨h.ends, ?_, fun pass hmem => ?_, h.decided, fun once honce => ?_⟩
  · rw [h.examined, List.range_eq_range']
    rfl
  · obtain ⟨hsame, hle⟩ := h.capped pass hmem
    exact hsame ▸ hle
  · obtain ⟨stop, -, -, hpass, huncapped, -⟩ :=
      runPass_spec 0 once hstart
    obtain rfl := huncapped rfl
    rw [hpass, freed_of_decided once, h.examined]
    intro pass hmem
    obtain ⟨call, hget⟩ := List.mem_iff_getElem?.mp hmem
    rw [h.decided call pass hget, honce]

/-- Every second grid is freed, three in a tick. -/
theorem sweep_spec_checkered :
    let passes := sweep 3 (fun _ x y => (x + y) % 2 == 0) gridCount 0 0
    passes.getLast?.map (·.result.done) = some true ∧
      passes.flatMap Pass.examinedGrids = List.range gridCount ∧
      (∀ pass ∈ passes, pass.freedGrids.length ≤ 3) ∧
      (∀ (call : ℕ) (pass : Pass), passes[call]? = some pass →
        pass.freedGrids = pass.examinedGrids.filter (Decision.at fun x y => (x + y) % 2 == 0)) ∧
      ∀ once : Decision, (∀ _ : ℕ, (fun x y => (x + y) % 2 == 0) = once) →
        passes.flatMap Pass.freedGrids = (runPass 0 0 once).freedGrids :=
  sweep_spec (fun _ x y => (x + y) % 2 == 0) 3 (by decide) 0 gridCount le_rfl

/-- A grid that is freed is loaded and has no references. -/
theorem loaded_of_freed (idleMinutes nowSec : ℕ → UInt32) (grids : ℕ → ℕ → ℕ → TerrainGrid)
    (hcap : maxPerTick ≠ 0) (calls tick : ℕ) (hcalls : gridCount ≤ calls) {call : ℕ} {pass : Pass}
    (hget : (sweep maxPerTick (fun t => cleanUpDecision (idleMinutes t) (nowSec t) (grids t)) calls
      tick 0)[call]? = some pass) {grid : ℕ} (hgrid : grid ∈ pass.freedGrids) :
    (grids (tick + call) (grid % gridsPerSide) (grid / gridsPerSide)).loaded ∧
      (grids (tick + call) (grid % gridsPerSide) (grid / gridsPerSide)).ref = 0 := by
  have hstart : 0 < gridCount := by decide
  rw [(sweeps hcap calls tick hstart hcalls).decided call pass hget, List.mem_filter] at hgrid
  have hfree := hgrid.2
  unfold Decision.at cleanUpDecision shouldFree at hfree
  split_ifs at hfree with hkept <;> simpa using hkept

end Sweep

end TwowCore.Maps
