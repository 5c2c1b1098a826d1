import Mathlib

/-!
# Continent regions

A continent's regions come as runs, which `Decode` expands to one byte for each of the 512 x 512 cells. Then it
sets a bit in every cell that has a neighbour of another region, and reads the regions from a copy meanwhile.
`RegionsContiguous` looks whether the regions of a continent follow each other.

The loops are over a square of any side here, `kCells` being the one of the continents.
-/

namespace TwowCore.Maps

/-- `Run`. -/
structure RegionRun where
  count : UInt16
  region : UInt8
  deriving DecidableEq, Repr

/-- `kCells`. -/
def kCells : ℕ := 512

/-- `kTransitionBit`. -/
def kTransitionBit : UInt8 := 0x80

/-- `kRegionMask`. -/
def kRegionMask : UInt8 := 0x7F

/-- The loop over the runs, with the cells that have been written. -/
def expandRuns (size : ℕ) : List RegionRun → List UInt8 → Bool × List UInt8
  | [], cells => (true, cells)
  | run :: rest, cells =>
      if run.region = 0 ∨ run.region &&& kTransitionBit ≠ 0 ∨ size < cells.length + run.count.toNat then
        (false, cells)
      else expandRuns size rest (cells ++ List.replicate run.count.toNat run.region)

/-- One of the up to eight neighbours of a cell is of another region. -/
def isBorder (side : ℕ) (plain : List UInt8) (cx cy : ℕ) : Bool :=
  [-1, 0, 1].any fun dx : ℤ => [-1, 0, 1].any fun dy : ℤ =>
    let nx := (cx : ℤ) + dx
    let ny := (cy : ℤ) + dy
    if nx < 0 ∨ ny < 0 ∨ (side : ℤ) ≤ nx ∨ (side : ℤ) ≤ ny then false
    else plain.getD (nx.toNat * side + ny.toNat) 0 != plain.getD (cx * side + cy) 0

/-- The loops that set the bit. -/
def markBorders (side : ℕ) (plain : List UInt8) : List UInt8 :=
  (List.range side).foldl (fun cells cx =>
    (List.range side).foldl (fun cells cy =>
      if isBorder side plain cx cy then cells.modify (cx * side + cy) (· ||| kTransitionBit)
      else cells) cells) plain

/-- `Decode`, for a square of cells. -/
def decodeCells (side : ℕ) (runs : List RegionRun) : Bool × List UInt8 :=
  let (covered, written) := expandRuns (side * side) runs []
  let cells := written ++ List.replicate (side * side - written.length) 0
  if covered = false ∨ written.length ≠ side * side then (false, cells)
  else (true, markBorders side cells)

/-- `Decode`. -/
def decode (runs : List RegionRun) : Bool × List UInt8 := decodeCells kCells runs

/-- The region of a cell. -/
def regionOf (cell : UInt8) : ℕ := (cell &&& kRegionMask).toNat

/-- `FirstRegion`. -/
def firstRegion (cells : List UInt8) : ℕ :=
  cells.foldl (fun first cell =>
    if regionOf cell ≠ 0 ∧ (first = 0 ∨ regionOf cell < first) then regionOf cell else first) 0

/-- `LastRegion`. -/
def lastRegion (cells : List UInt8) : ℕ :=
  cells.foldl (fun last cell => if last < regionOf cell then regionOf cell else last) 0

/-- The loop of `RegionsContiguous` over the cells; none if one is outside the range. -/
def markSeen (first last : ℕ) : List UInt8 → (ℕ → Bool) → Option (ℕ → Bool)
  | [], seen => some seen
  | cell :: rest, seen =>
      if regionOf cell < first ∨ last < regionOf cell then none
      else markSeen first last rest (Function.update seen (regionOf cell) true)

/-- `RegionsContiguous`. -/
def regionsContiguous (cells : List UInt8) (first last : ℕ) : Bool :=
  if first = 0 ∨ last < first ∨ kRegionMask.toNat < last then false
  else
    match markSeen first last cells fun _ => false with
    | none => false
    | some seen => (List.range' first (last + 1 - first)).all seen

/-! ## Runs and positions -/

/-- The cells before the end of some runs. -/
def runLength (runs : List RegionRun) : ℕ := (runs.map fun run => run.count.toNat).sum

/-- The run that covers a position is of this region. -/
def Covers (runs : List RegionRun) (k : ℕ) (region : UInt8) : Prop :=
  ∃ before run after, runs = before ++ run :: after ∧ runLength before ≤ k ∧
    k < runLength before + run.count.toNat ∧ run.region = region

/-- A region in 1..127. -/
def RegionRun.Valid (run : RegionRun) : Prop := 1 ≤ run.region.toNat ∧ run.region.toNat ≤ 127

/-- The regions of the cells, one after the other. -/
def plainCells (runs : List RegionRun) : List UInt8 :=
  runs.flatMap fun run => List.replicate run.count.toNat run.region

theorem and_transitionBit (region : UInt8) : region &&& kTransitionBit = 0 ↔ region.toNat ≤ 127 := by
  obtain ⟨bits⟩ := region
  rw [← UInt8.toBitVec_inj]
  show bits &&& 0x80#8 = 0#8 ↔ bits.toNat ≤ 127
  revert bits
  decide

theorem or_transitionBit_mask (region : UInt8) (h : region.toNat ≤ 127) :
    regionOf (region ||| kTransitionBit) = region.toNat ∧ regionOf region = region.toNat ∧
      (region ||| kTransitionBit) &&& kTransitionBit ≠ 0 := by
  obtain ⟨bits⟩ := region
  rw [Ne, ← UInt8.toBitVec_inj]
  show ((bits ||| 0x80#8) &&& 0x7F#8).toNat = bits.toNat ∧ (bits &&& 0x7F#8).toNat = bits.toNat ∧
    ¬ (bits ||| 0x80#8) &&& 0x80#8 = 0#8
  change bits.toNat ≤ 127 at h
  revert bits
  decide

theorem valid_iff (run : RegionRun) :
    run.Valid ↔ ¬(run.region = 0 ∨ run.region &&& kTransitionBit ≠ 0) := by
  have hzero : run.region = 0 ↔ run.region.toNat = 0 := by
    rw [← UInt8.toNat_inj]
    rfl
  rw [RegionRun.Valid, not_or, not_not, and_transitionBit, hzero]
  omega

theorem length_plainCells (runs : List RegionRun) : (plainCells runs).length = runLength runs := by
  rw [plainCells, List.length_flatMap, runLength]
  simp only [List.length_replicate]

/-- The runs are written one after the other, unless one is not valid or they do not fit. -/
theorem expandRuns_spec (size : ℕ) (runs : List RegionRun) (cells : List UInt8)
    (hcells : cells.length ≤ size) :
    ((expandRuns size runs cells).1 = true ↔
      (∀ run ∈ runs, run.Valid) ∧ cells.length + runLength runs ≤ size) ∧
    ((expandRuns size runs cells).1 = true → (expandRuns size runs cells).2 = cells ++ plainCells runs) := by
  induction runs generalizing cells with
  | nil => exact ⟨⟨fun _ => ⟨fun _ h => absurd h List.not_mem_nil, hcells⟩, fun _ => rfl⟩,
      fun _ => (List.append_nil _).symm⟩
  | cons run rest ih =>
      have hsum : runLength (run :: rest) = run.count.toNat + runLength rest := rfl
      rw [expandRuns]
      by_cases hbad : run.region = 0 ∨ run.region &&& kTransitionBit ≠ 0 ∨
          size < cells.length + run.count.toNat
      · rw [if_pos hbad]
        refine ⟨⟨fun h => (by cases h), fun ⟨hvalid, hfits⟩ => ?_⟩, fun h => (by cases h)⟩
        have hrun := (valid_iff run).mp (hvalid run List.mem_cons_self)
        rw [← or_assoc] at hbad
        have hlong := hbad.resolve_left hrun
        omega
      · rw [if_neg hbad]
        rw [← or_assoc, not_or] at hbad
        obtain ⟨hrun, hfits⟩ := hbad
        have hlength : (cells ++ List.replicate run.count.toNat run.region).length =
            cells.length + run.count.toNat := by
          rw [List.length_append, List.length_replicate]
        obtain ⟨hiff, hcopy⟩ := ih (cells ++ List.replicate run.count.toNat run.region)
          (by rw [hlength]; omega)
        refine ⟨?_, fun h => ?_⟩
        · rw [hiff, List.forall_mem_cons, hlength, hsum, Nat.add_assoc]
          exact ⟨fun ⟨hrest, hle⟩ => ⟨⟨(valid_iff run).mpr hrun, hrest⟩, hle⟩,
            fun ⟨⟨_, hrest⟩, hle⟩ => ⟨hrest, hle⟩⟩
        · rw [hcopy h, List.append_assoc]
          rfl

/-- The position of a cell in the runs. -/
theorem getElem?_plainCells (runs : List RegionRun) (k : ℕ) (region : UInt8) :
    (plainCells runs)[k]? = some region ↔ Covers runs k region := by
  induction runs generalizing k with
  | nil =>
      refine ⟨fun h => (by cases h), fun ⟨before, run, after, h, _⟩ => ?_⟩
      exact absurd h.symm (by simp)
  | cons run rest ih =>
      have hcells : plainCells (run :: rest) =
          List.replicate run.count.toNat run.region ++ plainCells rest := rfl
      rw [hcells]
      by_cases hin : k < run.count.toNat
      · rw [List.getElem?_append_left (by rwa [List.length_replicate]), List.getElem?_replicate,
          if_pos hin]
        constructor
        · intro h
          exact ⟨[], run, rest, rfl, Nat.zero_le k, by rw [runLength]; simpa using hin,
            Option.some.inj h⟩
        · intro ⟨before, run', after, hruns, hle, _, hregion⟩
          cases before with
          | nil =>
              cases hruns
              rw [hregion]
          | cons first before =>
              cases hruns
              have hsum : runLength (run :: before) = run.count.toNat + runLength before := rfl
              omega
      · rw [List.getElem?_append_right (by rw [List.length_replicate]; omega), List.length_replicate, ih]
        constructor
        · intro ⟨before, run', after, hruns, hle, hlt, hregion⟩
          have hsum : runLength (run :: before) = run.count.toNat + runLength before := rfl
          exact ⟨run :: before, run', after, by rw [hruns]; rfl, by omega, by omega, hregion⟩
        · intro ⟨before, run', after, hruns, hle, hlt, hregion⟩
          cases before with
          | nil =>
              cases hruns
              have hsum : runLength [] = 0 := rfl
              omega
          | cons first before =>
              cases hruns
              have hsum : runLength (run :: before) = run.count.toNat + runLength before := rfl
              exact ⟨before, run', after, rfl, by omega, by omega, hregion⟩

/-! ## Borders -/

/-- One step at most along an axis. -/
def Near (a b : ℕ) : Prop := a ≤ b + 1 ∧ b ≤ a + 1

/-- A loop that changes some positions, each of them once. -/
theorem getElem?_foldl_modify {α ι : Type} (test : ι → Bool) (pos : ι → ℕ) (f : α → α) (l : List ι)
    (hnodup : (l.map pos).Nodup) (cells : List α) (k : ℕ) :
    (l.foldl (fun cells i => if test i then cells.modify (pos i) f else cells) cells)[k]? =
      cells[k]?.map fun cell => if l.any (fun i => pos i == k && test i) then f cell else cell := by
  induction l generalizing cells with
  | nil => simp
  | cons i rest ih =>
      rw [List.map_cons, List.nodup_cons] at hnodup
      rw [List.foldl_cons, ih hnodup.2]
      by_cases hpos : pos i = k
      · -- No later step comes back to this position.
        have hrest : rest.any (fun i => pos i == k && test i) = false := by
          rw [List.any_eq_false]
          intro j hj hjk
          simp only [Bool.and_eq_true, beq_iff_eq] at hjk
          exact hnodup.1 (List.mem_map.mpr ⟨j, hj, hjk.1.trans hpos.symm⟩)
        rw [List.any_cons, hrest]
        by_cases htest : test i = true
        · rw [if_pos htest, hpos, List.getElem?_modify]
          simp [htest, Function.comp_def]
        · simp [htest]
      · have hsame : (if test i then cells.modify (pos i) f else cells)[k]? = cells[k]? := by
          split
          · rw [List.getElem?_modify]
            simp [hpos]
          · rfl
        rw [List.any_cons, beq_eq_false_iff_ne.mpr hpos, Bool.false_and, Bool.false_or, hsame]

theorem cell_lt {side cx cy : ℕ} (hx : cx < side) (hy : cy < side) : cx * side + cy < side * side := by
  calc cx * side + cy < cx * side + side := by omega
    _ = (cx + 1) * side := (Nat.succ_mul cx side).symm
    _ ≤ side * side := Nat.mul_le_mul_right side hx

theorem cell_inj {side cx cy cx' cy' : ℕ} (hy : cy < side) (hy' : cy' < side)
    (h : cx * side + cy = cx' * side + cy') : cx = cx' ∧ cy = cy' := by
  have hside : 0 < side := by omega
  have hquot := congrArg (· / side) h
  have hrem := congrArg (· % side) h
  simp only [Nat.mul_comm _ side, Nat.mul_add_div hside, Nat.mul_add_mod, Nat.div_eq_of_lt hy,
    Nat.div_eq_of_lt hy', Nat.mod_eq_of_lt hy, Nat.mod_eq_of_lt hy', Nat.add_zero] at hquot hrem
  exact ⟨hquot, hrem⟩

theorem length_foldl_modify {α ι : Type} (test : ι → Bool) (pos : ι → ℕ) (f : α → α) (l : List ι)
    (cells : List α) : (l.foldl (fun cells i =>
      if test i then cells.modify (pos i) f else cells) cells).length = cells.length := by
  induction l generalizing cells with
  | nil => rfl
  | cons i rest ih =>
      rw [List.foldl_cons, ih]
      split
      · exact List.length_modify _ _ _
      · rfl

/-- The two loops as one over all cells. -/
theorem markBorders_eq (side : ℕ) (plain : List UInt8) :
    markBorders side plain = ((List.range side).product (List.range side)).foldl
      (fun cells i => if isBorder side plain i.1 i.2 then
        cells.modify (i.1 * side + i.2) (· ||| kTransitionBit) else cells) plain := by
  unfold markBorders List.product
  simp only [List.foldl_flatMap, List.foldl_map]

theorem length_markBorders (side : ℕ) (plain : List UInt8) :
    (markBorders side plain).length = plain.length := by
  rw [markBorders_eq, length_foldl_modify]

/-- The loops set the bit in the border cells and nothing else. -/
theorem getElem?_markBorders {side cx cy : ℕ} (hx : cx < side) (hy : cy < side) (plain : List UInt8) :
    (markBorders side plain)[cx * side + cy]? = plain[cx * side + cy]?.map fun cell =>
      if isBorder side plain cx cy then cell ||| kTransitionBit else cell := by
  have hmem : ∀ i : ℕ × ℕ, i ∈ (List.range side).product (List.range side) ↔ i.1 < side ∧ i.2 < side := by
    intro i
    exact List.mem_product.trans (and_congr List.mem_range List.mem_range)
  have hnodup : (((List.range side).product (List.range side)).map fun i => i.1 * side + i.2).Nodup := by
    refine List.Nodup.map_on (fun i hi j hj h => ?_) (List.nodup_range.product List.nodup_range)
    obtain ⟨h1, h2⟩ := cell_inj ((hmem i).mp hi).2 ((hmem j).mp hj).2 h
    exact Prod.ext h1 h2
  rw [markBorders_eq, getElem?_foldl_modify _ _ _ _ hnodup]
  have hany : ((List.range side).product (List.range side)).any (fun i =>
      i.1 * side + i.2 == cx * side + cy && isBorder side plain i.1 i.2) = isBorder side plain cx cy := by
    rw [Bool.eq_iff_iff, List.any_eq_true]
    constructor
    · intro ⟨i, hi, htest⟩
      rw [Bool.and_eq_true, beq_iff_eq] at htest
      obtain ⟨h1, h2⟩ := cell_inj ((hmem i).mp hi).2 hy htest.1
      rw [← h1, ← h2]
      exact htest.2
    · intro hborder
      exact ⟨(cx, cy), (hmem _).mpr ⟨hx, hy⟩, by simpa using hborder⟩
  rw [hany]

/-- A border cell has a neighbour of another region. -/
theorem isBorder_iff {side cx cy : ℕ} (plain : List UInt8) :
    isBorder side plain cx cy = true ↔ ∃ nx ny, nx < side ∧ ny < side ∧ Near cx nx ∧ Near cy ny ∧
      plain.getD (nx * side + ny) 0 ≠ plain.getD (cx * side + cy) 0 := by
  have hstep : ∀ d : ℤ, d ∈ ([-1, 0, 1] : List ℤ) ↔ -1 ≤ d ∧ d ≤ 1 := by
    intro d
    simp only [List.mem_cons, List.not_mem_nil, or_false]
    omega
  unfold isBorder Near
  simp only [List.any_eq_true, hstep]
  constructor
  · intro ⟨dx, hdx, dy, hdy, h⟩
    split_ifs at h with hout
    refine ⟨((cx : ℤ) + dx).toNat, ((cy : ℤ) + dy).toNat, by omega, by omega, by omega, by omega, ?_⟩
    simpa using h
  · intro ⟨nx, ny, hnx, hny, hx, hy, hne⟩
    refine ⟨(nx : ℤ) - cx, by omega, (ny : ℤ) - cy, by omega, ?_⟩
    rw [if_neg (by omega), show (cx : ℤ) + (nx - cx) = nx by omega, show (cy : ℤ) + (ny - cy) = ny by omega]
    simpa using hne

/-! ## The regions of the cells -/

theorem firstRegion_fold (cells : List UInt8) (first : ℕ) :
    let least := cells.foldl (fun first cell =>
      if regionOf cell ≠ 0 ∧ (first = 0 ∨ regionOf cell < first) then regionOf cell else first) first
    (first ≠ 0 → least ≠ 0 ∧ least ≤ first) ∧
      (∀ cell ∈ cells, regionOf cell ≠ 0 → least ≠ 0 ∧ least ≤ regionOf cell) ∧
      (least = first ∨ ∃ cell ∈ cells, regionOf cell = least) := by
  induction cells generalizing first with
  | nil => exact ⟨fun h => ⟨h, le_rfl⟩, fun _ h => absurd h List.not_mem_nil, Or.inl rfl⟩
  | cons cell rest ih =>
      intro least
      obtain ⟨hless, hcells, hone⟩ := ih
        (if regionOf cell ≠ 0 ∧ (first = 0 ∨ regionOf cell < first) then regionOf cell else first)
      change least = _ ∨ ∃ cell ∈ rest, regionOf cell = least at hone
      change _ → least ≠ 0 ∧ least ≤ _ at hless
      refine ⟨fun h => ?_, fun other hother hne => ?_, ?_⟩
      · split_ifs at hless with htake
        · have hle := hless htake.1
          omega
        · exact hless h
      · rcases List.mem_cons.mp hother with rfl | hother
        · split_ifs at hless with htake
          · exact hless hne
          · have hle := hless (by omega)
            omega
        · exact hcells other hother hne
      · rcases hone with hone | ⟨other, hother, heq⟩
        · split_ifs at hone with htake
          · exact Or.inr ⟨cell, List.mem_cons_self, hone.symm⟩
          · exact Or.inl hone
        · exact Or.inr ⟨other, List.mem_cons_of_mem _ hother, heq⟩

theorem lastRegion_fold (cells : List UInt8) (last : ℕ) :
    let most := cells.foldl (fun last cell => if last < regionOf cell then regionOf cell else last) last
    last ≤ most ∧ (∀ cell ∈ cells, regionOf cell ≤ most) ∧
      (most = last ∨ ∃ cell ∈ cells, regionOf cell = most) := by
  induction cells generalizing last with
  | nil => exact ⟨le_rfl, fun _ h => absurd h List.not_mem_nil, Or.inl rfl⟩
  | cons cell rest ih =>
      intro most
      obtain ⟨hle, hcells, hone⟩ := ih (if last < regionOf cell then regionOf cell else last)
      change _ ≤ most at hle
      change most = _ ∨ ∃ cell ∈ rest, regionOf cell = most at hone
      refine ⟨?_, fun other hother => ?_, ?_⟩
      · split_ifs at hle <;> omega
      · rcases List.mem_cons.mp hother with rfl | hother
        · split_ifs at hle <;> omega
        · exact hcells other hother
      · rcases hone with hone | ⟨other, hother, heq⟩
        · split_ifs at hone with htake
          · exact Or.inr ⟨cell, List.mem_cons_self, hone.symm⟩
          · exact Or.inl hone
        · exact Or.inr ⟨other, List.mem_cons_of_mem _ hother, heq⟩

/-- The loop stops at a cell outside the range, and otherwise it has seen the regions of the cells. -/
theorem markSeen_spec (first last : ℕ) (cells : List UInt8) (seen : ℕ → Bool) :
    ((∃ seen', markSeen first last cells seen = some seen') ↔
      ∀ cell ∈ cells, first ≤ regionOf cell ∧ regionOf cell ≤ last) ∧
    ∀ seen', markSeen first last cells seen = some seen' → ∀ region,
      seen' region = true ↔ seen region = true ∨ ∃ cell ∈ cells, regionOf cell = region := by
  induction cells generalizing seen with
  | nil =>
      refine ⟨⟨fun _ _ h => absurd h List.not_mem_nil, fun _ => ⟨seen, rfl⟩⟩, fun seen' h region => ?_⟩
      cases h
      simp
  | cons cell rest ih =>
      rw [markSeen]
      by_cases hout : regionOf cell < first ∨ last < regionOf cell
      · rw [if_pos hout]
        refine ⟨⟨fun ⟨_, h⟩ => (by cases h), fun h => ?_⟩, fun _ h => (by cases h)⟩
        have hin := h cell List.mem_cons_self
        omega
      · rw [if_neg hout]
        obtain ⟨hiff, hseen⟩ := ih (Function.update seen (regionOf cell) true)
        refine ⟨?_, fun seen' h region => ?_⟩
        · rw [hiff, List.forall_mem_cons]
          exact ⟨fun h => ⟨by omega, h⟩, And.right⟩
        · rw [hseen seen' h region]
          by_cases heq : region = regionOf cell
          · subst heq
            simp
          · rw [Function.update_of_ne heq]
            constructor
            · rintro (h | ⟨other, hother, hregion⟩)
              · exact Or.inl h
              · exact Or.inr ⟨other, List.mem_cons_of_mem _ hother, hregion⟩
            · rintro (h | ⟨other, hother, hregion⟩)
              · exact Or.inl h
              · rcases List.mem_cons.mp hother with rfl | hother
                · exact absurd hregion.symm heq
                · exact Or.inr ⟨other, hother, hregion⟩

/-- Between the first and the last region the set of regions has no gap. -/
theorem regionsContiguous_iff {cells : List UInt8} (hne : cells ≠ [])
    (hregions : ∀ cell ∈ cells, 1 ≤ regionOf cell ∧ regionOf cell ≤ 127) :
    regionsContiguous cells (firstRegion cells) (lastRegion cells) = true ↔
      ∀ low ∈ cells, ∀ high ∈ cells, ∀ region, regionOf low ≤ region → region ≤ regionOf high →
        ∃ cell ∈ cells, regionOf cell = region := by
  obtain ⟨-, hleast, hfirst⟩ := firstRegion_fold cells 0
  obtain ⟨-, hmost, hlast⟩ := lastRegion_fold cells 0
  change ∀ cell ∈ cells, regionOf cell ≠ 0 → firstRegion cells ≠ 0 ∧ firstRegion cells ≤ regionOf cell
    at hleast
  change firstRegion cells = 0 ∨ ∃ cell ∈ cells, regionOf cell = firstRegion cells at hfirst
  change ∀ cell ∈ cells, regionOf cell ≤ lastRegion cells at hmost
  change lastRegion cells = 0 ∨ ∃ cell ∈ cells, regionOf cell = lastRegion cells at hlast
  obtain ⟨any, hsome⟩ := List.exists_mem_of_ne_nil cells hne
  have hsomeRegion := hregions any hsome
  have hsomeFirst := hleast any hsome (by omega)
  have hsomeLast := hmost any hsome
  obtain ⟨low, hlow, hlowRegion⟩ := hfirst.resolve_left hsomeFirst.1
  obtain ⟨high, hhigh, hhighRegion⟩ := hlast.resolve_left (by omega)
  have hhighLe := hregions high hhigh
  have hmask : kRegionMask.toNat = 127 := rfl
  obtain ⟨hiff, hseen⟩ := markSeen_spec (firstRegion cells) (lastRegion cells) cells fun _ => false
  obtain ⟨seen, hmark⟩ := hiff.mpr fun cell hcell =>
    ⟨(hleast cell hcell (by have h := hregions cell hcell; omega)).2, hmost cell hcell⟩
  rw [regionsContiguous, if_neg (by omega), hmark]
  simp only [List.all_eq_true, List.mem_range'_1, hseen seen hmark, Bool.false_eq_true, false_or]
  constructor
  · intro h below hbelow above habove region hle hge
    have hb := hleast below hbelow (by have h := hregions below hbelow; omega)
    have ha := hmost above habove
    exact h region (by omega)
  · intro h region hin
    exact h low hlow high hhigh region (by omega) (by omega)

/-! ## The result -/

section Decoded

variable {side : ℕ} {runs : List RegionRun}

/-- `Decode` accepts the runs that are valid and cover the cells exactly. -/
theorem decodeCells_true_iff (side : ℕ) (runs : List RegionRun) :
    (decodeCells side runs).1 = true ↔ (∀ run ∈ runs, run.Valid) ∧ runLength runs = side * side := by
  obtain ⟨hiff, hcopy⟩ := expandRuns_spec (side * side) runs [] (Nat.zero_le _)
  rw [List.length_nil, Nat.zero_add] at hiff
  unfold decodeCells
  cases hexpand : expandRuns (side * side) runs [] with
  | mk covered written =>
      rw [hexpand] at hiff hcopy
      cases covered with
      | false =>
          refine ⟨fun h => (by cases h), fun ⟨hvalid, hlength⟩ => ?_⟩
          exact absurd (hiff.mpr ⟨hvalid, hlength.le⟩) Bool.false_ne_true
      | true =>
          have hwritten : written.length = runLength runs := by
            have h := hcopy rfl
            change written = [] ++ plainCells runs at h
            rw [h, List.nil_append, length_plainCells]
          obtain ⟨hvalid, -⟩ := hiff.mp rfl
          simp only [Bool.true_eq_false, false_or, hwritten]
          by_cases hlength : runLength runs = side * side
          · rw [if_neg (not_not.mpr hlength)]
            exact ⟨fun _ => ⟨hvalid, hlength⟩, fun _ => rfl⟩
          · rw [if_pos hlength]
            exact ⟨fun h => (by cases h), fun h => absurd h.2 hlength⟩

theorem decodeCells_eq (h : (decodeCells side runs).1 = true) :
    (decodeCells side runs).2 = markBorders side (plainCells runs) := by
  obtain ⟨hvalid, hlength⟩ := (decodeCells_true_iff side runs).mp h
  obtain ⟨hiff, hcopy⟩ := expandRuns_spec (side * side) runs [] (Nat.zero_le _)
  have hcovered := hiff.mpr ⟨hvalid, by rw [List.length_nil]; omega⟩
  have hwritten := hcopy hcovered
  rw [List.nil_append] at hwritten
  have hsize : (plainCells runs).length = side * side := (length_plainCells runs).trans hlength
  unfold decodeCells
  cases hexpand : expandRuns (side * side) runs [] with
  | mk covered written =>
      rw [hexpand] at hcovered hwritten
      change covered = true at hcovered
      change written = plainCells runs at hwritten
      rw [hcovered, hwritten]
      simp only [Bool.true_eq_false, false_or, hsize, ne_eq, not_true_eq_false, if_false, Nat.sub_self,
        List.replicate_zero, List.append_nil]

/-- The cells with a region and perhaps the bit. -/
theorem getElem?_decoded (h : (decodeCells side runs).1 = true) {cx cy : ℕ} (hx : cx < side)
    (hy : cy < side) : ∃ region, Covers runs (cx * side + cy) region ∧ region.toNat ≤ 127 ∧
      1 ≤ region.toNat ∧ (decodeCells side runs).2[cx * side + cy]? =
        some (if isBorder side (plainCells runs) cx cy then region ||| kTransitionBit else region) := by
  obtain ⟨hvalid, hlength⟩ := (decodeCells_true_iff side runs).mp h
  have hlt : cx * side + cy < (plainCells runs).length := by
    rw [length_plainCells, hlength]
    exact cell_lt hx hy
  have hcell := List.getElem?_eq_getElem hlt
  have hcovers := (getElem?_plainCells runs _ _).mp hcell
  obtain ⟨before, run, after, hruns, hle, hless, hregion⟩ := hcovers
  have hrun := hvalid run (hruns ▸ List.mem_append_right _ List.mem_cons_self)
  rw [RegionRun.Valid, hregion] at hrun
  refine ⟨_, ⟨before, run, after, hruns, hle, hless, hregion⟩, hrun.2, hrun.1, ?_⟩
  rw [decodeCells_eq h, getElem?_markBorders hx hy, hcell]
  rfl

/-- A position is covered by one run. -/
theorem covers_unique {k : ℕ} {region region' : UInt8} (h : Covers runs k region)
    (h' : Covers runs k region') : region = region' :=
  Option.some.inj (((getElem?_plainCells runs k region).mpr h).symm.trans
    ((getElem?_plainCells runs k region').mpr h'))

theorem getD_plainCells {k : ℕ} {region : UInt8} (h : Covers runs k region) :
    (plainCells runs).getD k 0 = region := by
  rw [List.getD_eq_getElem?_getD, (getElem?_plainCells runs k region).mpr h]
  rfl

theorem length_decoded (h : (decodeCells side runs).1 = true) :
    (decodeCells side runs).2.length = side * side := by
  rw [decodeCells_eq h, length_markBorders, length_plainCells]
  exact ((decodeCells_true_iff side runs).mp h).2

/-- A region that some cell has. -/
def Used (runs : List RegionRun) (region : ℕ) : Prop := ∃ k r, Covers runs k r ∧ r.toNat = region

/-- The regions of the cells are those that are used. -/
theorem mem_decoded (h : (decodeCells side runs).1 = true) (region : ℕ) :
    (∃ cell ∈ (decodeCells side runs).2, regionOf cell = region) ↔ Used runs region := by
  have hread : ∀ cx cy, cx < side → cy < side → ∀ cell, (decodeCells side runs).2[cx * side + cy]? = some cell →
      ∃ r, Covers runs (cx * side + cy) r ∧ regionOf cell = r.toNat := by
    intro cx cy hx hy cell hcell
    obtain ⟨r, hcovers, hle, -, hget⟩ := getElem?_decoded h hx hy
    obtain ⟨hmarked, hplain, -⟩ := or_transitionBit_mask r hle
    rw [hget] at hcell
    refine ⟨r, hcovers, ?_⟩
    rw [← Option.some.inj hcell]
    split
    · exact hmarked
    · exact hplain
  have hsplit : ∀ k, k < side * side →
      k / side < side ∧ k % side < side ∧ k / side * side + k % side = k := by
    intro k hk
    have hside : 0 < side := Nat.pos_of_ne_zero fun hzero => by simp [hzero] at hk
    exact ⟨Nat.div_lt_of_lt_mul hk, Nat.mod_lt _ hside, Nat.div_add_mod' k side⟩
  constructor
  · intro ⟨cell, hcell, hregion⟩
    obtain ⟨k, hk, hget⟩ := List.mem_iff_getElem.mp hcell
    obtain ⟨hx, hy, hpos⟩ := hsplit k (by rwa [length_decoded h] at hk)
    obtain ⟨r, hcovers, heq⟩ := hread _ _ hx hy cell (by
      rw [hpos, List.getElem?_eq_getElem hk, hget])
    exact ⟨_, r, hcovers, heq.symm.trans hregion⟩
  · intro ⟨k, r, hcovers, hregion⟩
    have hlt : k < side * side := by
      have hget := (getElem?_plainCells runs k r).mpr hcovers
      obtain ⟨hk, -⟩ := List.getElem?_eq_some_iff.mp hget
      rw [length_plainCells, ((decodeCells_true_iff side runs).mp h).2] at hk
      exact hk
    obtain ⟨hx, hy, hpos⟩ := hsplit k hlt
    have hk : k < (decodeCells side runs).2.length := by rwa [length_decoded h]
    obtain ⟨r', hcovers', heq⟩ := hread _ _ hx hy (decodeCells side runs).2[k] (by
      rw [hpos, List.getElem?_eq_getElem hk])
    rw [hpos] at hcovers'
    refine ⟨_, List.getElem_mem hk, ?_⟩
    rw [heq, covers_unique hcovers' hcovers, hregion]

/-- The bit of a cell. -/
theorem transitionBit_decoded (h : (decodeCells side runs).1 = true) {cx cy : ℕ} (hx : cx < side)
    (hy : cy < side) : ∃ cell region, (decodeCells side runs).2[cx * side + cy]? = some cell ∧
      Covers runs (cx * side + cy) region ∧ regionOf cell = region.toNat ∧
      (cell &&& kTransitionBit ≠ 0 ↔ ∃ nx ny region', nx < side ∧ ny < side ∧ Near cx nx ∧ Near cy ny ∧
        Covers runs (nx * side + ny) region' ∧ region' ≠ region) := by
  obtain ⟨region, hcovers, hle, -, hget⟩ := getElem?_decoded h hx hy
  obtain ⟨hmarked, hplain, hbit⟩ := or_transitionBit_mask region hle
  have hborder : isBorder side (plainCells runs) cx cy = true ↔ ∃ nx ny region', nx < side ∧ ny < side ∧
      Near cx nx ∧ Near cy ny ∧ Covers runs (nx * side + ny) region' ∧ region' ≠ region := by
    rw [isBorder_iff, getD_plainCells hcovers]
    constructor
    · intro ⟨nx, ny, hnx, hny, hnearx, hneary, hne⟩
      obtain ⟨region', hcovers', -⟩ := getElem?_decoded h hnx hny
      rw [getD_plainCells hcovers'] at hne
      exact ⟨nx, ny, region', hnx, hny, hnearx, hneary, hcovers', hne⟩
    · intro ⟨nx, ny, region', hnx, hny, hnearx, hneary, hcovers', hne⟩
      exact ⟨nx, ny, hnx, hny, hnearx, hneary, by rwa [getD_plainCells hcovers']⟩
  refine ⟨_, region, hget, hcovers, ?_, ?_⟩
  · split
    · exact hmarked
    · exact hplain
  · rw [← hborder]
    by_cases hb : isBorder side (plainCells runs) cx cy = true
    · rw [if_pos hb]
      exact iff_of_true hbit hb
    · rw [if_neg hb]
      exact iff_of_false (not_not.mpr ((and_transitionBit region).mpr hle)) hb

end Decoded

/-- `Decode` accepts the runs that have regions in 1..127 and cover the continent exactly. Then a cell has the
region of its run, and the bit when a neighbour has another one: both of them then. The regions are contiguous
when those that are used have no gap. -/
theorem decode_spec (runs : List RegionRun) :
    ((decode runs).1 = true ↔
      (∀ run ∈ runs, 1 ≤ run.region.toNat ∧ run.region.toNat ≤ 127) ∧ runLength runs = 512 * 512) ∧
    ((decode runs).1 = true →
      (decode runs).2.length = 512 * 512 ∧
      (∀ cx cy, cx < 512 → cy < 512 → ∃ cell region, (decode runs).2[cx * 512 + cy]? = some cell ∧
        Covers runs (cx * 512 + cy) region ∧ regionOf cell = region.toNat ∧
        (cell &&& kTransitionBit ≠ 0 ↔ ∃ nx ny region', nx < 512 ∧ ny < 512 ∧ Near cx nx ∧ Near cy ny ∧
          Covers runs (nx * 512 + ny) region' ∧ region' ≠ region)) ∧
      (∀ cx cy nx ny region region', cx < 512 → cy < 512 → nx < 512 → ny < 512 → Near cx nx → Near cy ny →
        Covers runs (cx * 512 + cy) region → Covers runs (nx * 512 + ny) region' → region ≠ region' →
        ∃ cell cell', (decode runs).2[cx * 512 + cy]? = some cell ∧ cell &&& kTransitionBit ≠ 0 ∧
          (decode runs).2[nx * 512 + ny]? = some cell' ∧ cell' &&& kTransitionBit ≠ 0) ∧
      (regionsContiguous (decode runs).2 (firstRegion (decode runs).2) (lastRegion (decode runs).2) = true ↔
        ∀ low high region, Used runs low → Used runs high → low ≤ region → region ≤ high →
          Used runs region)) := by
  refine ⟨decodeCells_true_iff 512 runs, fun h => ?_⟩
  change (decodeCells 512 runs).1 = true at h
  have hlength := length_decoded h
  refine ⟨hlength, fun cx cy hx hy => transitionBit_decoded h hx hy,
    fun cx cy nx ny region region' hx hy hnx hny hnearx hneary hcovers hcovers' hne => ?_, ?_⟩
  · obtain ⟨cell, r, hget, hr, -, hbit⟩ := transitionBit_decoded h hx hy
    obtain ⟨cell', r', hget', hr', -, hbit'⟩ := transitionBit_decoded h hnx hny
    -- two cells that are near have each the other as their witness
    have hregion : r = region := covers_unique hr hcovers
    have hregion' : r' = region' := covers_unique hr' hcovers'
    refine ⟨cell, cell', hget, hbit.mpr ⟨nx, ny, r', hnx, hny, hnearx, hneary, hr', ?_⟩, hget',
      hbit'.mpr ⟨cx, cy, r, hx, hy, And.symm hnearx, And.symm hneary, hr, ?_⟩⟩
    · rw [hregion, hregion']
      exact hne.symm
    · rw [hregion, hregion']
      exact hne
  · show regionsContiguous (decodeCells 512 runs).2 _ _ = true ↔ _
    have hnonempty : (decodeCells 512 runs).2 ≠ [] := by
      rw [← List.length_pos_iff, hlength]
      exact Nat.succ_pos _
    -- every cell is from a run, so its region is one that can be counted
    have hregions : ∀ cell ∈ (decodeCells 512 runs).2, 1 ≤ regionOf cell ∧ regionOf cell ≤ 127 := by
      intro cell hcell
      obtain ⟨k, r, ⟨before, run, after, hruns, -, -, hr⟩, hregion⟩ := (mem_decoded h _).mp ⟨cell, hcell, rfl⟩
      have hrun := ((decodeCells_true_iff 512 runs).mp h).1 run
        (hruns ▸ List.mem_append_right _ List.mem_cons_self)
      rw [← hregion, ← hr]
      exact hrun
    refine (regionsContiguous_iff hnonempty hregions).trans ⟨fun hgap low high region hlow hhigh hle hge => ?_,
      fun hgap low hlow high hhigh region hle hge => ?_⟩
    · obtain ⟨lowCell, hlowCell, rfl⟩ := (mem_decoded h low).mpr hlow
      obtain ⟨highCell, hhighCell, rfl⟩ := (mem_decoded h high).mpr hhigh
      exact (mem_decoded h region).mp (hgap lowCell hlowCell highCell hhighCell region hle hge)
    · exact (mem_decoded h region).mpr (hgap _ _ region ((mem_decoded h _).mp ⟨low, hlow, rfl⟩)
        ((mem_decoded h _).mp ⟨high, hhigh, rfl⟩) hle hge)

end TwowCore.Maps
