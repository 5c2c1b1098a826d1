import TwowCore.Lib.WriteBehind

/-!
# Skills

A character's skills are in three places: `mSkillStatus` maps a skill to its position and its note
for the table, the update fields hold at each of 127 positions which skill stands there and its
value, and `character_skills` has the rows. `Sound` says how the three hang together: the positions
in use are those of the skills that are not deleted, one for each, and the notes are right about the
rows. A deleted skill keeps its old position, which another skill may have by now, so nothing is
said of what stands there.

The calls of `SetSkill` that learning and unlearning spells makes are calls of the run like any other.
Those that are made while `_LoadSkills` has the spells of the loaded skills learned come before it clears
the positions that are left, and so must not set a skill that the character has not.
-/

namespace TwowCore

open Lib (UpdateState Cached Fits Coherent)

/-- `MAKE_PAIR32`. -/
def makePair32 (l h : UInt32) : UInt32 := l.toUInt16.toUInt32 ||| (h <<< 16)

/-- `PAIR32_LOPART`. -/
def pair32LoPart (x : UInt32) : UInt16 := (x &&& 0x0000FFFF).toUInt16

/-- `PAIR32_HIPART`. -/
def pair32HiPart (x : UInt32) : UInt16 := ((x >>> 16) &&& 0x0000FFFF).toUInt16

/-- A skill line, a `uint16`. -/
abbrev SkillId := Fin 65536

/-- The skill line as the update fields have it. -/
def SkillId.word (id : SkillId) : UInt32 := id.val.toUInt32

/-- `PLAYER_MAX_SKILLS`. -/
def playerMaxSkills : ℕ := 127

/-- A position among the update fields. -/
abbrev SkillPos := Fin playerMaxSkills

/-- `SkillStatusData`. -/
structure SkillStatusData where
  pos : SkillPos
  uState : UpdateState
  deriving DecidableEq

/-- `SkillRangeType`, as far as loading tells the ranges apart. -/
inductive SkillRangeType where
  | language
  | level
  | mono
  | other
  deriving DecidableEq

/-- What the functions ask the data stores about skill lines, for a character of one race and class. -/
structure SkillLines where
  skillLine : SkillId → Bool
  raceClassInfo : SkillId → Bool
  alwaysMaxValue : SkillId → Bool
  rangeType : SkillId → SkillRangeType
  professionOrRiding : SkillId → Bool

/-- The skills of a character: `mSkillStatus`, the fields `PLAYER_SKILL_INDEX` and
`PLAYER_SKILL_VALUE_INDEX` at each position, and the rows of `character_skills` with his guid. -/
structure SkillBook where
  skillStatus : List (SkillId × SkillStatusData)
  skillIndex : SkillPos → UInt32
  skillValue : SkillPos → UInt32
  characterSkills : SkillId → Option (UInt16 × UInt16)

namespace SkillBook

/-- The note after a value is written. -/
def touched (uState : UpdateState) : UpdateState := if uState ≠ .new then .changed else .new

/-- Writes the value of a skill that is there: `f` says from the old value which, if any. -/
def rewriteSkill (book : SkillBook) (id : SkillId) (f : UInt32 → Option UInt32) : SkillBook :=
  match Lib.entryOf id book.skillStatus with
  | none => book
  | some status =>
    if status.uState = .deleted then book
    else
      match f (book.skillValue status.pos) with
      | none => book
      | some data =>
        { book with
          skillValue := Function.update book.skillValue status.pos data
          skillStatus := Lib.setEntry id { status with uState := touched status.uState } book.skillStatus }

/-- The value after a step, as `UpdateSkill` and `UpdateSkillPro` compute it. -/
def gain (step data : UInt32) : Option UInt32 :=
  let value := (pair32LoPart data).toUInt32
  let max := (pair32HiPart data).toUInt32
  if max = 0 ∨ value = 0 ∨ max ≤ value then none
  else
    let newValue := value + step
    some (makePair32 (if max < newValue then max else newValue) max)

/-- `UpdateSkill`. -/
def updateSkill (book : SkillBook) (id : SkillId) (step : UInt32) : SkillBook :=
  if id = 0 then book else book.rewriteSkill id (gain step)

/-- `UpdateSkillPro`, with the number `irand` gives. -/
def updateSkillPro (book : SkillBook) (id : SkillId) (chance roll : ℤ) (step : UInt32) : SkillBook :=
  if id = 0 then book
  else if chance ≤ 0 then book
  else if roll ≤ chance then book.rewriteSkill id (gain step)
  else book

/-- What `UpdateSkillsForLevel` makes of the value of one skill. -/
def levelled (alwaysMax : Bool) (maxSkill : UInt32) (maxconfskill : UInt32) (data : UInt32) : Option UInt32 :=
  let max := (pair32HiPart data).toUInt32
  let val := (pair32LoPart data).toUInt32
  if max ≠ 1 then
    if alwaysMax = true then some (makePair32 maxSkill maxSkill)
    else if max ≠ maxconfskill then some (makePair32 val maxSkill)
    else none
  else none

/-- `UpdateSkillsForLevel`. -/
def updateSkillsForLevel (lines : SkillLines) (alwaysMaxSkill : Bool) (maxSkill maxconfskill : UInt32)
    (book : SkillBook) : SkillBook :=
  (book.skillStatus.map Prod.fst).foldl (fun book id =>
    if lines.skillLine id = false ∨ lines.raceClassInfo id = false ∨ lines.rangeType id ≠ .level then book
    else book.rewriteSkill id (levelled (alwaysMaxSkill || lines.alwaysMaxValue id) maxSkill maxconfskill)) book

/-- What `UpdateSkillsToMaxSkillsForLevel` makes of the value of one skill. -/
def maximised (data : UInt32) : Option UInt32 :=
  let max := (pair32HiPart data).toUInt32
  if 1 < max then some (makePair32 max max) else none

/-- `UpdateSkillsToMaxSkillsForLevel`. -/
def updateSkillsToMaxSkillsForLevel (lines : SkillLines) (book : SkillBook) : SkillBook :=
  (book.skillStatus.map Prod.fst).foldl (fun book id =>
    if lines.professionOrRiding id = true then book else book.rewriteSkill id maximised) book

/-- The first free position. -/
def freePos (book : SkillBook) : Option SkillPos :=
  (List.finRange playerMaxSkills).find? fun i => book.skillIndex i = 0

/-- `SetSkill`. -/
def setSkill (lines : SkillLines) (book : SkillBook) (id : SkillId) (currVal maxVal step : UInt16) : SkillBook :=
  if id = 0 then book
  else
    let found := Lib.entryOf id book.skillStatus
    match found.filter fun status => status.uState ≠ .deleted with
    | some status =>
      if currVal ≠ 0 then
        { book with
          skillIndex :=
            if step ≠ 0 then Function.update book.skillIndex status.pos (makePair32 id.word step.toUInt32)
            else book.skillIndex
          skillValue := Function.update book.skillValue status.pos (makePair32 currVal.toUInt32 maxVal.toUInt32)
          skillStatus := Lib.setEntry id { status with uState := touched status.uState } book.skillStatus }
      else
        { book with
          skillIndex := Function.update book.skillIndex status.pos 0
          skillValue := Function.update book.skillValue status.pos 0
          skillStatus :=
            if status.uState ≠ .new then Lib.setEntry id { status with uState := .deleted } book.skillStatus
            else Lib.eraseEntry id book.skillStatus }
    | none =>
      if currVal ≠ 0 then
        match book.freePos with
        | none => book
        | some i =>
          if lines.skillLine id = false then book
          else
            { book with
              skillIndex := Function.update book.skillIndex i (makePair32 id.word step.toUInt32)
              skillValue := Function.update book.skillValue i (makePair32 currVal.toUInt32 maxVal.toUInt32)
              skillStatus :=
                Lib.setEntry id ⟨i, if found.isSome then .changed else .new⟩ book.skillStatus }
      else book

/-- The statement of `_SaveSkills` for one skill. -/
def saveStatement (book : SkillBook) (entry : SkillId × SkillStatusData) :
    Option (Lib.Statement SkillId (UInt16 × UInt16)) :=
  let valueData := book.skillValue entry.2.pos
  let value := pair32LoPart valueData
  let max := pair32HiPart valueData
  match entry.2.uState with
  | .unchanged => none
  | .deleted => some (.delete entry.1)
  | .new => some (.insert entry.1 (value, max))
  | .changed => some (.update entry.1 (value, max))

/-- The statements of `_SaveSkills` on `character_skills`. -/
def saveStatements (book : SkillBook) : List (Lib.Statement SkillId (UInt16 × UInt16)) :=
  book.skillStatus.filterMap book.saveStatement

/-- `_SaveSkills`. -/
def saveSkills (book : SkillBook) : SkillBook :=
  { book with
    skillStatus := (book.skillStatus.filter fun entry => entry.2.uState ≠ .deleted).map fun entry =>
      (entry.1, { entry.2 with uState := .unchanged })
    characterSkills := book.saveStatements.foldl Lib.Statement.exec book.characterSkills }

/-- The fixed ranges of `_LoadSkills`. -/
def fixedRange (lines : SkillLines) (maxForLevel : UInt16) (id : SkillId) (row : UInt16 × UInt16) :
    UInt16 × UInt16 :=
  match lines.rangeType id with
  | .language => (300, 300)
  | .mono => (1, 1)
  | .level => (row.1, maxForLevel)
  | .other => row

/-- The loop of `_LoadSkills` over the rows, from a position on. What it deletes from the table is deleted
by an asynchronous statement. -/
def loadRows (lines : SkillLines) (maxForLevel : UInt16) :
    List (SkillId × UInt16 × UInt16) → ℕ → SkillBook → SkillBook × ℕ
  | [], count, book => (book, count)
  | (skill, row) :: rest, count, book =>
      if lines.skillLine skill = false ∨ lines.raceClassInfo skill = false then
        loadRows lines maxForLevel rest count book
      else
        let (value, max) := fixedRange lines maxForLevel skill row
        if value = 0 then
          loadRows lines maxForLevel rest count
            { book with characterSkills := Function.update book.characterSkills skill none }
        else if hcount : count < playerMaxSkills then
          let pos : SkillPos := ⟨count, hcount⟩
          let loaded : SkillBook :=
            { book with
              skillIndex := Function.update book.skillIndex pos skill.word
              skillValue := Function.update book.skillValue pos (makePair32 value.toUInt32 max.toUInt32)
              skillStatus := Lib.setEntry skill ⟨pos, .unchanged⟩ book.skillStatus }
          if count + 1 < playerMaxSkills then loadRows lines maxForLevel rest (count + 1) loaded
          else (loaded, count + 1)
        else (book, count)

/-- A call of `SetSkill`, as `UpdateSpellTrainedSkills` makes it for a spell. -/
structure Training where
  id : SkillId
  currVal : UInt16
  maxVal : UInt16
  step : UInt16

/-- A spell that is learned or unlearned sets its skill. -/
def train (lines : SkillLines) (book : SkillBook) (t : Training) : SkillBook :=
  book.setSkill lines t.id t.currVal t.maxVal t.step

/-- The last loop of `_LoadSkills`: the positions from `count` on are cleared. -/
def clearFrom (book : SkillBook) (count : ℕ) : SkillBook :=
  { book with
    skillIndex := fun i => if count ≤ i.val then 0 else book.skillIndex i
    skillValue := fun i => if count ≤ i.val then 0 else book.skillValue i }

/-- The rows of `_LoadSkills`, to the first position that is left. -/
def loadedRows (lines : SkillLines) (maxForLevel : UInt16) (rows : List (SkillId × UInt16 × UInt16)) :
    SkillBook × ℕ :=
  loadRows lines maxForLevel rows 0 ⟨[], fun _ => 0, fun _ => 0, fun skill => Lib.entryOf skill rows⟩

/-- `_LoadSkills`: the rows, what `UpdateSkillTrainedSpells` sets for the spells of the loaded skills, and
the positions that are left. -/
def loadSkills (lines : SkillLines) (maxForLevel : UInt16) (rows : List (SkillId × UInt16 × UInt16))
    (trained : List Training) : SkillBook :=
  let (book, count) := loadedRows lines maxForLevel rows
  (Lib.run (train lines) book trained).clearFrom count

end SkillBook

section Pairs

theorem toNat_pair32LoPart (x : UInt32) : (pair32LoPart x).toNat = x.toNat % 2 ^ 16 := by
  rw [pair32LoPart, UInt32.toNat_toUInt16, UInt32.toNat_and]
  rw [show x.toNat &&& (0x0000FFFF : UInt32).toNat = x.toNat % 2 ^ 16 from Nat.and_two_pow_sub_one_eq_mod x.toNat 16]
  omega

theorem toNat_makePair32 (l h : UInt32) :
    (makePair32 l h).toNat = (h.toNat % 2 ^ 16) * 2 ^ 16 + l.toNat % 2 ^ 16 := by
  have hlow : l.toUInt16.toUInt32.toNat = l.toNat % 2 ^ 16 := by
    rw [UInt16.toNat_toUInt32, UInt32.toNat_toUInt16]
  have hshift : (h <<< 16).toNat = 2 ^ 16 * (h.toNat % 2 ^ 16) := by
    rw [UInt32.toNat_shiftLeft, Nat.shiftLeft_eq]
    show h.toNat * 2 ^ 16 % 2 ^ 32 = _
    omega
  have hlt : l.toNat % 2 ^ 16 < 2 ^ 16 := Nat.mod_lt _ (by decide)
  rw [makePair32, UInt32.toNat_or, hlow, hshift, Nat.or_comm, ← Nat.two_pow_add_eq_or_of_lt hlt]
  omega

/-- The low part of a pair is the word that was put there. -/
theorem loPart_makePair32 (l h : UInt32) : (pair32LoPart (makePair32 l h)).toNat = l.toNat % 2 ^ 16 := by
  rw [toNat_pair32LoPart, toNat_makePair32]
  omega

theorem toNat_pair32HiPart (x : UInt32) : (pair32HiPart x).toNat = x.toNat / 2 ^ 16 := by
  have hx := x.toNat_lt
  have hshift : (x >>> 16).toNat = x.toNat / 2 ^ 16 := by
    rw [UInt32.toNat_shiftRight, Nat.shiftRight_eq_div_pow]
    rfl
  rw [pair32HiPart, UInt32.toNat_toUInt16, UInt32.toNat_and, hshift]
  rw [show x.toNat / 2 ^ 16 &&& (0x0000FFFF : UInt32).toNat = x.toNat / 2 ^ 16 % 2 ^ 16 from
    Nat.and_two_pow_sub_one_eq_mod _ 16]
  omega

/-- A pair of words is taken apart into the two. -/
theorem parts_makePair32 (value max : UInt16) :
    pair32LoPart (makePair32 value.toUInt32 max.toUInt32) = value ∧
      pair32HiPart (makePair32 value.toUInt32 max.toUInt32) = max := by
  have hvalue := value.toNat_lt
  have hmax := max.toNat_lt
  constructor
  · refine UInt16.toNat_inj.mp ?_
    rw [loPart_makePair32, UInt16.toNat_toUInt32]
    omega
  · refine UInt16.toNat_inj.mp ?_
    rw [toNat_pair32HiPart, toNat_makePair32, UInt16.toNat_toUInt32, UInt16.toNat_toUInt32]
    omega

end Pairs

namespace SkillBook

variable {book : SkillBook} {id : SkillId} {status : SkillStatusData}

/-- The skill is there and not deleted. -/
def Stands (book : SkillBook) (id : SkillId) (status : SkillStatusData) : Prop :=
  Lib.entryOf id book.skillStatus = some status ∧ status.uState ≠ .deleted

/-- A skill as its row would have it. -/
def cached (book : SkillBook) (status : SkillStatusData) : Cached (UInt16 × UInt16) :=
  ⟨(pair32LoPart (book.skillValue status.pos), pair32HiPart (book.skillValue status.pos)), status.uState⟩

/-- What a skill is, as the table would have it. -/
def look (book : SkillBook) (id : SkillId) : Option (Cached (UInt16 × UInt16)) :=
  (Lib.entryOf id book.skillStatus).map book.cached

/-- The positions in use are those of the skills that stand, each named by its skill. -/
structure Placed (book : SkillBook) : Prop where
  sorted : Lib.KeysSorted book.skillStatus
  nonzero : Lib.entryOf 0 book.skillStatus = none
  named : ∀ id status, book.Stands id status → (pair32LoPart (book.skillIndex status.pos)).toNat = id.val
  used : ∀ i, book.skillIndex i ≠ 0 → ∃ id status, book.Stands id status ∧ status.pos = i

/-- The positions are in order and the notes are right. -/
structure Sound (book : SkillBook) : Prop where
  placed : book.Placed
  coherent : Coherent book.look book.characterSkills

theorem word_loPart (id : SkillId) (h : UInt32) : (pair32LoPart (makePair32 id.word h)).toNat = id.val := by
  have hid := id.isLt
  rw [loPart_makePair32, SkillId.word, UInt32.toNat_ofNat']
  omega

theorem Stands.ne_zero (hplaced : book.Placed) (h : book.Stands id status) : id ≠ 0 := by
  rintro rfl
  have hfound := h.1
  rw [hplaced.nonzero] at hfound
  cases hfound

/-- A position in use is not free. -/
theorem Stands.index_ne_zero (hplaced : book.Placed) (h : book.Stands id status) :
    book.skillIndex status.pos ≠ 0 := by
  intro hzero
  have hnamed := hplaced.named id status h
  rw [hzero] at hnamed
  exact h.ne_zero hplaced (Fin.ext hnamed.symm)

/-- Two skills do not stand at one position. -/
theorem Stands.pos_inj (hplaced : book.Placed) (h : book.Stands id status) {id' : SkillId}
    {status' : SkillStatusData} (h' : book.Stands id' status') (hpos : status.pos = status'.pos) : id = id' := by
  have hnamed := hplaced.named id status h
  rw [hpos, hplaced.named id' status' h'] at hnamed
  exact Fin.ext hnamed.symm

/-- The note of a deleted skill does not say what stands at its old position. -/
theorem fits_of_value {c c' : Cached (UInt16 × UInt16)} {row : Option (UInt16 × UInt16)}
    (hstate : c'.state = c.state) (hvalue : c.state ≠ .deleted → c'.value = c.value) (h : Fits (some c) row) :
    Fits (some c') row := by
  obtain ⟨value, state⟩ := c
  obtain ⟨value', state'⟩ := c'
  obtain rfl : state' = state := hstate
  cases state' with
  | unchanged =>
      obtain rfl : value' = value := hvalue nofun
      exact h
  | changed | new | deleted => exact h

/-- The skill is written at a position that is its own or free. -/
def place (book : SkillBook) (id : SkillId) (i : SkillPos) (index data : UInt32) (uState : UpdateState) :
    SkillBook :=
  { book with
    skillIndex := Function.update book.skillIndex i index
    skillValue := Function.update book.skillValue i data
    skillStatus := Lib.setEntry id ⟨i, uState⟩ book.skillStatus }

section Place

variable {i : SkillPos} {index data : UInt32} {uState : UpdateState}

theorem entryOf_place (id' : SkillId) :
    Lib.entryOf id' (book.place id i index data uState).skillStatus =
      if id' = id then some ⟨i, uState⟩ else Lib.entryOf id' book.skillStatus :=
  Lib.entryOf_setEntry id'

theorem look_place :
    (book.place id i index data uState).look id = some ⟨(pair32LoPart data, pair32HiPart data), uState⟩ := by
  rw [look, entryOf_place, if_pos rfl, Option.map_some]
  show some (⟨(pair32LoPart (Function.update book.skillValue i data i),
    pair32HiPart (Function.update book.skillValue i data i)), uState⟩ : Cached (UInt16 × UInt16)) = _
  rw [Function.update_self]

theorem Placed.place (h : book.Placed) (hid : id ≠ 0) (hlive : uState ≠ .deleted)
    (hindex : (pair32LoPart index).toNat = id.val) (hown : ∀ status, book.Stands id status → status.pos = i)
    (hfree : ∀ id' status, book.Stands id' status → status.pos = i → id' = id) :
    (book.place id i index data uState).Placed := by
  refine ⟨h.sorted.setEntry, ?_, ?_, ?_⟩
  · rw [entryOf_place, if_neg hid.symm]
    exact h.nonzero
  · rintro id' status ⟨hfound, hstate⟩
    rw [entryOf_place] at hfound
    show (pair32LoPart (Function.update book.skillIndex i index status.pos)).toNat = id'.val
    split_ifs at hfound with heq
    · obtain rfl := Option.some.inj hfound
      rw [Function.update_self, heq]
      exact hindex
    · have hpos : status.pos ≠ i := fun hpos => heq (hfree id' status ⟨hfound, hstate⟩ hpos)
      rw [Function.update_of_ne hpos]
      exact h.named id' status ⟨hfound, hstate⟩
  · intro j hj
    by_cases hji : j = i
    · exact ⟨id, ⟨i, uState⟩, ⟨by rw [entryOf_place, if_pos rfl], hlive⟩, hji.symm⟩
    · have hold : book.skillIndex j ≠ 0 := by
        rw [← Function.update_of_ne hji index book.skillIndex]
        exact hj
      obtain ⟨id', status, hstands, hpos⟩ := h.used j hold
      have hne : id' ≠ id := by
        rintro rfl
        exact hji (hpos.symm.trans (hown status hstands))
      exact ⟨id', status, ⟨by rw [entryOf_place, if_neg hne]; exact hstands.1, hstands.2⟩, hpos⟩

/-- Writing a skill leaves the notes of the others right. -/
theorem fits_place (hfree : ∀ id' status, book.Stands id' status → status.pos = i → id' = id) {id' : SkillId}
    (hne : id' ≠ id) {row : Option (UInt16 × UInt16)} (h : Fits (book.look id') row) :
    Fits ((book.place id i index data uState).look id') row := by
  rw [look] at h
  rw [look, entryOf_place, if_neg hne]
  cases hfound : Lib.entryOf id' book.skillStatus with
  | none =>
      rw [hfound] at h
      exact h
  | some status =>
      rw [hfound] at h
      have hsame : status.uState ≠ .deleted →
          ((book.place id i index data uState).cached status).value = (book.cached status).value := by
        intro hstate
        have hpos : status.pos ≠ i := fun hpos => hne (hfree id' status ⟨hfound, hstate⟩ hpos)
        show (pair32LoPart (Function.update book.skillValue i data status.pos),
          pair32HiPart (Function.update book.skillValue i data status.pos)) = _
        rw [Function.update_of_ne hpos]
        rfl
      exact fits_of_value (c := book.cached status) rfl hsame h

theorem Sound.place (h : book.Sound) (hid : id ≠ 0) (hlive : uState ≠ .deleted)
    (hindex : (pair32LoPart index).toNat = id.val) (hown : ∀ status, book.Stands id status → status.pos = i)
    (hfree : ∀ id' status, book.Stands id' status → status.pos = i → id' = id)
    (hfits : Fits (some ⟨(pair32LoPart data, pair32HiPart data), uState⟩) (book.characterSkills id)) :
    (book.place id i index data uState).Sound := by
  refine ⟨h.placed.place hid hlive hindex hown hfree, fun id' => ?_⟩
  by_cases hne : id' = id
  · rw [hne, look_place]
    exact hfits
  · exact fits_place hfree hne (h.coherent id')

end Place

/-- The note of a written value. -/
theorem touched_eq (book : SkillBook) (status : SkillStatusData) : touched status.uState = Lib.noted (some (book.cached status)) := by
  show (if status.uState ≠ .new then UpdateState.changed else .new) = if status.uState = .new then .new else .changed
  rw [ite_not]

theorem touched_live (uState : UpdateState) : touched uState ≠ .deleted := by
  unfold touched
  split_ifs <;> exact nofun

/-- A skill that stands is written at its own position. -/
theorem Sound.write (h : book.Sound) (hstands : book.Stands id status) {index : UInt32} (data : UInt32)
    (hindex : (pair32LoPart index).toNat = id.val) :
    (book.place id status.pos index data (touched status.uState)).Sound := by
  refine h.place (hstands.ne_zero h.placed) (touched_live _) hindex (fun status' hstands' => ?_)
    (fun id' status' hstands' hpos => hstands'.pos_inj h.placed hstands hpos) ?_
  · exact congrArg SkillStatusData.pos (Option.some.inj (hstands'.1.symm.trans hstands.1))
  · have hfits := h.coherent id
    rw [look, hstands.1] at hfits
    rw [touched_eq book]
    exact hfits.write _

theorem Sound.rewriteSkill (h : book.Sound) (id : SkillId) (f : UInt32 → Option UInt32) :
    (book.rewriteSkill id f).Sound := by
  unfold SkillBook.rewriteSkill
  cases hfound : Lib.entryOf id book.skillStatus with
  | none => exact h
  | some status =>
      simp only
      split_ifs with hdeleted
      · exact h
      · cases f (book.skillValue status.pos) with
        | none => exact h
        | some data =>
            have hstands : book.Stands id status := ⟨hfound, hdeleted⟩
            have hwrite := h.write hstands data (h.placed.named id status hstands)
            rw [SkillBook.place, Function.update_eq_self] at hwrite
            exact hwrite

/-- Rewriting skills one after the other, some of them not. -/
theorem Sound.rewriteSkills (h : book.Sound) (skip : SkillId → Prop) [DecidablePred skip]
    (f : SkillId → UInt32 → Option UInt32) (ids : List SkillId) :
    (ids.foldl (fun book id => if skip id then book else book.rewriteSkill id (f id)) book).Sound := by
  induction ids generalizing book with
  | nil => exact h
  | cons id rest ih =>
      refine ih ?_
      show (if skip id then book else book.rewriteSkill id (f id)).Sound
      split_ifs
      · exact h
      · exact h.rewriteSkill id (f id)

/-- A deleted note only says that there is a row. -/
theorem fits_deleted {c c' : Cached (UInt16 × UInt16)} {row : Option (UInt16 × UInt16)} (h : Fits (some c) row)
    (hnew : c.state ≠ .new) (hdeleted : c'.state = .deleted) : Fits (some c') row :=
  fits_of_value (c := { c with state := .deleted }) hdeleted (fun hstate => absurd rfl hstate) (h.remove hnew)

/-- A skill that stands is taken from its position. -/
theorem Sound.clear (h : book.Sound) (hstands : book.Stands id status)
    {skillStatus : List (SkillId × SkillStatusData)} (hsorted : Lib.KeysSorted skillStatus)
    {left : Option SkillStatusData}
    (hentry : ∀ id', Lib.entryOf id' skillStatus = if id' = id then left else Lib.entryOf id' book.skillStatus)
    (hleft : ∀ status', left = some status' → status'.uState = .deleted)
    (hfits : ∀ c : SkillStatusData → Cached (UInt16 × UInt16), (∀ status', (c status').state = status'.uState) →
      Fits (left.map c) (book.characterSkills id)) :
    Sound { book with
      skillIndex := Function.update book.skillIndex status.pos 0
      skillValue := Function.update book.skillValue status.pos 0
      skillStatus := skillStatus } := by
  have hstill : ∀ {id' status'}, Lib.entryOf id' skillStatus = some status' → status'.uState ≠ .deleted →
      book.Stands id' status' ∧ status'.pos ≠ status.pos := by
    intro id' status' hfound hstate
    rw [hentry] at hfound
    split_ifs at hfound with heq
    · exact absurd (hleft _ hfound) hstate
    · exact ⟨⟨hfound, hstate⟩, fun hpos => heq (Stands.pos_inj h.placed ⟨hfound, hstate⟩ hstands hpos)⟩
  refine ⟨⟨hsorted, ?_, ?_, ?_⟩, ?_⟩
  · rw [hentry, if_neg (hstands.ne_zero h.placed).symm]
    exact h.placed.nonzero
  · rintro id' status' ⟨hfound, hstate⟩
    obtain ⟨hstands', hpos⟩ := hstill hfound hstate
    show (pair32LoPart (Function.update book.skillIndex status.pos 0 status'.pos)).toNat = id'.val
    rw [Function.update_of_ne hpos]
    exact h.placed.named id' status' hstands'
  · intro j hj
    by_cases hji : j = status.pos
    · have hzero : Function.update book.skillIndex status.pos 0 j = 0 := by rw [hji, Function.update_self]
      exact absurd hzero hj
    · have hold : book.skillIndex j ≠ 0 := by
        rw [← Function.update_of_ne hji 0 book.skillIndex]
        exact hj
      obtain ⟨id', status', hstands', hpos⟩ := h.placed.used j hold
      have hne : id' ≠ id := by
        rintro rfl
        have hsame := Option.some.inj (hstands'.1.symm.trans hstands.1)
        exact hji (hpos.symm.trans (congrArg SkillStatusData.pos hsame))
      exact ⟨id', status', ⟨by rw [hentry, if_neg hne]; exact hstands'.1, hstands'.2⟩, hpos⟩
  · intro id'
    have hold := h.coherent id'
    rw [look] at hold
    rw [look, hentry]
    split_ifs with heq
    · rw [heq]
      exact hfits _ fun _ => rfl
    · cases hfound : Lib.entryOf id' book.skillStatus with
      | none =>
          rw [hfound] at hold
          exact hold
      | some status' =>
          rw [hfound] at hold
          refine fits_of_value (c := book.cached status') rfl (fun hstate => ?_) hold
          have hfound' : Lib.entryOf id' skillStatus = some status' := by
            rw [hentry, if_neg heq]
            exact hfound
          have hpos := (hstill hfound' hstate).2
          show (pair32LoPart (Function.update book.skillValue status.pos 0 status'.pos),
            pair32HiPart (Function.update book.skillValue status.pos 0 status'.pos)) = _
          rw [Function.update_of_ne hpos]
          rfl

theorem freePos_spec {i : SkillPos} (h : book.freePos = some i) : book.skillIndex i = 0 := by
  simpa using List.find?_some h

theorem Sound.setSkill (h : book.Sound) (lines : SkillLines) (id : SkillId) (currVal maxVal step : UInt16) :
    (book.setSkill lines id currVal maxVal step).Sound := by
  unfold SkillBook.setSkill
  by_cases hid : id = 0
  · rw [if_pos hid]
    exact h
  rw [if_neg hid]
  simp only
  have hfits := h.coherent id
  rw [look] at hfits
  cases hstands : (Lib.entryOf id book.skillStatus).filter fun status => status.uState ≠ .deleted with
  | some status =>
      obtain ⟨hfound, hlive⟩ := Option.filter_eq_some_iff.mp hstands
      have hstands : book.Stands id status := ⟨hfound, by simpa using hlive⟩
      rw [hfound] at hfits
      simp only
      split_ifs with hvalue hstep hnew
      · exact h.write hstands _ (word_loPart id _)
      · have hwrite := h.write hstands (makePair32 currVal.toUInt32 maxVal.toUInt32)
          (h.placed.named id status hstands)
        rw [SkillBook.place, Function.update_eq_self] at hwrite
        exact hwrite
      · exact h.clear hstands h.placed.sorted.setEntry Lib.entryOf_setEntry
          (fun status' hleft => (Option.some.inj hleft) ▸ rfl) fun c hc => fits_deleted hfits hnew (hc _)
      · have herased : ∀ id', Lib.entryOf id' (Lib.eraseEntry id book.skillStatus) =
            if id' = id then none else Lib.entryOf id' book.skillStatus := Lib.entryOf_eraseEntry
        have hgone : ∀ status' : SkillStatusData, none = some status' → status'.uState = .deleted := by
          intro status' hleft
          cases hleft
        exact h.clear hstands (h.placed.sorted.eraseEntry id) herased hgone
          fun c hc => hfits.of_new (not_not.mp hnew)
  | none =>
      -- what is found, if anything, is deleted and has a row
      have hnone : ∀ status, ¬ book.Stands id status := by
        rintro status ⟨hfound, hlive⟩
        rw [hfound] at hstands
        simp [hlive] at hstands
      simp only
      by_cases hvalue : currVal ≠ 0
      · rw [if_pos hvalue]
        cases hpos : book.freePos with
        | none => exact h
        | some i =>
            simp only
            by_cases hline : lines.skillLine id = false
            · rw [if_pos hline]
              exact h
            · rw [if_neg hline]
              refine h.place hid (by split_ifs <;> decide) (word_loPart id _)
                (fun status hstands => absurd hstands (hnone status)) (fun id' status hstands hi => ?_) ?_
              · exact absurd (hi ▸ freePos_spec hpos) (hstands.index_ne_zero h.placed)
              · cases hfound : Lib.entryOf id book.skillStatus with
                | none =>
                    rw [hfound] at hfits
                    exact hfits
                | some status =>
                    rw [hfound] at hfits hstands
                    have hdeleted : status.uState = .deleted := by simpa using hstands
                    have hdeleted : (book.cached status).state = .deleted := hdeleted
                    have hwrite := hfits.write (pair32LoPart (makePair32 currVal.toUInt32 maxVal.toUInt32),
                      pair32HiPart (makePair32 currVal.toUInt32 maxVal.toUInt32))
                    rw [Option.map_some, Lib.noted, hdeleted] at hwrite
                    exact hwrite
      · rw [if_neg hvalue]
        exact h

section Save

/-- The skills as the table would have them. -/
def entries (book : SkillBook) : List (SkillId × Cached (UInt16 × UInt16)) :=
  book.skillStatus.map fun entry => (entry.1, book.cached entry.2)

theorem look_eq (book : SkillBook) : book.look = fun id => Lib.entryOf id book.entries :=
  funext fun _ => (Lib.entryOf_map _).symm

theorem Placed.nodup (h : book.Placed) : (book.entries.map Prod.fst).Nodup := by
  rw [entries, Lib.keys_map]
  exact h.sorted.nodup

theorem saveStatements_eq (book : SkillBook) : book.saveStatements = Lib.statements book.entries := by
  rw [saveStatements, Lib.statements, entries, List.flatMap_map, List.filterMap_eq_flatMap_toList]
  refine List.flatMap_congr fun entry _ => ?_
  obtain ⟨skill, pos, uState⟩ := entry
  cases uState <;> rfl

theorem entries_saveSkills (book : SkillBook) : book.saveSkills.entries = Lib.flushed book.entries := by
  unfold saveSkills entries Lib.flushed
  rw [List.map_map, List.filter_map, List.map_map]
  rfl

/-- Saving leaves in the table what the skills mean. -/
theorem Sound.characterSkills_saveSkills (h : book.Sound) :
    book.saveSkills.characterSkills = Lib.live book.look := by
  rw [look_eq, ← Lib.flush_live h.placed.nodup (look_eq book ▸ h.coherent), ← saveStatements_eq]
  rfl

/-- After saving the same skills stand at the same positions. -/
theorem Placed.stands_saveSkills (h : book.Placed) {status' : SkillStatusData} :
    book.saveSkills.Stands id status' ↔
      ∃ status, book.Stands id status ∧ status' = { status with uState := .unchanged } := by
  have hentry := Lib.entryOf_filter_map h.sorted.nodup (fun status => decide (status.uState ≠ .deleted))
    (fun status => ({ status with uState := .unchanged } : SkillStatusData)) id
  have hsaved : Lib.entryOf id book.saveSkills.skillStatus = _ := hentry
  unfold Stands
  rw [hsaved]
  cases Lib.entryOf id book.skillStatus with
  | none =>
      constructor
      · rintro ⟨hfound, -⟩
        cases hfound
      · rintro ⟨status, ⟨hfound, -⟩, -⟩
        cases hfound
  | some status =>
      simp only [Option.bind_some, decide_eq_true_iff]
      constructor
      · rintro ⟨hfound, -⟩
        split_ifs at hfound with hlive
        exact ⟨status, ⟨rfl, hlive⟩, (Option.some.inj hfound).symm⟩
      · rintro ⟨status, ⟨hfound, hlive⟩, rfl⟩
        obtain rfl := Option.some.inj hfound
        rw [if_pos hlive]
        exact ⟨rfl, nofun⟩

theorem Sound.saveSkills (h : book.Sound) : book.saveSkills.Sound := by
  refine ⟨⟨?_, ?_, ?_, ?_⟩, ?_⟩
  · exact List.pairwise_map.mpr (List.Pairwise.filter _ h.placed.sorted)
  · have hentry := Lib.entryOf_filter_map h.placed.sorted.nodup (fun status => decide (status.uState ≠ .deleted))
      (fun status => ({ status with uState := .unchanged } : SkillStatusData)) 0
    rw [h.placed.nonzero] at hentry
    exact hentry
  · rintro id status' hstands
    obtain ⟨status, hstood, rfl⟩ := h.placed.stands_saveSkills.mp hstands
    exact h.placed.named id status hstood
  · intro i hi
    obtain ⟨id, status, hstands, hpos⟩ := h.placed.used i hi
    exact ⟨id, _, h.placed.stands_saveSkills.mpr ⟨status, hstands, rfl⟩, hpos⟩
  · rw [look_eq, entries_saveSkills]
    have hflushed := Lib.Coherent.flushed h.placed.nodup (look_eq book ▸ h.coherent)
    rw [← saveStatements_eq] at hflushed
    exact hflushed

end Save

section Load

variable {lines : SkillLines} {maxForLevel : UInt16}

/-- A row that `_LoadSkills` takes as it is. -/
def Settled (lines : SkillLines) (maxForLevel : UInt16) (row : SkillId × UInt16 × UInt16) : Prop :=
  lines.skillLine row.1 = true ∧ lines.raceClassInfo row.1 = true ∧ row.2.1 ≠ 0 ∧
    fixedRange lines maxForLevel row.1 row.2 = row.2

/-- The rows that are left are loaded to the positions that are left. -/
theorem sound_loadRows (hzero : lines.skillLine 0 = false) {rows : List (SkillId × UInt16 × UInt16)} {count : ℕ}
    (hsettled : ∀ row ∈ rows, Settled lines maxForLevel row) (hnodup : (rows.map Prod.fst).Nodup)
    (hroom : count + rows.length ≤ playerMaxSkills) {book : SkillBook} (hplaced : book.Placed)
    (hfree : ∀ i : SkillPos, count ≤ i.val → book.skillIndex i = 0)
    (hrows : ∀ row ∈ rows, book.characterSkills row.1 = some row.2 ∧ Lib.entryOf row.1 book.skillStatus = none)
    (hfits : ∀ id, id ∉ rows.map Prod.fst → Fits (book.look id) (book.characterSkills id)) :
    (loadRows lines maxForLevel rows count book).1.Sound := by
  induction rows generalizing count book with
  | nil => exact ⟨hplaced, fun id => hfits id List.not_mem_nil⟩
  | cons row rest ih =>
      obtain ⟨skill, value, max⟩ := row
      obtain ⟨hline, hinfo, hvalue, hfixed⟩ := hsettled _ List.mem_cons_self
      obtain ⟨hnot, hrest⟩ := List.nodup_cons.mp hnodup
      obtain ⟨hrow, hfresh⟩ := hrows _ List.mem_cons_self
      have hcount : count < playerMaxSkills := by
        rw [List.length_cons] at hroom
        omega
      have hid : skill ≠ 0 := by
        rintro rfl
        rw [hzero] at hline
        cases hline
      have hnone : ∀ status, ¬ book.Stands skill status := fun status hstands => by
        rw [Stands, hfresh] at hstands
        cases hstands.1
      have hunused : ∀ id' status, book.Stands id' status → status.pos = ⟨count, hcount⟩ → id' = skill :=
        fun id' status hstands hpos =>
          absurd (hpos ▸ hfree ⟨count, hcount⟩ (Nat.le_refl _)) (hstands.index_ne_zero hplaced)
      have hindex : (pair32LoPart skill.word).toNat = skill.val := by
        have hlt := skill.isLt
        rw [toNat_pair32LoPart, SkillId.word, UInt32.toNat_ofNat']
        omega
      unfold loadRows
      rw [if_neg (by rw [hline, hinfo]; exact fun h => h.elim nofun nofun)]
      simp only [hfixed]
      rw [if_neg hvalue, dif_pos hcount]
      -- the row stands at the first position that is left
      have hloaded : (book.place skill ⟨count, hcount⟩ skill.word (makePair32 value.toUInt32 max.toUInt32)
          .unchanged).Placed :=
        hplaced.place hid nofun hindex (fun status hstands => absurd hstands (hnone status)) hunused
      have hfits' : ∀ id, id ∉ rest.map Prod.fst →
          Fits ((book.place skill ⟨count, hcount⟩ skill.word (makePair32 value.toUInt32 max.toUInt32)
            .unchanged).look id) (book.characterSkills id) := by
        intro id hid'
        by_cases hsame : id = skill
        · have hparts := parts_makePair32 value max
          rw [hsame, look_place, hparts.1, hparts.2]
          exact hrow
        · refine fits_place hunused hsame (hfits id fun hmem => ?_)
          exact (List.mem_cons.mp hmem).elim hsame hid'
      cases rest with
      | nil =>
          have hdone : (book.place skill ⟨count, hcount⟩ skill.word
              (makePair32 value.toUInt32 max.toUInt32) .unchanged).Sound :=
            ⟨hloaded, fun id => hfits' id List.not_mem_nil⟩
          split_ifs
          · exact hdone
          · exact hdone
      | cons next rest =>
          rw [List.length_cons, List.length_cons] at hroom
          rw [if_pos (by omega)]
          refine ih (fun row hmem => hsettled row (List.mem_cons_of_mem _ hmem)) hrest
            (by rw [List.length_cons]; omega) hloaded (fun i hi => ?_) (fun row hmem => ?_) hfits'
          · have hne : i ≠ ⟨count, hcount⟩ := fun heq => by
              rw [heq] at hi
              exact absurd hi (Nat.not_succ_le_self _)
            exact (Function.update_of_ne hne _ _).trans (hfree i (by omega))
          · obtain ⟨hlater, hlaterFresh⟩ := hrows row (List.mem_cons_of_mem _ hmem)
            have hne : row.1 ≠ skill := fun heq => hnot (List.mem_map.mpr ⟨row, hmem, heq⟩)
            exact ⟨hlater, (entryOf_place row.1).trans ((if_neg hne).trans hlaterFresh)⟩

/-- Every skill, deleted or not, has a position before `count`. -/
def Within (count : ℕ) (book : SkillBook) : Prop :=
  ∀ id status, Lib.entryOf id book.skillStatus = some status → status.pos.val < count

theorem Within.setEntry {count : ℕ} (h : Within count book) {id : SkillId} {status : SkillStatusData}
    (hpos : status.pos.val < count) {index value : SkillPos → UInt32} {table : SkillId → Option (UInt16 × UInt16)} :
    Within count ⟨Lib.setEntry id status book.skillStatus, index, value, table⟩ := by
  intro id' status' hfound
  have hfound : Lib.entryOf id' (Lib.setEntry id status book.skillStatus) = some status' := hfound
  rw [Lib.entryOf_setEntry] at hfound
  split_ifs at hfound with hsame
  · obtain rfl := Option.some.inj hfound
    exact hpos
  · exact h id' status' hfound

/-- Each row is loaded to the next position. -/
theorem within_loadRows {rows : List (SkillId × UInt16 × UInt16)} {count : ℕ} {book : SkillBook}
    (h : Within count book) :
    Within (loadRows lines maxForLevel rows count book).2 (loadRows lines maxForLevel rows count book).1 := by
  induction rows generalizing count book with
  | nil => exact h
  | cons row rest ih =>
      obtain ⟨skill, row⟩ := row
      have hlonger : Within (count + 1) book :=
        fun id status hfound => Nat.lt_succ_of_lt (h id status hfound)
      unfold loadRows
      by_cases hnone : lines.skillLine skill = false ∨ lines.raceClassInfo skill = false
      · rw [if_pos hnone]
        exact ih h
      · rw [if_neg hnone]
        obtain ⟨value, max⟩ := fixedRange lines maxForLevel skill row
        simp only
        by_cases hvalue : value = 0
        · rw [if_pos hvalue]
          exact ih h
        rw [if_neg hvalue]
        by_cases hcount : count < playerMaxSkills
        · rw [dif_pos hcount]
          by_cases hroom : count + 1 < playerMaxSkills
          · rw [if_pos hroom]
            exact ih (hlonger.setEntry (Nat.lt_succ_self count))
          · rw [if_neg hroom]
            exact hlonger.setEntry (Nat.lt_succ_self count)
        · rw [dif_neg hcount]
          exact h

/-- A skill that is there is set at its own position. -/
theorem Within.train {count : ℕ} (h : Within count book) (t : Training)
    (hthere : t.currVal ≠ 0 → ∃ status, book.Stands t.id status) : Within count (book.train lines t) := by
  unfold SkillBook.train setSkill
  by_cases hid : t.id = 0
  · rw [if_pos hid]
    exact h
  rw [if_neg hid]
  simp only
  cases hstands : (Lib.entryOf t.id book.skillStatus).filter fun status => status.uState ≠ .deleted with
  | some status =>
      have hpos : ∀ uState, (⟨status.pos, uState⟩ : SkillStatusData).pos.val < count :=
        fun _ => h t.id status (Option.filter_eq_some_iff.mp hstands).1
      simp only
      split_ifs
      · exact h.setEntry (hpos _)
      · exact h.setEntry (hpos _)
      · exact h.setEntry (hpos _)
      · intro id' status' hfound
        have hfound : Lib.entryOf id' (Lib.eraseEntry t.id book.skillStatus) = some status' := hfound
        rw [Lib.entryOf_eraseEntry] at hfound
        split_ifs at hfound
        exact h id' status' hfound
  | none =>
      have hzero : t.currVal = 0 := by
        by_contra hvalue
        obtain ⟨status, hfound, hlive⟩ := hthere hvalue
        rw [hfound] at hstands
        simp [hlive] at hstands
      simp only
      rw [if_neg (not_not.mpr hzero)]
      exact h

/-- Nothing is lost with the positions that no skill has. -/
theorem Sound.clearFrom (h : book.Sound) {count : ℕ} (hwithin : Within count book) :
    (book.clearFrom count).Sound := by
  have hkept : ∀ {id status}, Lib.entryOf id book.skillStatus = some status → ¬count ≤ status.pos.val :=
    fun hfound => Nat.not_le.mpr (hwithin _ _ hfound)
  refine ⟨⟨h.placed.sorted, h.placed.nonzero, fun id status hstands => ?_, fun i hi => ?_⟩, fun id => ?_⟩
  · have hindex : (book.clearFrom count).skillIndex status.pos = book.skillIndex status.pos :=
      if_neg (hkept hstands.1)
    rw [hindex]
    exact h.placed.named id status hstands
  · have hindex : (if count ≤ i.val then 0 else book.skillIndex i) ≠ 0 := hi
    split_ifs at hindex
    · exact absurd rfl hindex
    · exact h.placed.used i hindex
  · have hlook : (book.clearFrom count).look id = book.look id := by
      unfold look
      show (Lib.entryOf id book.skillStatus).map _ = _
      cases hfound : Lib.entryOf id book.skillStatus with
      | none => rfl
      | some status =>
          have hvalue : (book.clearFrom count).skillValue status.pos = book.skillValue status.pos :=
            if_neg (hkept hfound)
          rw [Option.map_some, Option.map_some, cached, cached, hvalue]
    rw [hlook]
    exact h.coherent id

/-- The rows are in order after they are loaded. -/
theorem sound_loadedRows (hzero : lines.skillLine 0 = false) {rows : List (SkillId × UInt16 × UInt16)}
    (hsettled : ∀ row ∈ rows, Settled lines maxForLevel row) (hnodup : (rows.map Prod.fst).Nodup)
    (hroom : rows.length ≤ playerMaxSkills) : (loadedRows lines maxForLevel rows).1.Sound := by
  refine sound_loadRows hzero hsettled hnodup (by omega) ⟨List.Pairwise.nil, rfl, ?_, ?_⟩ (fun _ _ => rfl)
    (fun row hmem => ⟨?_, rfl⟩) (fun id hid => ?_)
  · rintro id status ⟨hfound, -⟩
    cases hfound
  · intro i hi
    exact absurd rfl hi
  · show Lib.entryOf row.1 rows = some row.2
    rw [Lib.entryOf, Lib.find_key hnodup hmem rfl]
    rfl
  · exact Lib.entryOf_eq_none.mpr hid

/-- While the spells of the loaded skills are learned, no skill is set that the character has not. -/
def Familiar (book : SkillBook) (t : Training) : Prop :=
  t.currVal ≠ 0 → ∃ status, book.Stands t.id status

/-- What is loaded from settled rows is in order, whatever the spells set of the skills that are there. -/
theorem sound_loadSkills (hzero : lines.skillLine 0 = false) {rows : List (SkillId × UInt16 × UInt16)}
    (hsettled : ∀ row ∈ rows, Settled lines maxForLevel row) (hnodup : (rows.map Prod.fst).Nodup)
    (hroom : rows.length ≤ playerMaxSkills) {trained : List Training}
    (hfamiliar : Lib.Along Familiar (train lines) (loadedRows lines maxForLevel rows).1 trained) :
    (loadSkills lines maxForLevel rows trained).Sound := by
  have hempty : ∀ table, Within 0 ⟨[], fun _ => 0, fun _ => 0, table⟩ := by
    intro table id status hfound
    cases hfound
  have hstart : (loadedRows lines maxForLevel rows).1.Sound ∧
      Within (loadedRows lines maxForLevel rows).2 (loadedRows lines maxForLevel rows).1 :=
    ⟨sound_loadedRows hzero hsettled hnodup hroom, within_loadRows (hempty _)⟩
  have htrained := Lib.run_invariant
    (fun book => book.Sound ∧ Within (loadedRows lines maxForLevel rows).2 book)
    (fun book t hthere h => ⟨h.1.setSkill lines t.id t.currVal t.maxVal t.step, h.2.train t hthere⟩)
    hstart hfamiliar
  exact htrained.1.clearFrom htrained.2

end Load

end SkillBook

/-- What happens to the skills of a character. -/
inductive SkillCall where
  | setSkill (id : SkillId) (currVal maxVal step : UInt16)
  | updateSkill (id : SkillId) (step : UInt32)
  | updateSkillPro (id : SkillId) (chance roll : ℤ) (step : UInt32)
  | updateSkillsForLevel (alwaysMaxSkill : Bool) (maxSkill maxconfskill : UInt32)
  | updateSkillsToMaxSkillsForLevel
  | saveSkills

namespace SkillBook

variable {book : SkillBook}

/-- One call. -/
def call (lines : SkillLines) (book : SkillBook) : SkillCall → SkillBook
  | .setSkill id currVal maxVal step => book.setSkill lines id currVal maxVal step
  | .updateSkill id step => book.updateSkill id step
  | .updateSkillPro id chance roll step => book.updateSkillPro id chance roll step
  | .updateSkillsForLevel alwaysMaxSkill maxSkill maxconfskill =>
      book.updateSkillsForLevel lines alwaysMaxSkill maxSkill maxconfskill
  | .updateSkillsToMaxSkillsForLevel => book.updateSkillsToMaxSkillsForLevel lines
  | .saveSkills => book.saveSkills

theorem Sound.call (h : book.Sound) (lines : SkillLines) (call : SkillCall) : (book.call lines call).Sound := by
  cases call with
  | setSkill id currVal maxVal step => exact h.setSkill lines id currVal maxVal step
  | updateSkill id step =>
      show (if id = 0 then book else book.rewriteSkill id (gain step)).Sound
      split_ifs
      · exact h
      · exact h.rewriteSkill id _
  | updateSkillPro id chance roll step =>
      show SkillBook.Sound (book.updateSkillPro id chance roll step)
      unfold updateSkillPro
      split_ifs
      · exact h
      · exact h
      · exact h.rewriteSkill id _
      · exact h
  | updateSkillsForLevel alwaysMaxSkill maxSkill maxconfskill => exact h.rewriteSkills _ _ _
  | updateSkillsToMaxSkillsForLevel => exact h.rewriteSkills _ _ _
  | saveSkills => exact h.saveSkills

/-- Over every run of calls from the login of a character, in which no spell that is learned while his skills
are loaded sets a skill that he has not: the positions in use are those of the skills that
stand, one for each and named by it; and a save finds the row of each statement as its note says, and leaves
in `character_skills` the value and the maximum of each skill that stands, and nothing else. -/
theorem run_skills (lines : SkillLines) (maxForLevel : UInt16) (hzero : lines.skillLine 0 = false)
    {rows : List (SkillId × UInt16 × UInt16)} (hsettled : ∀ row ∈ rows, Settled lines maxForLevel row)
    (hnodup : (rows.map Prod.fst).Nodup) (hroom : rows.length ≤ playerMaxSkills) {trained : List Training}
    (hfamiliar : Lib.Along Familiar (train lines) (loadedRows lines maxForLevel rows).1 trained)
    (calls : List SkillCall) :
    let book := Lib.run (call lines) (loadSkills lines maxForLevel rows trained) calls
    (∀ i, book.skillIndex i ≠ 0 ↔ ∃ id status, book.Stands id status ∧ status.pos = i) ∧
      (∀ id status, book.Stands id status → (pair32LoPart (book.skillIndex status.pos)).toNat = id.val) ∧
      Lib.Along (fun table s => s.Takes table) Lib.Statement.exec book.characterSkills book.saveStatements ∧
      ∀ id value max, book.saveSkills.characterSkills id = some (value, max) ↔
        ∃ status, book.Stands id status ∧ pair32LoPart (book.skillValue status.pos) = value ∧
          pair32HiPart (book.skillValue status.pos) = max := by
  intro book
  have hstep : ∀ (book : SkillBook) (call : SkillCall), True → book.Sound → (book.call lines call).Sound :=
    fun _ call _ h => h.call lines call
  have hsound : book.Sound := Lib.run_invariant Sound hstep (sound_loadSkills hzero hsettled hnodup hroom hfamiliar)
    (Lib.along_of_forall (fun _ _ => trivial) _ _)
  refine ⟨fun i => ⟨hsound.placed.used i, ?_⟩, hsound.placed.named, ?_, fun id value max => ?_⟩
  · rintro ⟨id, status, hstands, rfl⟩
    exact hstands.index_ne_zero hsound.placed
  · rw [saveStatements_eq]
    exact Lib.statements_take hsound.placed.nodup
      ((look_eq book ▸ hsound.coherent).fits hsound.placed.nodup)
  · rw [hsound.characterSkills_saveSkills, Lib.live, look]
    cases hfound : Lib.entryOf id book.skillStatus with
    | none =>
        constructor
        · intro hrow
          cases hrow
        · rintro ⟨status, ⟨hstatus, -⟩, -⟩
          rw [hfound] at hstatus
          cases hstatus
    | some status =>
        show (if status.uState = .deleted then none
          else some (pair32LoPart (book.skillValue status.pos), pair32HiPart (book.skillValue status.pos))) =
            some (value, max) ↔ _
        constructor
        · intro hrow
          split_ifs at hrow with hdeleted
          obtain ⟨hvalue, hmax⟩ := Prod.mk.inj (Option.some.inj hrow)
          exact ⟨status, ⟨hfound, hdeleted⟩, hvalue, hmax⟩
        · rintro ⟨status', ⟨hstatus, hlive⟩, rfl, rfl⟩
          obtain rfl := Option.some.inj (hfound.symm.trans hstatus)
          rw [if_neg hlive]

/-- A spell raises swords at the login; then swords are trained, mining is learned and swords are forgotten.
Mining stands at the second position, and saving leaves its row. -/
theorem run_skills_swords :
    let lines : SkillLines :=
      ⟨fun id => id = 43 ∨ id = 186, fun _ => true, fun _ => false, fun _ => .other, fun id => id = 186⟩
    let book := Lib.run (call lines) (loadSkills lines 5 [(43, 1, 5)] [⟨43, 2, 5, 0⟩])
      [.updateSkill 43 1, .setSkill 186 1 75 1, .setSkill 43 0 0 0]
    (∃ id status, book.Stands id status ∧ status.pos = ⟨1, by decide⟩) ∧
      (pair32LoPart (book.skillIndex ⟨1, by decide⟩)).toNat = 186 ∧
      Lib.Along (fun table s => s.Takes table) Lib.Statement.exec book.characterSkills book.saveStatements ∧
      book.saveSkills.characterSkills 186 = some (1, 75) := by
  intro lines book
  have hsettled : ∀ row ∈ [((43 : SkillId), (1 : UInt16), (5 : UInt16))], Settled lines 5 row := by
    intro row hrow
    obtain rfl := List.mem_singleton.mp hrow
    exact ⟨rfl, rfl, by decide, rfl⟩
  have hfamiliar : Lib.Along Familiar (train lines) (loadedRows lines 5 [(43, 1, 5)]).1
      [⟨43, 2, 5, 0⟩] := ⟨fun _ => ⟨⟨⟨0, by decide⟩, .unchanged⟩, rfl, by decide⟩, trivial⟩
  obtain ⟨hused, hnamed, htakes, hsaved⟩ := run_skills lines 5 (by decide) hsettled (by decide) (by decide)
    hfamiliar [.updateSkill 43 1, .setSkill 186 1 75 1, .setSkill 43 0 0 0]
  let mining : SkillStatusData := ⟨⟨1, by decide⟩, .new⟩
  have hmining : book.Stands 186 mining := ⟨by decide +kernel, by decide⟩
  refine ⟨(hused _).mp (by decide +kernel), hnamed 186 mining hmining, htakes, ?_⟩
  exact (hsaved 186 1 75).mpr ⟨mining, hmining, by decide +kernel, by decide +kernel⟩

end SkillBook

end TwowCore
