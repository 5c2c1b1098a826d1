import TwowCore.RealmMerge.Keys

/-!
# The statements of a merge

A family of keys is renamed in the rows of DB-2 by `UPDATE` statements, each on a column of a table.
The fast method runs every one of them once; the slow one runs all of them for each key that is taken.
Whatever their order, what they do to a cell is said by the statement on its column. A statement on a
column that its table lacks ends the tool, and what was updated before it stays.
-/

namespace TwowCore.RealmMerge

/-- A row of a table of DB-2, with the columns that hold numbers. -/
structure Row where
  table : String
  cells : List (String × ℕ)
  deriving DecidableEq, Repr

/-- What the statements of a family read of the two databases. -/
structure Merge where
  existingKeys1 : List ℕ
  existingKeys2 : List ℕ
  /-- `g_db2BrainRealmId`, when there is a `bot_identity` to update. -/
  brainRealm : Option ℕ
  deriving DecidableEq, Repr

/-- The `WHERE` of a statement. -/
inductive Condition where
  | all
  | nonzero
  | upToMax
  | isZero (column : String)
  | ofRealm
  deriving DecidableEq, Repr

/-- A column of a table that is set where a condition holds. -/
structure Target where
  table : String
  column : String
  condition : Condition
  deriving DecidableEq, Repr

namespace Row

/-- A column of a row. -/
def value (row : Row) (column : String) : Option ℕ :=
  (row.cells.find? fun cell => cell.1 = column).map Prod.snd

/-- A new number in each cell. -/
def rewrite (row : Row) (new : String → ℕ → ℕ) : Row :=
  { row with cells := row.cells.map fun cell => (cell.1, new cell.1 cell.2) }

end Row

/-- The condition holds of a cell with this number. -/
def Condition.meets (m : Merge) (row : Row) (number : ℕ) : Condition → Bool
  | .all => true
  | .nonzero => number != 0
  | .upToMax => decide (number ≤ maxKey m.existingKeys2)
  | .isZero column => row.value column == some 0
  | .ofRealm => m.brainRealm.isSome && row.value "realm" == m.brainRealm

/-- The other column a condition reads. -/
def Condition.reads : Condition → Option String
  | .isZero column => some column
  | .ofRealm => some "realm"
  | .all | .nonzero | .upToMax => none

/-- The condition is one on the row alone. -/
def Condition.OfRow : Condition → Prop
  | .all | .isZero _ | .ofRealm => True
  | .nonzero | .upToMax => False

instance : DecidablePred Condition.OfRow
  | .all | .isZero _ | .ofRealm => isTrue trivial
  | .nonzero | .upToMax => isFalse id

namespace Target

/-- The table and the column. -/
def place (t : Target) : String × String := (t.table, t.column)

/-- The table has the column. Of all that the statements name only one is not in the schema. -/
def inSchema (t : Target) : Bool := t.place != ("guild_house", "guildid")

/-- The cell is one of the column where the condition holds. -/
def hits (t : Target) (m : Merge) (row : Row) (column : String) (number : ℕ) : Bool :=
  decide ((row.table, column) = t.place) && t.condition.meets m row number

/-- `UPDATE table SET column = new WHERE condition`, and in the slow method also `column = old`. -/
def update (t : Target) (m : Merge) (also : ℕ → Bool) (set : ℕ → ℕ) (row : Row) : Row :=
  row.rewrite fun column number =>
    if t.hits m row column number && also number then set number else number

/-- `PExecute` of the statement: on `ER_BAD_FIELD_ERROR` the `ASSERT` of `HandleMySQLError` ends the tool,
with the rows as they are. -/
def execute (t : Target) (m : Merge) (also : ℕ → Bool) (set : ℕ → ℕ) (rows : List Row) :
    Except (List Row) (List Row) :=
  if t.inSchema then .ok (rows.map (t.update m also set)) else .error rows

end Target

/-- One statement after the other, up to one that ends the tool. -/
def runStatements (targets : List Target) (m : Merge) (also : ℕ → Bool) (set : ℕ → ℕ)
    (rows : List Row) : Except (List Row) (List Row) :=
  targets.foldlM (fun rows target => target.execute m also set rows) rows

/-- The fast method: `SET column = (column + max)`. -/
def fastStatements (targets : List Target) (m : Merge) (rows : List Row) :
    Except (List Row) (List Row) :=
  runStatements targets m (fun _ => true)
    (· + fastOffset m.existingKeys1 m.existingKeys2) rows

/-- The slow method: for each key that is taken, `SET column = new WHERE column = old`. -/
def slowStatements (targets : List Target) (m : Merge) (rows : List Row) :
    Except (List Row) (List Row) :=
  (slowMethod m.existingKeys1 m.existingKeys2).foldlM
    (fun rows rename => runStatements targets m (· = rename.1) (fun _ => rename.2) rows) rows

/-- No two statements set the same column, and no condition reads a column that is set. -/
structure Separate (targets conditions : List Target) : Prop where
  once : (targets.map Target.place).Nodup
  unread : ∀ t ∈ targets, ∀ c ∈ conditions, c.condition.reads ≠ some t.column

section Rewrite

variable {m : Merge} {row : Row} {new new' : String → ℕ → ℕ}

@[simp] theorem rewrite_table : (row.rewrite new).table = row.table := rfl

theorem rewrite_rewrite : (row.rewrite new).rewrite new' =
    row.rewrite fun column number => new' column (new column number) := by
  simp [Row.rewrite, Function.comp_def]

theorem rewrite_id : (row.rewrite fun _ number => number) = row := by
  simp [Row.rewrite]

/-- Two ways to rewrite a row agree when they agree on its cells. -/
theorem rewrite_eq_iff : row.rewrite new = row.rewrite new' ↔
    ∀ cell ∈ row.cells, new cell.1 cell.2 = new' cell.1 cell.2 := by
  simp [Row.rewrite]

/-- A column that is not rewritten. -/
theorem value_rewrite {column : String} (h : ∀ number, new column number = number) :
    (row.rewrite new).value column = row.value column := by
  unfold Row.value Row.rewrite
  induction row.cells with
  | nil => rfl
  | cons cell rest ih =>
      rw [List.map_cons, List.find?_cons, List.find?_cons]
      by_cases heq : cell.1 = column
      · simp only [heq, decide_true, Option.map_some, h]
      · simp only [heq, decide_false]
        exact ih

/-- A condition holds of a rewritten row as of the row, when what it reads is not rewritten. -/
theorem meets_rewrite {c : Condition} {number : ℕ}
    (h : ∀ column, c.reads = some column → ∀ number, new column number = number) :
    c.meets m (row.rewrite new) number = c.meets m row number := by
  cases c with
  | all => rfl
  | nonzero => rfl
  | upToMax => rfl
  | isZero column =>
      show ((row.rewrite new).value column == some 0) = (row.value column == some 0)
      rw [value_rewrite (h column rfl)]
  | ofRealm =>
      show (m.brainRealm.isSome && (row.rewrite new).value "realm" == m.brainRealm) =
        (m.brainRealm.isSome && row.value "realm" == m.brainRealm)
      rw [value_rewrite (h "realm" rfl)]

/-- A condition on the row alone says the same of every number. -/
theorem Condition.OfRow.meets_eq {c : Condition} (h : c.OfRow) (number number' : ℕ) :
    c.meets m row number = c.meets m row number' := by
  cases c with
  | all => rfl
  | isZero column => rfl
  | ofRealm => rfl
  | nonzero => exact h.elim
  | upToMax => exact h.elim

/-- The same cells are hit in a rewritten row. -/
theorem any_hits_rewrite {conditions : List Target} (column : String) (number : ℕ)
    (h : ∀ c ∈ conditions, ∀ read, c.condition.reads = some read →
      ∀ number, new read number = number) :
    (conditions.any fun c => c.hits m (row.rewrite new) column number) =
      conditions.any fun c => c.hits m row column number := by
  have hmeets : ∀ c ∈ conditions,
      c.hits m (row.rewrite new) column number = c.hits m row column number := by
    intro c hc
    unfold Target.hits
    rw [rewrite_table, meets_rewrite (h c hc)]
  rw [Bool.eq_iff_iff, List.any_eq_true, List.any_eq_true]
  refine exists_congr fun c => and_congr_right fun hc => ?_
  rw [hmeets c hc]

end Rewrite

section Run

variable {m : Merge} {targets conditions : List Target} {also : ℕ → Bool} {set : ℕ → ℕ}

/-- What one statement after the other does to a row. -/
def rewritten (targets : List Target) (m : Merge) (also : ℕ → Bool) (set : ℕ → ℕ) (row : Row) :
    Row :=
  row.rewrite fun column number =>
    if (targets.any fun t => t.hits m row column number) && also number then set number else number

/-- A column that no statement sets stays. -/
theorem set_of_unread (hunread : ∀ t ∈ targets, ∀ c ∈ conditions,
    c.condition.reads ≠ some t.column) (row : Row) {c : Target} (hc : c ∈ conditions)
    {read : String} (hread : c.condition.reads = some read) (number : ℕ) :
    (if (targets.any fun t => t.hits m row read number) && also number then set number
      else number) = number := by
  refine if_neg fun hhit => ?_
  obtain ⟨hany, -⟩ := Bool.and_eq_true _ _ ▸ hhit
  obtain ⟨t, ht, hhits⟩ := List.any_eq_true.mp hany
  obtain ⟨hplace, -⟩ := Bool.and_eq_true _ _ ▸ hhits
  have hcolumn : read = t.column := (Prod.mk.inj (of_decide_eq_true hplace)).2
  exact hunread t ht c hc (hcolumn ▸ hread)

/-- A statement on a column that is there does its update, and the others follow. -/
theorem runStatements_cons {t : Target} (hin : t.inSchema) (rows : List Row) :
    runStatements (t :: targets) m also set rows =
      runStatements targets m also set (rows.map (t.update m also set)) := by
  unfold runStatements
  rw [List.foldlM_cons, Target.execute, if_pos hin]
  rfl

/-- A list with a statement on a column that is missing ends the tool. -/
theorem runStatements_ends {t : Target} (ht : t ∈ targets) (hout : t.inSchema = false)
    (rows merged : List Row) : runStatements targets m also set rows ≠ .ok merged := by
  induction targets generalizing rows with
  | nil => exact absurd ht List.not_mem_nil
  | cons u rest ih =>
      by_cases hin : u.inSchema = true
      · rw [runStatements_cons hin]
        refine ih ((List.mem_cons.mp ht).resolve_left ?_) _
        rintro rfl
        rw [hin] at hout
        cases hout
      · unfold runStatements
        rw [List.foldlM_cons, Target.execute, if_neg hin]
        intro hok
        cases hok

/-- All statements of a list, as if at once. -/
theorem runStatements_eq (h : Separate targets targets) (hin : ∀ t ∈ targets, t.inSchema)
    (rows : List Row) :
    runStatements targets m also set rows = .ok (rows.map (rewritten targets m also set)) := by
  have hgo : ∀ (rest : List Target), (∀ t ∈ rest, t.inSchema) → (rest.map Target.place).Nodup →
      (∀ t ∈ rest, ∀ c ∈ rest, c.condition.reads ≠ some t.column) → ∀ rows : List Row,
      runStatements rest m also set rows = .ok (rows.map (rewritten rest m also set)) := by
    intro rest
    induction rest with
    | nil =>
        intro _ _ _ rows
        have hsame : rewritten [] m also set = id := by
          funext row
          exact rewrite_id
        rw [hsame, List.map_id]
        rfl
    | cons t rest ih =>
        intro hin hnodup hunread rows
        obtain ⟨hnot, hrest⟩ := List.nodup_cons.mp (List.map_cons ▸ hnodup)
        have hlater := fun u hu c hc =>
          hunread u (List.mem_cons_of_mem _ hu) c (List.mem_cons_of_mem _ hc)
        rw [runStatements_cons (hin t List.mem_cons_self),
          ih (fun u hu => hin u (List.mem_cons_of_mem _ hu)) hrest hlater, List.map_map]
        refine congrArg Except.ok (List.map_congr_left fun row _ => ?_)
        show rewritten rest m also set (t.update m also set row) = _
        unfold rewritten Target.update
        rw [rewrite_rewrite, rewrite_eq_iff]
        intro cell _
        -- a later statement reads nothing that this one sets
        rw [any_hits_rewrite cell.1 _ fun c hc read hread number => ?_]
        · rw [List.any_cons]
          by_cases hfirst : t.hits m row cell.1 cell.2 = true
          · have hnone : ∀ number,
                (rest.any fun u => u.hits m row cell.1 number) = false := by
              intro number
              refine List.any_eq_false.mpr fun u hu hhits => ?_
              obtain ⟨hplace, -⟩ := Bool.and_eq_true _ _ ▸ hfirst
              obtain ⟨hplace', -⟩ := Bool.and_eq_true _ _ ▸ hhits
              refine hnot (List.mem_map.mpr ⟨u, hu, ?_⟩)
              exact (of_decide_eq_true hplace').symm.trans (of_decide_eq_true hplace)
            rw [hfirst, hnone, Bool.false_and, if_neg Bool.false_ne_true, Bool.true_or]
          · have hno := Bool.eq_false_iff.mpr hfirst
            rw [hno, Bool.false_and, if_neg Bool.false_ne_true, Bool.false_or]
        · have hone : ∀ u ∈ [t], ∀ c ∈ rest, c.condition.reads ≠ some u.column := fun u hu c hc =>
            hunread u (List.mem_singleton.mp hu ▸ List.mem_cons_self) c (List.mem_cons_of_mem _ hc)
          have hstays := @set_of_unread m [t] rest also set hone row c hc read hread number
          simpa using hstays
  exact hgo targets hin h.once h.unread rows

/-- The slow method sets, in the columns of its statements, what all its renames would set at once. -/
theorem slowStatements_eq (h : Separate targets targets)
    (hrow : ∀ t ∈ targets, t.condition.OfRow)
    (hin : (∀ t ∈ targets, t.inSchema) ∨ slowMethod m.existingKeys1 m.existingKeys2 = [])
    (rows : List Row) :
    slowStatements targets m rows =
      .ok (rows.map (rewritten targets m (fun _ => true)
        (runUpdates (slowMethod m.existingKeys1 m.existingKeys2)))) := by
  have hhits : ∀ (row : Row) (column : String) (number number' : ℕ),
      (targets.any fun t => t.hits m row column number) =
        targets.any fun t => t.hits m row column number' := by
    intro row column number number'
    rw [Bool.eq_iff_iff, List.any_eq_true, List.any_eq_true]
    refine exists_congr fun t => and_congr_right fun ht => ?_
    unfold Target.hits
    rw [(hrow t ht).meets_eq number number']
  unfold slowStatements
  generalize slowMethod m.existingKeys1 m.existingKeys2 = renames at hin ⊢
  induction renames generalizing rows with
  | nil =>
      have hsame : rewritten targets m (fun _ => true) (runUpdates []) = id := by
        funext row
        unfold rewritten
        refine Eq.trans (rewrite_eq_iff.mpr fun cell _ => ?_) rewrite_id
        exact ite_self _
      rw [hsame, List.map_id]
      rfl
  | cons rename rest ih =>
      have hin := hin.resolve_right (List.cons_ne_nil _ _)
      rw [List.foldlM_cons, runStatements_eq h hin]
      refine (ih _ (Or.inl hin)).trans ?_
      rw [List.map_map]
      refine congrArg Except.ok (List.map_congr_left fun row _ => ?_)
      show rewritten targets m _ _ (rewritten targets m _ _ row) = _
      unfold rewritten
      rw [rewrite_rewrite, rewrite_eq_iff]
      intro cell _
      have hunread := @set_of_unread m targets targets (fun number => decide (number = rename.1))
        (fun _ => rename.2) h.unread row
      rw [any_hits_rewrite cell.1 _ fun c hc read hread number => hunread hc hread number,
        hhits row cell.1 _ cell.2]
      by_cases hany : (targets.any fun t => t.hits m row cell.1 cell.2) = true
      · rw [hany, Bool.true_and, Bool.true_and, if_pos rfl, if_pos rfl]
        show runUpdates rest _ = runUpdates rest _
        simp only [decide_eq_true_eq]
      · have hno := Bool.eq_false_iff.mpr hany
        simp only [hno, Bool.false_and, Bool.false_eq_true, if_false]

/-- The slow method does not come to its end when a column is missing and a key is taken. -/
theorem slowStatements_ends {t : Target} (ht : t ∈ targets) (hout : t.inSchema = false)
    (hsome : slowMethod m.existingKeys1 m.existingKeys2 ≠ []) (rows merged : List Row) :
    slowStatements targets m rows ≠ .ok merged := by
  unfold slowStatements
  cases hrenames : slowMethod m.existingKeys1 m.existingKeys2 with
  | nil => exact absurd hrenames hsome
  | cons rename rest =>
      rw [List.foldlM_cons]
      cases hrun : runStatements targets m (· = rename.1) (fun _ => rename.2) rows with
      | error rows =>
          intro hok
          cases hok
      | ok rows' => exact absurd hrun (runStatements_ends ht hout rows rows')

end Run

end TwowCore.RealmMerge
