import TwowCore.Lib.Entries
import TwowCore.Lib.Keyed
import TwowCore.Lib.Run

/-!
# Caches that are written behind

A cache keeps the rows of a table in memory, each with a note of what the table does not know yet,
and a later pass writes the notes out as statements. `Fits` says when a note is right about the row
of its key, `Coherent` that all are. What the cache means is the plain map `live`: the rules below
say how it changes with one entry, and `flush_live` that the pass leaves the table equal to it,
`statements_take` that each of its statements finds the table the way its note says.
-/

namespace TwowCore.Lib

/-- What a table does not know yet of an entry. -/
inductive UpdateState where
  | unchanged
  | changed
  | new
  | deleted
  deriving DecidableEq

/-- A value in memory with its note. -/
structure Cached (β : Type*) where
  value : β
  state : UpdateState

/-- A statement on the rows of a table, one row a key. -/
inductive Statement (κ β : Type*) where
  | insert (k : κ) (b : β)
  | update (k : κ) (b : β)
  | delete (k : κ)

variable {κ β : Type*}

/-- The key a statement is about. -/
def Statement.key : Statement κ β → κ
  | insert k _ | update k _ | delete k => k

/-- The statement finds the table as expected: an insertion no row, the others a row. -/
def Statement.Takes (table : κ → Option β) : Statement κ β → Prop
  | insert k _ => table k = none
  | update k _ | delete k => (table k).isSome = true

/-- The value, unless it is deleted. -/
def Cached.live (c : Cached β) : Option β := if c.state = .deleted then none else some c.value

/-- What the cache means. -/
def live (look : κ → Option (Cached β)) (k : κ) : Option β := (look k).bind Cached.live

/-- The note of an entry is right about the row of its key. -/
def Fits (entry : Option (Cached β)) (row : Option β) : Prop :=
  match entry with
  | none => row = none
  | some c =>
    match c.state with
    | .unchanged => row = some c.value
    | .changed | .deleted => row.isSome = true
    | .new => row = none

/-- All the notes are right. -/
def Coherent (look : κ → Option (Cached β)) (table : κ → Option β) : Prop :=
  ∀ k, Fits (look k) (table k)

/-- The note after a value is written: what is new stays new. -/
def noted (entry : Option (Cached β)) : UpdateState :=
  match entry with
  | none => .new
  | some c => if c.state = .new then .new else .changed

/-- Writing a value keeps the note right. -/
theorem Fits.write {entry : Option (Cached β)} {row : Option β} (h : Fits entry row) (b : β) :
    Fits (some ⟨b, noted entry⟩) row := by
  cases entry with
  | none => exact h
  | some c =>
      obtain ⟨value, state⟩ := c
      cases state with
      | unchanged => exact (congrArg Option.isSome h).trans rfl
      | changed | deleted | new => exact h

/-- Deleting what is not new keeps the note right. -/
theorem Fits.remove {c : Cached β} {row : Option β} (h : Fits (some c) row) (hnew : c.state ≠ .new) :
    Fits (some { c with state := .deleted }) row := by
  obtain ⟨value, state⟩ := c
  cases state with
  | unchanged => exact (congrArg Option.isSome h).trans rfl
  | changed | deleted => exact h
  | new => exact absurd rfl hnew

/-- What is new has no row. -/
theorem Fits.of_new {c : Cached β} {row : Option β} (h : Fits (some c) row) (hnew : c.state = .new) :
    Fits (none : Option (Cached β)) row := by
  obtain ⟨value, state⟩ := c
  obtain rfl : state = .new := hnew
  exact h

/-- The statement of an entry, if it needs one. -/
def Cached.statement (k : κ) (c : Cached β) : Option (Statement κ β) :=
  match c.state with
  | .unchanged => none
  | .changed => some (.update k c.value)
  | .new => some (.insert k c.value)
  | .deleted => some (.delete k)

/-- The statements of a pass over the cache. -/
def statements (entries : List (κ × Cached β)) : List (Statement κ β) :=
  entries.flatMap fun entry => (entry.2.statement entry.1).toList

/-- The cache after the pass: what is deleted is gone, nothing is left to write. -/
def flushed (entries : List (κ × Cached β)) : List (κ × Cached β) :=
  (entries.filter fun entry => entry.2.state ≠ .deleted).map fun entry =>
    (entry.1, ⟨entry.2.value, .unchanged⟩)

/-- The statement of an entry is about its key. -/
theorem Cached.key_statement {k : κ} {c : Cached β} {s : Statement κ β} (h : s ∈ c.statement k) : s.key = k := by
  obtain ⟨value, state⟩ := c
  cases state with
  | unchanged => cases h
  | changed | new | deleted =>
      obtain rfl := Option.some.inj h
      rfl

/-- The statement of an entry that fits takes. -/
theorem Cached.takes_statement {k : κ} {c : Cached β} {table : κ → Option β} (h : Fits (some c) (table k))
    {s : Statement κ β} (hs : s ∈ c.statement k) : s.Takes table := by
  obtain ⟨value, state⟩ := c
  cases state with
  | unchanged => cases hs
  | changed | new | deleted =>
      obtain rfl := Option.some.inj hs
      exact h

section Tables

variable [DecidableEq κ]

/-- The table after a statement. An insertion of a key that is taken fails, an update of a row that is not
there does nothing. -/
def Statement.exec (table : κ → Option β) (s : Statement κ β) : κ → Option β :=
  match s with
  | insert k b => if (table k).isSome = true then table else Function.update table k (some b)
  | update k b => if (table k).isSome = true then Function.update table k (some b) else table
  | delete k => Function.update table k none

variable {look : κ → Option (Cached β)} {table : κ → Option β} {k : κ}

/-- A statement leaves the rows of other keys alone. -/
theorem Statement.exec_of_ne {s : Statement κ β} (h : k ≠ s.key) : s.exec table k = table k := by
  cases s with
  | insert k' b =>
      show (if _ then table else Function.update table k' (some b)) k = table k
      split_ifs
      · rfl
      · exact Function.update_of_ne h _ _
  | update k' b =>
      show (if _ then Function.update table k' (some b) else table) k = table k
      split_ifs
      · exact Function.update_of_ne h _ _
      · rfl
  | delete k' => exact Function.update_of_ne h _ _

/-- One entry of a coherent cache may be replaced by one that fits. -/
theorem Coherent.update (h : Coherent look table) {entry : Option (Cached β)} (hfits : Fits entry (table k)) :
    Coherent (Function.update look k entry) table := by
  intro k'
  by_cases hk : k' = k
  · rw [hk, Function.update_self]
    exact hfits
  · rw [Function.update_of_ne hk]
    exact h k'

/-- The statement of an entry leaves the row that the entry means. -/
theorem Cached.exec_statement {c : Cached β} (h : Fits (some c) (table k)) :
    ((c.statement k).toList.foldl Statement.exec table) k = c.live := by
  obtain ⟨value, state⟩ := c
  cases state with
  | unchanged => exact h
  | changed =>
      have hrow : (table k).isSome = true := h
      show (if (table k).isSome = true then Function.update table k (some value) else table) k = some value
      rw [if_pos hrow, Function.update_self]
  | new =>
      have hnone : ¬ (table k).isSome = true := by
        rw [show table k = none from h]
        exact Bool.false_ne_true
      show (if (table k).isSome = true then table else Function.update table k (some value)) k = some value
      rw [if_neg hnone, Function.update_self]
  | deleted => exact Function.update_self _ _ _

/-- The statement of an entry leaves the rows of other keys alone. -/
theorem Cached.exec_statement_of_ne (c : Cached β) {k' : κ} (h : k' ≠ k) :
    ((c.statement k).toList.foldl Statement.exec table) k' = table k' := by
  cases hs : c.statement k with
  | none => rfl
  | some s => exact Statement.exec_of_ne (by rw [Cached.key_statement hs]; exact h)

section Pass

variable {entries : List (κ × Cached β)}

/-- The entries of a coherent cache fit their rows. -/
theorem Coherent.fits (h : Coherent (fun k => entryOf k entries) table) (hnodup : (entries.map Prod.fst).Nodup) :
    ∀ entry ∈ entries, Fits (some entry.2) (table entry.1) := by
  intro entry hmem
  have hfound : entryOf entry.1 entries = some entry.2 := by
    rw [entryOf, find_key hnodup hmem rfl]
    rfl
  exact hfound ▸ h entry.1

/-- The rows of the entries behind are not touched by the statement in front. -/
theorem fits_behind {entry : κ × Cached β} (hnot : entry.1 ∉ entries.map Prod.fst)
    (hfits : ∀ later ∈ entry :: entries, Fits (some later.2) (table later.1)) :
    ∀ later ∈ entries,
      Fits (some later.2) (((entry.2.statement entry.1).toList.foldl Statement.exec table) later.1) := by
  intro later hlater
  have hother : later.1 ≠ entry.1 := fun heq => hnot (heq ▸ List.mem_map_of_mem hlater)
  rw [entry.2.exec_statement_of_ne hother]
  exact hfits later (List.mem_cons_of_mem _ hlater)

/-- The pass leaves in the table what the entries mean, and the rows of other keys alone. -/
theorem exec_statements (hnodup : (entries.map Prod.fst).Nodup)
    (hfits : ∀ entry ∈ entries, Fits (some entry.2) (table entry.1)) (k : κ) :
    ((statements entries).foldl Statement.exec table) k =
      match entryOf k entries with
      | none => table k
      | some c => c.live := by
  induction entries generalizing table with
  | nil => rfl
  | cons entry rest ih =>
      obtain ⟨hnot, hrest⟩ := List.nodup_cons.mp hnodup
      rw [statements, List.flatMap_cons, List.foldl_append, ← statements, ih hrest (fits_behind hnot hfits),
        entryOf_cons]
      -- either the key is that of the entry in front, which no later one has, or the front leaves its row
      by_cases hk : k = entry.1
      · rw [if_pos hk, hk, entryOf_eq_none.mpr hnot]
        exact entry.2.exec_statement (hfits entry List.mem_cons_self)
      · rw [if_neg hk]
        cases entryOf k rest with
        | none => exact entry.2.exec_statement_of_ne hk
        | some c => rfl

/-- Every statement of the pass finds the table the way its note says. -/
theorem statements_take (hnodup : (entries.map Prod.fst).Nodup)
    (hfits : ∀ entry ∈ entries, Fits (some entry.2) (table entry.1)) :
    Along (fun table s => s.Takes table) Statement.exec table (statements entries) := by
  induction entries generalizing table with
  | nil => trivial
  | cons entry rest ih =>
      obtain ⟨hnot, hrest⟩ := List.nodup_cons.mp hnodup
      rw [statements, List.flatMap_cons, ← statements, along_append]
      refine ⟨?_, ih hrest (fits_behind hnot hfits)⟩
      cases hs : entry.2.statement entry.1 with
      | none => trivial
      | some s => exact ⟨Cached.takes_statement (hfits entry List.mem_cons_self) hs, trivial⟩

/-- After the pass over a coherent cache the table is what the cache means. -/
theorem flush_live (hnodup : (entries.map Prod.fst).Nodup)
    (h : Coherent (fun k => entryOf k entries) table) :
    (statements entries).foldl Statement.exec table = live fun k => entryOf k entries := by
  funext k
  rw [exec_statements hnodup (h.fits hnodup), live]
  cases hentry : entryOf k entries with
  | none =>
      have hrow := h k
      simp only [hentry] at hrow
      exact hrow
  | some c => rfl

/-- Looking up after some entries are taken out and the values of the others mapped. -/
theorem entryOf_filter_map {β γ : Type*} {entries : List (κ × β)} (hnodup : (entries.map Prod.fst).Nodup)
    (p : β → Bool) (f : β → γ) (k : κ) :
    entryOf k ((entries.filter fun entry => p entry.2).map fun entry => (entry.1, f entry.2)) =
      (entryOf k entries).bind fun b => if p b = true then some (f b) else none := by
  induction entries with
  | nil => rfl
  | cons entry rest ih =>
      obtain ⟨hnot, hrest⟩ := List.nodup_cons.mp hnodup
      have hgone : entryOf entry.1 rest = none := entryOf_eq_none.mpr hnot
      rw [entryOf_cons]
      by_cases hp : p entry.2 = true
      · rw [List.filter_cons_of_pos (by simpa using hp), List.map_cons, entryOf_cons, ih hrest]
        by_cases hk : k = entry.1
        · rw [if_pos hk, if_pos hk, Option.bind_some, if_pos hp]
        · rw [if_neg hk, if_neg hk]
      · rw [List.filter_cons_of_neg (by simpa using hp), ih hrest]
        by_cases hk : k = entry.1
        · rw [if_pos hk, hk, hgone, Option.bind_some, if_neg hp]
          rfl
        · rw [if_neg hk]

/-- A key finds in the cache after the pass what it meant before. -/
theorem entryOf_flushed (hnodup : (entries.map Prod.fst).Nodup) (k : κ) :
    entryOf k (flushed entries) = (live (fun k => entryOf k entries) k).map fun b => ⟨b, .unchanged⟩ := by
  have hpass := entryOf_filter_map hnodup (fun c => decide (c.state ≠ .deleted))
    (fun c => (⟨c.value, .unchanged⟩ : Cached β)) k
  rw [flushed, hpass, live]
  cases entryOf k entries with
  | none => rfl
  | some c =>
      simp only [Option.bind_some, Cached.live, decide_eq_true_iff, ite_not]
      split_ifs <;> rfl

/-- The pass changes nothing of what the cache means. -/
theorem live_flushed (hnodup : (entries.map Prod.fst).Nodup) :
    live (fun k => entryOf k (flushed entries)) = live fun k => entryOf k entries := by
  funext k
  rw [live, entryOf_flushed hnodup]
  cases live (fun k => entryOf k entries) k <;> rfl

/-- After the pass the notes are right. -/
theorem Coherent.flushed (hnodup : (entries.map Prod.fst).Nodup)
    (h : Coherent (fun k => entryOf k entries) table) :
    Coherent (fun k => entryOf k (flushed entries)) ((statements entries).foldl Statement.exec table) := by
  intro k
  show Fits (entryOf k (Lib.flushed entries)) _
  rw [flush_live hnodup h, entryOf_flushed hnodup]
  cases live (fun k => entryOf k entries) k <;> rfl

end Pass

end Tables

end TwowCore.Lib
