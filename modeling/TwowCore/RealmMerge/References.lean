import TwowCore.RealmMerge.Families

/-!
# The references of a merged database

What the two methods of a family should do is to rename every reference that denotes a row of it and
to leave everything else. Both do it exactly in the databases whose cells are as their conditions
expect: no empty or stray number where a statement has no condition on it, no mail of another sender
than a character, no house of a guild, and no guild whose id is taken, since the slow method then ends
the tool at the houses.
-/

namespace TwowCore.RealmMerge

namespace Family

variable (f : Family) (m : Merge)

/-- What the cells of the family refer to. -/
def references : List Target :=
  f.fast.map fun t => { t with condition := t.meaning }

/-- The cell is a reference to rows of the family. -/
def refers (row : Row) (column : String) (number : ℕ) : Bool :=
  f.references.any fun t => t.hits m row column number

/-- The cell is a reference that denotes a row of DB-2. -/
def denotes (row : Row) (column : String) (number : ℕ) : Bool :=
  f.refers m row column number && number != 0 && decide (number ∈ m.existingKeys2)

/-- Every reference that denotes a row denotes the renamed row, and all else stays. -/
def renamed (rename : ℕ → ℕ) (row : Row) : Row :=
  row.rewrite fun column number => if f.denotes m row column number then rename number else number

/-- The keys that are loaded from a database. -/
def keys (rows : List Row) : List ℕ :=
  keySet (rows.filterMap fun row => if row.table = f.key.1 then row.value f.key.2 else none)

/-- What a merge of two databases reads for the family. -/
def load (rows1 rows2 : List Row) (brainRealm : Option ℕ) : Merge :=
  ⟨f.keys rows1, f.keys rows2, brainRealm⟩

/-- The two methods update the same columns of the rows there are, come to their end, rename what denotes
a row and nothing else, and leave no reference to a row of DB-1. -/
structure Agrees (rows : List Row) : Prop where
  same : ∀ row ∈ rows, ∀ cell ∈ row.cells,
    (row.table, cell.1) ∈ f.fast.map Target.place ↔ (row.table, cell.1) ∈ f.slow.map Target.place
  fast : fastStatements f.fast m rows =
    .ok (rows.map (f.renamed m (· + fastOffset m.existingKeys1 m.existingKeys2)))
  slow : slowStatements f.slow m rows =
    .ok (rows.map (f.renamed m (runUpdates (slowMethod m.existingKeys1 m.existingKeys2))))
  apart : ∀ merged, fastStatements f.fast m rows = .ok merged ∨
      slowStatements f.slow m rows = .ok merged →
    ∀ row ∈ merged, ∀ cell ∈ row.cells, f.refers m row cell.1 cell.2 → cell.2 ∉ m.existingKeys1

/-- The cells that the conditions of the statements expect. -/
structure Clean (rows : List Row) : Prop where
  /-- The fast method has `guild_house.guild_id`, and the slow one `guild_house.guildid`. -/
  houses : f = guildIds → ∀ row ∈ rows, row.table = "guild_house" → ∀ cell ∈ row.cells,
    cell.1 ≠ "guild_id" ∧ cell.1 ≠ "guildid"
  /-- Only `guild_id` is in the schema: the slow method must have no guild to rename. -/
  guilds : f = guildIds → ∀ key ∈ m.existingKeys2, key ∉ m.existingKeys1
  /-- The conditions of the fast method let through what denotes a row, and nothing empty or stray. -/
  shifted : 0 < fastOffset m.existingKeys1 m.existingKeys2 → ∀ row ∈ rows, ∀ cell ∈ row.cells,
    (f.fast.any fun t => t.hits m row cell.1 cell.2) = f.denotes m row cell.1 cell.2
  /-- Where the slow method meets a key that is taken, it is a reference to its row. -/
  taken : ∀ row ∈ rows, ∀ cell ∈ row.cells, cell.2 ∈ m.existingKeys1 → cell.2 ∈ m.existingKeys2 →
    (f.slow.any fun t => t.hits m row cell.1 cell.2) = f.denotes m row cell.1 cell.2
  /-- A reference that denotes no row of DB-2 is no key of DB-1. -/
  foreign : ∀ row ∈ rows, ∀ cell ∈ row.cells, f.refers m row cell.1 cell.2 →
    f.denotes m row cell.1 cell.2 = false → cell.2 ∉ m.existingKeys1

variable {f m} {row : Row} {column : String}

theorem fast_separate : Separate f.fast f.fast where
  once := f.fastOnce
  unread t ht c hc hread :=
    f.unread t (List.mem_append_left _ ht) (f.fastReads c hc t.column hread)

theorem slow_ofRow {t : Target} (ht : t ∈ f.slow) : t.condition.OfRow := by
  rcases f.slowOfRow t ht with hall | hrealm
  · rw [hall]
    exact trivial
  · rw [hrealm]
    exact trivial

theorem slow_separate : Separate f.slow f.slow where
  once := f.slowOnce
  unread t ht c hc hread := by
    refine f.unread t (List.mem_append_right _ ht) ?_
    rcases f.slowOfRow c hc with hall | hrealm
    · rw [hall] at hread
      cases hread
    · rw [hrealm] at hread
      have hcolumn : "realm" = t.column := Option.some.inj hread
      rw [← hcolumn]
      decide

/-- What a cell means is a matter of its row, and of a column that is not updated. -/
theorem meaning_ofRow (t : Target) : t.meaning.OfRow ∧
    ∀ read, t.meaning.reads = some read → read ∈ readColumns := by
  unfold Target.meaning
  split_ifs
  · refine ⟨trivial, fun read hread => ?_⟩
    cases hread
    decide
  · refine ⟨trivial, fun read hread => ?_⟩
    cases hread
    decide
  · refine ⟨trivial, fun read hread => ?_⟩
    cases hread

/-- A column that conditions read is no reference. -/
theorem refers_of_read (hread : column ∈ readColumns) (number : ℕ) :
    f.refers m row column number = false := by
  refine List.any_eq_false.mpr fun c hc hhits => ?_
  obtain ⟨t, ht, rfl⟩ := List.mem_map.mp hc
  obtain ⟨hplace, -⟩ := Bool.and_eq_true _ _ ▸ hhits
  have hcolumn : column = t.column := (Prod.mk.inj (of_decide_eq_true hplace)).2
  exact f.unread t (List.mem_append_left _ ht) (hcolumn ▸ hread)

/-- A renamed row has the same references. -/
theorem refers_renamed (rename : ℕ → ℕ) (number number' : ℕ) :
    f.refers m (f.renamed m rename row) column number = f.refers m row column number' := by
  unfold refers renamed
  rw [any_hits_rewrite column number fun c hc read hread number => ?_]
  · rw [Bool.eq_iff_iff, List.any_eq_true, List.any_eq_true]
    refine exists_congr fun c => and_congr_right fun hc => ?_
    obtain ⟨t, -, rfl⟩ := List.mem_map.mp hc
    unfold Target.hits
    rw [(meaning_ofRow t).1.meets_eq number number']
  · obtain ⟨t, -, rfl⟩ := List.mem_map.mp hc
    have hnot : f.refers m row read number = false :=
      refers_of_read ((meaning_ofRow t).2 read hread) number
    simp [denotes, hnot]

/-- A shift of two kinds of cells is the same when they are. -/
theorem shift_eq_iff {a b : Bool} {number offset : ℕ} :
    (if a && true then number + offset else number) = (if b then number + offset else number) ↔
      (0 < offset → a = b) := by
  cases a <;> cases b <;> simp [Nat.pos_iff_ne_zero]

/-- The fast method does what is wanted. -/
theorem fast_eq_iff (hin : ∀ t ∈ f.fast, t.inSchema) (rows : List Row) :
    fastStatements f.fast m rows =
        .ok (rows.map (f.renamed m (· + fastOffset m.existingKeys1 m.existingKeys2))) ↔
      (0 < fastOffset m.existingKeys1 m.existingKeys2 → ∀ row ∈ rows, ∀ cell ∈ row.cells,
        (f.fast.any fun t => t.hits m row cell.1 cell.2) = f.denotes m row cell.1 cell.2) := by
  unfold fastStatements
  rw [runStatements_eq fast_separate hin, Except.ok.injEq, List.map_inj_left]
  have hrow : ∀ row : Row, rewritten f.fast m (fun _ => true)
      (· + fastOffset m.existingKeys1 m.existingKeys2) row =
        f.renamed m (· + fastOffset m.existingKeys1 m.existingKeys2) row ↔
      ∀ cell ∈ row.cells, 0 < fastOffset m.existingKeys1 m.existingKeys2 →
        (f.fast.any fun t => t.hits m row cell.1 cell.2) = f.denotes m row cell.1 cell.2 := by
    intro row
    unfold rewritten renamed
    rw [rewrite_eq_iff]
    exact forall_congr' fun cell => imp_congr_right fun _ => shift_eq_iff
  constructor
  · exact fun h hoffset row hin cell hcell => (hrow row).mp (h row hin) cell hcell hoffset
  · exact fun h row hin => (hrow row).mpr fun cell hcell hoffset => h hoffset row hin cell hcell

section Slow

variable (hnodup : m.existingKeys2.Nodup)

include hnodup

/-- The slow method renames a key that is taken to one that is free, and nothing else. -/
theorem runUpdates_cases (number : ℕ) :
    (number ∈ m.existingKeys1 ∧ number ∈ m.existingKeys2 ∧
        runUpdates (slowMethod m.existingKeys1 m.existingKeys2) number ∉ m.existingKeys1) ∨
      (¬(number ∈ m.existingKeys1 ∧ number ∈ m.existingKeys2) ∧
        runUpdates (slowMethod m.existingKeys1 m.existingKeys2) number = number) := by
  have hspec : Renames m.existingKeys1 m.existingKeys2 0 m.existingKeys2
      (slowMethod m.existingKeys1 m.existingKeys2) := slowRenames_spec hnodup (by simp)
  rw [runUpdates_eq fun new hnew hold =>
    hspec.free new hnew (List.mem_append_right _ (hspec.olds.subset hold))]
  rcases @substitute_cases (slowMethod m.existingKeys1 m.existingKeys2) number with
    ⟨hnot, hsame⟩ | ⟨new, hmem, hnew⟩
  · refine Or.inr ⟨fun htaken => hnot ?_, hsame⟩
    exact (hspec.needed number htaken.2).mpr htaken.1
  · have hold : number ∈ (slowMethod m.existingKeys1 m.existingKeys2).map Prod.fst :=
      List.mem_map.mpr ⟨_, hmem, rfl⟩
    have hkey := hspec.olds.subset hold
    refine Or.inl ⟨(hspec.needed number hkey).mp hold, hkey, fun htaken => ?_⟩
    rw [hnew] at htaken
    exact hspec.free new (List.mem_map.mpr ⟨_, hmem, rfl⟩) (List.mem_append_left _ htaken)

/-- The slow method has nothing to do when no key is taken. -/
theorem slowMethod_nil_iff : slowMethod m.existingKeys1 m.existingKeys2 = [] ↔
    ∀ key ∈ m.existingKeys2, key ∉ m.existingKeys1 := by
  have hspec : Renames m.existingKeys1 m.existingKeys2 0 m.existingKeys2
      (slowMethod m.existingKeys1 m.existingKeys2) := slowRenames_spec hnodup (by simp)
  constructor
  · intro hnil key hkey htaken
    have hold := (hspec.needed key hkey).mpr htaken
    rw [hnil] at hold
    exact List.not_mem_nil hold
  · intro hnone
    refine List.eq_nil_iff_forall_not_mem.mpr fun rename hin => ?_
    have hold : rename.1 ∈ (slowMethod m.existingKeys1 m.existingKeys2).map Prod.fst :=
      List.mem_map.mpr ⟨_, hin, rfl⟩
    have hkey := hspec.olds.subset hold
    exact hnone rename.1 hkey ((hspec.needed rename.1 hkey).mp hold)

/-- The slow method does what is wanted. -/
theorem slow_eq_iff (hin : (∀ t ∈ f.slow, t.inSchema) ∨
      slowMethod m.existingKeys1 m.existingKeys2 = []) (rows : List Row) :
    slowStatements f.slow m rows =
        .ok (rows.map (f.renamed m (runUpdates (slowMethod m.existingKeys1 m.existingKeys2)))) ↔
      ∀ row ∈ rows, ∀ cell ∈ row.cells, cell.2 ∈ m.existingKeys1 → cell.2 ∈ m.existingKeys2 →
        (f.slow.any fun t => t.hits m row cell.1 cell.2) = f.denotes m row cell.1 cell.2 := by
  rw [slowStatements_eq slow_separate (fun t ht => slow_ofRow ht) hin, Except.ok.injEq,
    List.map_inj_left]
  refine forall_congr' fun row => imp_congr_right fun _ => ?_
  unfold rewritten renamed
  rw [rewrite_eq_iff]
  refine forall_congr' fun cell => imp_congr_right fun _ => ?_
  rw [Bool.and_true]
  rcases runUpdates_cases hnodup cell.2 with ⟨h1, h2, hfree⟩ | ⟨hnot, hsame⟩
  · have hne : runUpdates (slowMethod m.existingKeys1 m.existingKeys2) cell.2 ≠ cell.2 := by
      intro heq
      rw [heq] at hfree
      exact hfree h1
    cases f.slow.any fun t => t.hits m row cell.1 cell.2 <;>
      cases f.denotes m row cell.1 cell.2 <;> simp [h1, h2, hne, hne.symm]
  · rw [hsame, ite_self, ite_self]
    exact iff_of_true rfl fun h1 h2 => absurd ⟨h1, h2⟩ hnot

end Slow

/-- In rows where what denotes a row has been renamed apart from DB-1, a reference to a row of DB-1 is
one that was there. -/
theorem apart_iff {rename : ℕ → ℕ} (rows : List Row)
    (hapart : ∀ row column number, f.denotes m row column number →
      rename number ∉ m.existingKeys1) :
    (∀ row ∈ rows.map (f.renamed m rename), ∀ cell ∈ row.cells, f.refers m row cell.1 cell.2 →
        cell.2 ∉ m.existingKeys1) ↔
      ∀ row ∈ rows, ∀ cell ∈ row.cells, f.refers m row cell.1 cell.2 →
        f.denotes m row cell.1 cell.2 = false → cell.2 ∉ m.existingKeys1 := by
  rw [List.forall_mem_map]
  refine forall_congr' fun row => imp_congr_right fun _ => ?_
  have hcells : (f.renamed m rename row).cells = row.cells.map fun cell =>
      (cell.1, if f.denotes m row cell.1 cell.2 then rename cell.2 else cell.2) := rfl
  rw [hcells, List.forall_mem_map]
  refine forall_congr' fun cell => imp_congr_right fun _ => ?_
  rw [refers_renamed rename _ cell.2]
  refine imp_congr_right fun _ => ?_
  by_cases hdenotes : f.denotes m row cell.1 cell.2 = true
  · rw [if_pos hdenotes]
    refine iff_of_true (hapart row cell.1 cell.2 hdenotes) fun hno => ?_
    rw [hdenotes] at hno
    cases hno
  · rw [if_neg hdenotes]
    exact ⟨fun h _ => h, fun h => h (Bool.eq_false_iff.mpr hdenotes)⟩

end Family

/-- The two methods of all families but the guilds update the same columns. -/
theorem same_columns {f : Family} (hf : f ∈ families) (hne : f ≠ guildIds) :
    f.fast.map Target.place = f.slow.map Target.place := by
  simp only [families, List.mem_cons, List.not_mem_nil, or_false] at hf
  rcases hf with rfl | rfl | rfl | rfl | rfl | rfl | rfl | rfl | rfl | rfl | rfl | rfl | rfl
  all_goals first
    | rfl
    | exact absurd rfl hne

/-- The columns of the fast methods are all in the schema. -/
theorem fast_inSchema {f : Family} (hf : f ∈ families) : ∀ t ∈ f.fast, t.inSchema := by
  have hall : families.all (fun f => f.fast.all Target.inSchema) = true := by decide +kernel
  exact List.all_eq_true.mp (List.all_eq_true.mp hall f hf)

/-- So are those of the slow ones, but for the houses of the guilds. -/
theorem slow_inSchema {f : Family} (hf : f ∈ families) (hne : f ≠ guildIds) :
    ∀ t ∈ f.slow, t.inSchema := by
  intro t ht
  have hplace : t.place ∈ f.fast.map Target.place := by
    rw [same_columns hf hne]
    exact List.mem_map.mpr ⟨t, ht, rfl⟩
  obtain ⟨u, hu, heq⟩ := List.mem_map.mp hplace
  have hin := fast_inSchema hf u hu
  unfold Target.inSchema at hin ⊢
  rwa [heq] at hin

/-- Those of the guilds differ in the house. -/
theorem guild_columns (place : String × String) :
    (place ∈ guildIds.fast.map Target.place ↔ place ∈ guildIds.slow.map Target.place) ↔
      place ≠ ("guild_house", "guild_id") ∧ place ≠ ("guild_house", "guildid") := by
  constructor
  · refine fun h => ⟨?_, ?_⟩
    · rintro rfl
      exact absurd (h.mp (by decide +kernel)) (by decide +kernel)
    · rintro rfl
      exact absurd (h.mpr (by decide +kernel)) (by decide +kernel)
  · rintro ⟨hid, hslow⟩
    simp only [guildIds, guildIdsFast, guildIdsSlow, Target.place, List.map_cons, List.map_nil,
      List.mem_cons, List.not_mem_nil, hid, hslow, false_or]

section Databases

variable {f : Family} {rows1 rows2 : List Row} {brainRealm : Option ℕ}

/-- Both methods rename what denotes a row apart from DB-1. -/
theorem denotes_apart {row : Row} {column : String} {number : ℕ}
    (h : f.denotes (f.load rows1 rows2 brainRealm) row column number) :
    number + fastOffset (f.keys rows1) (f.keys rows2) ∉ f.keys rows1 ∧
      runUpdates (slowMethod (f.keys rows1) (f.keys rows2)) number ∉ f.keys rows1 := by
  obtain ⟨hpair, hkey⟩ := Bool.and_eq_true _ _ ▸ h
  obtain ⟨-, hne⟩ := Bool.and_eq_true _ _ ▸ hpair
  have hne : number ≠ 0 := bne_iff_ne.mp hne
  have hkey : number ∈ f.keys rows2 := of_decide_eq_true hkey
  constructor
  · intro htaken
    have hle : number + fastOffset (f.keys rows1) (f.keys rows2) ≤ maxKey (f.keys rows1) :=
      le_maxKey htaken
    have hoffset : maxKey (f.keys rows1) ≤ fastOffset (f.keys rows1) (f.keys rows2) :=
      Nat.le_max_left _ _
    omega
  · rcases Family.runUpdates_cases (m := f.load rows1 rows2 brainRealm) (keySet_nodup _) number with
      ⟨-, -, hfree⟩ | ⟨hnot, hsame⟩
    · exact hfree
    · intro htaken
      exact hnot ⟨hsame ▸ htaken, hkey⟩

/-- The statement on the houses of the guilds. -/
theorem guildHouse_slow : (⟨"guild_house", "guildid", .all⟩ : Target) ∈ guildIds.slow := by
  decide +kernel

/-- The slow method comes to its end, unless a guild is to be renamed. -/
theorem slow_finishes {m : Merge} (hf : f ∈ families) (hnodup : m.existingKeys2.Nodup)
    (hguilds : f = guildIds → ∀ key ∈ m.existingKeys2, key ∉ m.existingKeys1) :
    (∀ t ∈ f.slow, t.inSchema) ∨ slowMethod m.existingKeys1 m.existingKeys2 = [] := by
  by_cases hguild : f = guildIds
  · exact Or.inr ((Family.slowMethod_nil_iff hnodup).mpr (hguilds hguild))
  · exact Or.inl (slow_inSchema hf hguild)

/-- When it has come to its end, no guild was to be renamed. -/
theorem guilds_of_finished {m : Merge} {rows merged : List Row} (hnodup : m.existingKeys2.Nodup)
    (h : slowStatements guildIds.slow m rows = .ok merged) :
    ∀ key ∈ m.existingKeys2, key ∉ m.existingKeys1 := by
  refine (Family.slowMethod_nil_iff hnodup).mp ?_
  by_contra hsome
  exact slowStatements_ends guildHouse_slow rfl hsome rows merged h

/-- Two databases with one character and one guild of the same keys, an aura without a caster, a mail of the
auction house 1, and a house of the guild. -/
def houseRows : List Row :=
  [⟨"characters", [("guid", 1)]⟩,
    ⟨"character_aura", [("guid", 1), ("caster_guid", 0)]⟩,
    ⟨"mail", [("id", 1), ("messageType", 2), ("mailTemplateId", 0), ("sender", 1), ("receiver", 1)]⟩,
    ⟨"guild", [("guildid", 1), ("leaderguid", 1)]⟩,
    ⟨"guild_house", [("guild_id", 1)]⟩]

end Databases

end TwowCore.RealmMerge
