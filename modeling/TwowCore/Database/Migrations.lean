import TwowCore.Database.AutoUpdater

/-!
# Migrations

A run of the updater executes what the table does not list, each migration once and in a transaction that
also records it. The order depends on the directory when two files that are not listed have the same
content, since the first of them is kept; a file that ends inside of a string leaves the transaction open
that was begun for it; and of a file that fails there stays what a `ROLLBACK` does not undo.
-/

namespace TwowCore.Database

/-- A directory lists a file once. -/
structure Directory where
  entries : List DirectoryEntry
  distinct : (entries.map fun entry => (entry.stem, entry.extension)).Nodup

/-- The order in which a map is gone through. -/
structure Iteration where
  order : List FileMigration → List FileMigration
  perm : ∀ l, (order l).Perm l

section Loading

variable {hash : List Char → String} {moduleName : String} {entries entries' : List DirectoryEntry}
  {acc l : List FileMigration} {m m₁ m₂ : FileMigration}

/-- What is in the map stays in it. -/
theorem subset_foldl_insertNew : acc ⊆ l.foldl insertNew acc := by
  induction l generalizing acc with
  | nil => exact fun _ h => h
  | cons m rest ih =>
      refine fun m' hm' => ih ?_
      unfold insertNew
      split_ifs
      · exact hm'
      · exact List.mem_append_left _ hm'

/-- What is in the map was there or has been inserted. -/
theorem mem_of_foldl_insertNew (h : m ∈ l.foldl insertNew acc) : m ∈ acc ∨ m ∈ l := by
  induction l generalizing acc with
  | nil => exact Or.inl h
  | cons m' rest ih =>
      rcases ih h with hacc | hrest
      · unfold insertNew at hacc
        split_ifs at hacc
        · exact Or.inl hacc
        · rcases List.mem_append.mp hacc with hold | hnew
          · exact Or.inl hold
          · exact Or.inr (List.mem_singleton.mp hnew ▸ List.mem_cons_self)
      · exact Or.inr (List.mem_cons_of_mem _ hrest)

/-- A key is there once. -/
theorem nodup_foldl_insertNew (h : (acc.map fun m => m.key).Nodup) :
    ((l.foldl insertNew acc).map fun m => m.key).Nodup := by
  induction l generalizing acc with
  | nil => exact h
  | cons m rest ih =>
      refine ih ?_
      unfold insertNew
      split_ifs with hold
      · exact h
      · rw [List.map_append]
        refine List.nodup_append.mpr ⟨h, List.nodup_singleton _, fun a ha b hb heq => hold ?_⟩
        have hkey : b = m.key := List.mem_singleton.mp hb
        rw [← hkey, ← heq]
        exact ha

/-- The key of everything that is inserted is there. -/
theorem key_mem_foldl_insertNew (h : m ∈ l) :
    m.key ∈ (l.foldl insertNew acc).map fun m => m.key := by
  induction l generalizing acc with
  | nil => cases h
  | cons m' rest ih =>
      rcases List.mem_cons.mp h with rfl | hrest
      · have hin : m.key ∈ (insertNew acc m).map fun m => m.key := by
          unfold insertNew
          split_ifs with hold
          · exact hold
          · rw [List.map_append]
            exact List.mem_append_right _ (List.mem_singleton.mpr rfl)
        obtain ⟨m', hm', heq⟩ := List.mem_map.mp hin
        have hkept : m' ∈ rest.foldl insertNew (insertNew acc m) := subset_foldl_insertNew hm'
        exact List.mem_map.mpr ⟨m', hkept, heq⟩
      · exact ih hrest

theorem mem_candidates : m ∈ candidates hash moduleName entries ↔
    ∃ entry ∈ entries, entry.isRegularFile = true ∧ entry.extension = updateExtension ∧
      entry.migration hash moduleName = some m := by
  unfold candidates
  rw [List.mem_filterMap]
  constructor
  · rintro ⟨entry, hin, hm⟩
    obtain ⟨hentry, hkind⟩ := List.mem_filter.mp hin
    rw [Bool.and_eq_true, beq_iff_eq] at hkind
    exact ⟨entry, hentry, hkind.1, hkind.2, hm⟩
  · rintro ⟨entry, hentry, hregular, hextension, hm⟩
    refine ⟨entry, List.mem_filter.mpr ⟨hentry, ?_⟩, hm⟩
    rw [Bool.and_eq_true, beq_iff_eq]
    exact ⟨hregular, hextension⟩

/-- A migration has the data of its file. -/
theorem migration_eq {entry : DirectoryEntry} (h : entry.migration hash moduleName = some m) :
    m.name = entry.stem ∧ m.module = moduleName ∧ entry.data = some m.fileData ∧
      m.hash = hash m.fileData := by
  unfold DirectoryEntry.migration at h
  obtain ⟨data, hdata, rfl⟩ := Option.map_eq_some_iff.mp h
  exact ⟨rfl, rfl, hdata, rfl⟩

/-- The migrations of a directory have different names. -/
theorem Directory.same_name (d : Directory) (h₁ : m₁ ∈ candidates hash moduleName d.entries)
    (h₂ : m₂ ∈ candidates hash moduleName d.entries) (hname : m₁.name = m₂.name) : m₁ = m₂ := by
  obtain ⟨e₁, hin₁, -, hext₁, hm₁⟩ := mem_candidates.mp h₁
  obtain ⟨e₂, hin₂, -, hext₂, hm₂⟩ := mem_candidates.mp h₂
  have hstem : e₁.stem = e₂.stem := by
    rw [← (migration_eq hm₁).1, hname, (migration_eq hm₂).1]
  have hentry : e₁ = e₂ := List.inj_on_of_nodup_map d.distinct hin₁ hin₂
    (Prod.ext hstem (hext₁.trans hext₂.symm))
  subst hentry
  exact Option.some.inj (hm₁.symm.trans hm₂)

/-- The migrations of a directory are of its module. -/
theorem module_of_candidates (h : m ∈ candidates hash moduleName entries) : m.module = moduleName := by
  obtain ⟨entry, -, -, -, hm⟩ := mem_candidates.mp h
  exact (migration_eq hm).2.1

/-- In a module, a key is a hash. -/
theorem key_eq_iff (h₁ : m₁ ∈ candidates hash moduleName entries)
    (h₂ : m₂ ∈ candidates hash moduleName entries) : m₁.key = m₂.key ↔ m₁.hash = m₂.hash := by
  unfold Migration.key
  rw [module_of_candidates h₁, module_of_candidates h₂, String.append_right_inj]

theorem mem_of_load (h : m ∈ loadFileMigrations hash moduleName entries) :
    m ∈ candidates hash moduleName entries := by
  rcases mem_of_foldl_insertNew h with hnil | hin
  · cases hnil
  · exact hin

theorem nodup_load : ((loadFileMigrations hash moduleName entries).map fun m => m.key).Nodup :=
  nodup_foldl_insertNew List.nodup_nil

/-- The first file of a directory is kept. -/
theorem mem_load_first {first : DirectoryEntry} (h : m ∈ candidates hash moduleName [first]) :
    m ∈ loadFileMigrations hash moduleName (first :: entries) := by
  obtain ⟨entry, hin, hregular, hextension, hm⟩ := mem_candidates.mp h
  rw [List.mem_singleton] at hin
  subst hin
  unfold loadFileMigrations candidates
  have hkind : (entry.isRegularFile && entry.extension == updateExtension) = true := by
    rw [Bool.and_eq_true, beq_iff_eq]
    exact ⟨hregular, hextension⟩
  simp only [List.filter_cons, hkind, if_true, List.filterMap_cons, hm, List.foldl_cons]
  exact subset_foldl_insertNew (List.mem_singleton.mpr rfl)

end Loading

section Sorting

/-- What the updates are sorted by. -/
def rank (sortByName : Bool) (m : FileMigration) : String ×ₗ ℤ ×ₗ String :=
  if sortByName then toLex (m.name, toLex (m.modifiedAt, ""))
  else toLex ("", toLex (m.modifiedAt, m.name))

theorem before_eq_false (sortByName : Bool) (e₁ e₂ : FileMigration) :
    before sortByName e₂ e₁ = false ↔ rank sortByName e₁ ≤ rank sortByName e₂ := by
  cases sortByName with
  | true =>
      simp only [before, rank, if_true, Prod.Lex.toLex_le_toLex]
      split_ifs with hname
      · simp only [decide_eq_false_iff_not, not_lt]
        constructor
        · exact fun hle => Or.inl (lt_of_le_of_ne hle (Ne.symm hname))
        · rintro (hlt | ⟨heq, -⟩)
          · exact hlt.le
          · exact absurd heq.symm hname
      · rw [not_not] at hname
        simp [hname, le_iff_lt_or_eq]
  | false =>
      simp only [before, rank, Bool.false_eq_true, if_false, Prod.Lex.toLex_le_toLex]
      split_ifs with htime
      · simp only [decide_eq_false_iff_not, not_lt]
        constructor
        · exact fun hle => Or.inr ⟨trivial, Or.inl (lt_of_le_of_ne hle (Ne.symm htime))⟩
        · rintro (hlt | ⟨-, hlt | ⟨heq, -⟩⟩)
          · exact absurd hlt (lt_irrefl _)
          · exact hlt.le
          · exact absurd heq.symm htime
      · rw [not_not] at htime
        simp only [decide_eq_false_iff_not, not_lt, htime, true_and, lt_irrefl, false_or]

/-- Two updates that may stand either way have one name. -/
theorem name_eq_of_rank {sortByName : Bool} {e₁ e₂ : FileMigration}
    (h : rank sortByName e₁ = rank sortByName e₂) : e₁.name = e₂.name := by
  cases sortByName with
  | true => exact congrArg (fun r => (ofLex r).1) h
  | false => exact congrArg (fun r => (ofLex (ofLex r).2).2) h

end Sorting

section Plan

variable {hash : List Char → String} {moduleName : String} {sortByName : Bool}
  {recorded : List Migration} {m : FileMigration}

/-- The updates of a directory. -/
def plan (hash : List Char → String) (moduleName : String) (sortByName : Bool)
    (recorded : List Migration) (iterate : Iteration) (d : Directory) : List FileMigration :=
  updates sortByName recorded iterate.order (loadFileMigrations hash moduleName d.entries)

/-- The table does not list a migration. -/
def Unrecorded (recorded : List Migration) (m : FileMigration) : Prop :=
  m.key ∉ recorded.map Migration.key

theorem mem_plan {iterate : Iteration} {d : Directory} :
    m ∈ plan hash moduleName sortByName recorded iterate d ↔
      m ∈ loadFileMigrations hash moduleName d.entries ∧ Unrecorded recorded m := by
  unfold plan updates
  rw [List.mem_insertionSort, List.mem_filter, (iterate.perm _).mem_iff, decide_eq_true_iff]
  rfl

/-- Each key is planned once. -/
theorem nodup_plan (iterate : Iteration) (d : Directory) :
    ((plan hash moduleName sortByName recorded iterate d).map fun m => m.key).Nodup := by
  unfold plan updates
  refine ((List.perm_insertionSort _ _).map _).nodup_iff.mpr ?_
  refine List.Nodup.sublist (List.filter_sublist.map _) ?_
  exact ((iterate.perm _).map _).nodup_iff.mpr nodup_load

theorem sorted_plan (iterate : Iteration) (d : Directory) :
    (plan hash moduleName sortByName recorded iterate d).Pairwise
      fun e₁ e₂ => rank sortByName e₁ ≤ rank sortByName e₂ := by
  have htotal : Std.Total fun e₁ e₂ => before sortByName e₂ e₁ = false :=
    ⟨fun e₁ e₂ => by
      rw [before_eq_false, before_eq_false]
      exact le_total _ _⟩
  have htrans : IsTrans FileMigration fun e₁ e₂ => before sortByName e₂ e₁ = false :=
    ⟨fun e₁ e₂ e₃ h₁ h₂ => by
      rw [before_eq_false] at h₁ h₂ ⊢
      exact h₁.trans h₂⟩
  unfold plan updates
  refine (List.pairwise_insertionSort _ _).imp fun {e₁ e₂} hle => ?_
  exact (before_eq_false sortByName e₁ e₂).mp hle

/-- Files that are not listed differ in content. -/
def Distinct (hash : List Char → String) (moduleName : String) (recorded : List Migration)
    (d : Directory) : Prop :=
  ∀ m₁ ∈ candidates hash moduleName d.entries, ∀ m₂ ∈ candidates hash moduleName d.entries,
    m₁.hash = m₂.hash → Unrecorded recorded m₁ → m₁ = m₂

theorem candidates_of_perm {d d' : Directory} (h : d'.entries.Perm d.entries) :
    m ∈ candidates hash moduleName d'.entries ↔ m ∈ candidates hash moduleName d.entries := by
  unfold candidates
  exact ((h.filter _).filterMap _).mem_iff

/-- Then all of them are planned. -/
theorem Distinct.mem_plan {d d' : Directory} (h : Distinct hash moduleName recorded d)
    (hperm : d'.entries.Perm d.entries) (iterate : Iteration) :
    m ∈ plan hash moduleName sortByName recorded iterate d' ↔
      m ∈ candidates hash moduleName d.entries ∧ Unrecorded recorded m := by
  rw [Database.mem_plan]
  constructor
  · exact fun ⟨hload, hnew⟩ => ⟨(candidates_of_perm hperm).mp (mem_of_load hload), hnew⟩
  · rintro ⟨hin, hnew⟩
    refine ⟨?_, hnew⟩
    have hin' := (candidates_of_perm hperm).mpr hin
    have hloaded : m.key ∈ (loadFileMigrations hash moduleName d'.entries).map fun m => m.key :=
      key_mem_foldl_insertNew hin'
    obtain ⟨kept, hkept, hkey⟩ := List.mem_map.mp hloaded
    have hcandidate := (candidates_of_perm hperm).mp (mem_of_load hkept)
    rw [h m hin kept hcandidate ((key_eq_iff hin hcandidate).mp hkey.symm) hnew]
    exact hkept

/-- The plan depends on the files and not on the orders in which they come, just when those that are not
listed differ in content. -/
theorem plan_eq_iff (iterate : Iteration) (d : Directory) :
    (∀ (iterate' : Iteration) (d' : Directory), d'.entries.Perm d.entries →
      plan hash moduleName sortByName recorded iterate' d' =
        plan hash moduleName sortByName recorded iterate d) ↔
      Distinct hash moduleName recorded d := by
  constructor
  · intro hsame m₁ h₁ m₂ h₂ hhash hnew
    have hfirst : ∀ m ∈ candidates hash moduleName d.entries, Unrecorded recorded m →
        m ∈ plan hash moduleName sortByName recorded iterate d := by
      intro m hm hunrecorded
      obtain ⟨entry, hin, hkind⟩ := mem_candidates.mp hm
      obtain ⟨rest, hperm⟩ : ∃ rest, (entry :: rest).Perm d.entries :=
        ⟨d.entries.erase entry, (List.perm_cons_erase hin).symm⟩
      have hdistinct : ((entry :: rest).map fun entry => (entry.stem, entry.extension)).Nodup :=
        (hperm.map _).nodup_iff.mpr d.distinct
      rw [← hsame iterate ⟨entry :: rest, hdistinct⟩ hperm]
      refine Database.mem_plan.mpr ⟨mem_load_first ?_, hunrecorded⟩
      exact mem_candidates.mpr ⟨entry, List.mem_singleton.mpr rfl, hkind⟩
    have hnew₂ : Unrecorded recorded m₂ := by
      unfold Unrecorded
      rw [← (key_eq_iff h₁ h₂).mpr hhash]
      exact hnew
    have hin₁ := (Database.mem_plan.mp (hfirst m₁ h₁ hnew)).1
    have hin₂ := (Database.mem_plan.mp (hfirst m₂ h₂ hnew₂)).1
    exact List.inj_on_of_nodup_map nodup_load hin₁ hin₂ ((key_eq_iff h₁ h₂).mpr hhash)
  · intro hdistinct iterate' d' hperm
    refine List.Perm.eq_of_pairwise ?_ (sorted_plan iterate' d') (sorted_plan iterate d) ?_
    · intro e₁ e₂ h₁ h₂ hle₁ hle₂
      have hin₁ := ((hdistinct.mem_plan hperm iterate').mp h₁).1
      have hin₂ := ((hdistinct.mem_plan (List.Perm.refl _) iterate).mp h₂).1
      exact d.same_name hin₁ hin₂ (name_eq_of_rank (le_antisymm hle₁ hle₂))
    · refine (List.perm_ext_iff_of_nodup ?_ ?_).mpr fun m => ?_
      · exact List.Nodup.of_map _ (nodup_plan iterate' d')
      · exact List.Nodup.of_map _ (nodup_plan iterate d)
      · rw [hdistinct.mem_plan hperm iterate', hdistinct.mem_plan (List.Perm.refl _) iterate]

end Plan

section Execution

variable {Db : Type*} {server : Server Db} {db db' : Db} {m : FileMigration} {l : List FileMigration}

/-- A session with nothing open. -/
def Session.closed (db : Db) : Session Db := ⟨db, db, false⟩

/-- A database with nothing open. -/
def Target.closed (db : Db) : Target Db := ⟨Session.closed db, none⟩

/-- No transaction is open, of the thread or at the server. -/
def Target.Closed (t : Target Db) : Prop := t.transaction = none ∧ t.session.inTransaction = false

/-- The statements of a migration and of its record, in a transaction. -/
def FileMigration.apply (m : FileMigration) (server : Server Db) (db : Db) :
    Session Db × Option QueryError :=
  server.run (m.queries ++ [m.recordQuery]) (Session.closed db).start

theorem run_append (server : Server Db) (first second : List String) (s : Session Db) :
    server.run (first ++ second) s =
      match server.run first s with
      | (s, none) => server.run second s
      | (s, some error) => (s, some error) := by
  induction first generalizing s with
  | nil => rfl
  | cons sql rest ih =>
      rw [List.cons_append]
      simp only [Server.run]
      rcases server.execute s sql with ⟨s', _ | error⟩
      · exact ih s'
      · rfl

theorem foldl_execute (session : Session Db) (queries queue : List String) :
    queries.foldl Target.execute ⟨session, some queue⟩ = ⟨session, some (queue ++ queries)⟩ := by
  induction queries generalizing queue with
  | nil => rw [List.foldl_nil, List.append_nil]
  | cons query rest ih =>
      rw [List.foldl_cons, show (⟨session, some queue⟩ : Target Db).execute query =
        ⟨session, some (queue ++ [query])⟩ from rfl, ih, List.append_assoc, List.singleton_append]

/-- What `executeUpdate` does with nothing open. -/
theorem executeUpdate_eq (m : FileMigration) :
    (Target.closed db).executeUpdate server m =
      if m.midString then (⟨Session.closed db, some []⟩, some false)
      else
        match m.apply server db with
        | (s, some .asserted) => (⟨s, none⟩, none)
        | (s, some .handled) => (⟨s.rollback, none⟩, some false)
        | (s, none) =>
            match server.commit s with
            | .committed => (⟨s.commit, none⟩, some true)
            | .rolledBack => (⟨s.rollback, none⟩, some false)
            | .stillOpen => (⟨s, none⟩, some false) := by
  unfold Target.executeUpdate
  show (if m.midString then ((⟨Session.closed db, some []⟩ : Target Db), some false)
    else ((m.queries.foldl Target.execute ⟨Session.closed db, some []⟩).execute m.recordQuery
      ).commitTransactionDirect server) = _
  rw [foldl_execute, List.nil_append]
  split_ifs
  · rfl
  · show Target.runTransaction server (Target.closed db) (m.queries ++ [m.recordQuery]) = _
    unfold Target.runTransaction
    rw [if_neg (List.append_ne_nil_of_right_ne_nil _ (List.cons_ne_nil _ _))]
    rfl

/-- A migration is stored, together with its record. -/
structure Stored (server : Server Db) (db : Db) (m : FileMigration) (db' : Db) : Prop where
  whole : m.midString = false
  apply : ∃ s, m.apply server db = (s, none) ∧ server.commit s = .committed ∧ s.reached = db'

/-- A migration that fails leaves nothing: it does not end inside of a string; when a statement of it fails,
what a `ROLLBACK` comes back to is the database before it, and no assertion throws while a transaction is
open; and a `COMMIT` that fails does as much. -/
structure Ends (server : Server Db) (db : Db) (m : FileMigration) : Prop where
  whole : m.midString = false
  undone : ∀ s error, m.apply server db = (s, some error) →
    s.stored = db ∧ (error = .asserted → s.inTransaction = false)
  commits : ∀ s, m.apply server db = (s, none) → server.commit s ≠ .committed →
    s.stored = db ∧ (server.commit s = .stillOpen → s.inTransaction = false)

/-- A migration is stored once. -/
theorem Stored.unique {db₁ db₂ : Db} (h₁ : Stored server db m db₁) (h₂ : Stored server db m db₂) :
    db₁ = db₂ := by
  obtain ⟨s₁, happly₁, -, rfl⟩ := h₁.apply
  obtain ⟨s₂, happly₂, -, rfl⟩ := h₂.apply
  cases happly₁.symm.trans happly₂
  rfl

/-- One that is stored does not fail. -/
theorem Stored.ends (h : Stored server db m db') : Ends server db m := by
  obtain ⟨s, happly, hcommit, -⟩ := h.apply
  refine ⟨h.whole, fun s' error h' => ?_, fun s' h' hnot => ?_⟩
  · cases happly.symm.trans h'
  · cases happly.symm.trans h'
    exact absurd hcommit hnot

/-- One of which a statement fails. -/
theorem ends_iff_of_error (hwhole : m.midString = false) {s : Session Db} {error : QueryError}
    (h : m.apply server db = (s, some error)) :
    Ends server db m ↔ s.stored = db ∧ (error = .asserted → s.inTransaction = false) := by
  refine ⟨fun hends => hends.undone s error h, fun hleft => ⟨hwhole, ?_, ?_⟩⟩
  · intro s' error' h'
    cases h.symm.trans h'
    exact hleft
  · intro s' h'
    cases h.symm.trans h'

/-- One whose `COMMIT` fails. -/
theorem ends_iff_of_commit (hwhole : m.midString = false) {s : Session Db}
    (h : m.apply server db = (s, none)) (hcommit : server.commit s ≠ .committed) :
    Ends server db m ↔
      s.stored = db ∧ (server.commit s = .stillOpen → s.inTransaction = false) := by
  refine ⟨fun hends => hends.commits s h hcommit, fun hleft => ⟨hwhole, ?_, ?_⟩⟩
  · intro s' error h'
    cases h.symm.trans h'
  · intro s' h' _
    cases h.symm.trans h'
    exact hleft

/-- A migration is stored, or it fails; then the database is as it was with nothing open just when the
migration `Ends`. -/
theorem executeUpdate_cases (server : Server Db) (db : Db) (m : FileMigration) :
    (∃ db', Stored server db m db' ∧
      (Target.closed db).executeUpdate server m = (Target.closed db', some true)) ∨
    (∃ t result, (Target.closed db).executeUpdate server m = (t, result) ∧ result ≠ some true ∧
      (∀ db', ¬Stored server db m db') ∧
      (t.session.stored = db ∧ t.Closed ↔ Ends server db m)) := by
  rw [executeUpdate_eq]
  cases hmid : m.midString with
  | true =>
      refine Or.inr ⟨_, _, rfl, by decide, fun db' hstored => ?_, fun hnone => ?_, fun hends => ?_⟩
      · exact absurd (hmid.symm.trans hstored.whole) Bool.noConfusion
      · cases hnone.2.1
      · cases hmid.symm.trans hends.whole
  | false =>
      rw [if_neg Bool.false_ne_true]
      have hnot : ∀ {s error}, m.apply server db = (s, error) →
          error ≠ none ∨ server.commit s ≠ .committed → ∀ db', ¬Stored server db m db' := by
        rintro s error happly hfails db' hstored
        obtain ⟨s', happly', hcommit, -⟩ := hstored.apply
        cases happly.symm.trans happly'
        exact hfails.elim (fun h => h rfl) fun h => h hcommit
      rcases happly : m.apply server db with ⟨s, _ | _ | _⟩
      · cases hcommit : server.commit s with
        | committed =>
            exact Or.inl ⟨s.reached, ⟨hmid, s, happly, hcommit, rfl⟩, by simp only [hcommit]; rfl⟩
        | rolledBack =>
            have hfails : server.commit s ≠ .committed := by rw [hcommit]; exact CommitOutcome.noConfusion
            have hleft := ends_iff_of_commit hmid happly hfails
            rw [hcommit] at hleft
            refine Or.inr ⟨⟨s.rollback, none⟩, some false, by simp only [hcommit], by decide,
              hnot happly (Or.inr hfails), Iff.trans ?_ hleft.symm⟩
            exact ⟨fun h => ⟨h.1, fun hopen => CommitOutcome.noConfusion hopen⟩,
              fun h => ⟨h.1, rfl, rfl⟩⟩
        | stillOpen =>
            have hfails : server.commit s ≠ .committed := by rw [hcommit]; exact CommitOutcome.noConfusion
            have hleft := ends_iff_of_commit hmid happly hfails
            refine Or.inr ⟨⟨s, none⟩, some false, by simp only [hcommit], by decide,
              hnot happly (Or.inr hfails), Iff.trans ?_ hleft.symm⟩
            exact ⟨fun h => ⟨h.1, fun _ => h.2.2⟩, fun h => ⟨h.1, rfl, h.2 hcommit⟩⟩
      · refine Or.inr ⟨⟨s.rollback, none⟩, some false, rfl, by decide,
          hnot happly (Or.inl (Option.some_ne_none _)),
          Iff.trans ?_ (ends_iff_of_error hmid happly).symm⟩
        exact ⟨fun h => ⟨h.1, fun hassert => QueryError.noConfusion hassert⟩, fun h => ⟨h.1, rfl, rfl⟩⟩
      · refine Or.inr ⟨⟨s, none⟩, none, rfl, by decide, hnot happly (Or.inl (Option.some_ne_none _)),
          Iff.trans ?_ (ends_iff_of_error hmid happly).symm⟩
        exact ⟨fun h => ⟨h.1, fun _ => h.2.2⟩, fun h => ⟨h.1, rfl, h.2 rfl⟩⟩

/-- The migrations of a list are stored one after another. -/
inductive AllStored (server : Server Db) : Db → List FileMigration → Db → Prop where
  | nil (db : Db) : AllStored server db [] db
  | cons {db db' db'' : Db} {m : FileMigration} {rest : List FileMigration}
      (first : Stored server db m db') (others : AllStored server db' rest db'') :
      AllStored server db (m :: rest) db''

/-- Every file that is reached `Ends`. -/
def Closes (server : Server Db) : List FileMigration → Db → Prop
  | [], _ => True
  | m :: rest, db => Ends server db m ∧ ∀ db', Stored server db m db' → Closes server rest db'

/-- A run has stored the migrations before the one that fails, which is the last that is executed, and
nothing of that one. -/
def Target.Outcome.Whole (outcome : Target.Outcome Db) (server : Server Db) (l : List FileMigration)
    (db : Db) : Prop :=
  ∃ stored, AllStored server db stored outcome.target.session.stored ∧
    (outcome.result = some true ∧ outcome.executed = stored ∧ stored = l ∨
      outcome.result ≠ some true ∧ ∃ failed, outcome.executed = stored ++ [failed])

theorem executeAll_stored (h : Stored server db m db') :
    Target.executeAll server (m :: l) (Target.closed db) =
      ⟨(Target.executeAll server l (Target.closed db')).target,
        m :: (Target.executeAll server l (Target.closed db')).executed,
        (Target.executeAll server l (Target.closed db')).result⟩ := by
  rcases executeUpdate_cases server db m with ⟨other, hother, hupdate⟩ | ⟨_, _, -, -, hnot, -⟩
  · simp only [Target.executeAll, hupdate, if_true, h.unique hother]
  · exact absurd h (hnot db')

theorem executeAll_failed {t : Target Db} {result : Option Bool} (hresult : result ≠ some true)
    (h : (Target.closed db).executeUpdate server m = (t, result)) :
    Target.executeAll server (m :: l) (Target.closed db) = ⟨t, [m], result⟩ := by
  simp only [Target.executeAll, h, if_neg hresult]

/-- What is executed is the beginning of the list. -/
theorem executeAll_prefix (server : Server Db) (l : List FileMigration) (db : Db) :
    (Target.executeAll server l (Target.closed db)).executed <+: l := by
  induction l generalizing db with
  | nil => exact List.prefix_rfl
  | cons m rest ih =>
      rcases executeUpdate_cases server db m with ⟨db', hstored, -⟩ | ⟨t, result, hupdate, hresult, -⟩
      · rw [executeAll_stored hstored]
        exact (List.prefix_cons_inj m).mpr (ih db')
      · rw [executeAll_failed hresult hupdate]
        exact ⟨rest, rfl⟩

/-- A run that fails has executed something. -/
theorem executed_ne_nil (h : (Target.executeAll server l (Target.closed db)).result ≠ some true) :
    (Target.executeAll server l (Target.closed db)).executed ≠ [] := by
  cases l with
  | nil => exact absurd rfl h
  | cons m rest =>
      rcases executeUpdate_cases server db m with ⟨db', hstored, -⟩ | ⟨t, result, hupdate, hresult, -⟩
      · rw [executeAll_stored hstored]
        exact List.cons_ne_nil _ _
      · rw [executeAll_failed hresult hupdate]
        exact List.cons_ne_nil _ _

/-- The rest of a run is whole just when the run is, the first migration of which is stored. -/
theorem whole_cons_iff (h : Stored server db m db') :
    (Target.executeAll server (m :: l) (Target.closed db)).Whole server (m :: l) db ↔
      (Target.executeAll server l (Target.closed db')).Whole server l db' := by
  rw [executeAll_stored h]
  constructor
  · rintro ⟨stored, hall, ⟨hok, hexecuted, hplan⟩ | ⟨hbad, failed, hexecuted⟩⟩
    · cases hall with
      | nil => cases hplan
      | cons hfirst hothers =>
          cases hplan
          cases h.unique hfirst
          exact ⟨_, hothers, Or.inl ⟨hok, (List.cons_inj_right _).mp hexecuted, rfl⟩⟩
    · cases hall with
      | nil =>
          -- only the first would be executed, but a run that fails goes on to the one that fails
          exact absurd (List.cons.inj hexecuted).2 (executed_ne_nil hbad)
      | cons hfirst hothers =>
          obtain ⟨rfl, hrest⟩ := List.cons.inj hexecuted
          cases h.unique hfirst
          exact ⟨_, hothers, Or.inr ⟨hbad, failed, hrest⟩⟩
  · rintro ⟨stored, hall, ⟨hok, hexecuted, hplan⟩ | ⟨hbad, failed, hexecuted⟩⟩
    · exact ⟨m :: stored, .cons h hall, Or.inl ⟨hok, congrArg _ hexecuted, congrArg _ hplan⟩⟩
    · exact ⟨m :: stored, .cons h hall, Or.inr ⟨hbad, failed, congrArg _ hexecuted⟩⟩

/-- A run is whole and leaves nothing open just when every file that it reaches `Ends`. -/
theorem executeAll_whole_iff (server : Server Db) (l : List FileMigration) (db : Db) :
    (Target.executeAll server l (Target.closed db)).Whole server l db ∧
      (Target.executeAll server l (Target.closed db)).target.Closed ↔ Closes server l db := by
  induction l generalizing db with
  | nil => exact ⟨fun _ => trivial, fun _ => ⟨⟨[], .nil db, Or.inl ⟨rfl, rfl, rfl⟩⟩, rfl, rfl⟩⟩
  | cons m rest ih =>
      rcases executeUpdate_cases server db m with
        ⟨db', hstored, -⟩ | ⟨t, result, hupdate, hresult, hnot, hends⟩
      · have hclosed : (Target.executeAll server (m :: rest) (Target.closed db)).target.Closed ↔
            (Target.executeAll server rest (Target.closed db')).target.Closed := by
          rw [executeAll_stored hstored]
        rw [whole_cons_iff hstored, hclosed, ih db']
        refine ⟨fun hcloses => ⟨hstored.ends, fun other hother => ?_⟩, fun h => h.2 db' hstored⟩
        rw [← hstored.unique hother]
        exact hcloses
      -- the first migration fails, and nothing after it is executed
      · rw [executeAll_failed hresult hupdate]
        refine Iff.trans ⟨?_, ?_⟩ (hends.trans
          ⟨fun h => ⟨h, fun db' hstored => absurd hstored (hnot db')⟩, And.left⟩)
        · rintro ⟨⟨stored, hall, ⟨hok, -⟩ | ⟨-, failed, hexecuted⟩⟩, hclosed⟩
          · exact absurd hok hresult
          · have hnil : stored = [] := (List.append_eq_singleton_iff.mp hexecuted.symm).elim
              And.left fun h => absurd h.2 (List.cons_ne_nil _ _)
            subst hnil
            cases hall
            exact ⟨rfl, hclosed⟩
        · rintro ⟨hstored, hclosed⟩
          refine ⟨⟨[], ?_, Or.inr ⟨hresult, m, rfl⟩⟩, hclosed⟩
          rw [hstored]
          exact .nil db

end Execution

section Run

variable {Db : Type*} {server : Server Db} {hash : List Char → String} {moduleName : String}

/-- A text without a quote or a backslash. -/
def Plain (text : String) : Prop := singleQuote ∉ text.toList ∧ backslash ∉ text.toList

/-- The statement that records a migration adds it to those that the table lists, when its texts are
plain. -/
def Server.Records (server : Server Db) : Prop :=
  ∀ (m : FileMigration) (s s' : Session Db), Plain m.name → Plain m.module → Plain m.hash →
    server.execute s m.recordQuery = (s', none) →
      server.migrations s'.reached = server.migrations s.reached ++ [m.toMigration]

/-- A stored migration is listed. -/
theorem Stored.recorded (hrecords : server.Records) {db db' : Db} {m : FileMigration}
    (h : Stored server db m db') (hname : Plain m.name) (hmodule : Plain m.module)
    (hhash : Plain m.hash) : m.toMigration ∈ server.migrations db' := by
  obtain ⟨s, happly, -, rfl⟩ := h.apply
  unfold FileMigration.apply at happly
  rw [run_append] at happly
  rcases hqueries : server.run m.queries (Session.closed db).start with ⟨reached, _ | error⟩
  · simp only [hqueries, Server.run] at happly
    rcases hrecord : server.execute reached m.recordQuery with ⟨after, _ | error⟩
    · simp only [hrecord] at happly
      cases happly
      rw [hrecords m reached s hname hmodule hhash hrecord]
      exact List.mem_append_right _ (List.mem_singleton.mpr rfl)
    · simp only [hrecord] at happly
      cases happly
  · simp only [hqueries] at happly
    cases happly

/-- A run of `ProcessTargetUpdates` with nothing open. -/
def process (server : Server Db) (hash : List Char → String) (moduleName : String) (sortByName : Bool)
    (iterate : Iteration) (d : Directory) (db : Db) : Target.Outcome Db :=
  Target.processTargetUpdates server hash moduleName sortByName iterate.order d.entries
    (Target.closed db)

/-- What is executed is not listed. -/
theorem process_fresh {sortByName : Bool} {iterate : Iteration} {d : Directory} {db : Db}
    {m : FileMigration}
    (h : m ∈ (process server hash moduleName sortByName iterate d db).executed) :
    ∀ recorded ∈ server.migrations db, ¬(recorded.module = m.module ∧ recorded.hash = m.hash) := by
  have hinitial := executeAll_prefix server
    (plan hash moduleName sortByName (server.migrations db) iterate d) db
  have hnew : Unrecorded (server.migrations db) m := (mem_plan.mp (List.IsPrefix.subset hinitial h)).2
  rintro recorded hin ⟨hmodule, hhash⟩
  refine hnew (List.mem_map.mpr ⟨recorded, hin, ?_⟩)
  unfold Migration.key
  rw [hmodule, hhash]

/-- Migrations run once, and each as a whole or not at all. -/
structure ExactlyOnce (server : Server Db) (hash : List Char → String) (moduleName : String)
    (sortByName : Bool) (iterate : Iteration) (d : Directory) (db : Db) : Prop where
  fresh : ∀ m ∈ (process server hash moduleName sortByName iterate d db).executed,
    ∀ recorded ∈ server.migrations db, ¬(recorded.module = m.module ∧ recorded.hash = m.hash)
  once : ((process server hash moduleName sortByName iterate d db).executed.map
    fun m => (m.module, m.hash)).Nodup
  planned : (process server hash moduleName sortByName iterate d db).executed <+:
    plan hash moduleName sortByName (server.migrations db) iterate d
  ordered : ∀ (iterate' : Iteration) (d' : Directory), d'.entries.Perm d.entries →
    plan hash moduleName sortByName (server.migrations db) iterate' d' =
      plan hash moduleName sortByName (server.migrations db) iterate d
  atomic : (process server hash moduleName sortByName iterate d db).Whole server
    (plan hash moduleName sortByName (server.migrations db) iterate d) db
  recorded : ∀ m ∈ (process server hash moduleName sortByName iterate d db).executed,
    ∀ db₁ db₂, Stored server db₁ m db₂ → m.toMigration ∈ server.migrations db₂
  closed : (process server hash moduleName sortByName iterate d db).target.Closed
  again : ∀ (iterate' : Iteration) (d' : Directory), d'.entries.Perm d.entries →
    ∀ m ∈ (process server hash moduleName sortByName iterate' d'
        (process server hash moduleName sortByName iterate d db).target.session.stored).executed,
      ∀ recorded ∈ server.migrations
          (process server hash moduleName sortByName iterate d db).target.session.stored,
        ¬(recorded.module = m.module ∧ recorded.hash = m.hash)

end Run

section Example

/-- The text of the statement of a record before its name. -/
def recordHead : String := "INSERT INTO `migrations` (`Name`, `Module`, `Hash`, `AppliedAt`) VALUES ("

/-- The migration that a statement records. -/
def recordOf (sql : String) : Option Migration :=
  match sql.toList.splitOn singleQuote with
  | [head, name, _, module, _, hash, _] =>
      if head = recordHead.toList then
        some ⟨String.ofList hash, String.ofList name, String.ofList module⟩
      else none
  | _ => none

/-- A database that is the journal of its statements. -/
def journal : Server (List String) :=
  ⟨fun s sql => ({ s with reached := s.reached ++ [sql] }, none), fun _ => .committed,
    fun db => db.filterMap recordOf⟩

/-- A journal in a table without transactions, with a statement that ends in an error. -/
def failing (error : QueryError) : Server (List String) :=
  ⟨fun s sql =>
      if sql = "?;" then (s, some error)
      else ({ s with stored := s.stored ++ [sql], reached := s.reached ++ [sql] }, none),
    fun _ => .committed, fun db => db.filterMap recordOf⟩

theorem journal_records : journal.Records := by
  rintro m s s' ⟨hname, -⟩ ⟨hmodule, -⟩ ⟨hhash, -⟩ hexecute
  cases hexecute
  have hsplit : m.recordQuery.toList.splitOn singleQuote =
      [recordHead.toList, m.name.toList, ", ".toList, m.module.toList, ", ".toList, m.hash.toList,
        ", NOW());".toList] := by
    have hjoin : m.recordQuery.toList = List.intercalate [singleQuote]
        [recordHead.toList, m.name.toList, ", ".toList, m.module.toList, ", ".toList, m.hash.toList,
          ", NOW());".toList] := by
      unfold FileMigration.recordQuery recordHead singleQuote
      simp [List.intercalate]
    rw [hjoin]
    refine List.splitOn_intercalate singleQuote (fun part hpart => ?_) (List.cons_ne_nil _ _)
    simp only [List.mem_cons, List.not_mem_nil, or_false] at hpart
    rcases hpart with rfl | rfl | rfl | rfl | rfl | rfl | rfl
    · decide
    · exact hname
    · decide
    · exact hmodule
    · decide
    · exact hhash
    · decide
  have hrecord : recordOf m.recordQuery = some m.toMigration := by
    unfold recordOf
    rw [hsplit]
    simp
  show (s.reached ++ [m.recordQuery]).filterMap recordOf =
    s.reached.filterMap recordOf ++ [m.toMigration]
  rw [List.filterMap_append]
  simp [hrecord]

/-- A hash without quotes. -/
def plainHash (data : List Char) : String :=
  String.ofList (data.filter fun c => c ≠ singleQuote && c ≠ backslash)

theorem plainHash_plain (data : List Char) : Plain (plainHash data) := by
  unfold Plain plainHash
  simp [List.mem_filter]

/-- The map is gone through as it is. -/
def inOrder : Iteration := ⟨id, fun l => List.Perm.refl l⟩

/-- An update of the given content. -/
def updateFile (stem : String) (lastWriteTime : ℤ) (data : List Char) : DirectoryEntry :=
  ⟨stem, ".sql", true, lastWriteTime, some data⟩

/-- A directory of one update. -/
def oneFile (data : List Char) : Directory := ⟨[updateFile "first" 1 data], List.nodup_singleton _⟩

end Example

end TwowCore.Database
