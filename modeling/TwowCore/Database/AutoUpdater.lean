import Mathlib
import TwowCore.Lib.Run

/-!
# The updater of the databases

`AutoUpdater`: the migrations of a folder that a table of the database does not list yet, each in a
transaction of its own together with its record in that table. The database server is a parameter: what a
statement does to the session of the connection, what a `COMMIT` comes to, and which migrations its table
lists. So is the hash of a file.
-/

namespace TwowCore.Database

/-- A file of a folder of updates, with its bytes when it can be opened. -/
structure DirectoryEntry where
  stem : String
  extension : String
  isRegularFile : Bool
  lastWriteTime : ℤ
  data : Option (List Char)
  deriving DecidableEq, Repr

/-- `Migration`. -/
structure Migration where
  hash : String
  name : String
  module : String
  deriving DecidableEq, Repr

/-- `FileMigration`. -/
structure FileMigration extends Migration where
  fileData : List Char
  modifiedAt : ℤ
  deriving DecidableEq, Repr

/-- `UpdateExtension`. -/
def updateExtension : String := ".sql"

/-- `GetMigrationKey`. -/
def Migration.key (m : Migration) : String := m.module ++ ":" ++ m.hash

/-- The migration of a file that can be opened. -/
def DirectoryEntry.migration (hash : List Char → String) (moduleName : String) (update : DirectoryEntry) :
    Option FileMigration :=
  update.data.map fun data => ⟨⟨hash data, update.stem, moduleName⟩, data, update.lastWriteTime⟩

/-- `insert` into a map of migrations, which keeps what it has. -/
def insertNew (fileMigrations : List FileMigration) (migration : FileMigration) : List FileMigration :=
  if migration.key ∈ fileMigrations.map (fun m => m.key) then fileMigrations
  else fileMigrations ++ [migration]

/-- The migrations of the possible updates of a directory. -/
def candidates (hash : List Char → String) (moduleName : String) (entries : List DirectoryEntry) :
    List FileMigration :=
  let possibleUpdates :=
    entries.filter fun entry => entry.isRegularFile && entry.extension == updateExtension
  possibleUpdates.filterMap (DirectoryEntry.migration hash moduleName)

/-- `LoadFileMigrations`, of the files in the order in which the directory lists them. -/
def loadFileMigrations (hash : List Char → String) (moduleName : String)
    (entries : List DirectoryEntry) : List FileMigration :=
  (candidates hash moduleName entries).foldl insertNew []

/-- The order of the updates. -/
def before (sortByName : Bool) (e₁ e₂ : FileMigration) : Bool :=
  if sortByName then
    if e₁.name ≠ e₂.name then decide (e₁.name < e₂.name) else decide (e₁.modifiedAt < e₂.modifiedAt)
  else
    if e₁.modifiedAt ≠ e₂.modifiedAt then decide (e₁.modifiedAt < e₂.modifiedAt)
    else decide (e₁.name < e₂.name)

/-- The updates of `ProcessTargetUpdates`. `iterate` is the order in which the map is gone through. -/
def updates (sortByName : Bool) (dbMigrations : List Migration)
    (iterate : List FileMigration → List FileMigration) (fileMigrations : List FileMigration) :
    List FileMigration :=
  ((iterate fileMigrations).filter fun m => decide (m.key ∉ dbMigrations.map Migration.key)).insertionSort
    fun e₁ e₂ => before sortByName e₂ e₁ = false

/-- `StringStatus`. -/
inductive StringStatus where
  | none
  | singleQuotes
  | doubleQuotes
  deriving DecidableEq, Repr

/-- `CommentScope`. -/
inductive CommentScope where
  | none
  | singleline
  | multiline
  deriving DecidableEq, Repr

/-- The locals of the loop that splits a file into queries. -/
structure Splitter where
  stringScope : StringStatus
  commentScope : CommentScope
  query : List Char
  queries : List (List Char)
  deriving DecidableEq, Repr

/-- The character of single quotes. -/
def singleQuote : Char := Char.ofNat 39

/-- The character of double quotes. -/
def doubleQuote : Char := Char.ofNat 34

/-- The character that escapes. -/
def backslash : Char := Char.ofNat 92

/-- A quote ends the string that it has opened when no backslash is before it, and no other. -/
def quoteScope (own : StringStatus) (prevChar : Option Char) (stringScope : StringStatus) :
    StringStatus :=
  if stringScope = .none then own
  else if stringScope = own ∧ prevChar ≠ some backslash then .none
  else stringScope

/-- The string status after a character outside of comments. -/
def scopeAfter (prevChar : Option Char) (ch : Char) (stringScope : StringStatus) : StringStatus :=
  if ch = singleQuote then quoteScope .singleQuotes prevChar stringScope
  else if ch = doubleQuote then quoteScope .doubleQuotes prevChar stringScope
  else stringScope

/-- A character of the file, with its neighbours. -/
def Splitter.next (s : Splitter) (prevChar : Option Char) (ch : Char) (nextChar : Option Char) :
    Splitter :=
  if ch = '\r' ∨ ch = '\n' then
    { s with
      query := if ch = '\n' then s.query ++ [' '] else s.query
      commentScope := if s.commentScope = .singleline then .none else s.commentScope }
  else if ch = '/' ∧ s.commentScope = .multiline ∧ prevChar = some '*' then
    { s with commentScope := .none }
  else if ch = '/' ∧ s.stringScope = .none ∧ nextChar = some '*' then
    { s with commentScope := .multiline }
  else if s.commentScope ≠ .none then s
  else if ch = '-' ∧ s.stringScope = .none ∧ nextChar = some '-' then
    { s with commentScope := .singleline }
  else
    let scope := scopeAfter prevChar ch s.stringScope
    if ch = ';' ∧ scope = .none then
      { s with stringScope := scope, query := [], queries := s.queries ++ [s.query ++ [ch]] }
    else { s with stringScope := scope, query := s.query ++ [ch] }

/-- The loop. -/
def splitFrom (prevChar : Option Char) : List Char → Splitter → Splitter
  | [], s => s
  | ch :: rest, s => splitFrom (some ch) rest (s.next prevChar ch rest.head?)

/-- The loop over a file. -/
def FileMigration.split (m : FileMigration) : Splitter :=
  splitFrom none m.fileData ⟨.none, .none, [], []⟩

/-- A string as `c_str()` gives it. -/
def cStr (query : List Char) : String := String.ofList (query.takeWhile fun c => c ≠ Char.ofNat 0)

/-- The queries of a file, the last of which need not end. -/
def FileMigration.queries (m : FileMigration) : List String :=
  let s := m.split
  (s.queries ++ if s.query.any fun c => c ∉ ['\t', '\r', '\n', ' '] then [s.query] else []).map cStr

/-- The file ends inside of a string. -/
def FileMigration.midString (m : FileMigration) : Bool := decide (m.split.stringScope ≠ .none)

/-- The statement that records a migration. -/
def FileMigration.recordQuery (m : FileMigration) : String :=
  "INSERT INTO `migrations` (`Name`, `Module`, `Hash`, `AppliedAt`) VALUES ('" ++ m.name ++ "', '" ++
    m.module ++ "', '" ++ m.hash ++ "', NOW());"

/-- What becomes of the error of a statement: `HandleMySQLError` returns false, or it asserts. -/
inductive QueryError where
  | handled
  | asserted
  deriving DecidableEq, Repr

/-- What a `COMMIT` comes to. -/
inductive CommitOutcome where
  | committed
  | rolledBack
  | stillOpen
  deriving DecidableEq, Repr

/-- The connection at the server: what a `ROLLBACK` comes back to, what its statements have reached, and
whether a transaction is open. -/
structure Session (Db : Type*) where
  stored : Db
  reached : Db
  inTransaction : Bool
  deriving DecidableEq, Repr

/-- The database server: what a statement makes of a session, with the error that it ends in; what the
`COMMIT` of a transaction comes to; and the migrations that the table lists. A statement on a table without
transactions is stored at once, and one that defines a table commits what is open, also when it fails. -/
structure Server (Db : Type*) where
  execute : Session Db → String → Session Db × Option QueryError
  commit : Session Db → CommitOutcome
  migrations : Db → List Migration

variable {Db : Type*}

/-- `START TRANSACTION`, which commits what is open. -/
def Session.start (s : Session Db) : Session Db := ⟨s.reached, s.reached, true⟩

/-- `COMMIT`. -/
def Session.commit (s : Session Db) : Session Db := ⟨s.reached, s.reached, false⟩

/-- `ROLLBACK`. -/
def Session.rollback (s : Session Db) : Session Db := ⟨s.stored, s.stored, false⟩

/-- The statements of a transaction, up to the first that fails. -/
def Server.run (server : Server Db) : List String → Session Db → Session Db × Option QueryError
  | [], s => (s, none)
  | sql :: rest, s =>
      match server.execute s sql with
      | (s, none) => server.run rest s
      | (s, some error) => (s, some error)

/-- `Database`: its connection, and the statements of the `SqlTransaction` of the thread, if it has one. -/
structure Target (Db : Type*) where
  session : Session Db
  transaction : Option (List String)

namespace Target

/-- `BeginTransaction`. -/
def beginTransaction (t : Target Db) : Option (Target Db) :=
  if t.transaction.isSome then none else some { t with transaction := some [] }

/-- `Execute` in a transaction. -/
def execute (t : Target Db) (sql : String) : Target Db :=
  { t with transaction := t.transaction.map (· ++ [sql]) }

/-- `SqlTransaction::Execute`, with what it returns unless an assertion throws. -/
def runTransaction (server : Server Db) (t : Target Db) (queue : List String) :
    Target Db × Option Bool :=
  if queue = [] then (t, some true)
  else
    match server.run queue t.session.start with
    | (s, some .asserted) => ({ t with session := s }, none)
    | (s, some .handled) => ({ t with session := s.rollback }, some false)
    | (s, none) =>
        match server.commit s with
        | .committed => ({ t with session := s.commit }, some true)
        | .rolledBack => ({ t with session := s.rollback }, some false)
        | .stillOpen => ({ t with session := s }, some false)

/-- `CommitTransactionDirect`. -/
def commitTransactionDirect (server : Server Db) (t : Target Db) : Target Db × Option Bool :=
  runTransaction server { t with transaction := none } (t.transaction.getD [])

/-- `ExecuteUpdate`. -/
def executeUpdate (server : Server Db) (t : Target Db) (migration : FileMigration) :
    Target Db × Option Bool :=
  match t.beginTransaction with
  | none => (t, some false)
  | some t =>
      if migration.midString then (t, some false)
      else ((migration.queries.foldl execute t).execute migration.recordQuery).commitTransactionDirect
        server

/-- What comes of a run: the database, the migrations that were executed, and what it returns unless an
assertion throws. -/
structure Outcome (Db : Type*) where
  target : Target Db
  executed : List FileMigration
  result : Option Bool

/-- The loop of `ProcessTargetUpdates`. -/
def executeAll (server : Server Db) : List FileMigration → Target Db → Outcome Db
  | [], t => ⟨t, [], some true⟩
  | update :: rest, t =>
      let (t, success) := t.executeUpdate server update
      if success = some true then
        let outcome := executeAll server rest t
        ⟨outcome.target, update :: outcome.executed, outcome.result⟩
      else ⟨t, [update], success⟩

/-- `ProcessTargetUpdates`. -/
def processTargetUpdates (server : Server Db) (hash : List Char → String) (moduleName : String)
    (sortByName : Bool) (iterate : List FileMigration → List FileMigration)
    (entries : List DirectoryEntry) (t : Target Db) : Outcome Db :=
  executeAll server
    (updates sortByName (server.migrations t.session.reached) iterate
      (loadFileMigrations hash moduleName entries)) t

end Target

end TwowCore.Database
