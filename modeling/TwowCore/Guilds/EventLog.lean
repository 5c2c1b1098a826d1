import Mathlib
import TwowCore.Lib.Run

/-!
# The event log of a guild

`LogGuildEvent` writes an event under the next number of a ring into `guild_eventlog` and behind a list in
memory that keeps the last hundred. After a restart `LoadGuildEventLogFromDB` finds the list and the place in
the ring again by the time stamps.

`Ring` says what the rows are: the last events in their order, each under the number it came under.
-/

namespace TwowCore.Guilds

/-- `GUILD_EVENTLOG_MAX_RECORDS`. -/
def guildEventlogMaxRecords : ℕ := 100

/-- `GuildEventLogEntry`. -/
structure GuildEventLogEntry where
  eventType : UInt8
  playerGuid1 : UInt32
  playerGuid2 : UInt32
  newRank : UInt8
  timeStamp : UInt64
  deriving DecidableEq, Repr

/-- A row of `guild_eventlog`. -/
structure EventLogRow where
  guildid : UInt32
  logGuid : UInt32
  entry : GuildEventLogEntry
  deriving DecidableEq, Repr

/-- The event log of a guild, in memory and in the table. -/
structure EventLog where
  id : UInt32
  guildEventLog : List GuildEventLogEntry
  guildEventLogNextGuid : UInt32
  table : List EventLogRow
  deriving DecidableEq, Repr

/-- What happens to the log. -/
inductive EventLogStep where
  | logGuildEvent (event : GuildEventLogEntry)
  | restart
  deriving DecidableEq, Repr

namespace EventLog

/-- The rows of the guild. -/
def rows (log : EventLog) : List EventLogRow := log.table.filter fun row => row.guildid == log.id

/-- `ORDER BY TimeStamp DESC, LogGuid DESC`. -/
def OrderedBefore (a b : EventLogRow) : Prop :=
  b.entry.timeStamp < a.entry.timeStamp ∨
    b.entry.timeStamp = a.entry.timeStamp ∧ b.logGuid ≤ a.logGuid

instance instDecidableOrderedBefore : DecidableRel OrderedBefore := fun _ _ =>
  inferInstanceAs (Decidable (_ ∨ _))

/-- `LoadGuildEventLogFromDB`. -/
def loadGuildEventLogFromDB (log : EventLog) : EventLog :=
  match (log.rows.insertionSort OrderedBefore).take guildEventlogMaxRecords with
  | [] => log
  | first :: rest =>
      { log with
        guildEventLogNextGuid := first.logGuid
        guildEventLog := (first :: rest).foldl (fun events row => row.entry :: events) log.guildEventLog }

/-- A restart: a new `Guild` loads its log, and `LoadGuilds` deletes what is beyond the ring. -/
def restart (count : UInt32) (log : EventLog) : EventLog :=
  let loaded := loadGuildEventLogFromDB { log with guildEventLog := [], guildEventLogNextGuid := 0 }
  { loaded with table := loaded.table.filter fun row => decide ¬ count < row.logGuid }

/-- `LogGuildEvent`, with the configured number of rows. -/
def logGuildEvent (count : UInt32) (log : EventLog) (event : GuildEventLogEntry) : EventLog :=
  let next := (log.guildEventLogNextGuid + 1) % count
  let events :=
    if guildEventlogMaxRecords ≤ log.guildEventLog.length then log.guildEventLog.tail
    else log.guildEventLog
  { log with
    guildEventLogNextGuid := next
    guildEventLog := events ++ [event]
    table := (log.table.filter fun row => !(row.guildid == log.id && row.logGuid == next)) ++
      [⟨log.id, next, event⟩] }

/-- One step. -/
def step (count : UInt32) (log : EventLog) : EventLogStep → EventLog
  | .logGuildEvent event => log.logGuildEvent count event
  | .restart => log.restart count

end EventLog

/-- The events that were logged. -/
def loggedEvents (steps : List EventLogStep) : List GuildEventLogEntry :=
  steps.filterMap fun
    | .logGuildEvent event => some event
    | .restart => none

/-- The last so many of a list. -/
def lastOf {α : Type} (n : ℕ) (l : List α) : List α := l.drop (l.length - n)

namespace EventLog

/-! ## The ring -/

/-- The rows of the last events: each under its number in the ring. -/
def ringRows (id : UInt32) (count : ℕ) (events : List GuildEventLogEntry) : List EventLogRow :=
  (lastOf count events.zipIdx).map fun e => ⟨id, ((e.2 + 1) % count).toUInt32, e.1⟩

/-- The log after some events. -/
structure Ring (count : UInt32) (events : List GuildEventLogEntry) (log : EventLog) : Prop where
  rows : log.rows = ringRows log.id count.toNat events
  next : log.guildEventLogNextGuid.toNat = events.length % count.toNat
  memory : log.guildEventLog = lastOf guildEventlogMaxRecords events

section Last

variable {α : Type}

theorem length_lastOf (n : ℕ) (l : List α) : (lastOf n l).length = min n l.length := by
  rw [lastOf, List.length_drop]
  omega

/-- The last ones with one more: the first of a full list goes. -/
theorem lastOf_concat {n : ℕ} (hn : 0 < n) (l : List α) (a : α) :
    lastOf n (l ++ [a]) = (if n ≤ (lastOf n l).length then (lastOf n l).tail else lastOf n l) ++ [a] := by
  rw [length_lastOf]
  unfold lastOf
  rw [List.length_append, List.length_singleton]
  split
  · next hfull =>
      rw [List.tail_drop, List.drop_append_of_le_length (by omega)]
      congr 2
      omega
  · next hroom =>
      rw [List.drop_append_of_le_length (by omega)]
      congr 2
      omega

theorem lastOf_lastOf {m n : ℕ} (h : m ≤ n) (l : List α) : lastOf m (lastOf n l) = lastOf m l := by
  unfold lastOf
  rw [List.drop_drop, List.length_drop]
  congr 1
  omega

theorem map_lastOf {β : Type} (f : α → β) (n : ℕ) (l : List α) : (lastOf n l).map f = lastOf n (l.map f) := by
  rw [lastOf, lastOf, List.map_drop, List.length_map]

theorem reverse_take_reverse (n : ℕ) (l : List α) : (l.reverse.take n).reverse = lastOf n l := by
  rw [List.take_reverse, List.reverse_reverse, lastOf]

end Last

theorem entry_ringRows (id : UInt32) (count : ℕ) (events : List GuildEventLogEntry) :
    (ringRows id count events).map EventLogRow.entry = lastOf count events := by
  rw [ringRows, List.map_map]
  show (lastOf count events.zipIdx).map Prod.fst = _
  rw [map_lastOf, List.zipIdx_map_fst]

/-- The number of an event among the last ones. -/
theorem mem_lastOf_zipIdx {n : ℕ} {events : List GuildEventLogEntry} {e : GuildEventLogEntry × ℕ}
    (h : e ∈ lastOf n events.zipIdx) : e.2 < events.length ∧ events.length ≤ e.2 + n := by
  obtain ⟨event, i⟩ := e
  obtain ⟨j, hj, hget⟩ := List.mem_iff_getElem.mp h
  unfold lastOf at hget hj
  rw [List.getElem_drop, List.getElem_zipIdx, Prod.mk.injEq] at hget
  have hi := hget.2
  rw [List.length_zipIdx] at hi
  rw [List.length_drop, List.length_zipIdx] at hj
  omega

theorem mem_ringRows {id : UInt32} {count : ℕ} {events : List GuildEventLogEntry} {row : EventLogRow}
    (h : row ∈ ringRows id count events) : row.guildid = id ∧ ∃ i, i < events.length ∧
      events.length ≤ i + count ∧ row.logGuid = ((i + 1) % count).toUInt32 := by
  obtain ⟨⟨event, i⟩, hmem, rfl⟩ := List.mem_map.mp h
  obtain ⟨hlt, hle⟩ := mem_lastOf_zipIdx hmem
  exact ⟨rfl, i, hlt, hle, rfl⟩

section Numbers

variable {count : UInt32}

theorem toNat_ringNumber (hcount : 0 < count.toNat) (i : ℕ) :
    ((i % count.toNat).toUInt32).toNat = i % count.toNat := by
  have hlt := Nat.mod_lt i hcount
  have hword := count.toNat_lt
  rw [Nat.toUInt32, UInt32.toNat_ofNat']
  exact Nat.mod_eq_of_lt (by omega)

/-- Two events within a ring have one number only if they are one event. -/
theorem ringNumber_inj (hcount : 0 < count.toNat) {i j : ℕ} (hle : i ≤ j) (hlt : j < i + count.toNat)
    (h : (i % count.toNat).toUInt32 = (j % count.toNat).toUInt32) : i = j := by
  have hnat := congrArg UInt32.toNat h
  rw [toNat_ringNumber hcount, toNat_ringNumber hcount] at hnat
  have hmod : (j - i) % count.toNat = 0 := Nat.sub_mod_eq_zero_of_mod_eq hnat.symm
  rw [Nat.mod_eq_of_lt (by omega)] at hmod
  omega

end Numbers

variable {count : UInt32} {events : List GuildEventLogEntry} {log : EventLog}

/-- The numbers of the rows are distinct. -/
theorem nodup_ringRows (hcount : 0 < count.toNat) (id : UInt32) (events : List GuildEventLogEntry) :
    ((ringRows id count.toNat events).map EventLogRow.logGuid).Nodup := by
  have hdistinct : ((lastOf count.toNat events.zipIdx).map Prod.snd).Nodup := by
    rw [map_lastOf, List.zipIdx_map_snd]
    exact List.Nodup.sublist (List.drop_sublist _ _) List.nodup_range'
  rw [ringRows, List.map_map]
  refine List.Nodup.map_on ?_ (List.Nodup.of_map _ hdistinct)
  intro ⟨a, i⟩ ha ⟨b, j⟩ hb heq
  obtain ⟨hi, hi'⟩ := mem_lastOf_zipIdx ha
  obtain ⟨hj, hj'⟩ := mem_lastOf_zipIdx hb
  have hij : i = j := by
    rcases Nat.le_total i j with hle | hle
    · have h := ringNumber_inj hcount (by omega) (by omega) heq
      omega
    · have h := ringNumber_inj hcount (by omega) (by omega) heq.symm
      omega
  exact List.inj_on_of_nodup_map hdistinct ha hb hij

/-- An event more: the row that has its number goes, which is the oldest of a full ring. -/
theorem ringRows_concat (hcount : 0 < count.toNat) (id : UInt32) (events : List GuildEventLogEntry)
    (event : GuildEventLogEntry) :
    ringRows id count.toNat (events ++ [event]) =
      ((ringRows id count.toNat events).filter fun row =>
        !(row.logGuid == ((events.length + 1) % count.toNat).toUInt32)) ++
        [⟨id, ((events.length + 1) % count.toNat).toUInt32, event⟩] := by
  have hkept : ∀ l : List (GuildEventLogEntry × ℕ),
      (∀ e ∈ l, e.2 < events.length ∧ events.length < e.2 + count.toNat) →
      (l.map fun e => (⟨id, ((e.2 + 1) % count.toNat).toUInt32, e.1⟩ : EventLogRow)).filter (fun row =>
        !(row.logGuid == ((events.length + 1) % count.toNat).toUInt32)) =
      l.map fun e => ⟨id, ((e.2 + 1) % count.toNat).toUInt32, e.1⟩ := by
    intro l hl
    refine List.filter_eq_self.mpr fun row hrow => ?_
    obtain ⟨e, he, rfl⟩ := List.mem_map.mp hrow
    obtain ⟨hlt, hclose⟩ := hl e he
    have hne : ((e.2 + 1) % count.toNat).toUInt32 ≠ ((events.length + 1) % count.toNat).toUInt32 := by
      intro heq
      have h := ringNumber_inj hcount (by omega) (by omega) heq
      omega
    simpa using hne
  rw [ringRows, List.zipIdx_append, List.zipIdx_singleton, lastOf_concat hcount, List.map_append,
    List.map_singleton, Nat.zero_add]
  congr 1
  rw [length_lastOf, List.length_zipIdx]
  by_cases hfull : count.toNat ≤ events.length
  · rw [if_pos (by omega)]
    -- The first of the last ones is the event a whole ring ago.
    obtain ⟨oldest, rest, hlast⟩ : ∃ oldest rest, lastOf count.toNat events.zipIdx = oldest :: rest := by
      refine List.exists_cons_of_ne_nil fun hnil => ?_
      have hlen := length_lastOf count.toNat events.zipIdx
      rw [hnil, List.length_nil, List.length_zipIdx] at hlen
      omega
    have hrest : rest = lastOf (count.toNat - 1) events.zipIdx := by
      have htail := congrArg List.tail hlast
      unfold lastOf at htail ⊢
      rw [List.tail_drop, List.tail_cons, List.length_zipIdx] at htail
      rw [← htail, List.length_zipIdx]
      congr 1
      omega
    have holdest : oldest.2 + count.toNat = events.length := by
      have hget : (lastOf count.toNat events.zipIdx)[0]? = some oldest := by rw [hlast]; rfl
      unfold lastOf at hget
      rw [List.getElem?_drop, List.getElem?_zipIdx, List.length_zipIdx] at hget
      obtain ⟨e, -, he⟩ := Option.map_eq_some_iff.mp hget
      have h := congrArg Prod.snd he
      simp only at h
      omega
    rw [ringRows, hlast, List.tail_cons, List.map_cons, List.filter_cons_of_neg, hkept]
    · intro e he
      rw [hrest] at he
      obtain ⟨hlt, hle⟩ := mem_lastOf_zipIdx he
      omega
    · have heq : ((oldest.2 + 1) % count.toNat).toUInt32 = ((events.length + 1) % count.toNat).toUInt32 := by
        rw [← holdest, Nat.add_right_comm, Nat.add_mod_right]
      simpa using heq
  · rw [if_neg (by omega), ringRows, hkept]
    intro e he
    obtain ⟨hlt, hle⟩ := mem_lastOf_zipIdx he
    omega

/-! ## The steps -/

/-- An event is logged. -/
theorem Ring.logGuildEvent (h : Ring count events log) (hcount : 0 < count.toNat)
    (event : GuildEventLogEntry) : Ring count (events ++ [event]) (log.logGuildEvent count event) := by
  have hnext : (log.guildEventLogNextGuid + 1) % count =
      ((events.length + 1) % count.toNat).toUInt32 := by
    have hlt := Nat.mod_lt events.length hcount
    have hword := count.toNat_lt
    have hone : (1 : UInt32).toNat = 1 := rfl
    rw [← UInt32.toNat_inj, toNat_ringNumber hcount, UInt32.toNat_mod, UInt32.toNat_add, h.next, hone,
      Nat.mod_eq_of_lt (a := events.length % count.toNat + 1) (by omega), Nat.mod_add_mod]
  refine ⟨?_, ?_, ?_⟩
  · show ((log.table.filter fun row : EventLogRow => !(row.guildid == log.id &&
        row.logGuid == (log.guildEventLogNextGuid + 1) % count)) ++
      [(⟨log.id, (log.guildEventLogNextGuid + 1) % count, event⟩ : EventLogRow)]).filter
        (fun row : EventLogRow => row.guildid == log.id) = ringRows log.id _ _
    rw [ringRows_concat hcount, ← h.rows, List.filter_append, hnext, List.filter_singleton]
    simp only [BEq.rfl]
    congr 1
    rw [EventLog.rows, List.filter_filter, List.filter_filter]
    refine List.filter_congr fun row _ => ?_
    cases row.guildid == log.id <;> simp
  · show ((log.guildEventLogNextGuid + 1) % count).toNat = _
    rw [hnext, toNat_ringNumber hcount, List.length_append, List.length_singleton]
  · show (if guildEventlogMaxRecords ≤ log.guildEventLog.length then log.guildEventLog.tail
      else log.guildEventLog) ++ [event] = _
    rw [lastOf_concat (by decide), h.memory]

theorem orderedBefore_iff (a b : EventLogRow) : OrderedBefore a b ↔
    b.entry.timeStamp.toNat < a.entry.timeStamp.toNat ∨
      b.entry.timeStamp.toNat = a.entry.timeStamp.toNat ∧ b.logGuid.toNat ≤ a.logGuid.toNat := by
  unfold OrderedBefore
  rw [UInt64.lt_iff_toNat_lt, ← UInt64.toNat_inj, UInt32.le_iff_toNat_le]

instance instTotalOrderedBefore : Std.Total OrderedBefore where
  total a b := by
    rw [orderedBefore_iff, orderedBefore_iff]
    omega

instance instTransOrderedBefore : IsTrans EventLogRow OrderedBefore where
  trans a b c hab hbc := by
    rw [orderedBefore_iff] at *
    omega

/-- Rows with increasing time stamps are selected from the last one back. -/
theorem insertionSort_of_increasing {rows : List EventLogRow}
    (h : (rows.map fun row => row.entry.timeStamp).Pairwise (· < ·)) :
    rows.insertionSort OrderedBefore = rows.reverse := by
  have hdistinct : (rows.map fun row => row.entry.timeStamp).Nodup :=
    h.imp fun hlt heq => absurd (UInt64.lt_iff_toNat_lt.mp hlt) (by rw [heq]; exact lt_irrefl _)
  refine @List.Perm.eq_of_pairwise _ OrderedBefore _ _ (fun a b ha hb hab hba => ?_)
    (List.pairwise_insertionSort _ _) ?_ ((List.perm_insertionSort _ _).trans (List.reverse_perm _).symm)
  · refine List.inj_on_of_nodup_map hdistinct ((List.perm_insertionSort _ _).mem_iff.mp ha)
      (List.mem_reverse.mp hb) ?_
    rw [orderedBefore_iff] at hab hba
    exact UInt64.toNat_inj.mp (by omega)
  · rw [List.pairwise_reverse]
    exact (List.pairwise_map.mp h).imp fun hlt => Or.inl hlt

theorem foldl_push_front (rows : List EventLogRow) (events : List GuildEventLogEntry) :
    rows.foldl (fun events row => row.entry :: events) events =
      (rows.map EventLogRow.entry).reverse ++ events := by
  induction rows generalizing events with
  | nil => rfl
  | cons row rest ih =>
      rw [List.foldl_cons, ih, List.map_cons, List.reverse_cons, List.append_assoc]
      rfl

/-- The log is loaded again. -/
theorem Ring.restart (h : Ring count events log) (hcount : guildEventlogMaxRecords ≤ count.toNat)
    (hincreasing : (events.map GuildEventLogEntry.timeStamp).Pairwise (· < ·)) :
    Ring count events (log.restart count) := by
  have hpos : 0 < count.toNat := lt_of_lt_of_le (by decide) hcount
  have hstamps : (log.rows.map fun row => row.entry.timeStamp).Pairwise (· < ·) := by
    have hmap : (log.rows.map fun row => row.entry.timeStamp) =
        (lastOf count.toNat events).map GuildEventLogEntry.timeStamp := by
      rw [← entry_ringRows log.id, h.rows, List.map_map]
      rfl
    rw [hmap, map_lastOf]
    exact hincreasing.sublist (List.drop_sublist _ _)
  have hselected : (log.rows.insertionSort OrderedBefore).take guildEventlogMaxRecords =
      (lastOf guildEventlogMaxRecords log.rows).reverse := by
    rw [insertionSort_of_increasing hstamps, ← reverse_take_reverse, List.reverse_reverse]
  have hentries : (lastOf guildEventlogMaxRecords log.rows).map EventLogRow.entry =
      lastOf guildEventlogMaxRecords events := by
    rw [map_lastOf, h.rows, entry_ringRows, lastOf_lastOf hcount]
  -- No row is beyond the ring.
  have hcleanup : (log.table.filter fun row => decide ¬ count < row.logGuid).filter
      (fun row => row.guildid == log.id) = log.rows := by
    rw [List.filter_filter, EventLog.rows]
    refine List.filter_congr fun row hrow => ?_
    cases hown : row.guildid == log.id with
    | false => rfl
    | true =>
        have hin : row ∈ ringRows log.id count.toNat events := h.rows ▸ List.mem_filter.mpr ⟨hrow, hown⟩
        obtain ⟨-, i, -, -, hnumber⟩ := mem_ringRows hin
        have hlt := Nat.mod_lt (i + 1) hpos
        have hle : ¬ count < row.logGuid := by
          rw [UInt32.lt_iff_toNat_lt, hnumber, toNat_ringNumber hpos]
          omega
        rw [Bool.true_and]
        exact decide_eq_true hle
  have hloaded : loadGuildEventLogFromDB { log with guildEventLog := [], guildEventLogNextGuid := 0 } =
      { log with
        guildEventLog := lastOf guildEventlogMaxRecords events
        guildEventLogNextGuid := (events.length % count.toNat).toUInt32 } := by
    unfold loadGuildEventLogFromDB
    rw [show ({ log with guildEventLog := [], guildEventLogNextGuid := 0 } : EventLog).rows = log.rows from rfl,
      hselected]
    cases hlast : (lastOf guildEventlogMaxRecords log.rows).reverse with
    | nil =>
        have hnone : lastOf guildEventlogMaxRecords events = [] := by
          rw [← hentries, List.reverse_eq_nil_iff.mp hlast]
          rfl
        have hempty : events.length = 0 := by
          have hlen := length_lastOf guildEventlogMaxRecords events
          rw [hnone, List.length_nil] at hlen
          unfold guildEventlogMaxRecords at hlen
          omega
        rw [hnone, hempty, Nat.zero_mod]
        rfl
    | cons first rest =>
        -- The first row selected is the last one of the ring.
        have hfirst : ∃ before, log.rows = before ++ [first] := by
          have hrev : lastOf guildEventlogMaxRecords log.rows = rest.reverse ++ [first] := by
            rw [← List.reverse_reverse (lastOf _ _), hlast, List.reverse_cons]
          refine ⟨log.rows.take (log.rows.length - guildEventlogMaxRecords) ++ rest.reverse, ?_⟩
          rw [List.append_assoc, ← hrev, lastOf, List.take_append_drop]
        have hnumber : first.logGuid = (events.length % count.toNat).toUInt32 := by
          obtain ⟨before, hbefore⟩ := hfirst
          rcases List.eq_nil_or_concat events with rfl | ⟨earlier, event, rfl⟩
          · have hrows := h.rows
            rw [hbefore] at hrows
            exact absurd hrows.symm (by simp [ringRows, lastOf])
          · have hrows := h.rows
            rw [hbefore, List.concat_eq_append, ringRows_concat hpos] at hrows
            have heq := (List.append_inj' hrows rfl).2
            rw [List.singleton_inj] at heq
            rw [heq, List.concat_eq_append, List.length_append, List.length_singleton]
        simp only [foldl_push_front, List.append_nil, hnumber]
        rw [← hlast, List.map_reverse, List.reverse_reverse, hentries]
  refine ⟨?_, ?_, ?_⟩
  · unfold EventLog.restart
    rw [hloaded]
    exact hcleanup.trans h.rows
  · unfold EventLog.restart
    rw [hloaded]
    exact toNat_ringNumber hpos _
  · unfold EventLog.restart
    rw [hloaded]

/-- From one step to the next, whatever has been logged before. -/
theorem Ring.run (hcount : guildEventlogMaxRecords ≤ count.toNat) (steps : List EventLogStep)
    (h : Ring count events log)
    (hincreasing : ((events ++ loggedEvents steps).map GuildEventLogEntry.timeStamp).Pairwise (· < ·)) :
    Ring count (events ++ loggedEvents steps) (Lib.run (step count) log steps) := by
  induction steps generalizing events log with
  | nil => rwa [loggedEvents, List.filterMap_nil, List.append_nil]
  | cons s rest ih =>
      cases s with
      | logGuildEvent event =>
          have hlogged : loggedEvents (.logGuildEvent event :: rest) = event :: loggedEvents rest := rfl
          rw [hlogged, List.append_cons] at hincreasing ⊢
          exact ih (h.logGuildEvent (lt_of_lt_of_le (by decide) hcount) event) hincreasing
      | restart =>
          have hlogged : loggedEvents (.restart :: rest) = loggedEvents rest := rfl
          rw [hlogged] at hincreasing ⊢
          refine ih (h.restart hcount ?_) hincreasing
          rw [List.map_append] at hincreasing
          exact (List.pairwise_append.mp hincreasing).1

end EventLog

/-- The log of a guild just made. -/
def newEventLog (id : UInt32) (table : List EventLogRow) : EventLog := ⟨id, [], 0, table⟩

end TwowCore.Guilds
