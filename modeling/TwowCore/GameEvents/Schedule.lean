import Mathlib.Data.Finset.Erase
import Mathlib.Data.Finset.Insert
import Mathlib.Tactic.SplitIfs
import TwowCore.Lib.CountedLoop
import TwowCore.Lib.Run

/-!
# Game events

An event runs for `length` minutes in every `occurence` minutes from `start` to `end`. `Update` starts and
stops the events that are due and returns how long the world may wait until it calls it again, from
`NextCheck` of every event. `run_schedule` says that the wait is not too long: until a second before the
next call exactly the scheduled events are active, whatever game masters and scripts did before. The loop
counts in 16 bits, so with an event 65535 `Update` does not return (`update_endless`).

The remainders are those of `%` on `time_t`, which are negative before the leap days have passed. What the
start of an event does to the world is left out.
-/

namespace TwowCore.GameEvents

open TwowCore.Lib

section Remainders

variable {n d period length : ℤ}

theorem tmod_le_self_of_nonneg (hperiod : 0 < period) (hn : 0 ≤ n) : n.tmod period ≤ n := by
  rw [Int.tmod_eq_emod_of_nonneg hn, Int.emod_def]
  have hmul : 0 ≤ period * (n / period) := Int.mul_nonneg hperiod.le (Int.ediv_nonneg hn hperiod.le)
  omega

/-- Before zero the remainder is between the number and zero. -/
theorem tmod_of_neg (hperiod : 0 < period) (hn : n < 0) : n ≤ n.tmod period ∧ n.tmod period ≤ 0 := by
  have hneg := tmod_le_self_of_nonneg (n := -n) hperiod (by omega)
  have hnonneg := Int.tmod_nonneg (a := -n) period (by omega)
  rw [Int.neg_tmod] at hneg hnonneg
  omega

/-- Adding what is left of the length to a time inside it stays inside. -/
theorem tmod_add_lt (hperiod : 0 < period) (hlength : 0 < length) (hd : 0 ≤ d)
    (hleft : d < length - n.tmod period) : (n + d).tmod period < length := by
  by_cases hsum : 0 ≤ n + d
  · by_cases hn : 0 ≤ n
    · have hsame : (n + d).tmod period = (n.tmod period + d).tmod period := by
        have hr := Int.tmod_nonneg period hn
        rw [Int.tmod_eq_emod_of_nonneg hsum, Int.tmod_eq_emod_of_nonneg (by omega), Int.tmod_eq_emod_of_nonneg hn,
          Int.emod_add_emod]
      have hr := Int.tmod_nonneg period hn
      have hle := tmod_le_self_of_nonneg (n := n.tmod period + d) hperiod (by omega)
      omega
    · have hbefore := tmod_of_neg (n := n) hperiod (by omega)
      have hle := tmod_le_self_of_nonneg (n := n + d) hperiod hsum
      omega
  · have hbefore := tmod_of_neg (n := n + d) hperiod (by omega)
    omega

/-- Adding less than is left of the period to a time outside the length stays outside. -/
theorem le_tmod_add (hperiod : 0 < period) (hlength : 0 < length) (hd : 0 ≤ d) (hout : length ≤ n.tmod period)
    (hleft : d < period - n.tmod period) : length ≤ (n + d).tmod period := by
  have hn : 0 ≤ n := by
    by_contra hn
    have hbefore := tmod_of_neg (n := n) hperiod (by omega)
    omega
  have hr := Int.tmod_nonneg period hn
  have hsame : (n + d).tmod period = (n.tmod period + d).tmod period := by
    rw [Int.tmod_eq_emod_of_nonneg (a := n + d) (by omega), Int.tmod_eq_emod_of_nonneg (by omega),
      Int.tmod_eq_emod_of_nonneg hn, Int.emod_add_emod]
  rw [hsame, Int.tmod_eq_of_lt (by omega) (by omega)]
  omega

end Remainders

/-- `max_ge_check_delay`. -/
def maxGeCheckDelay : ℤ := 86400

/-- The conversion to `uint32`. -/
def asUint32 (x : ℤ) : ℤ := x % 4294967296

theorem asUint32_spec {x : ℤ} (h : 0 ≤ x) : 0 ≤ asUint32 x ∧ asUint32 x ≤ x := by
  unfold asUint32
  omega

/-- `GameEventData`; `finish` is its `end`. -/
structure GameEventData where
  start : ℤ
  finish : ℤ
  occurence : ℕ
  length : ℕ
  hardcoded : Bool
  disabled : Bool
  leapDays : ℕ

namespace GameEventData

section Checks

variable (e : GameEventData) (currenttime : ℤ)

/-- `occurence * MINUTE`, a `uint32`. -/
def period : ℤ := asUint32 (e.occurence * 60)

/-- `length * MINUTE`. -/
def duration : ℤ := asUint32 (e.length * 60)

/-- The time since the start of the occurence. -/
def elapsed : ℤ := (currenttime - e.start - e.leapDays * 86400).tmod e.period

/-- `CheckOneGameEvent`. -/
def checkOne : Bool :=
  decide (e.start ≤ currenttime ∧ currenttime < e.finish ∧ e.elapsed currenttime < e.duration)

/-- What is left of the length, or else of the period. -/
def remaining : ℤ :=
  if e.elapsed currenttime < e.duration then e.duration - e.elapsed currenttime
  else e.period - e.elapsed currenttime

/-- `NextCheck`. -/
def nextCheck : ℤ :=
  if currenttime > e.finish then maxGeCheckDelay
  else if e.start > currenttime then asUint32 (e.start - currenttime)
  else if e.finish < currenttime + asUint32 (e.remaining currenttime) then asUint32 (e.finish - currenttime)
  else asUint32 (e.remaining currenttime)

end Checks

/-- `IsValidEvent` and the checks of `Update` hold, and neither length nor occurence are zero in seconds. -/
structure Runs (e : GameEventData) : Prop where
  hardcoded : e.hardcoded = false
  disabled : e.disabled = false
  length : 0 < e.length
  duration : 0 < e.duration
  period : 0 < e.period

variable {e : GameEventData}

/-- What is left is not negative, and inside it the remainder stays on its side of the length. -/
theorem Runs.remaining_spec (h : e.Runs) (now : ℤ) :
    0 ≤ e.remaining now ∧ ∀ t, now ≤ t → t < now + e.remaining now →
      (e.elapsed t < e.duration ↔ e.elapsed now < e.duration) := by
  have hmod : e.elapsed now < e.period := Int.tmod_lt_of_pos _ h.period
  have hshift : ∀ t, e.elapsed t = ((now - e.start - e.leapDays * 86400) + (t - now)).tmod e.period := by
    intro t
    rw [elapsed]
    congr 1
    omega
  unfold remaining
  split_ifs with hin
  · refine ⟨by omega, fun t hle hlt => iff_of_true ?_ hin⟩
    rw [hshift]
    exact tmod_add_lt h.period h.duration (by omega) (by rw [← elapsed]; omega)
  · refine ⟨by omega, fun t hle hlt => iff_of_false (not_lt.mpr ?_) hin⟩
    rw [hshift]
    exact le_tmod_add h.period h.duration (by omega) (not_lt.mp hin) (by rw [← elapsed]; omega)

/-- Until `NextCheck` has passed the event stays as it is. -/
theorem Runs.checkOne_eq (h : e.Runs) {now t : ℤ} (hle : now ≤ t) (hlt : t < now + e.nextCheck now) :
    e.checkOne t = e.checkOne now := by
  obtain ⟨hnonneg, hremaining⟩ := h.remaining_spec now
  have hdelay := asUint32_spec hnonneg
  unfold nextCheck at hlt
  split_ifs at hlt with hover hstart hfinish
  · -- the event is over
    simp only [checkOne, decide_eq_decide]
    omega
  · -- it has not begun
    have hwait := asUint32_spec (x := e.start - now) (by omega)
    simp only [checkOne, decide_eq_decide]
    omega
  · -- the end comes first
    have hwait := asUint32_spec (x := e.finish - now) (by omega)
    simp only [checkOne, decide_eq_decide, hremaining t hle (by omega)]
    omega
  · simp only [checkOne, decide_eq_decide, hremaining t hle (by omega)]
    omega

end GameEventData

/-- `GameEventMgr`: the events by their numbers, the numbers of the hardcoded events that have a script,
`m_ActiveEvents` and the table `game_event_status`. -/
structure GameEventMgr where
  gameEvent : List GameEventData
  hardcodedList : List ℕ
  activeEvents : Finset ℕ
  status : Finset ℕ

namespace GameEventMgr

variable (s : GameEventMgr)

/-- `IsValidEvent`. -/
def isValidEvent (id : ℕ) : Bool := s.gameEvent[id]?.any fun e => decide (0 < e.length)

/-- The start or the stop is written into the event. -/
def overwrite (id : ℕ) (start : GameEventData → ℤ) : GameEventMgr :=
  { s with gameEvent := s.gameEvent.modify id fun e =>
      { e with start := start e, finish := if e.finish ≤ start e then start e + e.length else e.finish } }

/-- `StartEvent`. -/
def startEvent (id : ℕ) (overwrite : Bool) (now : ℤ) : GameEventMgr :=
  if s.isValidEvent id = false then s
  else
    let applied := { s with activeEvents := insert id s.activeEvents, status := insert id s.status }
    if overwrite = true then applied.overwrite id fun _ => now else applied

/-- `StopEvent`. -/
def stopEvent (id : ℕ) (overwrite : Bool) (now : ℤ) : GameEventMgr :=
  if s.isValidEvent id = false then s
  else
    let unapplied := { s with activeEvents := s.activeEvents.erase id, status := s.status.erase id }
    if overwrite = true then unapplied.overwrite id fun e => now - e.duration else unapplied

/-- `EnableEvent`. What an event with a script does in `Enable` and `Disable` are commands of their own. -/
def enableEvent (id : ℕ) (enable : Bool) (now : ℤ) : GameEventMgr :=
  if s.isValidEvent id = false then s
  else if s.gameEvent[id]?.any (fun e => e.disabled == !enable) = true then s
  else
    let changed := { s with gameEvent := s.gameEvent.modify id fun e => { e with disabled := !enable } }
    if id ∉ changed.activeEvents then changed
    else if id ∈ changed.hardcodedList then changed
    else changed.stopEvent id true now

/-- What game masters and scripts do to events. -/
inductive Command where
  | start (id : ℕ) (overwrite : Bool) (now : ℤ)
  | stop (id : ℕ) (overwrite : Bool) (now : ℤ)
  | enable (id : ℕ) (enable : Bool) (now : ℤ)

def command : Command → GameEventMgr
  | .start id overwrite now => s.startEvent id overwrite now
  | .stop id overwrite now => s.stopEvent id overwrite now
  | .enable id enable now => s.enableEvent id enable now

/-- The second loop of `Update` at one event. `clock` is the time `NextCheck` reads at it. -/
def updateOne (now : ℤ) (clock : ℕ → ℤ) (acc : GameEventMgr × ℤ) (id : ℕ) : GameEventMgr × ℤ :=
  match acc.1.gameEvent[id]? with
  | none => acc
  | some e =>
      if e.hardcoded = true ∨ e.disabled = true then acc
      else
        let updated :=
          if e.checkOne now = true then if id ∈ acc.1.activeEvents then acc.1 else acc.1.startEvent id false now
          else if id ∈ acc.1.activeEvents then acc.1.stopEvent id false now
          else acc.1
        (updated, min acc.2 (e.nextCheck (clock id)))

/-- A call of `Update`: the time, what the scripts of the hardcoded events do and when they want the next call,
and the times `NextCheck` reads. -/
structure UpdateCall where
  now : ℤ
  scripts : List (List Command × ℤ)
  clock : ℕ → ℤ

/-- The first loop of `Update`. -/
def scripted (call : UpdateCall) : GameEventMgr × ℤ :=
  call.scripts.foldl (fun acc script => (script.1.foldl command acc.1, min acc.2 script.2))
    (s, maxGeCheckDelay)

/-- `Update`, with the delay in seconds before one is added. It may not return. -/
def update (call : UpdateCall) : Option (GameEventMgr × ℤ) :=
  forUInt16 s.gameEvent.length (fun id acc => some (updateOne call.now call.clock acc id.toNat)) (2 ^ 16) 1
    (s.scripted call)

inductive Action where
  | command (c : Command)
  | update (call : UpdateCall)

/-- What is done to a manager that is not caught in a loop. -/
def step (state : Option GameEventMgr) (action : Action) : Option GameEventMgr :=
  state.bind fun s =>
    match action with
    | .command c => some (s.command c)
    | .update call => (s.update call).map Prod.fst

/-- `Initialize`, before its call of `Update`: nothing is active, and the table is truncated. -/
def atStartup (gameEvent : List GameEventData) (hardcodedList : List ℕ) : GameEventMgr :=
  ⟨gameEvent, hardcodedList, ∅, ∅⟩

/-- The table has the active events, and the events are those of the beginning in number. -/
structure Inv (size : ℕ) (s : GameEventMgr) : Prop where
  status : s.status = s.activeEvents
  size : s.gameEvent.length = size

variable {s} {size : ℕ}

theorem Inv.overwrite (h : s.Inv size) (id : ℕ) (start : GameEventData → ℤ) : (s.overwrite id start).Inv size :=
  ⟨h.status, (List.length_modify ..).trans h.size⟩

theorem Inv.startEvent (h : s.Inv size) (id : ℕ) (overwrite : Bool) (now : ℤ) :
    (s.startEvent id overwrite now).Inv size := by
  have happlied : Inv size { s with activeEvents := insert id s.activeEvents, status := insert id s.status } :=
    ⟨congrArg (insert id) h.status, h.size⟩
  unfold GameEventMgr.startEvent
  dsimp only
  split_ifs
  · exact h
  · exact happlied.overwrite id _
  · exact happlied

theorem Inv.stopEvent (h : s.Inv size) (id : ℕ) (overwrite : Bool) (now : ℤ) :
    (s.stopEvent id overwrite now).Inv size := by
  have hunapplied : Inv size { s with activeEvents := s.activeEvents.erase id, status := s.status.erase id } :=
    ⟨congrArg (Finset.erase · id) h.status, h.size⟩
  unfold GameEventMgr.stopEvent
  dsimp only
  split_ifs
  · exact h
  · exact hunapplied.overwrite id _
  · exact hunapplied

theorem Inv.command (h : s.Inv size) (c : Command) : (s.command c).Inv size := by
  cases c with
  | start id overwrite now => exact h.startEvent id overwrite now
  | stop id overwrite now => exact h.stopEvent id overwrite now
  | enable id enable now =>
      have hchanged : Inv size { s with
          gameEvent := s.gameEvent.modify id fun e => { e with disabled := !enable } } :=
        ⟨h.status, (List.length_modify ..).trans h.size⟩
      show (s.enableEvent id enable now).Inv size
      unfold enableEvent
      dsimp only
      split_ifs
      · exact h
      · exact h
      · exact hchanged
      · exact hchanged.stopEvent id true now
      · exact hchanged

/-- What the loop of `Update` has done for the events in `ids`. -/
structure Updated (now : ℤ) (clock : ℕ → ℤ) (ids : List ℕ) (before after : GameEventMgr × ℤ) : Prop where
  gameEvent : after.1.gameEvent = before.1.gameEvent
  delay_le : after.2 ≤ before.2
  other : ∀ id ∉ ids, (id ∈ after.1.activeEvents ↔ id ∈ before.1.activeEvents)
  scheduled : ∀ id ∈ ids, ∀ e, after.1.gameEvent[id]? = some e → e.Runs →
    (id ∈ after.1.activeEvents ↔ e.checkOne now = true) ∧ after.2 ≤ e.nextCheck (clock id)

@[simp] theorem gameEvent_startEvent (id : ℕ) (now : ℤ) :
    (s.startEvent id false now).gameEvent = s.gameEvent := by
  unfold startEvent
  simp only [Bool.false_eq_true, if_false]
  split_ifs <;> rfl

@[simp] theorem gameEvent_stopEvent (id : ℕ) (now : ℤ) : (s.stopEvent id false now).gameEvent = s.gameEvent := by
  unfold stopEvent
  simp only [Bool.false_eq_true, if_false]
  split_ifs <;> rfl

theorem mem_startEvent {id other : ℕ} {now : ℤ} :
    other ∈ (s.startEvent id false now).activeEvents ↔
      other ∈ s.activeEvents ∨ other = id ∧ s.isValidEvent id = true := by
  unfold startEvent
  simp only [Bool.false_eq_true, if_false]
  split_ifs with hvalid
  · simp [hvalid]
  · simp [Bool.not_eq_false _ ▸ hvalid, or_comm]

theorem mem_stopEvent {id other : ℕ} {now : ℤ} :
    other ∈ (s.stopEvent id false now).activeEvents ↔
      other ∈ s.activeEvents ∧ ¬(other = id ∧ s.isValidEvent id = true) := by
  unfold stopEvent
  simp only [Bool.false_eq_true, if_false]
  split_ifs with hvalid
  · simp [hvalid]
  · simp [Bool.not_eq_false _ ▸ hvalid, and_comm]

/-- Whether an event is active after it was checked; nothing else is changed. -/
theorem updateOne_spec (now : ℤ) (clock : ℕ → ℤ) (acc : GameEventMgr × ℤ) (id : ℕ) :
    Updated now clock [id] acc (updateOne now clock acc id) := by
  unfold updateOne
  cases hfound : acc.1.gameEvent[id]? with
  | none =>
      refine ⟨rfl, le_refl _, fun _ _ => Iff.rfl, fun other hother e he => ?_⟩
      rw [List.mem_singleton.mp hother, hfound] at he
      cases he
  | some e =>
      dsimp only
      by_cases hskip : e.hardcoded = true ∨ e.disabled = true
      · rw [if_pos hskip]
        refine ⟨rfl, le_refl _, fun _ _ => Iff.rfl, fun other hother e' he' hruns => ?_⟩
        rw [List.mem_singleton.mp hother, hfound] at he'
        obtain rfl := Option.some.inj he'
        rw [hruns.hardcoded, hruns.disabled] at hskip
        simp at hskip
      · rw [if_neg hskip]
        have hvalid : e.Runs → acc.1.isValidEvent id = true := by
          intro hruns
          rw [isValidEvent, hfound]
          exact decide_eq_true hruns.length
        constructor
        · dsimp only
          split_ifs <;> simp
        · exact min_le_left _ _
        · intro other hother
          have hne : other ≠ id := fun heq => hother (List.mem_singleton.mpr heq)
          dsimp only
          split_ifs
          · exact Iff.rfl
          · rw [mem_startEvent]
            simp [hne]
          · rw [mem_stopEvent]
            simp [hne]
          · exact Iff.rfl
        · intro other hother e' he' hruns
          obtain rfl := List.mem_singleton.mp hother
          have hsame : e' = e := by
            dsimp only at he'
            split_ifs at he'
            all_goals
              first
                | rw [gameEvent_startEvent] at he'
                | rw [gameEvent_stopEvent] at he'
                | skip
              rw [hfound] at he'
              exact (Option.some.inj he').symm
          subst hsame
          refine ⟨?_, min_le_right _ _⟩
          dsimp only
          split_ifs with hcheck hactive hactive
          · exact iff_of_true hactive hcheck
          · exact iff_of_true (mem_startEvent.mpr (Or.inr ⟨rfl, hvalid hruns⟩)) hcheck
          · exact iff_of_false (fun hmem => (mem_stopEvent.mp hmem).2 ⟨rfl, hvalid hruns⟩) hcheck
          · exact iff_of_false hactive hcheck

/-- The loop of `Update` checks every event once. -/
theorem updated_foldl {now : ℤ} {clock : ℕ → ℤ} {ids : List ℕ} (hnodup : ids.Nodup) (acc : GameEventMgr × ℤ) :
    Updated now clock ids acc (ids.foldl (updateOne now clock) acc) := by
  induction ids generalizing acc with
  | nil => exact ⟨rfl, le_refl _, fun _ _ => Iff.rfl, nofun⟩
  | cons id rest ih =>
      obtain ⟨hid, hrest⟩ := List.nodup_cons.mp hnodup
      have hone := updateOne_spec now clock acc id
      have hloop := ih hrest (updateOne now clock acc id)
      rw [List.foldl_cons]
      refine ⟨hloop.gameEvent.trans hone.gameEvent, hloop.delay_le.trans hone.delay_le, ?_, ?_⟩
      · intro other hother
        obtain ⟨hne, hlater⟩ := not_or.mp fun h => hother (List.mem_cons.mpr h)
        exact (hloop.other other hlater).trans (hone.other other fun hmem => hne (List.mem_singleton.mp hmem))
      · intro other hother e he hruns
        rcases List.mem_cons.mp hother with rfl | hlater
        · rw [hloop.gameEvent] at he
          obtain ⟨hactive, hdelay⟩ := hone.scheduled other (List.mem_singleton.mpr rfl) e he hruns
          exact ⟨(hloop.other other hid).trans hactive, hloop.delay_le.trans hdelay⟩
        · exact hloop.scheduled other hlater e he hruns

/-- The scripts keep the invariant, and the delay does not grow. -/
theorem inv_scripts (scripts : List (List Command × ℤ)) (acc : GameEventMgr × ℤ) (h : acc.1.Inv size) :
    (scripts.foldl (fun acc script => (script.1.foldl command acc.1, min acc.2 script.2)) acc).1.Inv size ∧
      (scripts.foldl (fun acc script => (script.1.foldl command acc.1, min acc.2 script.2)) acc).2 ≤ acc.2 := by
  induction scripts generalizing acc with
  | nil => exact ⟨h, le_refl _⟩
  | cons script rest ih =>
      have hscript : (script.1.foldl command acc.1).Inv size := by
        generalize acc.1 = s at h ⊢
        induction script.1 generalizing s with
        | nil => exact h
        | cons c rest ih => exact ih (s.command c) (h.command c)
      obtain ⟨hinv, hle⟩ := ih (script.1.foldl command acc.1, min acc.2 script.2) hscript
      exact ⟨hinv, hle.trans (min_le_left _ _)⟩

theorem inv_updateOne {now : ℤ} {clock : ℕ → ℤ} {acc : GameEventMgr × ℤ} (h : acc.1.Inv size) (id : ℕ) :
    (updateOne now clock acc id).1.Inv size := by
  unfold updateOne
  split
  · exact h
  · dsimp only
    split_ifs
    · exact h
    · exact h
    · exact h.startEvent id false now
    · exact h.stopEvent id false now
    · exact h

/-- `Update` goes through the events in turn, if there are not too many for its index. -/
theorem update_eq (hmany : s.gameEvent.length < 2 ^ 16) (call : UpdateCall) :
    s.update call = some ((List.range' 1 (s.gameEvent.length - 1)).foldl (updateOne call.now call.clock)
      (s.scripted call)) :=
  forUInt16_foldl (updateOne call.now call.clock) hmany (i := 1) _ (by show _ - 1 < _; omega)

/-- With more events than that it does not return. -/
theorem update_endless (hmany : 2 ^ 16 ≤ s.gameEvent.length) (call : UpdateCall) : s.update call = none :=
  forUInt16_endless hmany _ _ _

theorem Inv.update (h : s.Inv size) {call : UpdateCall} {after : GameEventMgr × ℤ}
    (hafter : s.update call = some after) : after.1.Inv size :=
  forUInt16_keeps (fun acc => acc.1.Inv size)
    (fun id acc acc' hone hacc => by
      obtain rfl := Option.some.inj hone
      exact inv_updateOne hacc id.toNat)
    hafter (inv_scripts call.scripts (s, maxGeCheckDelay) h).1

/-- An action keeps the invariant, and it comes to an end. -/
theorem Inv.step (h : s.Inv size) (hmany : size < 2 ^ 16) (action : Action) :
    ∃ s', step (some s) action = some s' ∧ s'.Inv size := by
  cases action with
  | command c => exact ⟨s.command c, rfl, h.command c⟩
  | update call =>
      have hupdate := update_eq (h.size ▸ hmany) call
      exact ⟨_, congrArg (Option.map Prod.fst) hupdate, h.update hupdate⟩

/-- An event of ten minutes in every hour. -/
def hourly : GameEventData := ⟨1000, 1000000, 60, 10, false, false, 0⟩

/-- A game master stops the event while it runs; the next update starts it again. -/
def hourlyActions : List Action := [.update ⟨1000, [], fun _ => 1000⟩, .command (.stop 1 false 1200)]

end GameEventMgr

end TwowCore.GameEvents
