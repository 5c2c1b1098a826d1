import TwowCore.Events.LifeCycle

/-!
# What an update executes

`drain_due` follows the loop of `Update` over the events that were due when it began. What comes while
it runs is due later, so the loop ends with them. There is one exception: at the last time a clock can
show, the next tick is 0, and an aborted event that cannot be deleted is due again at once.
-/

namespace TwowCore.Events

/-- The events that are executed, in their order. -/
def executed (log : List Action) : List ℕ := log.filterMap Action.executes

/-- `IsRunning`. -/
def BasicEvent.isRunning (event : BasicEvent) : Bool := event.abortState = .running

namespace EventProcessor

variable {s : EventProcessor} {event : BasicEvent} {due : List BasicEvent} {answers : Answers}

/-- The queue while `Update` runs: events that were due when it began, and events that are due later. -/
def Due (due : List BasicEvent) (s : EventProcessor) : Prop :=
  ∃ later, s.events = due ++ later ∧ (∀ e ∈ due, e.execTime ≤ s.time) ∧
    ∀ e ∈ later, s.time < e.execTime

/-- What happens to an event does not touch the clock, and what is executed is in the log. -/
structure Proceeds (due : List BasicEvent) (ids : List ℕ) (s s' : EventProcessor) : Prop where
  time : s'.time = s.time
  due : Due due s'
  executed : executed s'.log = executed s.log ++ ids

/-- An event that comes for a later time does not come before those that are due. -/
theorem due_addEvent (h : Due due s) (event : BasicEvent) {time : ℕ} (htime : s.time < time)
    (setAddTime : Bool) :
    Due due (s.addEvent event time setAddTime) := by
  obtain ⟨later, hevents, hdue, hlater⟩ := h
  refine ⟨Lib.insertLast BasicEvent.execTime
    { event with
      addTime := if setAddTime then s.time else event.addTime
      execTime := time
      stamp := s.nextStamp } later, ?_, hdue, fun e he => ?_⟩
  · show Lib.insertLast BasicEvent.execTime _ s.events = _
    rw [hevents]
    refine Lib.insertLast_append fun e he => ?_
    have hle := hdue e he
    show e.execTime ≤ time
    omega
  · rcases Lib.mem_insertLast.mp he with rfl | he
    · exact htime
    · exact hlater e he

/-- New events for later times. -/
theorem proceeds_foldl (h : Due due s) {added : List (ℕ × Bool)}
    (hadded : ∀ time ∈ added.map Prod.fst, s.time < time) :
    Proceeds due [] s (added.foldl addNew s) := by
  induction added generalizing s with
  | nil => exact ⟨rfl, h, (List.append_nil _).symm⟩
  | cons first rest ih =>
      have hfirst : Due due (s.addNew first) :=
        due_addEvent h _ (hadded first.1 (List.mem_map_of_mem List.mem_cons_self)) first.2
      obtain ⟨htime, hdue, hexecuted⟩ := ih hfirst fun time htime =>
        hadded time (List.mem_cons_of_mem _ htime)
      exact ⟨htime, hdue, hexecuted⟩

/-- Recording an action. -/
theorem executed_record (action : Action) :
    executed (s.record action).log = executed s.log ++ action.executes.toList := by
  show (s.log ++ [action]).filterMap Action.executes = _
  rw [List.filterMap_append]
  cases haction : action.executes with
  | none => rw [List.filterMap_cons_none haction]; rfl
  | some id => rw [List.filterMap_cons_some haction]; rfl

/-- An event executes and adds events for later times. -/
theorem proceeds_execute (h : Due due s) {response : Response}
    (htimes : ∀ time ∈ response.times, s.time < time) :
    Proceeds due [event.id] s (s.execute response event) := by
  obtain ⟨before, again, after, destroy⟩ := response
  have hbefore : ∀ time ∈ before.map Prod.fst, s.time < time := by
    intro time htime
    refine htimes time ?_
    unfold Response.times
    rw [List.map_append, List.map_append]
    exact List.mem_append_left _ (List.mem_append_left _ htime)
  have hafter : ∀ time ∈ after.map Prod.fst, s.time < time := by
    intro time htime
    refine htimes time ?_
    unfold Response.times
    rw [List.map_append]
    exact List.mem_append_right _ htime
  have hrecord : Due due (s.record (.executed event.id event.execTime s.time)) := h
  have hcalled := proceeds_foldl hrecord hbefore
  have hexecuted := hcalled.executed
  rw [executed_record, List.append_nil] at hexecuted
  unfold execute
  cases again with
  | none =>
      dsimp only
      have hall := proceeds_foldl hcalled.due (hcalled.time ▸ hafter)
      refine ⟨hall.time.trans hcalled.time, hall.due, ?_⟩
      rw [executed_record, hall.executed, hexecuted, List.append_nil]
      cases destroy <;> exact List.append_nil _
  | some again =>
      dsimp only
      have hagain : s.time < again.1 := by
        refine htimes again.1 ?_
        unfold Response.times
        rw [List.map_append, List.map_append]
        exact List.mem_append_left _ (List.mem_append_right _ (List.mem_singleton_self _))
      have hput := due_addEvent hcalled.due event (hcalled.time ▸ hagain) again.2
      have hall := proceeds_foldl hput (hcalled.time ▸ hafter)
      refine ⟨hall.time.trans hcalled.time, hall.due, ?_⟩
      rw [hall.executed]
      show executed (before.foldl addNew _).log ++ [] = _
      rw [hexecuted, List.append_nil]
      rfl

/-- An event that is aborted is deleted, or is due at the next tick. -/
theorem proceeds_retire (h : Due due s) (event : BasicEvent)
    (htick : answers.isDeletable event.id = true ∨ s.time < s.calculateTime 1) :
    Proceeds due [] s (s.retire answers event) := by
  unfold retire
  split_ifs with hdeletable
  · exact ⟨rfl, h, executed_record _⟩
  · refine ⟨rfl, due_addEvent h event (htick.resolve_left hdeletable) false, ?_⟩
    exact (List.append_nil _).symm

/-- The next tick is later for an event that has to wait for it. -/
def Ticks (s : EventProcessor) (answers : Answers) (event : BasicEvent) : Prop :=
  event.abortState ≠ .running → answers.isDeletable event.id = true ∨ s.time < s.calculateTime 1

/-- An event that is due is handled: it is executed if it is running. -/
theorem proceeds_handle (h : Due due s)
    (htimes : ∀ time ∈ (answers.execute event.id).times, s.time < time) (htick : s.Ticks answers event) :
    Proceeds due (if event.isRunning then [event.id] else []) s (s.handle answers event) := by
  unfold handle BasicEvent.isRunning
  unfold Ticks at htick
  cases hstate : event.abortState with
  | running => exact proceeds_execute h htimes
  | scheduled =>
      have hrecord : Due due (s.record (.aborted event.id)) := h
      have htick : answers.isDeletable event.id = true ∨ s.time < s.calculateTime 1 :=
        htick (by rw [hstate]; decide)
      have hretired := proceeds_retire hrecord { event with abortState := .aborted } htick
      refine ⟨hretired.time, hretired.due, ?_⟩
      show executed (retire _ answers _).log = _
      rw [hretired.executed, executed_record, List.append_nil]
      rfl
  | aborted => exact proceeds_retire h event (htick (by rw [hstate]; decide))

/-- When nothing is due, the loop ends. -/
theorem turn_of_due_nil (h : Due [] s) (answers : Answers) : s.turn answers = none := by
  obtain ⟨later, hevents, -, hlater⟩ := h
  unfold turn
  cases hs : s.events with
  | nil => rfl
  | cons event rest =>
      have hlt : s.time < event.execTime := by
        refine hlater event ?_
        rw [← List.nil_append later, ← hevents, hs]
        exact List.mem_cons_self
      exact if_neg (Nat.not_le.mpr hlt)

/-- When the loop has ended, more turns do nothing. -/
theorem drain_of_turn (h : s.turn answers = none) (n : ℕ) : drain answers n s = s := by
  cases n with
  | zero => rfl
  | succ n =>
      unfold drain
      rw [h]

/-- A turn, and then the others. -/
theorem drain_of_some {s' : EventProcessor} (h : s.turn answers = some s') (n : ℕ) :
    drain answers (n + 1) s = drain answers n s' := by
  rw [drain, h]

/-- The turns of a loop, in two parts. -/
theorem drain_add (m n : ℕ) : drain answers (m + n) s = drain answers n (drain answers m s) := by
  induction m generalizing s with
  | zero => rw [Nat.zero_add]; rfl
  | succ m ih =>
      rw [Nat.succ_add]
      cases hturn : s.turn answers with
      | none => rw [drain_of_turn hturn, drain_of_turn hturn, drain_of_turn hturn]
      | some s' =>
          rw [drain_of_some hturn, drain_of_some hturn]
          exact ih

/-- The loop over the events that are due: those that are running are executed, in their order. -/
theorem drain_due (h : Due due s) (htimes : ∀ id, ∀ time ∈ (answers.execute id).times, s.time < time)
    (hticks : ∀ event ∈ due, s.Ticks answers event) :
    Proceeds [] ((due.filter BasicEvent.isRunning).map BasicEvent.id) s (drain answers due.length s) := by
  induction due generalizing s with
  | nil => exact ⟨rfl, h, (List.append_nil _).symm⟩
  | cons event rest ih =>
      obtain ⟨later, hevents, hdue, hlater⟩ := h
      have hpopped : Due rest { s with events := rest ++ later } :=
        ⟨later, rfl, fun e he => hdue e (List.mem_cons_of_mem _ he), hlater⟩
      have hhandled := proceeds_handle hpopped (htimes event.id) (hticks event List.mem_cons_self)
      have hturn : s.turn answers = some ({ s with events := rest ++ later }.handle answers event) := by
        unfold turn
        rw [hevents]
        exact if_pos (hdue event List.mem_cons_self)
      have hticks' : ∀ e ∈ rest,
          ({ s with events := rest ++ later }.handle answers event).Ticks answers e := by
        intro e he
        have htick := hticks e (List.mem_cons_of_mem _ he)
        unfold Ticks calculateTime at htick ⊢
        rw [hhandled.time]
        exact htick
      have hrest := ih hhandled.due
        (fun id time htime => lt_of_eq_of_lt hhandled.time (htimes id time htime)) hticks'
      rw [List.length_cons, drain_of_some hturn]
      refine ⟨hrest.time.trans hhandled.time, hrest.due, ?_⟩
      rw [hrest.executed, hhandled.executed, List.append_assoc]
      congr 1
      cases hrunning : event.isRunning with
      | true => rw [List.filter_cons_of_pos hrunning]; rfl
      | false => rw [List.filter_cons_of_neg (by rw [hrunning]; decide)]; rfl

end EventProcessor

/-- The events that an update finds due. -/
def EventProcessor.dueAfter (s : EventProcessor) (passed : ℕ) : List BasicEvent :=
  s.events.filter fun event => event.execTime ≤ (s.advance passed).time

/-- What an update does: its loop ends, and it executes the events that are due and running, by time and
with one time in the order in which they came. -/
structure Updated (s : EventProcessor) (passed : ℕ) (answers : Answers) : Prop where
  ended : (s.update passed answers).turn answers = none
  time : (s.update passed answers).time = wrap (s.time + passed)
  executed : executed (s.update passed answers).log = executed s.log ++
    ((s.dueAfter passed).filter BasicEvent.isRunning).map BasicEvent.id
  sorted : (s.dueAfter passed).Pairwise (Lib.Before BasicEvent.execTime BasicEvent.stamp)

/-- What is asked of an update besides: that the next tick is later for events that have to wait for it. -/
def Ticking (s : EventProcessor) : Call → Prop
  | .update passed answers =>
      (s.advance passed).time = 2 ^ 64 - 1 →
        ∀ event ∈ s.events, event.abortState ≠ .running → answers.isDeletable event.id = true
  | _ => True

/-- The loop of an update ends with the events that were due when it began. -/
theorem Alive.updated {s : EventProcessor} (h : Alive s) {passed : ℕ} {answers : Answers}
    (hasked : Asked s (.update passed answers)) (hticking : Ticking s (.update passed answers)) :
    Updated s passed answers := by
  have hsplit := Lib.filter_append_of_sorted h.queued.sorted (s.advance passed).time
  have hdue : EventProcessor.Due (s.dueAfter passed) (s.advance passed) := by
    refine ⟨_, hsplit, fun e he => ?_, fun e he => ?_⟩
    · simpa using (List.mem_filter.mp he).2
    · simpa using (List.mem_filter.mp he).2
  have hticks : ∀ event ∈ s.dueAfter passed, (s.advance passed).Ticks answers event := by
    intro event hevent hstate
    by_cases hlast : (s.advance passed).time = 2 ^ 64 - 1
    · exact Or.inl (hticking hlast event (List.mem_filter.mp hevent).1 hstate)
    · right
      have hlt : (s.advance passed).time < 2 ^ 64 := Nat.mod_lt _ (by norm_num)
      show _ < ((s.advance passed).time + 1) % 2 ^ 64
      rw [Nat.mod_eq_of_lt (by omega)]
      exact Nat.lt_succ_self _
  have hdrained := EventProcessor.drain_due hdue (fun id time htime => (hasked id time htime).1) hticks
  have hended := EventProcessor.turn_of_due_nil hdrained.due answers
  have hle : (s.dueAfter passed).length ≤ s.events.length := List.length_filter_le _ _
  obtain ⟨more, hmore⟩ := Nat.exists_eq_add_of_le hle
  have hupdate : s.update passed answers =
      EventProcessor.drain answers (s.dueAfter passed).length (s.advance passed) := by
    unfold EventProcessor.update
    rw [hmore, EventProcessor.drain_add, EventProcessor.drain_of_turn hended]
  refine ⟨?_, ?_, ?_, h.queued.sorted.filter _⟩
  · rw [hupdate]
    exact hended
  · rw [hupdate, hdrained.time]
    rfl
  · rw [hupdate, hdrained.executed]
    rfl

/-- What every update of a run does. -/
def Handled (s : EventProcessor) : Call → Prop
  | .update passed answers => Updated s passed answers
  | _ => True

/-- What the log says. Every event is deleted once, or left once, or waits; it is aborted once at most; and it
is not executed before its time, nor after its abort was scheduled, nor after it was aborted. -/
structure LifeCycle (s : EventProcessor) : Prop where
  once : ∀ id < s.nextId,
    s.log.count (.deleted id) + s.log.count (.left id) + (s.events.map BasicEvent.id).count id = 1
  aborted : ∀ id, s.log.count (.aborted id) ≤ 1
  due : ∀ id execTime now, Action.executed id execTime now ∈ s.log → execTime ≤ now
  apart : ∀ before after id execTime now, s.log = before ++ .executed id execTime now :: after →
    Action.scheduled id ∉ before ∧ Action.aborted id ∉ before ∧ Action.deleted id ∉ before

/-- How an event can be gone. -/
theorem count_ends (log : List Action) (id : ℕ) :
    (log.filterMap Action.ends).count id = log.count (.deleted id) + log.count (.left id) := by
  induction log with
  | nil => rfl
  | cons action log ih =>
      cases action with
      | deleted id' | left id' =>
          show (id' :: log.filterMap Action.ends).count id = _
          simp only [List.count_cons, ih]
          by_cases hsame : id' = id
          · simp [hsame]
            omega
          · simp [hsame]
      | executed _ _ _ | scheduled _ | aborted _ =>
          show (log.filterMap Action.ends).count id = _
          simp [ih]

/-- The log of a processor between two calls. -/
theorem Alive.lifeCycle {s : EventProcessor} (h : Alive s) : LifeCycle s where
  once id hid := by
    rw [← count_ends, ← List.count_append, h.accounted.once.count_eq]
    exact List.count_eq_one_of_mem List.nodup_range (List.mem_range.mpr hid)
  aborted id := by
    by_contra htwice
    have hsub : [Action.aborted id, Action.aborted id].Sublist s.log :=
      List.replicate_sublist_iff.mpr (Nat.not_le.mp htwice)
    obtain ⟨hfirst, -⟩ := List.pairwise_cons.mp (h.accounted.allowed.sublist hsub)
    exact hfirst _ (List.mem_singleton_self _) rfl
  due := h.accounted.due
  apart before after id execTime now hlog := by
    have hallowed := h.accounted.allowed
    rw [hlog] at hallowed
    have hbefore := (List.pairwise_append.mp hallowed).2.2
    refine ⟨fun hin => ?_, fun hin => ?_, fun hin => ?_⟩
    · exact hbefore _ hin _ List.mem_cons_self rfl
    · exact hbefore _ hin _ List.mem_cons_self rfl
    · exact hbefore _ hin _ List.mem_cons_self rfl

/-- The life of events along a run. The events that an update executes are those that are running and
due; its loop ends; and the log says that every event is deleted once, left once or stored, is aborted once
at most and is not executed before its time or after its abort. -/
theorem run_lifeCycle {calls : List Call}
    (h : Lib.Along (fun s call => Asked s call ∧ Ticking s call) EventProcessor.step
      EventProcessor.empty calls) :
    LifeCycle (Lib.run EventProcessor.step EventProcessor.empty calls) ∧
      Lib.Along Handled EventProcessor.step EventProcessor.empty calls := by
  refine ⟨(run_alive (h.mono fun _ _ hok => hok.1)).lifeCycle, ?_⟩
  have hstep : ∀ s call, Asked s call ∧ Ticking s call → Alive s → Alive (EventProcessor.step s call) :=
    fun _ _ hok halive => halive.step hok.1
  refine Lib.along_of_run hstep (fun s call hok halive => ?_) alive_empty h
  cases call with
  | update passed answers => exact halive.updated hok.1 hok.2
  | addEvent => trivial
  | scheduleAbort => trivial
  | killAllEvents => trivial

/-- Events that do nothing more and cannot be deleted. -/
def lasting : Answers := ⟨fun _ => ⟨[], none, [], true⟩, fun _ => false⟩

/-- Two events for one time, the second of which is aborted before it is due and then deleted. -/
def abortedCalls : List Call :=
  [.addEvent 5 true, .addEvent 5 true, .scheduleAbort 1, .update 4 lasting,
    .update 1 ⟨fun _ => ⟨[], none, [], true⟩, fun _ => true⟩, .killAllEvents true lasting]

theorem run_lifeCycle_aborted :
    (Lib.run EventProcessor.step EventProcessor.empty abortedCalls).log =
        [.scheduled 1, .executed 0 5 5, .deleted 0, .aborted 1, .deleted 1] ∧
      LifeCycle (Lib.run EventProcessor.step EventProcessor.empty abortedCalls) := by
  refine ⟨by decide +kernel, (run_lifeCycle ?_).1⟩
  refine ⟨⟨?_, trivial⟩, ⟨?_, trivial⟩, ⟨?_, trivial⟩, ⟨?_, ?_⟩, ⟨?_, ?_⟩, ⟨trivial, trivial⟩, trivial⟩
  · show 5 < 2 ^ 64
    norm_num
  · show 5 < 2 ^ 64
    norm_num
  · exact ⟨⟨1, .running, 0, 5, 1⟩, by decide +kernel, rfl, rfl⟩
  · exact fun id time htime => absurd htime List.not_mem_nil
  · intro hlast
    exact absurd hlast (by decide +kernel)
  · exact fun id time htime => absurd htime List.not_mem_nil
  · intro hlast
    exact absurd hlast (by decide +kernel)

/-- An event that returns `false` and does not add itself again. -/
def leavingCalls : List Call :=
  [.addEvent 1500 true, .update 1500 ⟨fun _ => ⟨[], none, [], false⟩, fun _ => true⟩]

/-- Nobody deletes it, and it is not stored any more. -/
theorem run_left :
    Lib.Along (fun s call => Asked s call ∧ Ticking s call) EventProcessor.step EventProcessor.empty
        leavingCalls ∧
      0 < (Lib.run EventProcessor.step EventProcessor.empty leavingCalls).nextId ∧
      Action.deleted 0 ∉ (Lib.run EventProcessor.step EventProcessor.empty leavingCalls).log ∧
      (Lib.run EventProcessor.step EventProcessor.empty leavingCalls).events = [] := by
  refine ⟨⟨⟨?_, trivial⟩, ⟨fun id time htime => absurd htime List.not_mem_nil, fun hlast => ?_⟩, trivial⟩,
    by decide +kernel, by decide +kernel, by decide +kernel⟩
  · show 1500 < 2 ^ 64
    norm_num
  · exact absurd hlast (by decide +kernel)

/-- An event is aborted, cannot be deleted, and is looked at in every update. -/
def lastTickCalls (passed ticks : ℕ) : List Call :=
  [.addEvent 0 true, .killAllEvents false lasting] ++ List.replicate ticks (.update passed lasting)

/-- One aborted event waits, and it is due at the next tick at the latest. -/
structure Lingering (clock : ℕ) (s : EventProcessor) : Prop where
  time : s.time = clock
  event : ∃ event, s.events = [event] ∧ event.abortState = .aborted ∧ event.execTime ≤ clock + 1

namespace Lingering

variable {s : EventProcessor} {clock passed : ℕ}

/-- A turn puts the event back. -/
theorem turn (h : Lingering clock s) (hdue : ∀ event ∈ s.events, event.execTime ≤ clock) :
    ∃ s', s.turn lasting = some s' ∧ s'.time = clock ∧
      ∃ event, s'.events = [event] ∧ event.abortState = .aborted ∧
        event.execTime = wrap (clock + 1) := by
  obtain ⟨htime, event, hevents, hstate, -⟩ := h
  have hle : event.execTime ≤ s.time := by
    rw [htime]
    exact hdue event (hevents ▸ List.mem_singleton_self _)
  have hturn : s.turn lasting = some ({ s with events := [] }.addEvent event
      ({ s with events := [] }.calculateTime 1) false) := by
    unfold EventProcessor.turn
    rw [hevents]
    simp only [if_pos hle]
    unfold EventProcessor.handle
    rw [hstate]
    rfl
  refine ⟨_, hturn, htime,
    ⟨event.id, event.abortState, event.addTime, s.calculateTime 1, s.nextStamp⟩, rfl, hstate, ?_⟩
  show wrap (s.time + 1) = _
  rw [htime]

/-- An update before the last time. -/
theorem update (h : Lingering clock s) (hpassed : 0 < passed) (hroom : clock + passed < 2 ^ 64 - 1) :
    Lingering (clock + passed) (s.update passed lasting) := by
  obtain ⟨htime, event, hevents, hstate, hle⟩ := h
  have hadvanced : (s.advance passed).time = clock + passed := by
    show (s.time + passed) % 2 ^ 64 = _
    rw [htime, Nat.mod_eq_of_lt (by omega)]
  have hlingering : Lingering (clock + passed) (s.advance passed) :=
    ⟨hadvanced, event, hevents, hstate, by omega⟩
  obtain ⟨s', hturn, htime', event', hevents', hstate', hexec⟩ := hlingering.turn fun e he => by
    have hsame : e ∈ s.events := he
    rw [hevents, List.mem_singleton] at hsame
    rw [hsame]
    omega
  have hupdate : s.update passed lasting = s' := by
    unfold EventProcessor.update
    rw [hevents]
    show EventProcessor.drain lasting (0 + 1) (s.advance passed) = s'
    unfold EventProcessor.drain
    rw [hturn]
    rfl
  rw [hupdate]
  refine ⟨htime', event', hevents', hstate', ?_⟩
  rw [hexec]
  exact Nat.mod_le _ _

/-- At the last time the loop never ends. -/
theorem endless (h : Lingering clock s) (hlast : clock + 1 = 2 ^ 64)
    (hdue : ∀ event ∈ s.events, event.execTime ≤ clock) (n : ℕ) :
    (EventProcessor.drain lasting n s).turn lasting ≠ none := by
  induction n generalizing s with
  | zero =>
      obtain ⟨s', hturn, -⟩ := h.turn hdue
      show s.turn lasting ≠ none
      rw [hturn]
      exact Option.some_ne_none s'
  | succ n ih =>
      obtain ⟨s', hturn, htime, event, hevents, hstate, hexec⟩ := h.turn hdue
      unfold EventProcessor.drain
      rw [hturn]
      -- the next tick is 0
      have hzero : event.execTime = 0 := by
        rw [hexec, hlast]
        exact Nat.mod_self _
      refine ih ⟨htime, event, hevents, hstate, by omega⟩ fun e he => ?_
      rw [hevents, List.mem_singleton] at he
      rw [he]
      omega

/-- The clock after so many updates. -/
theorem run (h : Lingering clock s) (hpassed : 0 < passed) (ticks : ℕ)
    (hroom : clock + ticks * passed < 2 ^ 64 - 1) :
    Lingering (clock + ticks * passed)
        (Lib.run EventProcessor.step s (List.replicate ticks (.update passed lasting))) ∧
      Lib.Along Asked EventProcessor.step s (List.replicate ticks (.update passed lasting)) := by
  induction ticks generalizing s clock with
  | zero => exact ⟨by rwa [Nat.zero_mul], trivial⟩
  | succ ticks ih =>
      rw [Nat.succ_mul] at hroom ⊢
      have hnext : Lingering (clock + passed) (s.update passed lasting) := h.update hpassed (by omega)
      obtain ⟨hlingering, halong⟩ := ih hnext (by omega)
      rw [List.replicate_succ]
      refine ⟨?_, fun id t ht => absurd ht List.not_mem_nil, halong⟩
      have hclock : clock + passed + ticks * passed = clock + (ticks * passed + passed) := by omega
      rw [← hclock]
      exact hlingering

end Lingering

/-- When updates bring the clock to its last time, the last of them does not end. -/
theorem endless_of_lastTick {passed ticks : ℕ} (hpassed : 0 < passed)
    (hlast : ticks * passed + passed + 1 = 2 ^ 64) :
    Lib.Along Asked EventProcessor.step EventProcessor.empty (lastTickCalls passed ticks) ∧
      Asked (Lib.run EventProcessor.step EventProcessor.empty (lastTickCalls passed ticks))
        (.update passed lasting) ∧
      ∀ n, (EventProcessor.drain lasting n
        ((Lib.run EventProcessor.step EventProcessor.empty (lastTickCalls passed ticks)).advance
          passed)).turn lasting ≠ none := by
  let started := Lib.run EventProcessor.step EventProcessor.empty
    [.addEvent 0 true, .killAllEvents false lasting]
  have hstart : Lingering 0 started := ⟨rfl, ⟨0, .aborted, 0, 0, 0⟩, by decide +kernel, rfl, Nat.zero_le _⟩
  obtain ⟨hlingering, halong⟩ := hstart.run hpassed ticks (by omega)
  rw [Nat.zero_add] at hlingering
  have hrun : Lib.run EventProcessor.step EventProcessor.empty (lastTickCalls passed ticks) =
      Lib.run EventProcessor.step started (List.replicate ticks (.update passed lasting)) :=
    List.foldl_append ..
  have hstarts : Lib.Along Asked EventProcessor.step EventProcessor.empty
      [.addEvent 0 true, .killAllEvents false lasting] := ⟨Nat.two_pow_pos 64, trivial, trivial⟩
  refine ⟨Lib.along_append.mpr ⟨hstarts, halong⟩, fun id t ht => absurd ht List.not_mem_nil, ?_⟩
  rw [hrun]
  obtain ⟨htime, event, hevents, hstate, hexec⟩ := hlingering
  have hlingers : Lingering (ticks * passed + passed)
      ((Lib.run EventProcessor.step started
        (List.replicate ticks (.update passed lasting))).advance passed) := by
    refine ⟨?_, event, hevents, hstate, by omega⟩
    show (EventProcessor.time _ + passed) % 2 ^ 64 = _
    rw [htime, Nat.mod_eq_of_lt (by omega)]
  refine hlingers.endless hlast fun e he => ?_
  have hsame : e ∈ [event] := hevents ▸ he
  rw [List.mem_singleton.mp hsame]
  omega

/-- The longest update, made often enough, comes to the last time of the clock. -/
theorem update_endless :
    Lib.Along Asked EventProcessor.step EventProcessor.empty (lastTickCalls (2 ^ 32 - 1) (2 ^ 32)) ∧
      Asked (Lib.run EventProcessor.step EventProcessor.empty (lastTickCalls (2 ^ 32 - 1) (2 ^ 32)))
        (.update (2 ^ 32 - 1) lasting) ∧
      ∀ n, (EventProcessor.drain lasting n
        ((Lib.run EventProcessor.step EventProcessor.empty (lastTickCalls (2 ^ 32 - 1) (2 ^ 32))).advance
          (2 ^ 32 - 1))).turn lasting ≠ none :=
  endless_of_lastTick (by norm_num) (by norm_num)

end TwowCore.Events
