import TwowCore.Events.Processor

/-!
# The life of an event

Every event that a processor was given is deleted once, or left once, or waits in it, and nothing is done
to it after it is deleted or left. `Accounted` says this of the log and of the events that wait; it does not ask in which order they
wait, so that an event may be taken out and put back. The order is a matter of `Queued`.
-/

namespace TwowCore.Events

/-- The event an action is about. -/
def Action.event : Action → ℕ
  | .executed id _ _ => id
  | .scheduled id => id
  | .aborted id => id
  | .deleted id => id
  | .left id => id

/-- The event that is gone with it. -/
def Action.ends : Action → Option ℕ
  | .deleted id => some id
  | .left id => some id
  | _ => none

/-- The event that is executed. -/
def Action.executes : Action → Option ℕ
  | .executed id _ _ => some id
  | _ => none

/-- What may follow an action, for the same event: nothing once it is gone, nothing but its deletion
once it is aborted, and neither its execution nor another request once its abort is scheduled. -/
def Action.Allows : Action → Action → Prop
  | .executed _ _ _, _ => True
  | .scheduled id, .executed id' _ _ => id' ≠ id
  | .scheduled id, .scheduled id' => id' ≠ id
  | .scheduled _, _ => True
  | .aborted _, .deleted _ => True
  | .aborted id, action => action.event ≠ id
  | .deleted id, action => action.event ≠ id
  | .left id, action => action.event ≠ id

/-- What holds of the log and of the events that wait. -/
structure Accounted (nextId : ℕ) (log : List Action) (events : List BasicEvent) : Prop where
  once : (log.filterMap Action.ends ++ events.map BasicEvent.id).Perm (List.range nextId)
  known : ∀ action ∈ log, action.event < nextId
  allowed : log.Pairwise Action.Allows
  due : ∀ id execTime now, Action.executed id execTime now ∈ log → execTime ≤ now
  running : ∀ event ∈ events, event.abortState = .running → Action.scheduled event.id ∉ log
  unaborted : ∀ event ∈ events, event.abortState ≠ .aborted → Action.aborted event.id ∉ log

namespace Accounted

variable {nextId : ℕ} {log : List Action} {events events' : List BasicEvent} {event : BasicEvent}

/-- The order of the events does not matter. -/
theorem perm (h : Accounted nextId log events) (hperm : events.Perm events') :
    Accounted nextId log events' :=
  { h with
    once := ((hperm.symm.map _).append_left _).trans h.once
    running := fun e he => h.running e (hperm.mem_iff.mpr he)
    unaborted := fun e he => h.unaborted e (hperm.mem_iff.mpr he) }

/-- An event that waits is not gone. -/
theorem not_ended (h : Accounted nextId log events) (hmem : event ∈ events) {action : Action}
    (hends : action.ends = some event.id) : action ∉ log := by
  intro hin
  have hnodup := h.once.nodup_iff.mpr List.nodup_range
  have hgone : event.id ∈ log.filterMap Action.ends := List.mem_filterMap.mpr ⟨_, hin, hends⟩
  exact List.disjoint_of_nodup_append hnodup hgone (List.mem_map_of_mem hmem)

/-- Two events that wait have different ids. -/
theorem ids (h : Accounted nextId log events) : (events.map BasicEvent.id).Nodup :=
  (List.nodup_append.mp (h.once.nodup_iff.mpr List.nodup_range)).2.1

/-- The event that waits is one that was given. -/
theorem lt (h : Accounted nextId log events) (hmem : event ∈ events) : event.id < nextId :=
  List.mem_range.mp (h.once.subset (List.mem_append_right _ (List.mem_map_of_mem hmem)))

/-- An action about an event that waits follows what came before. -/
theorem allowed_append {action : Action} (h : Accounted nextId log events) (hmem : event ∈ events)
    (hevent : action.event = event.id)
    (hscheduled : Action.scheduled event.id ∈ log → Action.Allows (.scheduled event.id) action)
    (haborted : Action.aborted event.id ∈ log → Action.Allows (.aborted event.id) action) :
    (log ++ [action]).Pairwise Action.Allows := by
  refine List.pairwise_append.mpr ⟨h.allowed, List.pairwise_singleton _ _, fun before hbefore a ha => ?_⟩
  rw [List.mem_singleton.mp ha]
  by_cases hsame : before.event = event.id
  · cases before with
    | executed => trivial
    | scheduled id =>
        have hid : id = event.id := hsame
        subst hid
        exact hscheduled hbefore
    | aborted id =>
        have hid : id = event.id := hsame
        subst hid
        exact haborted hbefore
    | deleted id =>
        have hid : id = event.id := hsame
        subst hid
        exact absurd hbefore (h.not_ended hmem rfl)
    | left id =>
        have hid : id = event.id := hsame
        subst hid
        exact absurd hbefore (h.not_ended hmem rfl)
  · have hne : action.event ≠ before.event := by
      rw [hevent]
      exact fun heq => hsame heq.symm
    cases before with
    | executed => trivial
    | scheduled => cases action <;> first | exact hne | trivial
    | aborted => cases action <;> first | exact hne | trivial
    | deleted => exact hne
    | left => exact hne

/-- An event of the log is one that was given. -/
theorem known_append {action : Action} (h : Accounted nextId log events) (hmem : event ∈ events)
    (hevent : action.event = event.id) : ∀ a ∈ log ++ [action], a.event < nextId := by
  intro a ha
  rcases List.mem_append.mp ha with ha | ha
  · exact h.known a ha
  · rw [List.mem_singleton.mp ha, hevent]
    exact h.lt hmem

/-- An action with which nothing is gone. -/
theorem once_append {action : Action} (h : Accounted nextId log events)
    (hends : action.ends = none) :
    ((log ++ [action]).filterMap Action.ends ++ events.map BasicEvent.id).Perm (List.range nextId) := by
  rw [List.filterMap_append, List.filterMap_cons_none hends, List.filterMap_nil, List.append_nil]
  exact h.once

/-- An action that executes nothing. -/
theorem due_append {action : Action} (h : Accounted nextId log events)
    (hexecutes : action.executes = none) (id execTime now : ℕ)
    (hin : Action.executed id execTime now ∈ log ++ [action]) : execTime ≤ now := by
  rcases List.mem_append.mp hin with hold | hnew
  · exact h.due id execTime now hold
  · rw [← List.mem_singleton.mp hnew] at hexecutes
    cases hexecutes

/-- A running event executes when it is due. -/
theorem execute (h : Accounted nextId log (event :: events)) (hrunning : event.abortState = .running)
    {now : ℕ} (hdue : event.execTime ≤ now) :
    Accounted nextId (log ++ [.executed event.id event.execTime now]) (event :: events) where
  once := h.once_append rfl
  known := h.known_append List.mem_cons_self rfl
  allowed := by
    refine h.allowed_append List.mem_cons_self rfl (fun hin => ?_) fun hin => ?_
    · exact absurd hin (h.running event List.mem_cons_self hrunning)
    · refine absurd hin (h.unaborted event List.mem_cons_self ?_)
      rw [hrunning]
      decide
  due id execTime now' hin := by
    rcases List.mem_append.mp hin with hold | hnew
    · exact h.due id execTime now' hold
    · cases List.mem_singleton.mp hnew
      exact hdue
  running e he hstate := by
    have hold := h.running e he hstate
    simpa using hold
  unaborted e he hstate := by
    have hold := h.unaborted e he hstate
    simpa using hold

/-- The abort of a running event is scheduled. -/
theorem schedule (h : Accounted nextId log (event :: events)) (hrunning : event.abortState = .running) :
    Accounted nextId (log ++ [.scheduled event.id])
      ({ event with abortState := .scheduled } :: events) where
  once := h.once_append rfl
  known := h.known_append List.mem_cons_self rfl
  allowed := by
    refine h.allowed_append List.mem_cons_self rfl (fun hin => ?_) fun hin => ?_
    · exact absurd hin (h.running event List.mem_cons_self hrunning)
    · refine absurd hin (h.unaborted event List.mem_cons_self ?_)
      rw [hrunning]
      decide
  due := h.due_append rfl
  running e he hstate := by
    rcases List.mem_cons.mp he with rfl | he
    · cases hstate
    · have hold := h.running e (List.mem_cons_of_mem _ he) hstate
      have hne : e.id ≠ event.id := by
        intro hsame
        exact (List.nodup_cons.mp h.ids).1 (hsame ▸ List.mem_map_of_mem he)
      simpa [hne] using hold
  unaborted e he hstate := by
    have hold : Action.aborted e.id ∉ log := by
      rcases List.mem_cons.mp he with rfl | he
      · refine h.unaborted event List.mem_cons_self ?_
        rw [hrunning]
        decide
      · exact h.unaborted e (List.mem_cons_of_mem _ he) hstate
    simpa using hold

/-- An event is aborted. -/
theorem abort (h : Accounted nextId log (event :: events)) (hstate : event.abortState ≠ .aborted) :
    Accounted nextId (log ++ [.aborted event.id])
      ({ event with abortState := .aborted } :: events) where
  once := h.once_append rfl
  known := h.known_append List.mem_cons_self rfl
  allowed := by
    refine h.allowed_append List.mem_cons_self rfl (fun _ => trivial) fun hin => ?_
    exact absurd hin (h.unaborted event List.mem_cons_self hstate)
  due := h.due_append rfl
  running e he hrunning := by
    rcases List.mem_cons.mp he with rfl | he
    · cases hrunning
    · have hold := h.running e (List.mem_cons_of_mem _ he) hrunning
      simpa using hold
  unaborted e he hunaborted := by
    rcases List.mem_cons.mp he with rfl | he
    · exact absurd rfl hunaborted
    · have hold := h.unaborted e (List.mem_cons_of_mem _ he) hunaborted
      have hne : e.id ≠ event.id := by
        intro hsame
        exact (List.nodup_cons.mp h.ids).1 (hsame ▸ List.mem_map_of_mem he)
      simpa [hne] using hold

/-- An event is deleted, and waits no more. -/
theorem delete (h : Accounted nextId log (event :: events)) :
    Accounted nextId (log ++ [.deleted event.id]) events where
  once := by
    rw [List.filterMap_append]
    show (log.filterMap Action.ends ++ [event.id] ++ events.map BasicEvent.id).Perm _
    rw [List.append_assoc]
    exact h.once
  known := h.known_append List.mem_cons_self rfl
  allowed := h.allowed_append List.mem_cons_self rfl (fun _ => trivial) fun _ => trivial
  due := h.due_append rfl
  running e he hstate := by
    have hold := h.running e (List.mem_cons_of_mem _ he) hstate
    simpa using hold
  unaborted e he hstate := by
    have hold := h.unaborted e (List.mem_cons_of_mem _ he) hstate
    simpa using hold

/-- An event that was not aborted is left, and waits no more. -/
theorem leave (h : Accounted nextId log (event :: events)) (hstate : event.abortState ≠ .aborted) :
    Accounted nextId (log ++ [.left event.id]) events where
  once := by
    rw [List.filterMap_append]
    show (log.filterMap Action.ends ++ [event.id] ++ events.map BasicEvent.id).Perm _
    rw [List.append_assoc]
    exact h.once
  known := h.known_append List.mem_cons_self rfl
  allowed := h.allowed_append List.mem_cons_self rfl (fun _ => trivial) fun hin =>
    absurd hin (h.unaborted event List.mem_cons_self hstate)
  due := h.due_append rfl
  running e he hrunning := by
    have hold := h.running e (List.mem_cons_of_mem _ he) hrunning
    simpa using hold
  unaborted e he hunaborted := by
    have hold := h.unaborted e (List.mem_cons_of_mem _ he) hunaborted
    simpa using hold

/-- An event comes new. -/
theorem new (h : Accounted nextId log events) (hid : event.id = nextId) :
    Accounted (nextId + 1) log (event :: events) where
  once := by
    rw [List.range_succ, List.map_cons, hid]
    exact List.perm_middle.trans (((h.once.cons nextId)).trans (List.perm_append_singleton _ _).symm)
  known a ha := Nat.lt_succ_of_lt (h.known a ha)
  allowed := h.allowed
  due := h.due
  running e he hstate hin := by
    rcases List.mem_cons.mp he with rfl | he
    · exact Nat.lt_irrefl nextId (hid ▸ h.known _ hin)
    · exact h.running e he hstate hin
  unaborted e he hstate hin := by
    rcases List.mem_cons.mp he with rfl | he
    · exact Nat.lt_irrefl nextId (hid ▸ h.known _ hin)
    · exact h.unaborted e he hstate hin

/-- An event gets another time. -/
theorem retime (h : Accounted nextId log (event :: events)) {event' : BasicEvent}
    (hid : event'.id = event.id) (hstate : event'.abortState = event.abortState) :
    Accounted nextId log (event' :: events) where
  once := by
    rw [List.map_cons, hid]
    exact h.once
  known := h.known
  allowed := h.allowed
  due := h.due
  running e he hrunning := by
    rcases List.mem_cons.mp he with rfl | he
    · rw [hid]
      exact h.running event List.mem_cons_self (hstate ▸ hrunning)
    · exact h.running e (List.mem_cons_of_mem _ he) hrunning
  unaborted e he hunaborted := by
    rcases List.mem_cons.mp he with rfl | he
    · rw [hid]
      exact h.unaborted event List.mem_cons_self (hstate ▸ hunaborted)
    · exact h.unaborted e (List.mem_cons_of_mem _ he) hunaborted

end Accounted

/-- The events wait in their order. -/
structure Queued (nextStamp : ℕ) (events : List BasicEvent) : Prop where
  sorted : events.Pairwise (Lib.Before BasicEvent.execTime BasicEvent.stamp)
  stamps : ∀ event ∈ events, event.stamp < nextStamp

/-- What holds of a processor between two calls, and between two turns of the loop of `Update`. -/
structure Alive (s : EventProcessor) : Prop where
  accounted : Accounted s.nextId s.log s.events
  queued : Queued s.nextStamp s.events

/-- What holds of a processor while an event is in hand. -/
structure InHand (s : EventProcessor) (event : BasicEvent) : Prop where
  accounted : Accounted s.nextId s.log (event :: s.events)
  queued : Queued s.nextStamp s.events

namespace EventProcessor

variable {s : EventProcessor} {event : BasicEvent}

/-- One more event in the queue. -/
theorem queued_addEvent (h : Queued s.nextStamp s.events) (time : ℕ) (setAddTime : Bool) :
    Queued (s.addEvent event time setAddTime).nextStamp (s.addEvent event time setAddTime).events where
  sorted := Lib.insertLast_sorted h.sorted h.stamps
  stamps e he := by
    rcases Lib.mem_insertLast.mp he with rfl | he
    · exact Nat.lt_succ_self _
    · exact Nat.lt_succ_of_lt (h.stamps e he)

/-- The event in hand is put back. -/
theorem alive_addEvent (h : InHand s event) (time : ℕ) (setAddTime : Bool) :
    Alive (s.addEvent event time setAddTime) where
  accounted := by
    have hput : Accounted s.nextId s.log
        ({ event with
          addTime := if setAddTime then s.time else event.addTime
          execTime := time
          stamp := s.nextStamp } :: s.events) := h.accounted.retime rfl rfl
    exact hput.perm (Lib.insertLast_perm _ _).symm
  queued := queued_addEvent h.queued time setAddTime

/-- The event in hand is deleted. -/
theorem alive_delete (h : InHand s event) : Alive (s.record (.deleted event.id)) :=
  ⟨h.accounted.delete, h.queued⟩

/-- The event in hand is left. -/
theorem alive_leave (h : InHand s event) (hstate : event.abortState ≠ .aborted) :
    Alive (s.record (.left event.id)) :=
  ⟨h.accounted.leave hstate, h.queued⟩

/-- A new event is added. -/
theorem alive_addNew (h : Alive s) (added : ℕ × Bool) : Alive (s.addNew added) := by
  have hnew : InHand { s with nextId := s.nextId + 1 } ⟨s.nextId, .running, 0, 0, 0⟩ :=
    ⟨h.accounted.new rfl, h.queued⟩
  exact alive_addEvent hnew added.1 added.2

/-- A new event is added while one is in hand. -/
theorem inHand_addNew (h : InHand s event) (added : ℕ × Bool) : InHand (s.addNew added) event where
  accounted := by
    have hnew : Accounted (s.nextId + 1) s.log
        (⟨s.nextId, .running, if added.2 then s.time else 0, added.1, s.nextStamp⟩ :: event :: s.events) :=
      h.accounted.new rfl
    exact hnew.perm ((List.Perm.swap _ _ _).trans ((Lib.insertLast_perm _ _).symm.cons _))
  queued := queued_addEvent h.queued added.1 added.2

/-- Any number of new events. -/
theorem alive_foldl (h : Alive s) (added : List (ℕ × Bool)) : Alive (added.foldl addNew s) := by
  induction added generalizing s with
  | nil => exact h
  | cons first rest ih => exact ih (alive_addNew h first)

/-- Any number of new events while one is in hand. -/
theorem inHand_foldl (h : InHand s event) (added : List (ℕ × Bool)) :
    InHand (added.foldl addNew s) event := by
  induction added generalizing s with
  | nil => exact h
  | cons first rest ih => exact ih (inHand_addNew h first)

/-- An event that is due executes. -/
theorem alive_execute (h : InHand s event) (hrunning : event.abortState = .running)
    (hdue : event.execTime ≤ s.time) (response : Response) : Alive (s.execute response event) := by
  have hrecorded : InHand (s.record (.executed event.id event.execTime s.time)) event :=
    ⟨h.accounted.execute hrunning hdue, h.queued⟩
  have hcalled := inHand_foldl hrecorded response.before
  unfold execute
  cases response.again with
  | none =>
      have hafter := inHand_foldl hcalled response.after
      dsimp only
      split_ifs
      · exact alive_delete hafter
      · refine alive_leave hafter ?_
        rw [hrunning]
        decide
  | some again => exact alive_foldl (alive_addEvent hcalled again.1 again.2) response.after

/-- An event that is aborted is deleted or put back. -/
theorem alive_retire (h : InHand s event) (answers : Answers) : Alive (s.retire answers event) := by
  unfold retire
  split_ifs
  · exact alive_delete h
  · exact alive_addEvent h _ _

/-- An event that is due is handled. -/
theorem alive_handle (h : InHand s event) (hdue : event.execTime ≤ s.time) (answers : Answers) :
    Alive (s.handle answers event) := by
  unfold handle
  cases hstate : event.abortState with
  | running => exact alive_execute h hstate hdue _
  | scheduled =>
      have hunaborted : event.abortState ≠ .aborted := by
        rw [hstate]
        decide
      have haborted : InHand (s.record (.aborted event.id)) { event with abortState := .aborted } :=
        ⟨h.accounted.abort hunaborted, h.queued⟩
      exact alive_retire haborted answers
  | aborted => exact alive_retire h answers

/-- One turn of the loop. -/
theorem alive_turn (h : Alive s) {answers : Answers} {s' : EventProcessor}
    (hturn : s.turn answers = some s') : Alive s' := by
  unfold turn at hturn
  cases hevents : s.events with
  | nil =>
      rw [hevents] at hturn
      cases hturn
  | cons event rest =>
      rw [hevents] at hturn
      by_cases hdue : event.execTime ≤ s.time
      · simp only [if_pos hdue, Option.some.injEq] at hturn
        subst hturn
        obtain ⟨haccounted, hsorted, hstamps⟩ := h
        rw [hevents] at haccounted hsorted hstamps
        have hhand : InHand { s with events := rest } event :=
          ⟨haccounted, (List.pairwise_cons.mp hsorted).2,
            fun e he => hstamps e (List.mem_cons_of_mem _ he)⟩
        exact alive_handle hhand hdue answers
      · simp only [if_neg hdue] at hturn
        cases hturn

/-- The loop. -/
theorem alive_drain (h : Alive s) (answers : Answers) (n : ℕ) : Alive (drain answers n s) := by
  induction n generalizing s with
  | zero => exact h
  | succ n ih =>
      unfold drain
      split
      · exact h
      · next s' hs' => exact ih (alive_turn h hs')

/-- `Update`. -/
theorem alive_update (h : Alive s) (passed : ℕ) (answers : Answers) :
    Alive (s.update passed answers) := by
  have hadvanced : Alive (s.advance passed) := ⟨h.accounted, h.queued⟩
  exact alive_drain hadvanced answers _

/-- The loop of `KillAllEvents` accounts for every event. -/
theorem accounted_killLoop (force : Bool) (answers : Answers) {nextId : ℕ} {todo kept : List BasicEvent}
    {log : List Action} (h : Accounted nextId log (todo ++ kept)) :
    Accounted nextId (killLoop force answers todo log).2 ((killLoop force answers todo log).1 ++ kept) := by
  induction todo generalizing log kept with
  | nil => exact h
  | cons event rest ih =>
      have haborted : Accounted nextId
          (if event.abortState = .aborted then log else log ++ [.aborted event.id])
          ({ event with abortState := .aborted } :: (rest ++ kept)) := by
        split_ifs with hstate
        · exact h.retime rfl hstate.symm
        · exact h.abort hstate
      unfold killLoop
      by_cases hkeep : !force ∧ !answers.isDeletable event.id
      · simp only [if_pos hkeep]
        exact (ih (haborted.perm List.perm_middle.symm)).perm List.perm_middle
      · simp only [if_neg hkeep]
        exact ih haborted.delete

/-- The loop of `KillAllEvents` leaves events as they were queued. -/
theorem mem_killLoop (force : Bool) (answers : Answers) {todo : List BasicEvent} {log : List Action}
    {e : BasicEvent} (he : e ∈ (killLoop force answers todo log).1) :
    ∃ event ∈ todo, e.execTime = event.execTime ∧ e.stamp = event.stamp := by
  induction todo generalizing log with
  | nil => cases he
  | cons event rest ih =>
      unfold killLoop at he
      by_cases hkeep : !force ∧ !answers.isDeletable event.id
      · simp only [if_pos hkeep] at he
        rcases List.mem_cons.mp he with rfl | he
        · exact ⟨event, List.mem_cons_self, rfl, rfl⟩
        · obtain ⟨old, hold, hsame⟩ := ih he
          exact ⟨old, List.mem_cons_of_mem _ hold, hsame⟩
      · simp only [if_neg hkeep] at he
        obtain ⟨old, hold, hsame⟩ := ih he
        exact ⟨old, List.mem_cons_of_mem _ hold, hsame⟩

/-- The loop of `KillAllEvents` keeps the order. -/
theorem queued_killLoop (force : Bool) (answers : Answers) {nextStamp : ℕ} {todo : List BasicEvent}
    {log : List Action} (h : Queued nextStamp todo) :
    Queued nextStamp (killLoop force answers todo log).1 where
  sorted := by
    obtain ⟨hsorted, -⟩ := h
    induction todo generalizing log with
    | nil => exact List.Pairwise.nil
    | cons event rest ih =>
        obtain ⟨hfirst, hrest⟩ := List.pairwise_cons.mp hsorted
        unfold killLoop
        by_cases hkeep : !force ∧ !answers.isDeletable event.id
        · simp only [if_pos hkeep]
          refine List.pairwise_cons.mpr ⟨fun e he => ?_, ih hrest⟩
          obtain ⟨old, hold, htime, hstamp⟩ := mem_killLoop force answers he
          have hbefore := hfirst old hold
          unfold Lib.Before at hbefore ⊢
          rw [htime, hstamp]
          exact hbefore
        · simp only [if_neg hkeep]
          exact ih hrest
  stamps e he := by
    obtain ⟨old, hold, -, hstamp⟩ := mem_killLoop force answers he
    rw [hstamp]
    exact h.stamps old hold

/-- `KillAllEvents`. -/
theorem alive_killAllEvents (h : Alive s) (force : Bool) (answers : Answers) :
    Alive (s.killAllEvents force answers) where
  accounted := by
    have hall : Accounted s.nextId s.log (s.events ++ []) := by
      rw [List.append_nil]
      exact h.accounted
    have haccounted := accounted_killLoop force answers hall
    rw [List.append_nil] at haccounted
    exact haccounted
  queued := queued_killLoop force answers h.queued

/-- `ScheduleAbort` of a running event. -/
theorem alive_scheduleAbort (h : Alive s) (hmem : event ∈ s.events)
    (hrunning : event.abortState = .running) : Alive (s.scheduleAbort event.id) := by
  have hnodup := h.accounted.ids
  refine ⟨?_, ?_, ?_⟩
  · have hfront : s.events.Perm (event :: Lib.eraseKey BasicEvent.id event.id s.events) :=
      Lib.perm_eraseKey hnodup hmem rfl
    have hback := Lib.perm_writeKey (f := fun e => { e with abortState := .scheduled }) hnodup hmem rfl
    exact ((h.accounted.perm hfront).schedule hrunning).perm hback.symm
  · show (Lib.writeKey BasicEvent.id event.id _ s.events).Pairwise _
    unfold Lib.writeKey
    refine List.pairwise_map.mpr (h.queued.sorted.imp fun {a b} hbefore => ?_)
    unfold Lib.Before at hbefore ⊢
    split_ifs <;> exact hbefore
  · intro e he
    obtain ⟨old, hold, rfl⟩ := Lib.mem_writeKey.mp he
    have hstamp := h.queued.stamps old hold
    split_ifs <;> exact hstamp

end EventProcessor

/-- What the callers are asked: an abort is scheduled for a running event that waits, an event is added
for a `uint64`, and an event that executes adds events for times after the current one only. -/
def Asked (s : EventProcessor) : Call → Prop
  | .addEvent time _ => time < 2 ^ 64
  | .scheduleAbort id => ∃ event ∈ s.events, event.id = id ∧ event.abortState = .running
  | .update passed answers =>
      ∀ id, ∀ time ∈ (answers.execute id).times, (s.advance passed).time < time ∧ time < 2 ^ 64
  | .killAllEvents _ _ => True

/-- A call keeps every event accounted for. -/
theorem Alive.step {s : EventProcessor} (h : Alive s) {call : Call} (hasked : Asked s call) :
    Alive (s.step call) := by
  cases call with
  | addEvent time setAddTime => exact EventProcessor.alive_addNew h (time, setAddTime)
  | scheduleAbort id =>
      obtain ⟨event, hmem, rfl, hrunning⟩ := hasked
      exact EventProcessor.alive_scheduleAbort h hmem hrunning
  | update passed answers => exact EventProcessor.alive_update h passed answers
  | killAllEvents force answers => exact EventProcessor.alive_killAllEvents h force answers

/-- A processor without events. -/
theorem alive_empty : Alive EventProcessor.empty where
  accounted :=
    { once := List.Perm.refl []
      known := fun _ h => absurd h List.not_mem_nil
      allowed := List.Pairwise.nil
      due := fun _ _ _ h => absurd h List.not_mem_nil
      running := fun _ h => absurd h List.not_mem_nil
      unaborted := fun _ h => absurd h List.not_mem_nil }
  queued := ⟨List.Pairwise.nil, fun _ h => absurd h List.not_mem_nil⟩

/-- Every event is accounted for after any run. -/
theorem run_alive {calls : List Call}
    (h : Lib.Along Asked EventProcessor.step EventProcessor.empty calls) :
    Alive (Lib.run EventProcessor.step EventProcessor.empty calls) :=
  Lib.run_invariant Alive (fun _ _ hasked halive => halive.step hasked) alive_empty h

end TwowCore.Events
