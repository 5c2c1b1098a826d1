import TwowCore.Lib.Keyed
import TwowCore.Lib.Multimap
import TwowCore.Lib.Run

/-!
# Event processors

Events wait in a multimap by the time at which they are due. `Update` advances the clock and takes out
what has become due. An event that executes may add others and may add itself again; if it does not, it
says whether it wants to be deleted, and one that does not is left to itself. An event whose abort was
scheduled is aborted; one that is aborted and cannot be deleted yet is looked at again at the next tick.

Read `turn` first. It is one turn of the loop of `Update`, and `drain` is the loop.
-/

namespace TwowCore.Events

/-- `AbortState`. -/
inductive AbortState where
  | running
  | scheduled
  | aborted
  deriving DecidableEq, Repr

/-- `BasicEvent`. `stamp` counts the insertions, and says which of two events was put in last. -/
structure BasicEvent where
  id : ℕ
  abortState : AbortState
  addTime : ℕ
  execTime : ℕ
  stamp : ℕ
  deriving DecidableEq, Repr

/-- What has been done to events. `Execute` is called for a time and at a time. An event is left when it
has executed and is neither deleted nor added again: the processor has no pointer to it any more. -/
inductive Action where
  | executed (id execTime now : ℕ)
  | scheduled (id : ℕ)
  | aborted (id : ℕ)
  | deleted (id : ℕ)
  | left (id : ℕ)
  deriving DecidableEq, Repr

/-- `EventProcessor`, with the events that it has been given so far and what has been done to them. -/
structure EventProcessor where
  time : ℕ
  events : List BasicEvent
  nextId : ℕ
  nextStamp : ℕ
  log : List Action

/-- What `Execute` does: the events it adds, and itself if it adds itself again. An event is added with its
time and `set_addtime`. `Execute` returns `destroy`; an event that has added itself returns `false`. -/
structure Response where
  before : List (ℕ × Bool)
  again : Option (ℕ × Bool)
  after : List (ℕ × Bool)
  destroy : Bool

/-- The times for which `Execute` adds events. -/
def Response.times (response : Response) : List ℕ :=
  (response.before ++ response.again.toList ++ response.after).map Prod.fst

/-- What the events answer during one call of the processor, which asks each of them once. -/
structure Answers where
  execute : ℕ → Response
  isDeletable : ℕ → Bool

/-- The times are `uint64`. -/
def wrap (n : ℕ) : ℕ := n % 2 ^ 64

namespace EventProcessor

/-- `AddEvent`. -/
def addEvent (s : EventProcessor) (event : BasicEvent) (time : ℕ) (setAddTime : Bool) : EventProcessor :=
  { s with
    events := Lib.insertLast BasicEvent.execTime
      { event with
        addTime := if setAddTime then s.time else event.addTime
        execTime := time
        stamp := s.nextStamp } s.events
    nextStamp := s.nextStamp + 1 }

/-- `AddEvent` of a new event. -/
def addNew (s : EventProcessor) (added : ℕ × Bool) : EventProcessor :=
  { s with nextId := s.nextId + 1 }.addEvent ⟨s.nextId, .running, 0, 0, 0⟩ added.1 added.2

/-- `CalculateTime`. -/
def calculateTime (s : EventProcessor) (offset : ℕ) : ℕ := wrap (s.time + offset)

/-- One more entry in the log. -/
def record (s : EventProcessor) (action : Action) : EventProcessor := { s with log := s.log ++ [action] }

/-- The event executes, and is deleted if it returns `true`. -/
def execute (s : EventProcessor) (response : Response) (event : BasicEvent) : EventProcessor :=
  let called := response.before.foldl addNew (s.record (.executed event.id event.execTime s.time))
  match response.again with
  | none =>
      (response.after.foldl addNew called).record
        (if response.destroy then .deleted event.id else .left event.id)
  | some (time, setAddTime) => response.after.foldl addNew (called.addEvent event time setAddTime)

/-- An aborted event is deleted, or looked at again at the next tick. -/
def retire (s : EventProcessor) (answers : Answers) (event : BasicEvent) : EventProcessor :=
  if answers.isDeletable event.id then s.record (.deleted event.id)
  else s.addEvent event (s.calculateTime 1) false

/-- What is done with an event that is due. -/
def handle (s : EventProcessor) (answers : Answers) (event : BasicEvent) : EventProcessor :=
  match event.abortState with
  | .running => s.execute (answers.execute event.id) event
  | .scheduled =>
      (s.record (.aborted event.id)).retire answers { event with abortState := .aborted }
  | .aborted => s.retire answers event

/-- One turn of the loop of `Update`; none if nothing is due. -/
def turn (answers : Answers) (s : EventProcessor) : Option EventProcessor :=
  match s.events with
  | [] => none
  | event :: rest =>
      if event.execTime ≤ s.time then some ({ s with events := rest }.handle answers event) else none

/-- The loop of `Update`, for a number of turns at most. -/
def drain (answers : Answers) : ℕ → EventProcessor → EventProcessor
  | 0, s => s
  | n + 1, s =>
      match s.turn answers with
      | none => s
      | some s' => drain answers n s'

/-- The clock. -/
def advance (s : EventProcessor) (passed : ℕ) : EventProcessor := { s with time := wrap (s.time + passed) }

/-- `Update`. That this many turns are enough is proved below. -/
def update (s : EventProcessor) (passed : ℕ) (answers : Answers) : EventProcessor :=
  drain answers s.events.length (s.advance passed)

/-- The loop of `KillAllEvents`: the events that are kept, and the log. -/
def killLoop (force : Bool) (answers : Answers) : List BasicEvent → List Action →
    List BasicEvent × List Action
  | [], log => ([], log)
  | event :: rest, log =>
      let log' := if event.abortState = .aborted then log else log ++ [.aborted event.id]
      if !force ∧ !answers.isDeletable event.id then
        let looped := killLoop force answers rest log'
        ({ event with abortState := .aborted } :: looped.1, looped.2)
      else killLoop force answers rest (log' ++ [.deleted event.id])

/-- `KillAllEvents`. -/
def killAllEvents (s : EventProcessor) (force : Bool) (answers : Answers) : EventProcessor :=
  let looped := killLoop force answers s.events s.log
  { s with events := looped.1, log := looped.2 }

/-- `ScheduleAbort`. -/
def scheduleAbort (s : EventProcessor) (id : ℕ) : EventProcessor :=
  { s with events := Lib.writeKey BasicEvent.id id (fun e => { e with abortState := .scheduled }) s.events }.record
    (.scheduled id)

end EventProcessor

/-- A call of the processor, or of one of its events. -/
inductive Call where
  | addEvent (time : ℕ) (setAddTime : Bool)
  | scheduleAbort (id : ℕ)
  | update (passed : ℕ) (answers : Answers)
  | killAllEvents (force : Bool) (answers : Answers)

/-- What a call does. -/
def EventProcessor.step (s : EventProcessor) : Call → EventProcessor
  | .addEvent time setAddTime => s.addNew (time, setAddTime)
  | .scheduleAbort id => s.scheduleAbort id
  | .update passed answers => s.update passed answers
  | .killAllEvents force answers => s.killAllEvents force answers

/-- A processor without events. -/
def EventProcessor.empty : EventProcessor := ⟨0, [], 0, 0, []⟩

end TwowCore.Events
