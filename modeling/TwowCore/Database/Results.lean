import Mathlib.Data.List.Perm.Basic
import Mathlib.Data.UInt
import TwowCore.Lib.Run

/-!
# The result queue of a database

`SqlResultQueue`: the callbacks of asynchronous queries arrive in a locked queue. `Update` takes all of
them out; the thread-safe ones are run by a pool that the pass waits for, the others are put off into a
second queue, of which the pass runs as many as a budget and a timeout allow. `CancelAll` runs what is in
the first queue with a null result.
-/

namespace TwowCore.Database

/-- `IQueryCallback`. -/
structure Callback where
  id : ℕ
  isThreadSafe : Bool
  deriving DecidableEq, Repr

/-- What a callback is run with. -/
inductive Outcome where
  | result
  | null
  deriving DecidableEq, Repr

/-- `SqlResultQueue`, with the callbacks that have been run. -/
structure SqlResultQueue where
  queue : List Callback
  threadUnsafeWaitingQueries : List Callback
  numUnsafeQueries : UInt32
  executed : List (Callback × Outcome)
  deriving DecidableEq, Repr

/-- What the clocks show around a callback: the time that the loop has taken before it, and the time
since the start of the pass after it. -/
structure Reading where
  elapsedUs : UInt64
  elapsedMs : UInt32

/-- `unsafe_budget::StopBefore`. -/
def stopBefore (budgetMs ranThisPass : UInt32) (elapsedUs : UInt64) : Bool :=
  budgetMs ≠ 0 && ranThisPass ≠ 0 && decide (budgetMs.toUInt64 * 1000 ≤ elapsedUs)

/-- The arguments of `Update`, the clocks, and what arrives while it runs. -/
structure Pass where
  timeout : UInt32
  budgetMs : UInt32
  clock : ℕ → Reading
  arriving : List Callback

/-- What happens to the queue. -/
inductive Event where
  | add (callback : Callback)
  | update (pass : Pass)

/-- What the loop over the second queue has run, what it has left, and the counter. -/
structure Drained where
  ran : List Callback
  left : List Callback
  numUnsafeQueries : UInt32
  deriving DecidableEq, Repr

/-- The loop of `Update` over the second queue. -/
def drain (timeout budgetMs : UInt32) :
    (ℕ → Reading) → UInt32 → UInt32 → List Callback → Drained
  | _, _, numUnsafeQueries, [] => ⟨[], [], numUnsafeQueries⟩
  | clock, unsafeRan, numUnsafeQueries, s :: rest =>
      if budgetMs ≠ 0 ∧ unsafeRan ≠ 0 ∧ numUnsafeQueries ≠ 0 ∧
          stopBefore budgetMs unsafeRan (clock 0).elapsedUs then
        ⟨[], s :: rest, numUnsafeQueries⟩
      else if timeout ≠ 0 ∧ timeout < (clock 0).elapsedMs then ⟨[s], rest, numUnsafeQueries - 1⟩
      else
        let later := drain timeout budgetMs (fun k => clock (k + 1)) (unsafeRan + 1)
          (numUnsafeQueries - 1) rest
        { later with ran := s :: later.ran }

namespace SqlResultQueue

/-- An empty queue. -/
def empty : SqlResultQueue := ⟨[], [], 0, []⟩

/-- `add`. -/
def add (s : SqlResultQueue) (callback : Callback) : SqlResultQueue :=
  { s with queue := s.queue ++ [callback] }

/-- The thread-safe callbacks of the first queue. -/
def safe (s : SqlResultQueue) : List Callback := s.queue.filter Callback.isThreadSafe

/-- The second queue, when the first has been emptied into it. -/
def waiting (s : SqlResultQueue) : List Callback :=
  s.threadUnsafeWaitingQueries ++ s.queue.filter fun callback => !callback.isThreadSafe

/-- The loop over the second queue in a pass. -/
def drained (s : SqlResultQueue) (pass : Pass) : Drained :=
  drain pass.timeout pass.budgetMs pass.clock 0
    (s.numUnsafeQueries +
      UInt32.ofNat (s.queue.filter fun callback => !callback.isThreadSafe).length) s.waiting

/-- `Update`. -/
def update (s : SqlResultQueue) (pass : Pass) : SqlResultQueue where
  queue := pass.arriving
  threadUnsafeWaitingQueries := (s.drained pass).left
  numUnsafeQueries := (s.drained pass).numUnsafeQueries
  executed := s.executed ++ (s.safe ++ (s.drained pass).ran).map fun callback => (callback, .result)

/-- `CancelAll`. -/
def cancelAll (s : SqlResultQueue) : SqlResultQueue :=
  { s with
    queue := []
    executed := s.executed ++ s.queue.map fun callback => (callback, .null) }

/-- An event. -/
def step (s : SqlResultQueue) : Event → SqlResultQueue
  | .add callback => s.add callback
  | .update pass => s.update pass

/-- The callbacks that are not thread-safe, among those that have been run. -/
def unsafeRun (s : SqlResultQueue) : List Callback :=
  (s.executed.map Prod.fst).filter fun callback => !callback.isThreadSafe

end SqlResultQueue

/-- The callbacks that arrive with an event. -/
def Event.added : Event → List Callback
  | .add callback => [callback]
  | .update pass => pass.arriving

/-- The loop takes from the front, and counts down. -/
theorem drain_spec (timeout budgetMs : UInt32) (clock : ℕ → Reading)
    (unsafeRan numUnsafeQueries : UInt32) (waiting : List Callback) :
    (drain timeout budgetMs clock unsafeRan numUnsafeQueries waiting).ran ++
        (drain timeout budgetMs clock unsafeRan numUnsafeQueries waiting).left = waiting ∧
      (numUnsafeQueries = UInt32.ofNat waiting.length →
        (drain timeout budgetMs clock unsafeRan numUnsafeQueries waiting).numUnsafeQueries =
          UInt32.ofNat
            (drain timeout budgetMs clock unsafeRan numUnsafeQueries waiting).left.length) := by
  induction waiting generalizing clock unsafeRan numUnsafeQueries with
  | nil => exact ⟨rfl, fun hcount => hcount⟩
  | cons s rest ih =>
      have hnext : numUnsafeQueries = UInt32.ofNat (s :: rest).length →
          numUnsafeQueries - 1 = UInt32.ofNat rest.length := by
        rintro rfl
        rw [List.length_cons, UInt32.ofNat_add]
        exact UInt32.add_sub_cancel _ _
      unfold drain
      split_ifs
      · exact ⟨rfl, fun hcount => hcount⟩
      · exact ⟨rfl, hnext⟩
      · obtain ⟨hsplit, hcount⟩ :=
          ih (fun k => clock (k + 1)) (unsafeRan + 1) (numUnsafeQueries - 1)
        exact ⟨congrArg (s :: ·) hsplit, fun h => hcount (hnext h)⟩

/-- The first callback of a pass is run. -/
theorem drain_ran_ne_nil (timeout budgetMs : UInt32) (clock : ℕ → Reading)
    (numUnsafeQueries : UInt32) {waiting : List Callback} (hne : waiting ≠ []) :
    (drain timeout budgetMs clock 0 numUnsafeQueries waiting).ran ≠ [] := by
  obtain ⟨s, rest, rfl⟩ := List.exists_cons_of_ne_nil hne
  unfold drain
  split_ifs with hstop
  · exact absurd rfl hstop.2.1
  · exact List.cons_ne_nil _ _
  · exact List.cons_ne_nil _ _

namespace SqlResultQueue

/-- What has been run and what waits is what has been added: the thread-safe callbacks in any order, the
others in the order of their arrival; and the counter counts the second queue. -/
structure Inv (s : SqlResultQueue) (added : List Callback) : Prop where
  complete : (s.executed.map Prod.fst ++ s.threadUnsafeWaitingQueries ++ s.queue).Perm added
  ordered : s.unsafeRun ++ s.waiting = added.filter fun callback => !callback.isThreadSafe
  counted : s.numUnsafeQueries = UInt32.ofNat s.threadUnsafeWaitingQueries.length
  deferred : ∀ callback ∈ s.threadUnsafeWaitingQueries, callback.isThreadSafe = false
  results : ∀ entry ∈ s.executed, entry.2 = .result

variable {s : SqlResultQueue} {added : List Callback}

theorem empty_inv : empty.Inv [] :=
  ⟨List.Perm.nil, rfl, rfl, fun _ h => (List.not_mem_nil h).elim, fun _ h => (List.not_mem_nil h).elim⟩

theorem Inv.add (h : s.Inv added) (callback : Callback) :
    (s.add callback).Inv (added ++ [callback]) where
  complete := by
    show (s.executed.map Prod.fst ++ s.threadUnsafeWaitingQueries ++ (s.queue ++ [callback])).Perm _
    rw [← List.append_assoc]
    exact h.complete.append_right [callback]
  ordered := by
    have hwaiting : (s.add callback).waiting =
        s.waiting ++ [callback].filter fun callback => !callback.isThreadSafe := by
      unfold waiting SqlResultQueue.add
      rw [List.filter_append, List.append_assoc]
    have hrun : (s.add callback).unsafeRun = s.unsafeRun := rfl
    rw [hwaiting, hrun, ← List.append_assoc, h.ordered, List.filter_append]
  counted := h.counted
  deferred := h.deferred
  results := h.results

/-- Emptying the first queue sorts it into the two kinds. -/
theorem perm_safe_waiting (s : SqlResultQueue) :
    (s.safe ++ s.waiting).Perm (s.threadUnsafeWaitingQueries ++ s.queue) := by
  have hkinds : (s.safe ++ s.queue.filter fun callback => !callback.isThreadSafe).Perm s.queue :=
    List.filter_append_perm Callback.isThreadSafe s.queue
  unfold waiting
  refine List.Perm.trans ?_ (hkinds.append_left s.threadUnsafeWaitingQueries)
  rw [← List.append_assoc, ← List.append_assoc]
  exact List.perm_append_comm.append_right _

/-- The loop splits what waits. -/
theorem drained_split (s : SqlResultQueue) (pass : Pass) :
    (s.drained pass).ran ++ (s.drained pass).left = s.waiting :=
  (drain_spec pass.timeout pass.budgetMs pass.clock 0 _ s.waiting).1

theorem executed_update (s : SqlResultQueue) (pass : Pass) :
    (s.update pass).executed.map Prod.fst =
      s.executed.map Prod.fst ++ (s.safe ++ (s.drained pass).ran) := by
  show (s.executed ++ _).map Prod.fst = _
  rw [List.map_append, List.map_map]
  congr 1
  exact List.map_id _

/-- No callback that waits is thread-safe. -/
theorem Inv.of_waiting (h : s.Inv added) : ∀ callback ∈ s.waiting, callback.isThreadSafe = false := by
  intro callback hin
  rcases List.mem_append.mp hin with hold | hnew
  · exact h.deferred callback hold
  · simpa using (List.mem_filter.mp hnew).2

/-- A pass runs the callbacks that the loop has taken. -/
theorem Inv.unsafeRun_update (h : s.Inv added) (pass : Pass) :
    (s.update pass).unsafeRun = s.unsafeRun ++ (s.drained pass).ran := by
  have hsafe : s.safe.filter (fun callback => !callback.isThreadSafe) = [] := by
    refine List.filter_eq_nil_iff.mpr fun callback hin => ?_
    simp [(List.mem_filter.mp hin).2]
  have hran : (s.drained pass).ran.filter (fun callback => !callback.isThreadSafe) =
      (s.drained pass).ran := by
    refine List.filter_eq_self.mpr fun callback hin => ?_
    have hin' : callback ∈ s.waiting := s.drained_split pass ▸ List.mem_append_left _ hin
    rw [h.of_waiting callback hin']
    rfl
  unfold unsafeRun
  rw [executed_update, List.filter_append, List.filter_append, hsafe, List.nil_append, hran]

theorem Inv.update (h : s.Inv added) (pass : Pass) :
    (s.update pass).Inv (added ++ pass.arriving) := by
  have hsplit := s.drained_split pass
  have hlength : s.numUnsafeQueries +
      UInt32.ofNat (s.queue.filter fun callback => !callback.isThreadSafe).length =
        UInt32.ofNat s.waiting.length := by
    unfold waiting
    rw [h.counted, List.length_append, UInt32.ofNat_add]
  refine ⟨?_, ?_, ?_, fun callback hin => ?_, fun entry hentry => ?_⟩
  · rw [executed_update]
    show (s.executed.map Prod.fst ++ (s.safe ++ (s.drained pass).ran) ++ (s.drained pass).left ++
      pass.arriving).Perm (added ++ pass.arriving)
    refine List.Perm.append_right pass.arriving (List.Perm.trans ?_ h.complete)
    rw [List.append_assoc, List.append_assoc, List.append_assoc, hsplit]
    exact (perm_safe_waiting s).append_left _
  · have hwaiting : (s.update pass).waiting =
        (s.drained pass).left ++ pass.arriving.filter fun callback => !callback.isThreadSafe := rfl
    rw [h.unsafeRun_update, hwaiting, List.append_assoc, ← List.append_assoc (s.drained pass).ran,
      hsplit, ← List.append_assoc, h.ordered, List.filter_append]
  · exact (drain_spec pass.timeout pass.budgetMs pass.clock 0 _ s.waiting).2 hlength
  · exact h.of_waiting callback (hsplit ▸ List.mem_append_right _ hin)
  · rcases List.mem_append.mp hentry with hold | hnew
    · exact h.results entry hold
    · obtain ⟨callback, -, rfl⟩ := List.mem_map.mp hnew
      rfl

/-- The invariant holds after every run. -/
theorem run_inv (events : List Event) :
    (Lib.run step empty events).Inv (events.flatMap Event.added) := by
  suffices hgo : ∀ (s : SqlResultQueue) (added : List Callback), s.Inv added →
      (Lib.run step s events).Inv (added ++ events.flatMap Event.added) from
    hgo empty [] empty_inv
  induction events with
  | nil =>
      intro s added h
      rwa [List.flatMap_nil, List.append_nil]
  | cons event rest ih =>
      intro s added h
      rw [List.flatMap_cons, ← List.append_assoc]
      refine ih (s.step event) (added ++ event.added) ?_
      cases event with
      | add callback => exact h.add callback
      | update pass => exact h.update pass

/-- After any arrivals and passes the counter is the length of the second queue and the next pass runs a
callback of it when there is one; when `CancelAll` ends the run, the callbacks that are not thread-safe
have been run in the order of their arrival, and every callback has been run exactly once, by a pass or
with a null result, exactly when nothing was left in the second queue. -/
theorem run_served (events : List Event) :
    (Lib.run step empty events).numUnsafeQueries =
        UInt32.ofNat (Lib.run step empty events).threadUnsafeWaitingQueries.length ∧
      (∀ pass, (Lib.run step empty events).waiting ≠ [] →
        (Lib.run step empty events).unsafeRun.length <
          ((Lib.run step empty events).update pass).unsafeRun.length) ∧
      (Lib.run step empty events).cancelAll.unsafeRun.Sublist
        ((events.flatMap Event.added).filter fun callback => !callback.isThreadSafe) ∧
      (∀ entry ∈ (Lib.run step empty events).executed, entry.2 = .result) ∧
      ((Lib.run step empty events).cancelAll.executed = (Lib.run step empty events).executed ++
          (Lib.run step empty events).queue.map fun callback => (callback, .null)) ∧
      (((Lib.run step empty events).cancelAll.executed.map Prod.fst).Perm
          (events.flatMap Event.added) ↔
        (Lib.run step empty events).threadUnsafeWaitingQueries = []) := by
  have h := run_inv events
  generalize Lib.run step empty events = s at *
  generalize events.flatMap Event.added = added at *
  have hcancel : s.cancelAll.executed.map Prod.fst = s.executed.map Prod.fst ++ s.queue := by
    show (s.executed ++ _).map Prod.fst = _
    rw [List.map_append, List.map_map]
    congr 1
    exact List.map_id _
  refine ⟨h.counted, fun pass hne => ?_, ?_, h.results, rfl, ?_⟩
  · have hran : (s.drained pass).ran ≠ [] :=
      drain_ran_ne_nil pass.timeout pass.budgetMs pass.clock _ hne
    rw [h.unsafeRun_update pass, List.length_append]
    exact Nat.lt_add_of_pos_right (List.length_pos_iff.mpr hran)
  · have hrun : s.cancelAll.unsafeRun =
        s.unsafeRun ++ s.queue.filter fun callback => !callback.isThreadSafe := by
      unfold unsafeRun
      rw [hcancel, List.filter_append]
    rw [hrun, ← h.ordered]
    exact List.Sublist.append_left (List.sublist_append_right _ _) _
  · rw [hcancel]
    constructor
    · intro hperm
      have hlength := hperm.length_eq
      have hall := h.complete.length_eq
      simp only [List.length_append] at hlength hall
      exact List.length_eq_zero_iff.mp (by omega)
    · intro hnone
      have hall := h.complete
      rwa [hnone, List.append_nil] at hall

/-- Two callbacks wait when a pass runs out of time after the first. -/
def cutShort : List Event :=
  [.add ⟨1, false⟩, .add ⟨2, false⟩, .update ⟨5, 0, fun _ => ⟨0, 6⟩, []⟩]

/-- The second is never run. -/
theorem run_cutShort :
    (Lib.run step empty cutShort).cancelAll.executed = [(⟨1, false⟩, .result)] ∧
      ¬((Lib.run step empty cutShort).cancelAll.executed.map Prod.fst).Perm
        (cutShort.flatMap Event.added) := by
  decide +kernel

end SqlResultQueue

end TwowCore.Database
