import TwowCore.Logging.BoundedFifo

/-!
# The queue of the log is a queue

`Fifo` is the queue as its users see it: a list of lines, and the chunks that are popped and not written.
`Represents` says how the ring stands for it; every request keeps this and is answered the same, and no
subtraction wraps on the way.
-/

namespace TwowCore.Logging

section Circular

variable {head offset other size : ℕ}

/-- The index so many places behind the head. -/
theorem circular (hhead : head < size) (hoffset : offset < size) :
    (head + offset) % size = if head + offset < size then head + offset else head + offset - size := by
  split_ifs with hlt
  · exact Nat.mod_eq_of_lt hlt
  · rw [Nat.mod_eq_sub_mod (by omega), Nat.mod_eq_of_lt (by omega)]

/-- Different places have different indices. -/
theorem circular_ne (hhead : head < size) (hoffset : offset < size) (hother : other < size)
    (hne : offset ≠ other) : (head + offset) % size ≠ (head + other) % size := by
  rw [circular hhead hoffset, circular hhead hother]
  split_ifs <;> omega

theorem checkedSub_of_le {a b : ℕ} (h : b ≤ a) : checkedSub a b = some (a - b) := if_pos h

theorem checkedMod_of_pos {a b : ℕ} (h : 0 < b) : checkedMod a b = some (a % b) :=
  if_neg (Nat.ne_of_gt h)

/-- A loop in which no step fails. -/
theorem mapM_eq_map {α β : Type} {f : α → Option β} {g : α → β} {l : List α}
    (h : ∀ a ∈ l, f a = some (g a)) : l.mapM f = some (l.map g) := by
  induction l with
  | nil => rfl
  | cons a rest ih =>
      rw [List.mapM_cons, h a List.mem_cons_self, ih fun b hb => h b (List.mem_cons_of_mem _ hb)]
      rfl

end Circular

/-- The queue as its users see it. -/
structure Fifo (T : Type) where
  maxLines : ℕ
  maxBytes : ℕ
  queue : List (Slot T)
  chunks : List (ℕ × ℕ)
  closed : Bool
  droppedTotal : ℕ
  window : Window

namespace Fifo

variable {T : Type}

/-- With nothing in it. -/
def new (maxLines maxBytes : ℕ) : Fifo T := ⟨max maxLines 1, maxBytes, [], [], false, 0, ⟨0, 0, 0, 0⟩⟩

/-- The lines that are not written yet. -/
def pending (f : Fifo T) : ℕ := f.queue.length + (f.chunks.map Prod.fst).sum

/-- Their bytes. -/
def pendingBytes (f : Fifo T) : ℕ := (f.queue.map Slot.bytes).sum + (f.chunks.map Prod.snd).sum

/-- One line of so many bytes more would exceed a bound. -/
def Exceeds (f : Fifo T) (bytes : ℕ) : Prop :=
  f.maxLines < f.pending + 1 ∨ f.maxBytes < f.pendingBytes + bytes

instance (f : Fifo T) (bytes : ℕ) : Decidable (f.Exceeds bytes) := inferInstanceAs (Decidable (_ ∨ _))

/-- A line is put at the end unless that exceeds a bound. -/
def push (f : Fifo T) (item : T) (bytes : ℕ) : Fifo T × PushResult :=
  if f.closed then (f, .closed)
  else if f.Exceeds bytes then
    ({ f with
        droppedTotal := f.droppedTotal + 1
        window := { f.window with dropped := f.window.dropped + 1 } }, .dropped)
  else
    ({ f with
        queue := f.queue ++ [⟨item, bytes⟩]
        window := { f.window with maxDepth := max f.window.maxDepth (f.pending + 1) } }, .queued)

/-- The oldest lines are popped as a chunk. -/
def pop (f : Fifo T) (maxItems : ℕ) : Fifo T :=
  { f with
    queue := f.queue.drop maxItems
    chunks := f.chunks ++
      [((f.queue.take maxItems).length, ((f.queue.take maxItems).map Slot.bytes).sum)] }

/-- A chunk is written. -/
def write (f : Fifo T) (chunk maxUs : ℕ) : Fifo T :=
  match f.chunks[chunk]? with
  | none => f
  | some (n, _) =>
      { f with
        chunks := f.chunks.eraseIdx chunk
        window := { f.window with
          lines := f.window.lines + n
          writeMaxUs := max f.window.writeMaxUs maxUs } }

/-- One request. -/
def step (f : Fifo T) : Request T → Fifo T × Answer T
  | .tryPush item bytes => ((f.push item bytes).1, .pushed (f.push item bytes).2)
  | .popUpTo maxItems => (f.pop maxItems, .popped ((f.queue.take maxItems).map Slot.item))
  | .markWritten chunk maxUs => (f.write chunk maxUs, .written)
  | .takeWindow => ({ f with window := ⟨0, 0, f.pending, 0⟩ }, .window f.window)
  | .close => ({ f with closed := true }, .closed)

/-- All requests in their order, and the answers. -/
def run : Fifo T → List (Request T) → Fifo T × List (Answer T)
  | f, [] => (f, [])
  | f, request :: rest =>
      let first := f.step request
      let others := run first.1 rest
      (others.1, first.2 :: others.2)

end Fifo

namespace BoundedFifo

variable {T : Type}

/-- The slots from the head on hold these lines. -/
structure Contains (s : BoundedFifo T) (queue : List (Slot T)) : Prop where
  slots : ∀ i slot, queue[i]? = some slot → s.slot i = some slot
  head : s.ring ≠ [] → s.head < s.ring.length
  room : queue.length ≤ s.ring.length

variable {s : BoundedFifo T} {queue : List (Slot T)}

/-- A slot of a ring that is not empty. -/
theorem slot_eq (hring : 0 < s.ring.length) (offset : ℕ) :
    s.slot offset = s.ring[(s.head + offset) % s.ring.length]? := by
  unfold slot
  rw [checkedMod_of_pos hring]
  rfl

theorem Contains.head_lt (h : s.Contains queue) (hring : 0 < s.ring.length) :
    s.head < s.ring.length := h.head (List.ne_nil_of_length_pos hring)

/-- Only the ring and its head matter. -/
theorem Contains.keep (h : s.Contains queue) {s' : BoundedFifo T} (hring : s'.ring = s.ring)
    (hhead : s'.head = s.head) : s'.Contains queue where
  slots i slot hget := by
    unfold BoundedFifo.slot
    rw [hring, hhead]
    exact h.slots i slot hget
  head hne := by
    rw [hring] at hne
    rw [hring, hhead]
    exact h.head hne
  room := hring ▸ h.room

theorem contains_nil (hhead : s.ring ≠ [] → s.head < s.ring.length) : s.Contains [] where
  slots i slot hget := by
    rw [List.getElem?_nil] at hget
    cases hget
  head := hhead
  room := Nat.zero_le _

variable [Inhabited T]

/-- The loop that pops takes the lines from the head on. -/
theorem popLoop_spec (n : ℕ) (h : s.Contains queue) (hn : n ≤ queue.length) :
    ∃ ring head, popLoop n s = some (queue.take n, { s with ring := ring, head := head }) ∧
      ring.length = s.ring.length ∧
      Contains { s with ring := ring, head := head } (queue.drop n) := by
  induction n generalizing s queue with
  | zero => exact ⟨s.ring, s.head, rfl, rfl, h⟩
  | succ n ih =>
      obtain ⟨first, rest, rfl⟩ := List.exists_cons_of_length_pos (Nat.lt_of_lt_of_le n.succ_pos hn)
      have hlen : rest.length + 1 ≤ s.ring.length := h.room
      have hring : 0 < s.ring.length := by omega
      have hhead := h.head_lt hring
      have hfirst : s.ring[s.head]? = some first := by
        have hslot := h.slots 0 first rfl
        rwa [slot_eq hring, Nat.add_zero, Nat.mod_eq_of_lt hhead] at hslot
      -- the first line is out, the others are where they were
      have hpopped : Contains { s with
          ring := s.ring.set s.head emptySlot
          head := (s.head + 1) % s.ring.length } rest := by
        refine ⟨fun i slot hget => ?_, fun _ => ?_, ?_⟩
        · have hi : i < rest.length := (List.getElem?_eq_some_iff.mp hget).1
          have hold := h.slots (i + 1) slot hget
          rw [slot_eq hring] at hold
          have hring' : 0 < (s.ring.set s.head emptySlot).length := by
            rw [List.length_set]
            exact hring
          have hne : (s.head + (i + 1)) % s.ring.length ≠ s.head := by
            have hother := circular_ne hhead (show i + 1 < s.ring.length by omega) hring (by omega)
            rwa [Nat.add_zero s.head, Nat.mod_eq_of_lt hhead] at hother
          refine (slot_eq (s := { s with
            ring := s.ring.set s.head emptySlot
            head := (s.head + 1) % s.ring.length }) hring' i).trans ?_
          show (s.ring.set s.head emptySlot)[
            ((s.head + 1) % s.ring.length + i) % (s.ring.set s.head emptySlot).length]? = _
          rw [List.length_set, Nat.mod_add_mod, show s.head + 1 + i = s.head + (i + 1) by omega,
            List.getElem?_set_ne hne.symm]
          exact hold
        · show (s.head + 1) % s.ring.length < (s.ring.set s.head emptySlot).length
          rw [List.length_set]
          exact Nat.mod_lt _ hring
        · show rest.length ≤ (s.ring.set s.head emptySlot).length
          rw [List.length_set]
          omega
      obtain ⟨ring, head, hloop, hsize, hcontains⟩ := ih hpopped (Nat.le_of_succ_le_succ hn)
      refine ⟨ring, head, ?_, hsize.trans List.length_set, hcontains⟩
      unfold popLoop
      rw [hfirst, checkedMod_of_pos hring]
      simp only [Option.bind_eq_bind, Option.bind_some, hloop]
      rfl

/-- The lines, read from the ring. -/
theorem Contains.lines (h : s.Contains queue) (hcount : s.count = queue.length) :
    (List.range s.count).mapM s.slot = some queue := by
  have heach : ∀ i ∈ List.range s.count, s.slot i = some (queue.getD i emptySlot) := by
    intro i hi
    have hlt : i < queue.length := hcount ▸ List.mem_range.mp hi
    rw [List.getD_eq_getElem _ _ hlt]
    exact h.slots i _ (List.getElem?_eq_getElem hlt)
  rw [mapM_eq_map heach, hcount]
  congr 1
  refine List.ext_getElem (by simp) fun i hi hi' => ?_
  rw [List.getElem_map, List.getElem_range, List.getD_eq_getElem _ _ hi']

/-- A grown ring has the same lines from its start on. -/
theorem grow_spec (h : s.Contains queue) (hcount : s.count = queue.length)
    (hsize : queue.length ≤ min (max (s.ring.length * 2) 16) s.maxLines) :
    ∃ ring, s.grow = some { s with ring := ring, head := 0 } ∧
      ring.length = min (max (s.ring.length * 2) 16) s.maxLines ∧
      Contains { s with ring := ring, head := 0 } queue := by
  have hmoved := h.lines hcount
  have hlength : (queue ++ List.replicate
      (min (max (s.ring.length * 2) 16) s.maxLines - s.count) (emptySlot : Slot T)).length =
        min (max (s.ring.length * 2) 16) s.maxLines := by
    rw [List.length_append, List.length_replicate, hcount]
    omega
  refine ⟨queue ++ List.replicate
    (min (max (s.ring.length * 2) 16) s.maxLines - s.count) emptySlot, ?_, hlength, ?_⟩
  · unfold grow
    simp only [Option.bind_eq_bind, hmoved, Option.bind_some, checkedSub_of_le (hcount ▸ hsize)]
  · refine ⟨fun i slot hget => ?_, fun hne => List.length_pos_of_ne_nil hne, ?_⟩
    · have hi : i < queue.length := (List.getElem?_eq_some_iff.mp hget).1
      have hlt : i < (queue ++ List.replicate
          (min (max (s.ring.length * 2) 16) s.maxLines - s.count) (emptySlot : Slot T)).length := by
        omega
      have hpos := Nat.zero_lt_of_lt hlt
      refine (slot_eq (s := { s with
        ring := queue ++ List.replicate
          (min (max (s.ring.length * 2) 16) s.maxLines - s.count) emptySlot
        head := 0 }) hpos i).trans ?_
      show (queue ++ _)[(0 + i) % _]? = _
      rw [Nat.zero_add, Nat.mod_eq_of_lt hlt, List.getElem?_append_left hi]
      exact hget
    · show queue.length ≤ (queue ++ _).length
      rw [hlength]
      exact hsize

omit [Inhabited T] in
/-- A line is stored behind the others. -/
theorem contains_store (h : s.Contains queue) (hroom : queue.length < s.ring.length) (slot : Slot T) :
    Contains { s with ring := s.ring.set ((s.head + queue.length) % s.ring.length) slot }
      (queue ++ [slot]) := by
  have hring : 0 < s.ring.length := by omega
  have hhead := h.head_lt hring
  have hring' : 0 < (s.ring.set ((s.head + queue.length) % s.ring.length) slot).length := by
    rw [List.length_set]
    exact hring
  refine ⟨fun i found hget => ?_, fun _ => ?_, ?_⟩
  · refine (slot_eq (s := { s with
      ring := s.ring.set ((s.head + queue.length) % s.ring.length) slot }) hring' i).trans ?_
    show (s.ring.set ((s.head + queue.length) % s.ring.length) slot)[
      (s.head + i) % (s.ring.set ((s.head + queue.length) % s.ring.length) slot).length]? = _
    rw [List.length_set]
    rcases Nat.lt_trichotomy i queue.length with hlt | rfl | hgt
    · rw [List.getElem?_append_left hlt] at hget
      have hold := h.slots i found hget
      rw [slot_eq hring] at hold
      rw [List.getElem?_set_ne (circular_ne hhead hroom (by omega) (by omega))]
      exact hold
    · rw [List.getElem?_append_right le_rfl, Nat.sub_self] at hget
      rw [List.getElem?_set_self (Nat.mod_lt _ hring)]
      exact hget
    · rw [List.getElem?_eq_none (by rw [List.length_append, List.length_singleton]; omega)] at hget
      cases hget
  · show s.head < (s.ring.set _ slot).length
    rw [List.length_set]
    exact hhead
  · show (queue ++ [slot]).length ≤ (s.ring.set _ slot).length
    rw [List.length_set, List.length_append, List.length_singleton]
    exact hroom

end BoundedFifo

variable {T : Type}

/-- The ring, its counters and its bounds stand for the queue. -/
structure Represents (s : Sink T) (f : Fifo T) : Prop where
  maxLines : s.fifo.maxLines = f.maxLines
  maxBytes : s.fifo.maxBytes = f.maxBytes
  contents : s.fifo.Contains f.queue
  count : s.fifo.count = f.queue.length
  capacity : s.fifo.ring.length ≤ f.maxLines
  bytes : s.fifo.bytes = (f.queue.map Slot.bytes).sum
  pendingBytes : s.fifo.pendingBytes = f.pendingBytes
  accepted : s.fifo.accepted = s.fifo.written + f.pending
  lines : f.pending ≤ f.maxLines
  payload : f.pendingBytes ≤ f.maxBytes
  chunks : s.chunks = f.chunks
  closed : s.fifo.closed = f.closed
  droppedTotal : s.fifo.droppedTotal = f.droppedTotal
  window : s.fifo.window = f.window

/-- The new queue. -/
theorem represents_new (maxLines maxBytes : ℕ) :
    Represents (T := T) ⟨.new maxLines maxBytes, []⟩ (.new maxLines maxBytes) where
  maxLines := rfl
  maxBytes := rfl
  contents := BoundedFifo.contains_nil fun hne => absurd rfl hne
  count := rfl
  capacity := Nat.zero_le _
  bytes := rfl
  pendingBytes := rfl
  accepted := rfl
  lines := Nat.zero_le _
  payload := Nat.zero_le _
  chunks := rfl
  closed := rfl
  droppedTotal := rfl
  window := rfl

namespace Represents

variable {s : Sink T} {f : Fifo T}

/-- `Pending` does not wrap. -/
theorem pending (h : Represents s f) : s.fifo.pending = some f.pending := by
  unfold BoundedFifo.pending
  rw [h.accepted, checkedSub_of_le (Nat.le_add_right _ _), Nat.add_sub_cancel_left]

/-- The bounds are those of the queue. -/
theorem full (h : Represents s f) (bytes : ℕ) :
    s.fifo.full bytes = some (decide (f.Exceeds bytes)) := by
  have hpayload := h.payload
  unfold BoundedFifo.full
  rw [h.pending]
  simp only [Option.bind_eq_bind, Option.bind_some, h.maxLines, h.maxBytes, h.pendingBytes,
    checkedSub_of_le h.payload]
  by_cases hlines : f.maxLines ≤ f.pending
  · have hexceeds : f.Exceeds bytes := Or.inl (Nat.lt_succ_of_le hlines)
    rw [if_pos hlines, decide_eq_true hexceeds]
  · rw [if_neg hlines]
    congr 1
    rw [decide_eq_decide]
    unfold Fifo.Exceeds
    omega

theorem queue_le_pending (f : Fifo T) : f.queue.length ≤ f.pending := Nat.le_add_right _ _

variable [Inhabited T]

/-- A full ring below the bound is grown. -/
theorem grow (h : Represents s f) (hlines : f.pending + 1 ≤ f.maxLines)
    (hfull : s.fifo.count = s.fifo.ring.length) :
    ∃ fifo, s.fifo.grow = some fifo ∧ Represents { s with fifo := fifo } f ∧
      fifo.count < fifo.ring.length ∧ fifo.accepted = s.fifo.accepted := by
  have hqueue := queue_le_pending f
  have hcount := h.count
  have hmax := h.maxLines
  obtain ⟨ring, hgrow, hsize, hcontents⟩ :=
    BoundedFifo.grow_spec h.contents h.count (by rw [hmax]; omega)
  refine ⟨_, hgrow, { h with contents := hcontents, capacity := ?_ }, ?_, rfl⟩
  · show ring.length ≤ f.maxLines
    rw [hsize, hmax]
    exact min_le_right _ _
  · show s.fifo.count < ring.length
    rw [hsize, hmax]
    omega

omit [Inhabited T] in
/-- A line is stored that exceeds no bound. -/
theorem store (h : Represents s f) (item : T) {bytes : ℕ} (hfits : ¬f.Exceeds bytes)
    (hroom : s.fifo.count < s.fifo.ring.length) :
    ∃ fifo, s.fifo.store item bytes = some fifo ∧
      Represents { s with fifo := fifo }
        { f with
          queue := f.queue ++ [⟨item, bytes⟩]
          window := { f.window with maxDepth := max f.window.maxDepth (f.pending + 1) } } ∧
      fifo.accepted = s.fifo.accepted + 1 := by
  obtain ⟨hlines, hpayload⟩ := not_or.mp hfits
  have hroom' : f.queue.length < s.fifo.ring.length := h.count ▸ hroom
  have hring : 0 < s.fifo.ring.length := by omega
  have hpending : (f.queue ++ [(⟨item, bytes⟩ : Slot T)]).length + (f.chunks.map Prod.fst).sum =
      f.pending + 1 := by
    unfold Fifo.pending
    rw [List.length_append, List.length_singleton]
    omega
  have hbytes : ((f.queue ++ [(⟨item, bytes⟩ : Slot T)]).map Slot.bytes).sum =
      (f.queue.map Slot.bytes).sum + bytes := by
    rw [List.map_append, List.sum_append, List.map_singleton, List.sum_singleton]
  have hpendingBytes : ((f.queue ++ [(⟨item, bytes⟩ : Slot T)]).map Slot.bytes).sum +
      (f.chunks.map Prod.snd).sum = f.pendingBytes + bytes := by
    rw [hbytes]
    unfold Fifo.pendingBytes
    omega
  have haccepted : s.fifo.accepted + 1 = s.fifo.written + (f.pending + 1) := by
    rw [h.accepted, Nat.add_assoc]
  have hstore : s.fifo.store item bytes = some { s.fifo with
      ring := s.fifo.ring.set ((s.fifo.head + s.fifo.count) % s.fifo.ring.length) ⟨item, bytes⟩
      count := s.fifo.count + 1
      bytes := s.fifo.bytes + bytes
      pendingBytes := s.fifo.pendingBytes + bytes
      accepted := s.fifo.written + (f.pending + 1)
      window := { s.fifo.window with
        maxDepth := max s.fifo.window.maxDepth (f.pending + 1) } } := by
    unfold BoundedFifo.store BoundedFifo.pending
    simp only [Option.bind_eq_bind, checkedMod_of_pos hring, Option.bind_some, haccepted,
      checkedSub_of_le (Nat.le_add_right _ _), Nat.add_sub_cancel_left]
  refine ⟨_, hstore, ?_, haccepted.symm⟩
  · exact
      { maxLines := h.maxLines
        maxBytes := h.maxBytes
        contents := by
          have hcontents := BoundedFifo.contains_store h.contents hroom' ⟨item, bytes⟩
          rw [← h.count] at hcontents
          exact hcontents.keep rfl rfl
        count := by
          show s.fifo.count + 1 = _
          rw [h.count, List.length_append, List.length_singleton]
        capacity := by
          show (s.fifo.ring.set _ _).length ≤ _
          rw [List.length_set]
          exact h.capacity
        bytes := by
          show s.fifo.bytes + bytes = _
          rw [h.bytes, hbytes]
        pendingBytes := by
          show s.fifo.pendingBytes + bytes = _
          rw [h.pendingBytes]
          exact hpendingBytes.symm
        accepted := by
          show s.fifo.written + (f.pending + 1) = s.fifo.written + _
          exact congrArg _ hpending.symm
        lines := by
          refine (le_of_eq hpending).trans ?_
          show f.pending + 1 ≤ f.maxLines
          omega
        payload := by
          refine (le_of_eq hpendingBytes).trans ?_
          show f.pendingBytes + bytes ≤ f.maxBytes
          omega
        chunks := h.chunks
        closed := h.closed
        droppedTotal := h.droppedTotal
        window := by
          show { s.fifo.window with maxDepth := max s.fifo.window.maxDepth (f.pending + 1) } = _
          rw [h.window] }

/-- `TryPush`. -/
theorem tryPush (h : Represents s f) (item : T) (bytes : ℕ) :
    ∃ fifo, s.fifo.tryPush item bytes = some ((f.push item bytes).2, fifo) ∧
      Represents { s with fifo := fifo } (f.push item bytes).1 ∧
      fifo.accepted ≤ s.fifo.accepted + 1 := by
  unfold BoundedFifo.tryPush Fifo.push
  by_cases hclosed : f.closed = true
  · rw [if_pos (h.closed.trans hclosed), if_pos hclosed]
    exact ⟨s.fifo, rfl, h, Nat.le_succ _⟩
  · rw [if_neg fun hc => hclosed (h.closed.symm.trans hc), if_neg hclosed]
    simp only [h.full, Option.bind_eq_bind, Option.bind_some, decide_eq_true_eq]
    by_cases hexceeds : f.Exceeds bytes
    · simp only [if_pos hexceeds]
      refine ⟨_, rfl, ?_, Nat.le_succ _⟩
      exact
        { h with
          contents := h.contents.keep rfl rfl
          droppedTotal := congrArg (· + 1) h.droppedTotal
          window := by
            show { s.fifo.window with dropped := s.fifo.window.dropped + 1 } = _
            rw [h.window] }
    · simp only [if_neg hexceeds]
      by_cases hfull : s.fifo.count = s.fifo.ring.length
      · have hlines : f.pending + 1 ≤ f.maxLines := Nat.le_of_not_lt (not_or.mp hexceeds).1
        obtain ⟨grown, hgrow, hgrown, hroom, haccepted⟩ := h.grow hlines hfull
        obtain ⟨stored, hstore, hstored, hmore⟩ := hgrown.store item hexceeds hroom
        rw [if_pos hfull, hgrow]
        simp only [Option.bind_some]
        refine ⟨stored, ?_, hstored, ?_⟩
        · show (grown.store item bytes).bind _ = _
          rw [hstore]
          rfl
        · rw [hmore]
          show grown.accepted + 1 ≤ _
          rw [haccepted]
      · have hroom : s.fifo.count < s.fifo.ring.length := by
          have hle := h.contents.room
          rw [← h.count] at hle
          omega
        obtain ⟨stored, hstore, hstored, hmore⟩ := h.store item hexceeds hroom
        rw [if_neg hfull]
        simp only [Option.bind_some, hstore]
        exact ⟨stored, rfl, hstored, le_of_eq hmore⟩

/-- `PopUpTo`. -/
theorem popUpTo (h : Represents s f) (maxItems : ℕ) :
    ∃ fifo, s.fifo.popUpTo maxItems = some ((f.queue.take maxItems).map Slot.item,
        ((f.queue.take maxItems).map Slot.bytes).sum, fifo) ∧
      Represents ⟨fifo, s.chunks ++ [((f.queue.take maxItems).length,
        ((f.queue.take maxItems).map Slot.bytes).sum)]⟩ (f.pop maxItems) ∧
      fifo.accepted = s.fifo.accepted := by
  have hn : min s.fifo.count maxItems ≤ f.queue.length := by
    rw [h.count]
    exact min_le_left _ _
  have htake : f.queue.take (min s.fifo.count maxItems) = f.queue.take maxItems := by
    rw [h.count, Nat.min_comm, ← List.take_take, List.take_length]
  have hdrop : f.queue.drop (min s.fifo.count maxItems) = f.queue.drop maxItems := by
    rcases Nat.le_total maxItems f.queue.length with hle | hle
    · rw [h.count, Nat.min_eq_right hle]
    · rw [h.count, Nat.min_eq_left hle, List.drop_length, List.drop_eq_nil_of_le hle]
  obtain ⟨ring, head, hloop, hsize, hcontents⟩ :=
    BoundedFifo.popLoop_spec (min s.fifo.count maxItems) h.contents hn
  rw [htake] at hloop
  rw [hdrop] at hcontents
  have hsplit : (f.queue.map Slot.bytes).sum = ((f.queue.take maxItems).map Slot.bytes).sum +
      ((f.queue.drop maxItems).map Slot.bytes).sum := by
    rw [← List.sum_append, ← List.map_append, List.take_append_drop]
  have hleft : s.fifo.bytes - ((f.queue.take maxItems).map Slot.bytes).sum =
      ((f.queue.drop maxItems).map Slot.bytes).sum := by
    rw [h.bytes, hsplit, Nat.add_sub_cancel_left]
  have hcount : s.fifo.count - min s.fifo.count maxItems = (f.queue.drop maxItems).length := by
    rw [List.length_drop, h.count]
    omega
  have hlength : (f.queue.take maxItems).length + (f.queue.drop maxItems).length =
      f.queue.length := by
    rw [← List.length_append, List.take_append_drop]
  have hpending : (f.pop maxItems).pending = f.pending := by
    unfold Fifo.pop Fifo.pending
    simp only [List.map_append, List.map_singleton, List.sum_append, List.sum_singleton]
    omega
  have hpendingBytes : (f.pop maxItems).pendingBytes = f.pendingBytes := by
    unfold Fifo.pop Fifo.pendingBytes
    simp only [List.map_append, List.map_singleton, List.sum_append, List.sum_singleton]
    omega
  have hbytes : ((f.queue.take maxItems).map Slot.bytes).sum ≤ s.fifo.bytes := by
    rw [h.bytes, hsplit]
    exact Nat.le_add_right _ _
  have hpop : s.fifo.popUpTo maxItems = some ((f.queue.take maxItems).map Slot.item,
      ((f.queue.take maxItems).map Slot.bytes).sum, { s.fifo with
        ring := ring
        head := if (f.queue.drop maxItems).length = 0 then 0 else head
        count := (f.queue.drop maxItems).length
        bytes := ((f.queue.drop maxItems).map Slot.bytes).sum }) := by
    unfold BoundedFifo.popUpTo
    simp only [Option.bind_eq_bind, hloop, Option.bind_some,
      checkedSub_of_le (min_le_left s.fifo.count maxItems), checkedSub_of_le hbytes, hleft, hcount]
  refine ⟨_, hpop, ?_, rfl⟩
  · exact
      { maxLines := h.maxLines
        maxBytes := h.maxBytes
        contents := by
          show BoundedFifo.Contains { s.fifo with
            ring := ring
            head := if (f.queue.drop maxItems).length = 0 then 0 else head
            count := (f.queue.drop maxItems).length
            bytes := ((f.queue.drop maxItems).map Slot.bytes).sum } (f.queue.drop maxItems)
          split_ifs with hempty
          · rw [List.length_eq_zero_iff.mp hempty]
            exact BoundedFifo.contains_nil List.length_pos_of_ne_nil
          · exact hcontents.keep rfl rfl
        count := rfl
        capacity := hsize.trans_le h.capacity
        bytes := rfl
        pendingBytes := h.pendingBytes.trans hpendingBytes.symm
        accepted := by
          show s.fifo.accepted = s.fifo.written + (f.pop maxItems).pending
          rw [hpending]
          exact h.accepted
        lines := hpending.trans_le h.lines
        payload := hpendingBytes.trans_le h.payload
        chunks := by
          show s.chunks ++ _ = f.chunks ++ _
          rw [h.chunks]
        closed := h.closed
        droppedTotal := h.droppedTotal
        window := h.window }

omit [Inhabited T] in
/-- `MarkWritten`, of a chunk that was popped. -/
theorem markWritten (h : Represents s f) {chunk n bytes : ℕ} (maxUs : ℕ)
    (hchunk : f.chunks[chunk]? = some (n, bytes)) :
    ∃ fifo, s.fifo.markWritten n bytes maxUs = some fifo ∧
      Represents ⟨fifo, s.chunks.eraseIdx chunk⟩ (f.write chunk maxUs) ∧
      fifo.accepted = s.fifo.accepted := by
  obtain ⟨hlt, hget⟩ := List.getElem?_eq_some_iff.mp hchunk
  have hperm : ((n, bytes) :: f.chunks.eraseIdx chunk).Perm f.chunks :=
    hget ▸ List.getElem_cons_eraseIdx_perm hlt
  have hlines : n + ((f.chunks.eraseIdx chunk).map Prod.fst).sum = (f.chunks.map Prod.fst).sum :=
    (hperm.map Prod.fst).sum_eq
  have hpayload : bytes + ((f.chunks.eraseIdx chunk).map Prod.snd).sum =
      (f.chunks.map Prod.snd).sum := (hperm.map Prod.snd).sum_eq
  have hwrite : f.write chunk maxUs = { f with
      chunks := f.chunks.eraseIdx chunk
      window := { f.window with
        lines := f.window.lines + n
        writeMaxUs := max f.window.writeMaxUs maxUs } } := by
    unfold Fifo.write
    rw [hchunk]
  have hpending : f.pending = n + (f.write chunk maxUs).pending := by
    rw [hwrite]
    unfold Fifo.pending
    simp only
    omega
  have hpendingBytes : f.pendingBytes = bytes + (f.write chunk maxUs).pendingBytes := by
    rw [hwrite]
    unfold Fifo.pendingBytes
    simp only
    omega
  have hmark : s.fifo.markWritten n bytes maxUs = some { s.fifo with
      written := s.fifo.written + n
      pendingBytes := (f.write chunk maxUs).pendingBytes
      window := { s.fifo.window with
        lines := s.fifo.window.lines + n
        writeMaxUs := max s.fifo.window.writeMaxUs maxUs } } := by
    have hmin : min bytes s.fifo.pendingBytes = bytes := by
      rw [h.pendingBytes]
      omega
    have hle : bytes ≤ s.fifo.pendingBytes := by
      rw [h.pendingBytes]
      omega
    have hleft : s.fifo.pendingBytes - bytes = (f.write chunk maxUs).pendingBytes := by
      rw [h.pendingBytes]
      omega
    unfold BoundedFifo.markWritten
    simp only [Option.bind_eq_bind, hmin, checkedSub_of_le hle, Option.bind_some, hleft]
  refine ⟨_, hmark, ?_, rfl⟩
  have hlinesLe := h.lines
  have hpayloadLe := h.payload
  have haccepted := h.accepted
  have hwindow := h.window
  rw [hwrite] at hpending hpendingBytes ⊢
  exact
    { maxLines := h.maxLines
      maxBytes := h.maxBytes
      contents := h.contents.keep rfl rfl
      count := h.count
      capacity := h.capacity
      bytes := h.bytes
      pendingBytes := rfl
      accepted := by
        show s.fifo.accepted = s.fifo.written + n + _
        omega
      lines := by
        show _ ≤ f.maxLines
        omega
      payload := by
        show _ ≤ f.maxBytes
        omega
      chunks := by
        show s.chunks.eraseIdx chunk = f.chunks.eraseIdx chunk
        rw [h.chunks]
      closed := h.closed
      droppedTotal := h.droppedTotal
      window := by
        show ({ s.fifo.window with
          lines := s.fifo.window.lines + n
          writeMaxUs := max s.fifo.window.writeMaxUs maxUs } : Window) = _
        rw [hwindow] }

/-- Every request is answered as the queue does. -/
theorem step (h : Represents s f) (request : Request T) :
    ∃ s', s.step request = some (s', (f.step request).2) ∧ Represents s' (f.step request).1 ∧
      s'.fifo.accepted ≤ s.fifo.accepted + 1 := by
  cases request with
  | tryPush item bytes =>
      obtain ⟨fifo, hpush, hkept, hmore⟩ := h.tryPush item bytes
      refine ⟨{ s with fifo := fifo }, ?_, hkept, hmore⟩
      show (s.fifo.tryPush item bytes).map _ = _
      rw [hpush]
      rfl
  | popUpTo maxItems =>
      obtain ⟨fifo, hpop, hkept, hsame⟩ := h.popUpTo maxItems
      refine ⟨_, ?_, hkept, (le_of_eq hsame).trans (Nat.le_succ _)⟩
      show (s.fifo.popUpTo maxItems).map _ = _
      rw [hpop]
      simp only [Option.map_some, List.length_map]
      rfl
  | markWritten chunk maxUs =>
      cases hchunk : f.chunks[chunk]? with
      | none =>
          refine ⟨s, ?_, ?_, Nat.le_succ _⟩
          · simp only [Sink.step, h.chunks, hchunk]
            rfl
          · show Represents s (f.write chunk maxUs)
            unfold Fifo.write
            rw [hchunk]
            exact h
      | some popped =>
          obtain ⟨n, bytes⟩ := popped
          obtain ⟨fifo, hmark, hkept, hsame⟩ := h.markWritten maxUs hchunk
          refine ⟨⟨fifo, s.chunks.eraseIdx chunk⟩, ?_, hkept,
            (le_of_eq hsame).trans (Nat.le_succ _)⟩
          simp only [Sink.step, h.chunks, hchunk, hmark, Option.map_some]
          rfl
  | takeWindow =>
      refine ⟨{ s with fifo := { s.fifo with window := ⟨0, 0, f.pending, 0⟩ } }, ?_, ?_,
        Nat.le_succ _⟩
      · simp only [Sink.step, BoundedFifo.takeWindow, h.pending, Option.bind_eq_bind,
          Option.bind_some, Option.map_some, h.window]
        rfl
      · exact { h with contents := h.contents.keep rfl rfl, window := rfl }
  | close =>
      exact ⟨{ s with fifo := s.fifo.close }, rfl,
        { h with contents := h.contents.keep rfl rfl, closed := rfl }, Nat.le_succ _⟩

/-- So is every list of requests. -/
theorem run (h : Represents s f) (requests : List (Request T)) :
    ∃ s', s.run requests = some (s', (f.run requests).2) ∧ Represents s' (f.run requests).1 ∧
      s'.fifo.accepted ≤ s.fifo.accepted + requests.length := by
  induction requests generalizing s f with
  | nil => exact ⟨s, rfl, h, le_rfl⟩
  | cons request rest ih =>
      obtain ⟨s₁, hstep, hkept, hmore⟩ := h.step request
      obtain ⟨s₂, hrun, hlast, hrest⟩ := ih hkept
      refine ⟨s₂, ?_, hlast, ?_⟩
      · unfold Sink.run
        rw [hstep]
        simp only [Option.bind_eq_bind, Option.bind_some, hrun]
        rfl
      · rw [List.length_cons]
        omega

/-- What is refused and when, and what a refusal changes. -/
theorem refused (h : Represents s f) (item : T) (bytes : ℕ) :
    ∃ result fifo, s.fifo.tryPush item bytes = some (result, fifo) ∧
      (result = .closed ↔ s.fifo.closed = true) ∧
      (result = .dropped ↔ s.fifo.closed = false ∧
        (s.fifo.maxLines < f.pending + 1 ∨ s.fifo.maxBytes < s.fifo.pendingBytes + bytes)) ∧
      (result = .closed → fifo = s.fifo) ∧ (result = .dropped → fifo = s.fifo.drop) := by
  rw [h.maxLines, h.maxBytes, h.pendingBytes]
  by_cases hclosed : s.fifo.closed = true
  · refine ⟨.closed, s.fifo, ?_, ?_, ?_, fun _ => rfl, nofun⟩
    · unfold BoundedFifo.tryPush
      rw [if_pos hclosed]
    · exact ⟨fun _ => hclosed, fun _ => rfl⟩
    · refine ⟨nofun, fun hopen => ?_⟩
      rw [hclosed] at hopen
      cases hopen.1
  · have hopen : s.fifo.closed = false := Bool.eq_false_iff.mpr hclosed
    have hopen' : f.closed = false := h.closed.symm.trans hopen
    by_cases hexceeds : f.Exceeds bytes
    · refine ⟨.dropped, s.fifo.drop, ?_, ?_, ?_, nofun, fun _ => rfl⟩
      · unfold BoundedFifo.tryPush
        rw [if_neg hclosed, h.full, decide_eq_true hexceeds]
        rfl
      · exact ⟨nofun, fun hc => absurd hc hclosed⟩
      · exact ⟨fun _ => ⟨hopen, hexceeds⟩, fun _ => rfl⟩
    · obtain ⟨fifo, hpush, -, -⟩ := h.tryPush item bytes
      have hqueued : (f.push item bytes).2 = .queued := by
        unfold Fifo.push
        rw [if_neg (Bool.eq_false_iff.mp hopen'), if_neg hexceeds]
      rw [hqueued] at hpush
      refine ⟨.queued, fifo, hpush, ?_, ?_, nofun, nofun⟩
      · exact ⟨nofun, fun hc => absurd hc hclosed⟩
      · exact ⟨nofun, fun hd => absurd hd.2 hexceeds⟩

end Represents

/-- The lines that were queued, in their order. -/
def queuedItems : List (Request T) → List (Answer T) → List T
  | .tryPush item _ :: requests, .pushed .queued :: answers => item :: queuedItems requests answers
  | _ :: requests, _ :: answers => queuedItems requests answers
  | _, _ => []

/-- The lines that came out, in their order. -/
def poppedItems : List (Answer T) → List T
  | [] => []
  | .popped items :: answers => items ++ poppedItems answers
  | _ :: answers => poppedItems answers

namespace Fifo

variable {f : Fifo T}

/-- Writing a chunk does not touch the queue. -/
theorem write_queue (f : Fifo T) (chunk maxUs : ℕ) : (f.write chunk maxUs).queue = f.queue := by
  unfold write
  split
  · rfl
  · rfl

/-- The bounds stay. -/
theorem run_bounds (f : Fifo T) (requests : List (Request T)) :
    (f.run requests).1.maxLines = f.maxLines ∧ (f.run requests).1.maxBytes = f.maxBytes := by
  induction requests generalizing f with
  | nil => exact ⟨rfl, rfl⟩
  | cons request rest ih =>
      obtain ⟨hlines, hbytes⟩ := ih (f.step request).1
      have hstep : (f.step request).1.maxLines = f.maxLines ∧
          (f.step request).1.maxBytes = f.maxBytes := by
        cases request with
        | tryPush item bytes =>
            show (f.push item bytes).1.maxLines = _ ∧ (f.push item bytes).1.maxBytes = _
            unfold push
            split_ifs <;> exact ⟨rfl, rfl⟩
        | markWritten chunk maxUs =>
            show (f.write chunk maxUs).maxLines = _ ∧ (f.write chunk maxUs).maxBytes = _
            unfold write
            split <;> exact ⟨rfl, rfl⟩
        | popUpTo | takeWindow | close => exact ⟨rfl, rfl⟩
      exact ⟨hlines.trans hstep.1, hbytes.trans hstep.2⟩

/-- What was in the queue and what is queued comes out in this order or is in it still. -/
theorem run_items (f : Fifo T) (requests : List (Request T)) :
    f.queue.map Slot.item ++ queuedItems requests (f.run requests).2 =
      poppedItems (f.run requests).2 ++ (f.run requests).1.queue.map Slot.item := by
  induction requests generalizing f with
  | nil => exact List.append_nil _
  | cons request rest ih =>
      have hrest := ih (f.step request).1
      cases request with
      | tryPush item bytes =>
          show _ ++ queuedItems (.tryPush item bytes :: rest)
            (.pushed (f.push item bytes).2 :: (run (f.push item bytes).1 rest).2) =
              poppedItems (run (f.push item bytes).1 rest).2 ++
                (run (f.push item bytes).1 rest).1.queue.map Slot.item
          refine Eq.trans ?_ hrest
          show _ = (f.push item bytes).1.queue.map Slot.item ++
            queuedItems rest (run (f.push item bytes).1 rest).2
          unfold push
          split_ifs
          · rfl
          · rfl
          · simp only [queuedItems, List.map_append, List.map_singleton, List.append_assoc,
              List.singleton_append]
      | popUpTo maxItems =>
          show f.queue.map Slot.item ++ queuedItems rest (run (f.pop maxItems) rest).2 =
            ((f.queue.take maxItems).map Slot.item ++ poppedItems (run (f.pop maxItems) rest).2) ++
              (run (f.pop maxItems) rest).1.queue.map Slot.item
          rw [List.append_assoc]
          refine Eq.trans ?_ (congrArg _ hrest)
          show _ = (f.queue.take maxItems).map Slot.item ++ ((f.queue.drop maxItems).map Slot.item ++ _)
          rw [← List.append_assoc, ← List.map_append, List.take_append_drop]
          rfl
      | markWritten chunk maxUs =>
          have hsame := congrArg (List.map Slot.item) (write_queue f chunk maxUs)
          refine Eq.trans ?_ hrest
          show _ = (f.write chunk maxUs).queue.map Slot.item ++ _
          rw [hsame]
          rfl
      | takeWindow => exact hrest
      | close => exact hrest

end Fifo

/-- Whatever is asked of a new queue, nothing wraps and the answers are those of the queue as its users see
it: the lines come out in the order in which they were queued, none is lost or there twice, the bounds hold
for all lines that are not written, and a push is refused exactly when it would exceed one. -/
theorem run_refines [Inhabited T] (maxLines maxBytes : ℕ) (requests : List (Request T)) :
    ∃ s answers queue pending,
      Sink.run ⟨.new maxLines maxBytes, []⟩ requests = some (s, answers) ∧
      answers = (Fifo.run (.new maxLines maxBytes) requests).2 ∧
      Represents s (Fifo.run (.new maxLines maxBytes) requests).1 ∧
      (List.range s.fifo.count).mapM s.fifo.slot = some queue ∧
      queuedItems requests answers = poppedItems answers ++ queue.map Slot.item ∧
      s.fifo.maxLines = max maxLines 1 ∧ s.fifo.maxBytes = maxBytes ∧
      s.fifo.pending = some pending ∧ pending ≤ s.fifo.maxLines ∧
      s.fifo.pendingBytes ≤ maxBytes ∧ s.fifo.capacity ≤ s.fifo.maxLines ∧
      s.fifo.accepted ≤ requests.length ∧
      ∀ (item : T) (bytes : ℕ), ∃ result fifo, s.fifo.tryPush item bytes = some (result, fifo) ∧
        (result = .closed ↔ s.fifo.closed = true) ∧
        (result = .dropped ↔ s.fifo.closed = false ∧
          (s.fifo.maxLines < pending + 1 ∨ s.fifo.maxBytes < s.fifo.pendingBytes + bytes)) ∧
        (result = .closed → fifo = s.fifo) ∧ (result = .dropped → fifo = s.fifo.drop) := by
  obtain ⟨s, hrun, hkept, haccepted⟩ :=
    (represents_new (T := T) maxLines maxBytes).run requests
  obtain ⟨hmaxLines, hmaxBytes⟩ := Fifo.run_bounds (.new maxLines maxBytes) requests
  refine ⟨s, _, _, _, hrun, rfl, hkept, hkept.contents.lines hkept.count, ?_,
    hkept.maxLines.trans hmaxLines, hkept.maxBytes.trans hmaxBytes, hkept.pending, ?_, ?_, ?_, ?_,
    hkept.refused⟩
  · exact Fifo.run_items (.new maxLines maxBytes) requests
  · rw [hkept.maxLines]
    exact hkept.lines
  · rw [hkept.pendingBytes]
    exact hkept.payload.trans_eq hmaxBytes
  · rw [hkept.maxLines]
    exact hkept.capacity
  · have hzero : (BoundedFifo.new (T := T) maxLines maxBytes).accepted = 0 := rfl
    rw [hzero, Nat.zero_add] at haccepted
    exact haccepted

end TwowCore.Logging
