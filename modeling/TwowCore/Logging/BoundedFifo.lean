import Mathlib

/-!
# The queue of the asynchronous log

`BoundedFifo`: a ring of lines that wait for the writer, grown on demand. Its bounds are on all lines that
are not written yet, those the writer has popped included. Subtraction and modulo are checked: an operation
that would wrap, divide by zero or read outside of the ring has no result.
-/

namespace TwowCore.Logging

/-- Subtraction that must not wrap. -/
def checkedSub (a b : ℕ) : Option ℕ := if b ≤ a then some (a - b) else none

/-- Modulo that must not divide by zero. -/
def checkedMod (a b : ℕ) : Option ℕ := if b = 0 then none else some (a % b)

/-- `PushResult`. -/
inductive PushResult where
  | queued
  | dropped
  | closed
  deriving DecidableEq, Repr

/-- `Window`. -/
structure Window where
  lines : ℕ
  dropped : ℕ
  maxDepth : ℕ
  writeMaxUs : ℕ
  deriving DecidableEq, Repr

/-- `Slot`. -/
structure Slot (T : Type) where
  item : T
  bytes : ℕ
  deriving DecidableEq, Repr

/-- `BoundedFifo`. -/
structure BoundedFifo (T : Type) where
  maxLines : ℕ
  maxBytes : ℕ
  ring : List (Slot T)
  head : ℕ
  count : ℕ
  bytes : ℕ
  pendingBytes : ℕ
  closed : Bool
  accepted : ℕ
  written : ℕ
  droppedTotal : ℕ
  window : Window
  deriving DecidableEq, Repr

namespace BoundedFifo

variable {T : Type}

/-- The constructor. -/
def new (maxLines maxBytes : ℕ) : BoundedFifo T where
  maxLines := max maxLines 1
  maxBytes := maxBytes
  ring := []
  head := 0
  count := 0
  bytes := 0
  pendingBytes := 0
  closed := false
  accepted := 0
  written := 0
  droppedTotal := 0
  window := ⟨0, 0, 0, 0⟩

/-- `Pending`. -/
def pending (s : BoundedFifo T) : Option ℕ := checkedSub s.accepted s.written

/-- `Capacity`. -/
def capacity (s : BoundedFifo T) : ℕ := s.ring.length

/-- The slot `offset` places behind the head. -/
def slot (s : BoundedFifo T) (offset : ℕ) : Option (Slot T) := do
  let index ← checkedMod (s.head + offset) s.ring.length
  s.ring[index]?

variable [Inhabited T]

/-- A slot that holds nothing. -/
def emptySlot : Slot T := ⟨default, 0⟩

/-- `Grow`. -/
def grow (s : BoundedFifo T) : Option (BoundedFifo T) := do
  let size := min (max (s.ring.length * 2) 16) s.maxLines
  let moved ← (List.range s.count).mapM s.slot
  let free ← checkedSub size s.count
  some { s with ring := moved ++ List.replicate free emptySlot, head := 0 }

/-- The bounds do not allow so many bytes more. -/
def full (s : BoundedFifo T) (bytes : ℕ) : Option Bool := do
  let pending ← s.pending
  if s.maxLines ≤ pending then some true
  else
    let room ← checkedSub s.maxBytes s.pendingBytes
    some (room < bytes)

/-- A line is refused. -/
def drop (s : BoundedFifo T) : BoundedFifo T :=
  { s with
    window := { s.window with dropped := s.window.dropped + 1 }
    droppedTotal := s.droppedTotal + 1 }

/-- A line is stored behind the others, in a ring with a free slot. -/
def store (s : BoundedFifo T) (item : T) (bytes : ℕ) : Option (BoundedFifo T) := do
  let index ← checkedMod (s.head + s.count) s.ring.length
  let stored := { s with
    ring := s.ring.set index ⟨item, bytes⟩
    count := s.count + 1
    bytes := s.bytes + bytes
    pendingBytes := s.pendingBytes + bytes
    accepted := s.accepted + 1 }
  let pending ← stored.pending
  some { stored with window := { s.window with maxDepth := max s.window.maxDepth pending } }

/-- `TryPush`. -/
def tryPush (s : BoundedFifo T) (item : T) (bytes : ℕ) : Option (PushResult × BoundedFifo T) :=
  if s.closed then some (.closed, s)
  else do
    let full ← s.full bytes
    if full then some (.dropped, s.drop)
    else
      let s ← if s.count = s.ring.length then s.grow else some s
      let s ← s.store item bytes
      some (.queued, s)

/-- The loop of `PopUpTo`: the slots that are taken out, from the head on. -/
def popLoop : ℕ → BoundedFifo T → Option (List (Slot T) × BoundedFifo T)
  | 0, s => some ([], s)
  | n + 1, s => do
      let slot ← s.ring[s.head]?
      let next ← checkedMod (s.head + 1) s.ring.length
      let rest ← popLoop n { s with ring := s.ring.set s.head emptySlot, head := next }
      some (slot :: rest.1, rest.2)

/-- `PopUpTo`: the items, their bytes, and what is left. -/
def popUpTo (s : BoundedFifo T) (maxItems : ℕ) : Option (List T × ℕ × BoundedFifo T) := do
  let n := min s.count maxItems
  let popped ← popLoop n s
  let bytes := (popped.1.map Slot.bytes).sum
  let count ← checkedSub s.count n
  let left ← checkedSub s.bytes bytes
  some (popped.1.map Slot.item, bytes,
    { popped.2 with count := count, bytes := left, head := if count = 0 then 0 else popped.2.head })

/-- `MarkWritten`. -/
def markWritten (s : BoundedFifo T) (n bytes maxUs : ℕ) : Option (BoundedFifo T) := do
  let pendingBytes ← checkedSub s.pendingBytes (min bytes s.pendingBytes)
  some { s with
    written := s.written + n
    pendingBytes := pendingBytes
    window := { s.window with
      lines := s.window.lines + n
      writeMaxUs := max s.window.writeMaxUs maxUs } }

/-- `TakeWindow`. -/
def takeWindow (s : BoundedFifo T) : Option (Window × BoundedFifo T) := do
  let pending ← s.pending
  some (s.window, { s with window := ⟨0, 0, pending, 0⟩ })

/-- `Close`. -/
def close (s : BoundedFifo T) : BoundedFifo T := { s with closed := true }

end BoundedFifo

/-- What is asked of the queue. `markWritten` is for the items and the bytes of a chunk that was popped and
is not written yet, by its place among these. -/
inductive Request (T : Type) where
  | tryPush (item : T) (bytes : ℕ)
  | popUpTo (maxItems : ℕ)
  | markWritten (chunk : ℕ) (maxUs : ℕ)
  | takeWindow
  | close

/-- What it answers. -/
inductive Answer (T : Type) where
  | pushed (result : PushResult)
  | popped (items : List T)
  | written
  | window (w : Window)
  | closed
  deriving DecidableEq, Repr

/-- The queue, and the numbers of items and of bytes of the chunks that the writer has popped. -/
structure Sink (T : Type) where
  fifo : BoundedFifo T
  chunks : List (ℕ × ℕ)
  deriving DecidableEq, Repr

namespace Sink

variable {T : Type} [Inhabited T]

/-- One request. -/
def step (s : Sink T) : Request T → Option (Sink T × Answer T)
  | .tryPush item bytes => (s.fifo.tryPush item bytes).map fun pushed =>
      ({ s with fifo := pushed.2 }, .pushed pushed.1)
  | .popUpTo maxItems => (s.fifo.popUpTo maxItems).map fun popped =>
      (⟨popped.2.2, s.chunks ++ [(popped.1.length, popped.2.1)]⟩, .popped popped.1)
  | .markWritten chunk maxUs =>
      match s.chunks[chunk]? with
      | none => some (s, .written)
      | some (n, bytes) => (s.fifo.markWritten n bytes maxUs).map fun fifo =>
          (⟨fifo, s.chunks.eraseIdx chunk⟩, .written)
  | .takeWindow => s.fifo.takeWindow.map fun taken => ({ s with fifo := taken.2 }, .window taken.1)
  | .close => some ({ s with fifo := s.fifo.close }, .closed)

/-- All requests in their order, and the answers. -/
def run : Sink T → List (Request T) → Option (Sink T × List (Answer T))
  | s, [] => some (s, [])
  | s, request :: rest => do
      let first ← s.step request
      let others ← run first.1 rest
      some (others.1, first.2 :: others.2)

end Sink

end TwowCore.Logging
