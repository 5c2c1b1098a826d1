import TwowCore.Lib.Run
import TwowCore.Network.AuthCrypt

/-!
# Outgoing packets

`SendPacket` writes a packet into `m_OutBuffer`, with an enciphered header, and puts it into
`m_PacketQueue` when there is no room; `handle_output` hands the buffer to the peer and, once all of
it is taken, flushes the queue into it.

The packets leave in the order of `SendPacket` as long as none is written into the buffer past those
that wait in the queue: `SendPacket` looks at the room in the buffer and not at the queue, and the
room comes back with each part the peer takes, while the queue is flushed when all is taken.
-/

namespace TwowCore.Network

/-- A `WorldPacket` that is sent. -/
structure WorldPacket where
  opcode : UInt16
  contents : List UInt8
  deriving DecidableEq, Repr

/-- `ServerPktHeader`: the size with that of the opcode, high byte first, and the opcode, low byte
first. -/
def serverPktHeader (pct : WorldPacket) : List UInt8 :=
  let size := UInt16.ofNat pct.contents.length + 2
  [(size >>> 8).toUInt8, size.toUInt8, pct.opcode.toUInt8, (pct.opcode >>> 8).toUInt8]

/-- The length of `ServerPktHeader`. -/
def serverPktHeaderLen : ℕ := 4

/-- What becomes of `peer().send`. -/
inductive PeerSend where
  | sent (n : ℕ)
  | wouldBlock
  | failed
  deriving DecidableEq, Repr

/-- The outgoing part of a socket. `handed` is what the peer has taken, and `accepted` the packets
for which `SendPacket` has returned 0. -/
structure OutSocket where
  crypt : AuthCrypt
  outBuffer : List UInt8
  outBufferSize : ℕ
  packetQueue : List WorldPacket
  outActive : Bool
  closing : Bool
  handed : List UInt8
  accepted : List WorldPacket
  deriving DecidableEq, Repr

namespace OutSocket

/-- `m_OutBuffer->space()`. What is left after a part is taken is moved to the base. -/
def space (s : OutSocket) : ℕ := s.outBufferSize - s.outBuffer.length

/-- The buffer has room for a packet. -/
def Fits (s : OutSocket) (pct : WorldPacket) : Prop :=
  pct.contents.length + serverPktHeaderLen ≤ s.space

instance (s : OutSocket) (pct : WorldPacket) : Decidable (s.Fits pct) :=
  inferInstanceAs (Decidable (_ ≤ _))

/-- `iSendPacket`: nothing when there is no room. -/
def iSendPacket (s : OutSocket) (pct : WorldPacket) : Option OutSocket :=
  if s.space < pct.contents.length + serverPktHeaderLen then none
  else
    some { s with
      crypt := (s.crypt.encryptSend (serverPktHeader pct)).1
      outBuffer :=
        s.outBuffer ++ (s.crypt.encryptSend (serverPktHeader pct)).2 ++ pct.contents }

/-- `SendPacket`. -/
def sendPacket (s : OutSocket) (pct : WorldPacket) : OutSocket :=
  if s.closing then s
  else
    match s.iSendPacket pct with
    | some s' => { s' with accepted := s.accepted ++ [pct] }
    | none =>
        { s with packetQueue := s.packetQueue ++ [pct], accepted := s.accepted ++ [pct] }

/-- The loop of `iFlushPacketQueue` over the packets of the queue, which goes back in front when a
packet has no room. The flag is whether one was written. -/
def flushLoop (s : OutSocket) : List WorldPacket → OutSocket × Bool
  | [] => ({ s with packetQueue := [] }, false)
  | pct :: rest =>
      match s.iSendPacket pct with
      | some s' => ((s'.flushLoop rest).1, true)
      | none => ({ s with packetQueue := pct :: rest }, false)

/-- `iFlushPacketQueue`. -/
def iFlushPacketQueue (s : OutSocket) : OutSocket × Bool := s.flushLoop s.packetQueue

/-- `handle_output`. The peer takes no more than it is offered. -/
def handleOutput (s : OutSocket) (peer : PeerSend) : OutSocket :=
  if s.closing then s
  else if s.outBuffer.length = 0 then { s with outActive := false }
  else
    match peer with
    | .failed => s
    | .wouldBlock => { s with outActive := true }
    | .sent n =>
        if n = 0 then s
        else if n < s.outBuffer.length then
          { s with
            handed := s.handed ++ s.outBuffer.take n
            outBuffer := s.outBuffer.drop n
            outActive := true }
        else
          let (s', haveone) := iFlushPacketQueue
            { s with handed := s.handed ++ s.outBuffer, outBuffer := [] }
          { s' with outActive := haveone }

end OutSocket

/-- What happens to the outgoing part of a socket. -/
inductive OutEvent where
  | sendPacket (pct : WorldPacket)
  | handleOutput (peer : PeerSend)
  | close
  deriving DecidableEq, Repr

/-- One event. -/
def outStep (s : OutSocket) : OutEvent → OutSocket
  | .sendPacket pct => s.sendPacket pct
  | .handleOutput peer => s.handleOutput peer
  | .close => { s with closing := true }

/-- A socket that has just been opened, with a buffer of a size. -/
def opened (crypt : AuthCrypt) (outBufferSize : ℕ) : OutSocket :=
  ⟨crypt, [], outBufferSize, [], true, false, [], []⟩

/-- Packets framed one after the other, with the cipher going on from header to header. -/
def frames (crypt : AuthCrypt) : List WorldPacket → AuthCrypt × List UInt8
  | [] => (crypt, [])
  | pct :: rest =>
      let framed := crypt.encryptSend (serverPktHeader pct)
      ((frames framed.1 rest).1, framed.2 ++ pct.contents ++ (frames framed.1 rest).2)

/-- What the peer has taken, what is in the buffer and what is in the queue make up the packets in the
order of `SendPacket`, each framed once. -/
def Ordered (crypt : AuthCrypt) (s : OutSocket) : Prop :=
  s.handed ++ s.outBuffer ++ (frames s.crypt s.packetQueue).2 = (frames crypt s.accepted).2

instance (crypt : AuthCrypt) (s : OutSocket) : Decidable (Ordered crypt s) :=
  inferInstanceAs (Decidable (_ = _))

/-- A packet that finds room in the buffer of an open socket finds the queue empty. -/
def NoOvertaking (s : OutSocket) : OutEvent → Prop
  | .sendPacket pct => s.closing = true ∨ s.packetQueue = [] ∨ ¬ s.Fits pct
  | _ => True

section Framing

variable {crypt : AuthCrypt} {s : OutSocket} {pct : WorldPacket}

/-- Framing two lists of packets. -/
theorem frames_append (crypt : AuthCrypt) (first second : List WorldPacket) :
    frames crypt (first ++ second) =
      ((frames (frames crypt first).1 second).1,
        (frames crypt first).2 ++ (frames (frames crypt first).1 second).2) := by
  induction first generalizing crypt with
  | nil => rfl
  | cons pct rest ih =>
      have hcons : ∀ rest, frames crypt (pct :: rest) =
          ((frames (crypt.encryptSend (serverPktHeader pct)).1 rest).1,
            (crypt.encryptSend (serverPktHeader pct)).2 ++ pct.contents ++
              (frames (crypt.encryptSend (serverPktHeader pct)).1 rest).2) := fun _ => rfl
      rw [List.cons_append, hcons, hcons, ih]
      simp only [List.append_assoc]

/-- A packet that is written is framed after what is in the buffer. -/
theorem iSendPacket_some {s' : OutSocket} (h : s.iSendPacket pct = some s') :
    s' = { s with
      crypt := (frames s.crypt [pct]).1, outBuffer := s.outBuffer ++ (frames s.crypt [pct]).2 } := by
  unfold OutSocket.iSendPacket at h
  split at h
  · cases h
  · rw [← Option.some.inj h]
    simp [frames]

end Framing

/-- What holds of the socket: the packets that were written and those that wait are those that were
accepted, in order, and the cipher is where the written ones have left it. -/
structure InOrder (start : AuthCrypt) (s : OutSocket) (written : List WorldPacket) : Prop where
  accepted : s.accepted = written ++ s.packetQueue
  crypt : s.crypt = (frames start written).1
  bytes : s.handed ++ s.outBuffer = (frames start written).2

section Order

variable {start : AuthCrypt} {s : OutSocket} {written : List WorldPacket} {pct : WorldPacket}

/-- Whatever is in order is sent in order. -/
theorem InOrder.ordered (h : InOrder start s written) : Ordered start s := by
  unfold Ordered
  rw [h.accepted, frames_append, h.bytes, h.crypt]

/-- Writing the next packet. -/
theorem InOrder.write {s' : OutSocket} {rest : List WorldPacket}
    (haccepted : s.accepted = written ++ pct :: rest) (hcrypt : s.crypt = (frames start written).1)
    (hbytes : s.handed ++ s.outBuffer = (frames start written).2)
    (h : s.iSendPacket pct = some s') :
    s'.accepted = (written ++ [pct]) ++ rest ∧ s'.crypt = (frames start (written ++ [pct])).1 ∧
      s'.handed ++ s'.outBuffer = (frames start (written ++ [pct])).2 := by
  rw [iSendPacket_some h, frames_append]
  refine ⟨?_, ?_, ?_⟩
  · show s.accepted = _
    rw [haccepted, List.append_assoc]
    rfl
  · show (frames s.crypt [pct]).1 = _
    rw [hcrypt]
  · show s.handed ++ (s.outBuffer ++ (frames s.crypt [pct]).2) = _
    rw [← List.append_assoc, hbytes, hcrypt]

/-- Flushing the queue writes its packets in their order. -/
theorem flushLoop_inOrder {queue : List WorldPacket} (haccepted : s.accepted = written ++ queue)
    (hcrypt : s.crypt = (frames start written).1)
    (hbytes : s.handed ++ s.outBuffer = (frames start written).2) :
    ∃ written', InOrder start (s.flushLoop queue).1 written' := by
  induction queue generalizing s written with
  | nil => exact ⟨written, haccepted, hcrypt, hbytes⟩
  | cons pct rest ih =>
      unfold OutSocket.flushLoop
      split
      · next s' hsend =>
        obtain ⟨haccepted', hcrypt', hbytes'⟩ := InOrder.write haccepted hcrypt hbytes hsend
        exact ih haccepted' hcrypt' hbytes'
      · exact ⟨written, haccepted, hcrypt, hbytes⟩

/-- Sending a packet that overtakes none keeps the order. -/
theorem InOrder.sendPacket (h : InOrder start s written)
    (hovertakes : s.closing = true ∨ s.packetQueue = [] ∨ ¬ s.Fits pct) :
    ∃ written', InOrder start (s.sendPacket pct) written' := by
  unfold OutSocket.sendPacket
  split
  · exact ⟨written, h⟩
  · next hopen =>
    split
    · next s' hsend =>
      have hempty : s.packetQueue = [] := by
        refine (hovertakes.resolve_left hopen).resolve_right fun hfull => ?_
        have hsome := iSendPacket_some hsend
        unfold OutSocket.iSendPacket at hsend
        rw [if_pos (Nat.not_le.mp hfull)] at hsend
        cases hsend
      have haccepted := h.accepted
      rw [hempty, List.append_nil] at haccepted
      rw [iSendPacket_some hsend]
      refine ⟨written ++ [pct], ?_, ?_, ?_⟩
      · show s.accepted ++ [pct] = written ++ [pct] ++ s.packetQueue
        rw [haccepted, hempty, List.append_nil]
      · show (frames s.crypt [pct]).1 = _
        rw [frames_append, h.crypt]
      · show s.handed ++ (s.outBuffer ++ (frames s.crypt [pct]).2) = _
        rw [← List.append_assoc, h.bytes, frames_append, h.crypt]
    · refine ⟨written, ?_, h.crypt, h.bytes⟩
      show s.accepted ++ [pct] = written ++ (s.packetQueue ++ [pct])
      rw [h.accepted, List.append_assoc]

/-- Handing bytes to the peer keeps the order. -/
theorem InOrder.handleOutput (h : InOrder start s written) (peer : PeerSend) :
    ∃ written', InOrder start (s.handleOutput peer) written' := by
  unfold OutSocket.handleOutput
  split
  · exact ⟨written, h⟩
  · split
    · exact ⟨written, h.accepted, h.crypt, h.bytes⟩
    · cases peer with
      | failed => exact ⟨written, h⟩
      | wouldBlock => exact ⟨written, h.accepted, h.crypt, h.bytes⟩
      | sent n =>
          simp only []
          by_cases hzero : n = 0
          · rw [if_pos hzero]
            exact ⟨written, h⟩
          · rw [if_neg hzero]
            by_cases hpart : n < s.outBuffer.length
            · rw [if_pos hpart]
              refine ⟨written, h.accepted, h.crypt, ?_⟩
              show s.handed ++ s.outBuffer.take n ++ s.outBuffer.drop n = _
              rw [List.append_assoc, List.take_append_drop]
              exact h.bytes
            · rw [if_neg hpart]
              -- all of the buffer is taken, and the queue is flushed
              obtain ⟨written', hflushed⟩ := flushLoop_inOrder
                (s := { s with handed := s.handed ++ s.outBuffer, outBuffer := [] })
                h.accepted h.crypt (by simpa using h.bytes)
              exact ⟨written', hflushed.accepted, hflushed.crypt, hflushed.bytes⟩

/-- An event that overtakes nothing keeps the order. -/
theorem InOrder.outStep (h : InOrder start s written) {event : OutEvent}
    (hok : NoOvertaking s event) : ∃ written', InOrder start (outStep s event) written' := by
  cases event with
  | sendPacket pct => exact h.sendPacket hok
  | handleOutput peer => exact h.handleOutput peer
  | close => exact ⟨written, h.accepted, h.crypt, h.bytes⟩

end Order

/-- In a run in which no packet overtakes another, what has been handed over, what is in the buffer and
what waits are the packets in the order of `SendPacket`, in every state that is reached. -/
theorem run_ordered (start : AuthCrypt) (outBufferSize : ℕ) {events : List OutEvent}
    (hok : Lib.Along NoOvertaking outStep (opened start outBufferSize) events)
    (reached : List OutEvent) (hreached : reached <+: events) :
    Ordered start (Lib.run outStep (opened start outBufferSize) reached) := by
  obtain ⟨later, rfl⟩ := hreached
  have hrun : ∃ written, InOrder start (Lib.run outStep (opened start outBufferSize) reached)
      written := by
    refine Lib.run_invariant (fun s => ∃ written, InOrder start s written) ?_
      ⟨[], rfl, rfl, rfl⟩ (Lib.along_append.mp hok).1
    rintro s event hevent ⟨written, h⟩
    exact h.outStep hevent
  obtain ⟨written, h⟩ := hrun
  exact h.ordered

/-- A cipher before `Init`. -/
def plainCrypt : AuthCrypt := ⟨[], false, 0, 0, 0, 0⟩

/-- A packet, one that does not fit behind it, one that does not fit either, and the peer. -/
def threePackets : List OutEvent :=
  [.sendPacket ⟨1, [1]⟩, .sendPacket ⟨2, [2, 2, 2]⟩, .sendPacket ⟨3, [3]⟩,
    .handleOutput (.sent 5)]

/-- With nine bytes of buffer the third packet has to wait as well, and all leave in order. -/
theorem run_ordered_threePackets :
    Ordered plainCrypt (Lib.run outStep (opened plainCrypt 9) threePackets) ∧
      (Lib.run outStep (opened plainCrypt 9) threePackets).packetQueue = [⟨3, [3]⟩] := by
  refine ⟨run_ordered plainCrypt 9 ?_ threePackets (List.prefix_refl _), by decide +kernel⟩
  refine ⟨Or.inr (Or.inl ?_), Or.inr (Or.inr ?_), Or.inr (Or.inr ?_), trivial, trivial⟩ <;> decide +kernel

/-- A packet that does not fit is overtaken by a smaller one that does. -/
theorem overtaken {first second : List UInt8} (hfirst : first.length = 60000)
    (hsecond : second.length = 6000) :
    ¬ Ordered plainCrypt (Lib.run outStep (opened plainCrypt 65536)
      [.sendPacket ⟨1, first⟩, .sendPacket ⟨2, second⟩, .sendPacket ⟨3, [3]⟩]) := by
  have hrun : Lib.run outStep (opened plainCrypt 65536)
      [.sendPacket ⟨1, first⟩, .sendPacket ⟨2, second⟩, .sendPacket ⟨3, [3]⟩] =
      ⟨plainCrypt, serverPktHeader ⟨1, first⟩ ++ first ++ serverPktHeader ⟨3, [3]⟩ ++ [3], 65536,
        [⟨2, second⟩], true, false, [], [⟨1, first⟩, ⟨2, second⟩, ⟨3, [3]⟩]⟩ := by
    simp [outStep, OutSocket.sendPacket, OutSocket.iSendPacket, OutSocket.space, opened,
      plainCrypt, AuthCrypt.encryptSend, serverPktHeader, serverPktHeaderLen, hfirst, hsecond]
  rw [hrun]
  intro hordered
  -- behind the first packet one has the size of the third, the other that of the second
  simp [Ordered, frames, plainCrypt, AuthCrypt.encryptSend, serverPktHeader, hfirst,
    hsecond] at hordered

/-- Sixty thousand bytes are in the buffer, six thousand wait, and a packet of one byte overtakes
them. -/
theorem sendPacket_overtakes :
    ¬ Ordered plainCrypt (Lib.run outStep (opened plainCrypt 65536)
      [.sendPacket ⟨1, List.replicate 60000 1⟩, .sendPacket ⟨2, List.replicate 6000 2⟩,
        .sendPacket ⟨3, [3]⟩]) :=
  overtaken List.length_replicate List.length_replicate

end TwowCore.Network
