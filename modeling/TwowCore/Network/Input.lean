import TwowCore.Network.Output

/-!
# Incoming packets

`handle_input_missing_data` receives a chunk of what the client has sent and gathers a header in
`m_Header` and then a payload in `m_RecvPct`; what is incomplete at the end of a chunk waits for the
next one. A packet that is complete goes to `ProcessIncoming`, which is a parameter here: it may
change the session and turn the cipher on.

`packets` reads the whole stream at once. `run_receive` says that chunks of any lengths are read as
the stream they make up, and that no assertion fails on the way.
-/

namespace TwowCore.Network

/-- An `ACE_Message_Block` that is written from its base on. -/
structure MessageBlock where
  size : ℕ
  data : List UInt8
  deriving DecidableEq, Repr

namespace MessageBlock

/-- `space`. -/
def space (b : MessageBlock) : ℕ := b.size - b.data.length

/-- `copy`: nothing when there is no room. -/
def copy (b : MessageBlock) (bytes : List UInt8) : MessageBlock :=
  if b.space < bytes.length then b else { b with data := b.data ++ bytes }

/-- `reset`. -/
def reset (b : MessageBlock) : MessageBlock := { b with data := [] }

end MessageBlock

/-- What is in `errno`. -/
inductive Errno where
  | none
  | eWouldBlock
  | eInval
  deriving DecidableEq, Repr

/-- `ProcessIncoming`: what becomes of the session and the cipher, and what it returns. -/
abbrev ProcessIncoming (σ : Type) := σ → AuthCrypt → WorldPacket → σ × AuthCrypt × ℤ

/-- The incoming part of a socket. `recvWPct` has the opcode and the size of the packet whose payload
is awaited, and `delivered` are the packets that have gone to `ProcessIncoming`. -/
structure InSocket (σ : Type) where
  crypt : AuthCrypt
  session : σ
  header : MessageBlock
  recvWPct : Option (UInt16 × ℕ)
  recvPct : MessageBlock
  errno : Errno
  closing : Bool
  delivered : List WorldPacket

/-- The length of `ClientPktHeader`. -/
def clientPktHeaderLen : ℕ := 6

/-- The size in a `ClientPktHeader`, high byte first. -/
def headerSize (header : List UInt8) : ℕ := (header.getD 0 0).toNat * 256 + (header.getD 1 0).toNat

/-- The opcode in a `ClientPktHeader`, low byte first. -/
def headerCmd (header : List UInt8) : ℕ :=
  (header.getD 2 0).toNat + (header.getD 3 0).toNat * 2 ^ 8 + (header.getD 4 0).toNat * 2 ^ 16 +
    (header.getD 5 0).toNat * 2 ^ 24

/-- The header is one `handle_input_header` refuses. -/
def Malformed (header : List UInt8) : Prop :=
  headerSize header < 4 ∨ 10240 < headerSize header ∨ 10240 < headerCmd header

instance (header : List UInt8) : Decidable (Malformed header) :=
  inferInstanceAs (Decidable (_ ∨ _))

namespace InSocket

variable {σ : Type}

/-- `handle_input_header`, with whether it returns -1. An assertion that fails is `none`. -/
def handleInputHeader (s : InSocket σ) : Option (InSocket σ × Bool) :=
  if s.recvWPct.isSome then none
  else if s.header.data.length ≠ clientPktHeaderLen then none
  else
    let decrypted := s.crypt.decryptRecv s.header.data
    let s := { s with crypt := decrypted.1, header := { s.header with data := decrypted.2 } }
    if Malformed decrypted.2 then some ({ s with errno := .eInval }, true)
    else if 0 < headerSize decrypted.2 - 4 then
      some ({ s with
        recvWPct := some (UInt16.ofNat (headerCmd decrypted.2), headerSize decrypted.2 - 4)
        recvPct := ⟨headerSize decrypted.2 - 4, []⟩ }, false)
    else if s.recvPct.space ≠ 0 then none
    else some ({ s with recvWPct := some (UInt16.ofNat (headerCmd decrypted.2), 0) }, false)

/-- `handle_input_payload`, with whether it returns -1. -/
def handleInputPayload (process : ProcessIncoming σ) (s : InSocket σ) :
    Option (InSocket σ × Bool) :=
  if s.recvPct.space ≠ 0 then none
  else if s.header.space ≠ 0 then none
  else
    match s.recvWPct with
    | none => none
    | some (opcode, _) =>
        let pct : WorldPacket := ⟨opcode, s.recvPct.data⟩
        let out := process s.session s.crypt pct
        some ({ s with
          session := out.1
          crypt := out.2.1
          recvPct := ⟨0, []⟩
          recvWPct := none
          header := s.header.reset
          errno := if out.2.2 = -1 then .eInval else s.errno
          delivered := s.delivered ++ [pct] }, out.2.2 = -1)

/-- The part of the loop that gathers the header. What is left of the chunk comes with it, and whether
the function returns -1. -/
def readHeader (s : InSocket σ) (bytes : List UInt8) :
    Option (InSocket σ × List UInt8 × Bool) :=
  if 0 < s.header.space then
    let toHeader := if s.header.space < bytes.length then s.header.space else bytes.length
    let s := { s with header := s.header.copy (bytes.take toHeader) }
    let rest := bytes.drop toHeader
    if 0 < s.header.space then
      if rest.length ≠ 0 then none else some ({ s with errno := .eWouldBlock }, rest, true)
    else
      match s.handleInputHeader with
      | none => none
      | some (s, true) => if s.errno = .eWouldBlock then none else some (s, rest, true)
      | some (s, false) => some (s, rest, false)
  else some (s, bytes, false)

/-- The end of the loop, when the payload is there. -/
def deliver (process : ProcessIncoming σ) (s : InSocket σ) (bytes : List UInt8) :
    Option (InSocket σ × List UInt8 × Bool) :=
  match s.handleInputPayload process with
  | none => none
  | some (s, true) => if s.errno = .eWouldBlock then none else some (s, bytes, true)
  | some (s, false) => some (s, bytes, false)

/-- The part of the loop that gathers the payload. -/
def readPayload (process : ProcessIncoming σ) (s : InSocket σ) (bytes : List UInt8) :
    Option (InSocket σ × List UInt8 × Bool) :=
  if s.recvWPct = none then some ({ s with errno := .eInval }, bytes, true)
  else if 0 < s.recvPct.space then
    let toData := if s.recvPct.space < bytes.length then s.recvPct.space else bytes.length
    let s := { s with recvPct := s.recvPct.copy (bytes.take toData) }
    let rest := bytes.drop toData
    if 0 < s.recvPct.space then
      if rest.length ≠ 0 then none else some ({ s with errno := .eWouldBlock }, rest, true)
    else s.deliver process rest
  else s.deliver process bytes

/-- The loop of `handle_input_missing_data`, in at most so many rounds, with whether it returns -1. -/
def inputLoop (process : ProcessIncoming σ) : ℕ → InSocket σ → List UInt8 →
    Option (InSocket σ × Bool)
  | 0, _, _ => none
  | rounds + 1, s, bytes =>
      if bytes.length = 0 then some (s, false)
      else
        match s.readHeader bytes with
        | none => none
        | some (s, _, true) => some (s, true)
        | some (s, bytes, false) =>
            match s.readPayload process bytes with
            | none => none
            | some (s, _, true) => some (s, true)
            | some (s, bytes, false) => inputLoop process rounds s bytes

/-- `handle_input` on a chunk. Each round takes a byte at least. When -1 is returned and not for want
of bytes, the reactor closes the socket. -/
def handleInput (process : ProcessIncoming σ) (s : InSocket σ) (chunk : List UInt8) :
    Option (InSocket σ) :=
  if s.closing then some s
  else
    match inputLoop process (chunk.length + 1) s chunk with
    | none => none
    | some (s, false) => some s
    | some (s, true) => if s.errno = .eWouldBlock then some s else some { s with closing := true }

end InSocket

/-- What `recv` gives: one to 4096 bytes. -/
structure Chunk where
  bytes : List UInt8
  pos : 0 < bytes.length
  le : bytes.length ≤ 4096

variable {σ : Type}

/-- Receiving chunks. -/
def receive (process : ProcessIncoming σ) : InSocket σ → List Chunk → Option (InSocket σ)
  | s, [] => some s
  | s, chunk :: rest => (s.handleInput process chunk.bytes).bind fun s => receive process s rest

/-- A socket that has received nothing. -/
def accepted (session : σ) (crypt : AuthCrypt) : InSocket σ :=
  ⟨crypt, session, ⟨clientPktHeaderLen, []⟩, none, ⟨0, []⟩, .none, false, []⟩

/-- The packets of a stream, one frame after the other, up to one that is refused or not complete. -/
def packets (process : ProcessIncoming σ) (session : σ) (crypt : AuthCrypt)
    (stream : List UInt8) : List WorldPacket :=
  if hlong : stream.length < clientPktHeaderLen then []
  else
    let decrypted := crypt.decryptRecv (stream.take clientPktHeaderLen)
    let rest := stream.drop clientPktHeaderLen
    if Malformed decrypted.2 then []
    else if rest.length < headerSize decrypted.2 - 4 then []
    else
      let pct : WorldPacket :=
        ⟨UInt16.ofNat (headerCmd decrypted.2), rest.take (headerSize decrypted.2 - 4)⟩
      let out := process session decrypted.1 pct
      pct :: if out.2.2 = -1 then []
        else packets process out.1 out.2.1 (rest.drop (headerSize decrypted.2 - 4))
  termination_by stream.length
  decreasing_by
    simp only [List.length_drop]
    unfold clientPktHeaderLen at hlong ⊢
    omega

section Stream

variable {process : ProcessIncoming σ} {session : σ} {crypt : AuthCrypt} {header rest : List UInt8}

/-- Nothing comes of less than a header. -/
theorem packets_short (h : header.length < clientPktHeaderLen) :
    packets process session crypt header = [] := by
  unfold packets
  rw [dif_pos h]

/-- What comes of a stream that begins with a header. -/
theorem packets_header (h : header.length = clientPktHeaderLen) :
    packets process session crypt (header ++ rest) =
      let decrypted := crypt.decryptRecv header
      if Malformed decrypted.2 then []
      else if rest.length < headerSize decrypted.2 - 4 then []
      else
        let pct : WorldPacket :=
          ⟨UInt16.ofNat (headerCmd decrypted.2), rest.take (headerSize decrypted.2 - 4)⟩
        let out := process session decrypted.1 pct
        pct :: if out.2.2 = -1 then []
          else packets process out.1 out.2.1 (rest.drop (headerSize decrypted.2 - 4)) := by
  have hlong : ¬ (header ++ rest).length < clientPktHeaderLen := by
    rw [List.length_append, h]
    omega
  rw [packets, dif_neg hlong, List.take_left' h, List.drop_left' h]

end Stream

/-- What a payload in progress and the bytes behind it will give. -/
def payloadThen (process : ProcessIncoming σ) (s : InSocket σ) (opcode : UInt16) (size : ℕ)
    (stream : List UInt8) : List WorldPacket :=
  if stream.length < size - s.recvPct.data.length then []
  else
    let pct : WorldPacket :=
      ⟨opcode, s.recvPct.data ++ stream.take (size - s.recvPct.data.length)⟩
    let out := process s.session s.crypt pct
    pct :: if out.2.2 = -1 then []
      else packets process out.1 out.2.1 (stream.drop (size - s.recvPct.data.length))

/-- What the bytes that are still to come will give. -/
def pending (process : ProcessIncoming σ) (s : InSocket σ) (stream : List UInt8) :
    List WorldPacket :=
  if s.closing then []
  else
    match s.recvWPct with
    | none => packets process s.session s.crypt (s.header.data ++ stream)
    | some (opcode, size) => payloadThen process s opcode size stream

/-- A header is awaited. -/
structure AwaitsHeader (s : InSocket σ) : Prop where
  opened : s.closing = false
  size : s.header.size = clientPktHeaderLen
  part : s.header.data.length < clientPktHeaderLen
  noPacket : s.recvWPct = none
  noPayload : s.recvPct = ⟨0, []⟩

/-- A payload is awaited, which may be complete. -/
structure AwaitsPayload (s : InSocket σ) (opcode : UInt16) (size : ℕ) : Prop where
  opened : s.closing = false
  header : s.header = ⟨clientPktHeaderLen, s.header.data⟩
  full : s.header.data.length = clientPktHeaderLen
  packet : s.recvWPct = some (opcode, size)
  room : s.recvPct.size = size
  part : s.recvPct.data.length ≤ size

/-- Between two chunks a header or a payload is awaited, or the socket is closed. -/
inductive Ready (s : InSocket σ) : Prop where
  | header (h : AwaitsHeader s)
  | payload (opcode : UInt16) (size : ℕ) (h : AwaitsPayload s opcode size)
      (hpart : s.recvPct.data.length < size)
  | closed (h : s.closing = true)

/-- What one part of the loop does with the bytes it is given: it takes all of them and goes on with
the next chunk, it stops for good, or it leaves some for the next part. -/
inductive Reads (process : ProcessIncoming σ) (s : InSocket σ) (bytes : List UInt8)
    (next : InSocket σ → List UInt8 → Prop) : Option (InSocket σ × List UInt8 × Bool) → Prop where
  | waits (s' : InSocket σ) (ready : Ready s') (hopen : s'.closing = false)
      (errno : s'.errno = .eWouldBlock)
      (same : ∀ stream, s'.delivered ++ pending process s' stream =
        s.delivered ++ pending process s (bytes ++ stream)) :
      Reads process s bytes next (some (s', [], true))
  | stops (s' : InSocket σ) (rest : List UInt8) (errno : s'.errno = .eInval)
      (same : ∀ stream, s'.delivered = s.delivered ++ pending process s (bytes ++ stream)) :
      Reads process s bytes next (some (s', rest, true))
  | leaves (s' : InSocket σ) (rest : List UInt8) (hnext : next s' rest)
      (same : ∀ stream, s'.delivered ++ pending process s' (rest ++ stream) =
        s.delivered ++ pending process s (bytes ++ stream)) :
      Reads process s bytes next (some (s', rest, false))

section Reading

variable {process : ProcessIncoming σ} {s : InSocket σ} {bytes : List UInt8}

/-- Copying what there is room for. -/
theorem copy_of_le {b : MessageBlock} (h : bytes.length ≤ b.space) :
    b.copy bytes = { b with data := b.data ++ bytes } := by
  unfold MessageBlock.copy
  rw [if_neg (Nat.not_lt.mpr h)]

/-- What is pending while a header is awaited. -/
theorem AwaitsHeader.pending_eq (h : AwaitsHeader s) (stream : List UInt8) :
    pending process s stream = packets process s.session s.crypt (s.header.data ++ stream) := by
  unfold pending
  rw [h.opened, h.noPacket]
  rfl

/-- What is pending while a payload is awaited. -/
theorem AwaitsPayload.pending_eq {opcode : UInt16} {size : ℕ} (h : AwaitsPayload s opcode size)
    (stream : List UInt8) : pending process s stream = payloadThen process s opcode size stream := by
  unfold pending
  rw [h.opened, h.packet]
  rfl

variable (process) in
/-- A header that is complete is refused, or its payload is awaited. -/
theorem handleInputHeader_spec (hsize : s.header.size = clientPktHeaderLen)
    (hfull : s.header.data.length = clientPktHeaderLen) (hopen : s.closing = false)
    (hpacket : s.recvWPct = none) (hpayload : s.recvPct = ⟨0, []⟩) :
    (∃ s', s.handleInputHeader = some (s', true) ∧ s'.errno = .eInval ∧
        s'.delivered = s.delivered ∧
        ∀ stream, packets process s.session s.crypt (s.header.data ++ stream) = []) ∨
      ∃ s' opcode size, s.handleInputHeader = some (s', false) ∧ AwaitsPayload s' opcode size ∧
        s'.recvPct.data = [] ∧ s'.delivered = s.delivered ∧ ∀ stream,
          payloadThen process s' opcode size stream =
            packets process s.session s.crypt (s.header.data ++ stream) := by
  have hlength : (s.crypt.decryptRecv s.header.data).2.length = clientPktHeaderLen := by
    rw [AuthCrypt.decryptRecv_length, hfull]
  unfold InSocket.handleInputHeader
  rw [if_neg (by simp [hpacket]), if_neg (not_not.mpr hfull)]
  simp only []
  by_cases hbad : Malformed (s.crypt.decryptRecv s.header.data).2
  · rw [if_pos hbad]
    refine Or.inl ⟨_, rfl, rfl, rfl, fun stream => ?_⟩
    rw [packets_header hfull]
    exact if_pos hbad
  · rw [if_neg hbad]
    refine Or.inr ?_
    by_cases hsome : 0 < headerSize (s.crypt.decryptRecv s.header.data).2 - 4
    · rw [if_pos hsome]
      refine ⟨_, _, _, rfl, ⟨hopen, ?_, hlength, rfl, rfl, Nat.zero_le _⟩, rfl, rfl,
        fun stream => ?_⟩
      · show MessageBlock.mk _ _ = _
        rw [hsize]
      · rw [packets_header hfull]
        simp only []
        rw [if_neg hbad]
        simp [payloadThen]
    · have hzero : headerSize (s.crypt.decryptRecv s.header.data).2 - 4 = 0 := by omega
      rw [if_neg hsome, if_neg (by simp [hpayload, MessageBlock.space])]
      refine ⟨_, _, _, rfl, ⟨hopen, ?_, hlength, rfl, ?_, ?_⟩, ?_, rfl, fun stream => ?_⟩
      · show MessageBlock.mk _ _ = _
        rw [hsize]
      · simp [hpayload]
      · simp [hpayload]
      · simp [hpayload]
      · rw [packets_header hfull]
        simp only []
        rw [if_neg hbad, hzero]
        simp [payloadThen, hpayload]

variable (process) in
/-- Gathering a header. -/
theorem readHeader_spec (h : AwaitsHeader s) (hbytes : bytes ≠ []) :
    Reads process s bytes (fun s' rest => ∃ opcode size, AwaitsPayload s' opcode size ∧
      rest.length < bytes.length) (s.readHeader bytes) := by
  have hpart := h.part
  have hpos : 0 < bytes.length := List.length_pos_iff.mpr hbytes
  have hspace : s.header.space = clientPktHeaderLen - s.header.data.length := by
    unfold MessageBlock.space
    rw [h.size]
  unfold InSocket.readHeader
  rw [if_pos (by omega)]
  simp only []
  by_cases henough : clientPktHeaderLen - s.header.data.length ≤ bytes.length
  · -- the header is complete
    have hto : (if s.header.space < bytes.length then s.header.space else bytes.length) =
        clientPktHeaderLen - s.header.data.length := by
      split <;> omega
    have htake : (bytes.take (clientPktHeaderLen - s.header.data.length)).length =
        clientPktHeaderLen - s.header.data.length := by
      rw [List.length_take]
      omega
    rw [hto, copy_of_le (by omega)]
    rw [if_neg (by
      simp only [MessageBlock.space, List.length_append, htake, h.size]
      omega)]
    have hheader := handleInputHeader_spec process
      (s := { s with header := { s.header with
        data := s.header.data ++ bytes.take (clientPktHeaderLen - s.header.data.length) } })
      h.size (by simp only [List.length_append, htake]; omega) h.opened h.noPacket h.noPayload
    have hsplit : ∀ stream, s.header.data ++ (bytes ++ stream) =
        s.header.data ++ bytes.take (clientPktHeaderLen - s.header.data.length) ++
          (bytes.drop (clientPktHeaderLen - s.header.data.length) ++ stream) := by
      intro stream
      rw [List.append_assoc, ← List.append_assoc (bytes.take _), List.take_append_drop]
    rcases hheader with ⟨s', hresult, herrno, hdelivered, hnone⟩ |
      ⟨s', opcode, size, hresult, hawaits, -, hdelivered, hsame⟩
    · rw [hresult]
      simp only [herrno]
      refine Reads.stops s' _ herrno fun stream => ?_
      rw [h.pending_eq, hsplit, hnone, List.append_nil]
      exact hdelivered
    · rw [hresult]
      refine Reads.leaves s' _ ⟨opcode, size, hawaits, ?_⟩ fun stream => ?_
      · rw [List.length_drop]
        omega
      · rw [hawaits.pending_eq, hsame, h.pending_eq, hsplit]
        exact congrArg (· ++ _) hdelivered
  · -- the chunk ends within the header
    have hto : (if s.header.space < bytes.length then s.header.space else bytes.length) =
        bytes.length := by
      split <;> omega
    rw [hto, List.take_length, List.drop_length, copy_of_le (by omega)]
    rw [if_pos (by
      simp only [MessageBlock.space, List.length_append, h.size]
      omega)]
    rw [if_neg (by simp)]
    have hawaits : AwaitsHeader { s with
        header := { s.header with data := s.header.data ++ bytes }, errno := .eWouldBlock } :=
      { opened := h.opened
        size := h.size
        part := by
          simp only [List.length_append]
          omega
        noPacket := h.noPacket
        noPayload := h.noPayload }
    refine Reads.waits _ (.header hawaits) h.opened rfl fun stream => ?_
    rw [hawaits.pending_eq, h.pending_eq]
    simp only [List.append_assoc]

/-- Reading on from a state with the same prospects. -/
theorem Reads.trans {s₁ : InSocket σ} {bytes₁ : List UInt8}
    {next next₁ : InSocket σ → List UInt8 → Prop} {result : Option (InSocket σ × List UInt8 × Bool)}
    (h : Reads process s₁ bytes₁ next₁ result)
    (hsame : ∀ stream, s₁.delivered ++ pending process s₁ (bytes₁ ++ stream) =
      s.delivered ++ pending process s (bytes ++ stream))
    (hnext : ∀ s' rest, next₁ s' rest → next s' rest) : Reads process s bytes next result := by
  cases h with
  | waits s' ready hopen errno same =>
      exact .waits s' ready hopen errno fun stream => (same stream).trans (hsame stream)
  | stops s' rest errno same =>
      exact .stops s' rest errno fun stream => (same stream).trans (hsame stream)
  | leaves s' rest hleft same =>
      exact .leaves s' rest (hnext s' rest hleft) fun stream =>
        (same stream).trans (hsame stream)

/-- A payload that grows by some bytes will give what it would have given with them to come. -/
theorem payloadThen_append (opcode : UInt16) (size : ℕ) (more : List UInt8)
    (hle : s.recvPct.data.length + more.length ≤ size) (stream : List UInt8) :
    payloadThen process { s with recvPct := { s.recvPct with data := s.recvPct.data ++ more } }
      opcode size stream = payloadThen process s opcode size (more ++ stream) := by
  have hneed : size - s.recvPct.data.length =
      more.length + (size - (s.recvPct.data.length + more.length)) := by omega
  unfold payloadThen
  simp only [List.length_append]
  rw [hneed, List.take_length_add_append, List.drop_length_add_append, List.append_assoc]
  simp only [Nat.add_lt_add_iff_left]

/-- A payload that is complete is delivered. -/
theorem deliver_spec {opcode : UInt16} {size : ℕ} (h : AwaitsPayload s opcode size)
    (hfull : s.recvPct.data.length = size) :
    Reads process s bytes (fun s' rest => AwaitsHeader s' ∧ rest = bytes)
      (s.deliver process bytes) := by
  have hsize : s.header.size = clientPktHeaderLen := congrArg MessageBlock.size h.header
  have hgives : ∀ stream, pending process s stream =
      let out := process s.session s.crypt ⟨opcode, s.recvPct.data⟩
      ⟨opcode, s.recvPct.data⟩ ::
        if out.2.2 = -1 then [] else packets process out.1 out.2.1 stream := by
    intro stream
    rw [h.pending_eq]
    simp [payloadThen, hfull]
  unfold InSocket.deliver InSocket.handleInputPayload
  rw [if_neg (by simp [MessageBlock.space, h.room, hfull]),
    if_neg (by simp [MessageBlock.space, hsize, h.full]), h.packet]
  simp only []
  by_cases hret : (process s.session s.crypt ⟨opcode, s.recvPct.data⟩).2.2 = -1
  · simp only [hret, if_true, decide_true]
    refine Reads.stops _ bytes rfl fun stream => ?_
    rw [hgives]
    simp only []
    rw [if_pos hret]
  · simp only [hret, if_false, decide_false]
    have hawaits : AwaitsHeader { s with
        session := (process s.session s.crypt ⟨opcode, s.recvPct.data⟩).1
        crypt := (process s.session s.crypt ⟨opcode, s.recvPct.data⟩).2.1
        recvPct := ⟨0, []⟩
        recvWPct := none
        header := s.header.reset
        delivered := s.delivered ++ [⟨opcode, s.recvPct.data⟩] } :=
      { opened := h.opened
        size := hsize
        part := Nat.zero_lt_succ _
        noPacket := rfl
        noPayload := rfl }
    refine Reads.leaves _ bytes ⟨hawaits, rfl⟩ fun stream => ?_
    rw [hawaits.pending_eq, hgives]
    simp only []
    rw [if_neg hret, List.append_assoc]
    rfl

variable (process) (bytes) in
/-- Gathering a payload. -/
theorem readPayload_spec {opcode : UInt16} {size : ℕ} (h : AwaitsPayload s opcode size) :
    Reads process s bytes (fun s' rest => AwaitsHeader s' ∧
      rest.length = bytes.length - (size - s.recvPct.data.length))
      (s.readPayload process bytes) := by
  have hpart := h.part
  have hspace : s.recvPct.space = size - s.recvPct.data.length := by
    unfold MessageBlock.space
    rw [h.room]
  unfold InSocket.readPayload
  rw [if_neg (by simp [h.packet])]
  by_cases hfull : s.recvPct.data.length = size
  · rw [if_neg (by omega)]
    refine (deliver_spec h hfull).trans (fun _ => rfl) fun s' rest hnext => ⟨hnext.1, ?_⟩
    rw [hnext.2, hfull, Nat.sub_self, Nat.sub_zero]
  · rw [if_pos (by omega)]
    simp only []
    -- the payload with the bytes that are taken for it
    have hgrown : ∀ more : List UInt8, s.recvPct.data.length + more.length ≤ size →
        AwaitsPayload { s with recvPct := { s.recvPct with data := s.recvPct.data ++ more } }
          opcode size := fun more hle =>
      { opened := h.opened
        header := h.header
        full := h.full
        packet := h.packet
        room := h.room
        part := by simpa using hle }
    by_cases henough : size - s.recvPct.data.length ≤ bytes.length
    · have hto : (if s.recvPct.space < bytes.length then s.recvPct.space else bytes.length) =
          size - s.recvPct.data.length := by
        split <;> omega
      have htake : (bytes.take (size - s.recvPct.data.length)).length =
          size - s.recvPct.data.length := by
        rw [List.length_take]
        omega
      rw [hto, copy_of_le (by omega)]
      rw [if_neg (by
        simp only [MessageBlock.space, List.length_append, htake, h.room]
        omega)]
      have hle : s.recvPct.data.length + (bytes.take (size - s.recvPct.data.length)).length ≤
          size := by omega
      refine (deliver_spec (hgrown _ hle) (by simp only [List.length_append, htake]; omega)).trans
        (fun stream => ?_) fun s' rest hnext => ⟨hnext.1, ?_⟩
      · rw [(hgrown _ hle).pending_eq, h.pending_eq, payloadThen_append _ _ _ hle,
          ← List.append_assoc, List.take_append_drop]
      · rw [hnext.2, List.length_drop]
    · have hto : (if s.recvPct.space < bytes.length then s.recvPct.space else bytes.length) =
          bytes.length := by
        split <;> omega
      rw [hto, List.take_length, List.drop_length, copy_of_le (by omega)]
      rw [if_pos (by
        simp only [MessageBlock.space, List.length_append, h.room]
        omega)]
      rw [if_neg (by simp)]
      have hle : s.recvPct.data.length + bytes.length ≤ size := by omega
      have hawaits := hgrown bytes hle
      have hwaits : AwaitsPayload { s with
          recvPct := { s.recvPct with data := s.recvPct.data ++ bytes }, errno := .eWouldBlock }
          opcode size :=
        ⟨hawaits.opened, hawaits.header, hawaits.full, hawaits.packet, hawaits.room, hawaits.part⟩
      refine Reads.waits _ (.payload opcode size hwaits ?_) h.opened rfl fun stream => ?_
      · simp only [List.length_append]
        omega
      · rw [hwaits.pending_eq, h.pending_eq]
        exact congrArg _ (payloadThen_append _ _ _ hle stream)

variable (process) in
/-- The loop on a chunk: it goes on with the next chunk, and what is pending is what was, or it stops
with what the stream gives. -/
theorem inputLoop_spec (hready : Ready s) (hopen : s.closing = false) {rounds : ℕ}
    (hrounds : bytes.length < rounds) :
    ∃ s' stopped, InSocket.inputLoop process rounds s bytes = some (s', stopped) ∧
      ((s'.errno = .eWouldBlock ∨ stopped = false) ∧ Ready s' ∧
          (∀ stream, s'.delivered ++ pending process s' stream =
            s.delivered ++ pending process s (bytes ++ stream)) ∨
        (stopped = true ∧ s'.errno ≠ .eWouldBlock) ∧
          ∀ stream, s'.delivered = s.delivered ++ pending process s (bytes ++ stream)) := by
  induction rounds generalizing s bytes with
  | zero => omega
  | succ rounds ih =>
      unfold InSocket.inputLoop
      by_cases hempty : bytes.length = 0
      · rw [if_pos hempty]
        refine ⟨s, false, rfl, Or.inl ⟨Or.inr rfl, hready, fun stream => ?_⟩⟩
        rw [List.eq_nil_of_length_eq_zero hempty]
        rfl
      · rw [if_neg hempty]
        have hbytes : bytes ≠ [] := fun hnil => hempty (by rw [hnil]; rfl)
        -- what a round does, once the header is there
        have hround : ∀ (s₁ : InSocket σ) (bytes₁ : List UInt8) (opcode : UInt16) (size : ℕ),
            AwaitsPayload s₁ opcode size →
            bytes₁.length - (size - s₁.recvPct.data.length) < bytes.length →
            (∀ stream, s₁.delivered ++ pending process s₁ (bytes₁ ++ stream) =
              s.delivered ++ pending process s (bytes ++ stream)) →
            ∃ s' stopped, (match s₁.readPayload process bytes₁ with
                | none => none
                | some (s, _, true) => some (s, true)
                | some (s, bytes, false) => InSocket.inputLoop process rounds s bytes) =
                some (s', stopped) ∧
              ((s'.errno = .eWouldBlock ∨ stopped = false) ∧ Ready s' ∧
                  (∀ stream, s'.delivered ++ pending process s' stream =
                    s.delivered ++ pending process s (bytes ++ stream)) ∨
                (stopped = true ∧ s'.errno ≠ .eWouldBlock) ∧
                  ∀ stream, s'.delivered = s.delivered ++ pending process s (bytes ++ stream)) := by
          intro s₁ bytes₁ opcode size hawaits hless hsame
          have hreads := readPayload_spec process bytes₁ hawaits
          cases hresult : s₁.readPayload process bytes₁ with
          | none =>
              rw [hresult] at hreads
              cases hreads
          | some result =>
              rw [hresult] at hreads
              cases hreads with
              | waits s' ready hopen' errno same =>
                  exact ⟨s', true, rfl, Or.inl ⟨Or.inl errno, ready, fun stream =>
                    (same stream).trans (hsame stream)⟩⟩
              | stops s' rest errno same =>
                  exact ⟨s', true, rfl, Or.inr ⟨⟨rfl, by simp [errno]⟩, fun stream =>
                    (same stream).trans (hsame stream)⟩⟩
              | leaves s' rest hnext same =>
                  obtain ⟨s'', stopped, hloop, hcases⟩ := ih (.header hnext.1) hnext.1.opened
                    (by rw [hnext.2]; omega : rest.length < rounds)
                  refine ⟨s'', stopped, hloop, ?_⟩
                  simp only [fun stream => (same stream).trans (hsame stream)] at hcases
                  exact hcases
        cases hready with
        | header h =>
            have hreads := readHeader_spec process h hbytes
            cases hresult : s.readHeader bytes with
            | none =>
                rw [hresult] at hreads
                cases hreads
            | some result =>
                rw [hresult] at hreads
                cases hreads with
                | waits s' ready hopen' errno same =>
                    exact ⟨s', true, rfl, Or.inl ⟨Or.inl errno, ready, same⟩⟩
                | stops s' rest errno same =>
                    exact ⟨s', true, rfl, Or.inr ⟨⟨rfl, by simp [errno]⟩, same⟩⟩
                | leaves s' rest hnext same =>
                    obtain ⟨opcode, size, hawaits, hless⟩ := hnext
                    exact hround s' rest opcode size hawaits (by omega) same
        | payload opcode size h hpart =>
            have hheader : s.readHeader bytes = some (s, bytes, false) := by
              unfold InSocket.readHeader
              rw [if_neg]
              have hsize : s.header.size = clientPktHeaderLen := congrArg MessageBlock.size h.header
              simp [MessageBlock.space, hsize, h.full]
            rw [hheader]
            exact hround s bytes opcode size h (by omega) fun _ => rfl
        | closed h => exact absurd h (by simp [hopen])

/-- Nothing is pending between two chunks when no more bytes come. -/
theorem Ready.pending_nil (h : Ready s) : pending process s [] = [] := by
  cases h with
  | header h =>
      rw [h.pending_eq, List.append_nil]
      exact packets_short h.part
  | payload opcode size h hpart =>
      rw [h.pending_eq]
      unfold payloadThen
      rw [if_pos]
      rw [List.length_nil]
      omega
  | closed h =>
      unfold pending
      rw [if_pos h]

variable (process) (bytes) in
/-- A chunk is received, and what is pending is what was. -/
theorem handleInput_spec (hready : Ready s) :
    ∃ s', s.handleInput process bytes = some s' ∧ Ready s' ∧
      ∀ stream, s'.delivered ++ pending process s' stream =
        s.delivered ++ pending process s (bytes ++ stream) := by
  unfold InSocket.handleInput
  by_cases hclosed : s.closing = true
  · rw [if_pos hclosed]
    refine ⟨s, rfl, hready, fun stream => ?_⟩
    unfold pending
    rw [if_pos hclosed, if_pos hclosed]
  · rw [if_neg hclosed]
    obtain ⟨s', stopped, hloop, hcases⟩ := inputLoop_spec process hready
      (Bool.eq_false_iff.mpr hclosed) (Nat.lt_succ_self bytes.length)
    rw [hloop]
    rcases hcases with ⟨hwaits, hready', hsame⟩ | ⟨⟨rfl, herrno⟩, hsame⟩
    · cases stopped with
      | false => exact ⟨s', rfl, hready', hsame⟩
      | true =>
          simp only []
          rw [if_pos (hwaits.resolve_right (by simp))]
          exact ⟨s', rfl, hready', hsame⟩
    · simp only []
      rw [if_neg herrno]
      refine ⟨_, rfl, .closed rfl, fun stream => ?_⟩
      unfold pending
      rw [if_pos rfl, List.append_nil]
      exact hsame stream

end Reading

/-- Receiving chunks from a state that is ready. -/
theorem receive_spec (process : ProcessIncoming σ) {s : InSocket σ} (hready : Ready s)
    (chunks : List Chunk) :
    ∃ s', receive process s chunks = some s' ∧ Ready s' ∧
      ∀ stream, s'.delivered ++ pending process s' stream =
        s.delivered ++ pending process s (chunks.flatMap Chunk.bytes ++ stream) := by
  induction chunks generalizing s with
  | nil => exact ⟨s, rfl, hready, fun _ => rfl⟩
  | cons chunk rest ih =>
      obtain ⟨s₁, hinput, hready₁, hsame₁⟩ :=
        handleInput_spec process chunk.bytes hready
      obtain ⟨s', hreceive, hready', hsame'⟩ := ih hready₁
      refine ⟨s', ?_, hready', fun stream => ?_⟩
      · unfold receive
        rw [hinput]
        exact hreceive
      · rw [hsame', hsame₁, List.flatMap_cons, List.append_assoc]

/-- However a stream is split into chunks, no assertion fails, and what is delivered are the packets of
the stream. -/
theorem run_receive (process : ProcessIncoming σ) (session : σ) (crypt : AuthCrypt)
    (chunks : List Chunk) :
    ∃ s, receive process (accepted session crypt) chunks = some s ∧
      s.delivered = packets process session crypt (chunks.flatMap Chunk.bytes) := by
  have hstart : AwaitsHeader (accepted session crypt) :=
    ⟨rfl, rfl, Nat.zero_lt_succ _, rfl, rfl⟩
  obtain ⟨s, hreceive, hready, hsame⟩ := receive_spec process (.header hstart) chunks
  refine ⟨s, hreceive, ?_⟩
  have hall := hsame []
  rw [hready.pending_nil, hstart.pending_eq, List.append_nil, List.append_nil] at hall
  exact hall

end TwowCore.Network
