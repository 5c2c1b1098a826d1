import Mathlib

/-!
# The header cipher

`AuthCrypt` enciphers the first four bytes of an outgoing header and deciphers the six bytes of an
incoming one. Either direction has an index into the key and the last byte of the cipher text, and
both go on from header to header.
-/

namespace TwowCore.Network

/-- `AuthCrypt`. `SetKey` leaves no empty key. -/
structure AuthCrypt where
  key : List UInt8
  initialized : Bool
  sendI : UInt8
  sendJ : UInt8
  recvI : UInt8
  recvJ : UInt8
  deriving DecidableEq, Repr

namespace AuthCrypt

/-- `CRYPTED_SEND_LEN`. -/
def cryptedSendLen : ℕ := 4

/-- `CRYPTED_RECV_LEN`. -/
def cryptedRecvLen : ℕ := 6

/-- `SetKey`. -/
def setKey (c : AuthCrypt) (key : List UInt8) : AuthCrypt :=
  { c with key := if key = [] then [0] else key }

/-- `Init`. -/
def init (c : AuthCrypt) : AuthCrypt :=
  { c with initialized := true, sendI := 0, sendJ := 0, recvI := 0, recvJ := 0 }

/-- An index into the key, brought back into it. -/
def wrap (c : AuthCrypt) (i : UInt8) : UInt8 := UInt8.ofNat (i.toNat % c.key.length)

/-- The byte of the key at an index. -/
def keyAt (c : AuthCrypt) (i : UInt8) : UInt8 := c.key.getD i.toNat 0

/-- The loop of `EncryptSend`. -/
def encryptBytes (c : AuthCrypt) : List UInt8 → AuthCrypt × List UInt8
  | [] => (c, [])
  | b :: rest =>
      let i := c.wrap c.sendI
      let x := (b ^^^ c.keyAt i) + c.sendJ
      let (c', out) := encryptBytes { c with sendI := i + 1, sendJ := x } rest
      (c', x :: out)

/-- The loop of `DecryptRecv`. -/
def decryptBytes (c : AuthCrypt) : List UInt8 → AuthCrypt × List UInt8
  | [] => (c, [])
  | b :: rest =>
      let i := c.wrap c.recvI
      let x := (b - c.recvJ) ^^^ c.keyAt i
      let (c', out) := decryptBytes { c with recvI := i + 1, recvJ := b } rest
      (c', x :: out)

/-- `EncryptSend`. -/
def encryptSend (c : AuthCrypt) (data : List UInt8) : AuthCrypt × List UInt8 :=
  if c.initialized = false then (c, data)
  else if data.length < cryptedSendLen then (c, data)
  else
    let (c', out) := c.encryptBytes (data.take cryptedSendLen)
    (c', out ++ data.drop cryptedSendLen)

/-- `DecryptRecv`. -/
def decryptRecv (c : AuthCrypt) (data : List UInt8) : AuthCrypt × List UInt8 :=
  if c.initialized = false then (c, data)
  else if data.length < cryptedRecvLen then (c, data)
  else
    let (c', out) := c.decryptBytes (data.take cryptedRecvLen)
    (c', out ++ data.drop cryptedRecvLen)

theorem decryptBytes_length (c : AuthCrypt) (data : List UInt8) :
    (c.decryptBytes data).2.length = data.length := by
  induction data generalizing c with
  | nil => rfl
  | cons b rest ih => exact congrArg Nat.succ (ih _)

/-- Deciphering keeps the length. -/
theorem decryptRecv_length (c : AuthCrypt) (data : List UInt8) :
    (c.decryptRecv data).2.length = data.length := by
  unfold decryptRecv
  split
  · rfl
  · split
    · rfl
    · show ((c.decryptBytes _).2 ++ _).length = _
      rw [List.length_append, decryptBytes_length, ← List.length_append, List.take_append_drop]

section Partners

variable {c d : AuthCrypt}

/-- One end is about to decipher what the other is about to encipher. -/
structure InStep (c d : AuthCrypt) : Prop where
  key : d.key = c.key
  index : d.recvI = c.sendI
  last : d.recvJ = c.sendJ

/-- Two ends that begin with the same key. -/
theorem inStep_init (c d : AuthCrypt) (key : List UInt8) :
    InStep (c.setKey key).init (d.setKey key).init :=
  ⟨rfl, rfl, rfl⟩

theorem encryptBytes_length (c : AuthCrypt) (data : List UInt8) :
    (c.encryptBytes data).2.length = data.length := by
  induction data generalizing c with
  | nil => rfl
  | cons b rest ih => exact congrArg Nat.succ (ih _)

/-- Deciphering undoes enciphering, and the ends stay in step. -/
theorem InStep.decryptBytes (h : InStep c d) (data : List UInt8) :
    (d.decryptBytes (c.encryptBytes data).2).2 = data ∧
      InStep (c.encryptBytes data).1 (d.decryptBytes (c.encryptBytes data).2).1 := by
  induction data generalizing c d with
  | nil => exact ⟨rfl, h⟩
  | cons b rest ih =>
      have hindex : d.wrap d.recvI = c.wrap c.sendI := by
        unfold wrap
        rw [h.key, h.index]
      have hkey : d.keyAt (d.wrap d.recvI) = c.keyAt (c.wrap c.sendI) := by
        rw [hindex]
        unfold keyAt
        rw [h.key]
      have hbyte : (b ^^^ c.keyAt (c.wrap c.sendI)) + c.sendJ - d.recvJ ^^^ d.keyAt (d.wrap d.recvI) = b := by
        rw [h.last, hkey, UInt8.add_sub_cancel, UInt8.xor_assoc, UInt8.xor_self, UInt8.xor_zero]
      obtain ⟨hrest, hstep⟩ := ih (c := { c with
        sendI := c.wrap c.sendI + 1, sendJ := (b ^^^ c.keyAt (c.wrap c.sendI)) + c.sendJ })
        (d := { d with
          recvI := d.wrap d.recvI + 1, recvJ := (b ^^^ c.keyAt (c.wrap c.sendI)) + c.sendJ })
        ⟨h.key, congrArg (· + 1) hindex, rfl⟩
      exact ⟨List.cons_eq_cons.mpr ⟨hbyte, hrest⟩, hstep⟩

/-- So a header is read as it was before the other end enciphered it. -/
theorem InStep.decryptRecv (h : InStep c d) (hinit : d.initialized = true) {data : List UInt8}
    (hlength : data.length = cryptedRecvLen) :
    (d.decryptRecv (c.encryptBytes data).2).2 = data ∧
      InStep (c.encryptBytes data).1 (d.decryptRecv (c.encryptBytes data).2).1 := by
  have henciphered : (c.encryptBytes data).2.length = cryptedRecvLen :=
    (encryptBytes_length c data).trans hlength
  unfold AuthCrypt.decryptRecv
  rw [hinit, if_neg Bool.noConfusion, if_neg (henciphered ▸ Nat.lt_irrefl _), ← henciphered,
    List.take_length, List.drop_length]
  obtain ⟨hbytes, hstep⟩ := h.decryptBytes data
  exact ⟨(List.append_nil _).trans hbytes, hstep⟩

end Partners

end AuthCrypt

end TwowCore.Network
