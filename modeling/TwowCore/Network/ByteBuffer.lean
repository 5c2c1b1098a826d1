import TwowCore.Lib.LittleEndian

/-!
# ByteBuffer

A buffer of bytes that is written at one position and read at another. `append` puts bytes at
`_wpos`, and everything that is read comes from `_rpos` on, after a check against `size()`. A read
gives a value, or throws, or has an access at or past `size()`, which is undefined.

A list of values is written by `writeAll` and read by `readAllInto`; `readAll` is any sequence of
reads of any bytes.
-/

namespace TwowCore.Network

open TwowCore.Lib

/-- A `size_t`. -/
def sizeT (n : ℕ) : ℕ := n % 2 ^ 64

/-- `ByteBuffer`. A vector has less than 2^63 elements. -/
structure ByteBuffer where
  storage : List UInt8
  rpos : ℕ
  wpos : ℕ
  fits : storage.length < 2 ^ 63
  deriving DecidableEq

/-- `ByteBufferException`. -/
structure ByteBufferException where
  add : Bool
  pos : ℕ
  esize : ℕ
  size : ℕ
  deriving DecidableEq, Repr

/-- What becomes of a read. -/
inductive ReadOutcome (α : Type)
  | value (v : α) (b : ByteBuffer)
  | thrown (e : ByteBufferException) (b : ByteBuffer)
  | outside

/-- A type that `append<T>` and `read<T>` copy byte by byte, lowest byte first after
`EndianConvert`. -/
structure PlainType (T : Type) where
  sizeof : ℕ
  bits : T → ℕ
  ofBits : ℕ → T
  sizeof_le : sizeof ≤ 8
  bits_lt : ∀ v, bits v < 256 ^ sizeof
  ofBits_bits : ∀ v, ofBits (bits v) = v

namespace PlainType

/-- `uint8`. -/
def uint8 : PlainType UInt8 :=
  ⟨1, UInt8.toNat, UInt8.ofNat, by omega, fun v => v.toNat_lt, fun v => v.ofNat_toNat⟩

/-- `uint16`. -/
def uint16 : PlainType UInt16 :=
  ⟨2, UInt16.toNat, UInt16.ofNat, by omega, fun v => v.toNat_lt, fun v => v.ofNat_toNat⟩

/-- `uint32`. -/
def uint32 : PlainType UInt32 :=
  ⟨4, UInt32.toNat, UInt32.ofNat, by omega, fun v => v.toNat_lt, fun v => v.ofNat_toNat⟩

/-- `uint64`. -/
def uint64 : PlainType UInt64 :=
  ⟨8, UInt64.toNat, UInt64.ofNat, by omega, fun v => v.toNat_lt, fun v => v.ofNat_toNat⟩

/-- `int8`. -/
def int8 : PlainType Int8 :=
  ⟨1, fun v => v.toBitVec.toNat, fun n => .ofBitVec (.ofNat 8 n), by omega,
    fun v => v.toBitVec.isLt, fun v => by simp⟩

/-- `int16`. -/
def int16 : PlainType Int16 :=
  ⟨2, fun v => v.toBitVec.toNat, fun n => .ofBitVec (.ofNat 16 n), by omega,
    fun v => v.toBitVec.isLt, fun v => by simp⟩

/-- `int32`. -/
def int32 : PlainType Int32 :=
  ⟨4, fun v => v.toBitVec.toNat, fun n => .ofBitVec (.ofNat 32 n), by omega,
    fun v => v.toBitVec.isLt, fun v => by simp⟩

/-- `int64`. -/
def int64 : PlainType Int64 :=
  ⟨8, fun v => v.toBitVec.toNat, fun n => .ofBitVec (.ofNat 64 n), by omega,
    fun v => v.toBitVec.isLt, fun v => by simp⟩

end PlainType

namespace ByteBuffer

/-- A buffer that nothing was written to. -/
def empty : ByteBuffer := ⟨[], 0, 0, by simp⟩

/-- `size()`. -/
def size (b : ByteBuffer) : ℕ := b.storage.length

/-! ## Writing -/

/-- The storage after the `memcpy` of `append`. -/
def overwritten (b : ByteBuffer) (src : List UInt8) : List UInt8 :=
  let grown :=
    if b.storage.length < b.wpos + src.length then
      b.storage ++ List.replicate (b.wpos + src.length - b.storage.length) 0
    else b.storage
  grown.take b.wpos ++ src ++ grown.drop (b.wpos + src.length)

/-- `append(src, cnt)`. An assertion that fails, or a vector that cannot grow, is `none`. -/
def append (b : ByteBuffer) (src : List UInt8) : Option ByteBuffer :=
  if src.length = 0 then some b
  else if 10000000 ≤ b.size then none
  else if h : (b.overwritten src).length < 2 ^ 63 then
    some ⟨b.overwritten src, b.rpos, b.wpos + src.length, h⟩
  else none

/-- `append<T>`. -/
def appendPlain {T : Type} (P : PlainType T) (b : ByteBuffer) (value : T) : Option ByteBuffer :=
  b.append (littleEndian P.sizeof (P.bits value))

/-- The loop of `appendPackGUID`: the mask, and the bytes that follow it. -/
def packLoop (i : ℕ) (mask : UInt8) (bytes : List UInt8) (guid : UInt64) : UInt8 × List UInt8 :=
  if _h : guid = 0 then (mask, bytes)
  else if guid &&& 0xFF ≠ 0 then
    packLoop (i + 1) (mask ||| UInt8.ofNat (1 <<< i)) (bytes ++ [(guid &&& 0xFF).toUInt8]) (guid >>> 8)
  else packLoop (i + 1) mask bytes (guid >>> 8)
termination_by guid.toNat
decreasing_by
  all_goals
    have hpos : guid.toNat ≠ 0 := fun hzero => _h (UInt64.toNat_inj.mp hzero)
    have hshift : (guid >>> 8).toNat = guid.toNat / 256 := by
      rw [UInt64.toNat_shiftRight]
      exact Nat.shiftRight_eq_div_pow _ _
    omega

/-- `appendPackGUID`. -/
def appendPackGUID (b : ByteBuffer) (guid : UInt64) : Option ByteBuffer :=
  b.append ((packLoop 0 0 [] guid).1 :: (packLoop 0 0 [] guid).2)

/-- `operator<<` of a `std::string`. -/
def appendString (b : ByteBuffer) (value : List UInt8) : Option ByteBuffer :=
  match b.append value with
  | none => none
  | some b => b.append [0]

/-- `operator<<` of a `bool`, which is a byte in memory. -/
def appendBool (b : ByteBuffer) (value : Bool) : Option ByteBuffer :=
  b.append [if value then 1 else 0]

/-! ## Reading -/

/-- The bytes of an access. -/
def bytesAt (b : ByteBuffer) (pos len : ℕ) : Option (List UInt8) :=
  if pos + len ≤ b.size then some ((b.storage.drop pos).take len) else none

end ByteBuffer

/-- What is read next. -/
def ReadOutcome.andThen {α β : Type} (o : ReadOutcome α) (f : α → ByteBuffer → ReadOutcome β) :
    ReadOutcome β :=
  match o with
  | .value v b => f v b
  | .thrown e b => .thrown e b
  | .outside => .outside

namespace ByteBuffer

/-- `read<T>(pos)`. -/
def readAt {T : Type} (P : PlainType T) (b : ByteBuffer) (pos : ℕ) : ReadOutcome T :=
  if b.size < sizeT (pos + P.sizeof) then .thrown ⟨false, pos, P.sizeof, b.size⟩ b
  else
    match b.bytesAt pos P.sizeof with
    | none => .outside
    | some bytes => .value (P.ofBits (ofLittleEndian bytes)) b

/-- `read<T>()`. -/
def read {T : Type} (P : PlainType T) (b : ByteBuffer) : ReadOutcome T :=
  (b.readAt P b.rpos).andThen fun r b => .value r { b with rpos := sizeT (b.rpos + P.sizeof) }

/-- `operator>>` of a `bool`. A `char` is signed. -/
def readBool (b : ByteBuffer) : ReadOutcome Bool :=
  (b.read PlainType.int8).andThen fun c b => .value (0 < c.toInt) b

/-- The loop of `operator>>` of a `std::string`, and what follows it. -/
def stringLoop (startPos : ℕ) (b : ByteBuffer) : ReadOutcome (List UInt8) :=
  match _h : b.storage[b.rpos]? with
  | none => .outside
  | some byte =>
      if byte = 0 then
        .value ((b.storage.drop startPos).take (b.rpos - startPos))
          { b with rpos := sizeT (b.rpos + 1) }
      else if b.size < sizeT (sizeT (b.rpos + 1) + 1) then
        .thrown ⟨false, sizeT (b.rpos + 1), 1, b.size⟩ { b with rpos := sizeT (b.rpos + 1) }
      else stringLoop startPos { b with rpos := sizeT (b.rpos + 1) }
termination_by b.size - b.rpos
decreasing_by
  have hlt : b.rpos < b.storage.length := by
    rcases List.getElem?_eq_some_iff.mp _h with ⟨hlt, -⟩
    exact hlt
  have hfits := b.fits
  have hmod : sizeT (b.rpos + 1) = b.rpos + 1 := Nat.mod_eq_of_lt (by omega)
  show b.storage.length - sizeT (b.rpos + 1) < b.storage.length - b.rpos
  rw [hmod]
  omega

/-- `operator>>` of a `std::string` into one that holds `value`. -/
def readString (b : ByteBuffer) (value : List UInt8) : ReadOutcome (List UInt8) :=
  if b.rpos < b.size then b.stringLoop b.rpos else .value value b

/-- The loop of `readPackGUID`, with the rounds that are left. -/
def packGUIDLoop (guidmark : UInt8) : ℕ → ℕ → UInt64 → ByteBuffer → ReadOutcome UInt64
  | 0, _, guid, b => .value guid b
  | rounds + 1, i, guid, b =>
      if guidmark &&& UInt8.ofNat (1 <<< i) ≠ 0 then
        (b.read PlainType.uint8).andThen fun bit b =>
          packGUIDLoop guidmark rounds (i + 1) (guid ||| bit.toUInt64 <<< UInt64.ofNat (i * 8)) b
      else packGUIDLoop guidmark rounds (i + 1) guid b

/-- `readPackGUID`. -/
def readPackGUID (b : ByteBuffer) : ReadOutcome UInt64 :=
  (b.read PlainType.uint8).andThen fun guidmark b => packGUIDLoop guidmark 8 0 0 b

/-- `read_skip(skip)`. -/
def readSkip (b : ByteBuffer) (skip : ℕ) : ReadOutcome Unit :=
  if b.size < sizeT (b.rpos + skip) then .thrown ⟨false, b.rpos, skip, b.size⟩ b
  else .value () { b with rpos := sizeT (b.rpos + skip) }

/-- `read(dest, len)`. An object has less than 2^63 bytes. -/
def readBytes (b : ByteBuffer) (len : Fin (2 ^ 63)) : ReadOutcome (List UInt8) :=
  if b.size < sizeT (b.rpos + len) then .thrown ⟨false, b.rpos, len, b.size⟩ b
  else
    match b.bytesAt b.rpos len with
    | none => .outside
    | some bytes => .value bytes { b with rpos := sizeT (b.rpos + len) }

end ByteBuffer

/-- A value of one of the types that a buffer is written with. A float is its bits. -/
inductive TypedValue where
  | uint8 (v : UInt8)
  | uint16 (v : UInt16)
  | uint32 (v : UInt32)
  | uint64 (v : UInt64)
  | int8 (v : Int8)
  | int16 (v : Int16)
  | int32 (v : Int32)
  | int64 (v : Int64)
  | float (v : UInt32)
  | double (v : UInt64)
  | bool (v : Bool)
  | string (v : List UInt8)
  | packGUID (v : UInt64)
  deriving DecidableEq

/-- What a value is read into. A string is read into one that may hold something. -/
inductive Target where
  | uint8
  | uint16
  | uint32
  | uint64
  | int8
  | int16
  | int32
  | int64
  | float
  | double
  | bool
  | string (value : List UInt8)
  | packGUID
  deriving DecidableEq

namespace ByteBuffer

/-- `operator<<`, and `appendPackGUID`. -/
def write (b : ByteBuffer) : TypedValue → Option ByteBuffer
  | .uint8 v => b.appendPlain PlainType.uint8 v
  | .uint16 v => b.appendPlain PlainType.uint16 v
  | .uint32 v => b.appendPlain PlainType.uint32 v
  | .uint64 v => b.appendPlain PlainType.uint64 v
  | .int8 v => b.appendPlain PlainType.int8 v
  | .int16 v => b.appendPlain PlainType.int16 v
  | .int32 v => b.appendPlain PlainType.int32 v
  | .int64 v => b.appendPlain PlainType.int64 v
  | .float v => b.appendPlain PlainType.uint32 v
  | .double v => b.appendPlain PlainType.uint64 v
  | .bool v => b.appendBool v
  | .string v => b.appendString v
  | .packGUID v => b.appendPackGUID v

/-- Values written in order. -/
def writeAll : List TypedValue → ByteBuffer → Option ByteBuffer
  | [], b => some b
  | v :: values, b =>
      match b.write v with
      | none => none
      | some b => writeAll values b

/-- `operator>>`, and `readPackGUID`. -/
def readInto (b : ByteBuffer) : Target → ReadOutcome TypedValue
  | .uint8 => (b.read PlainType.uint8).andThen fun v b => .value (.uint8 v) b
  | .uint16 => (b.read PlainType.uint16).andThen fun v b => .value (.uint16 v) b
  | .uint32 => (b.read PlainType.uint32).andThen fun v b => .value (.uint32 v) b
  | .uint64 => (b.read PlainType.uint64).andThen fun v b => .value (.uint64 v) b
  | .int8 => (b.read PlainType.int8).andThen fun v b => .value (.int8 v) b
  | .int16 => (b.read PlainType.int16).andThen fun v b => .value (.int16 v) b
  | .int32 => (b.read PlainType.int32).andThen fun v b => .value (.int32 v) b
  | .int64 => (b.read PlainType.int64).andThen fun v b => .value (.int64 v) b
  | .float => (b.read PlainType.uint32).andThen fun v b => .value (.float v) b
  | .double => (b.read PlainType.uint64).andThen fun v b => .value (.double v) b
  | .bool => b.readBool.andThen fun v b => .value (.bool v) b
  | .string value => (b.readString value).andThen fun v b => .value (.string v) b
  | .packGUID => b.readPackGUID.andThen fun v b => .value (.packGUID v) b

/-- Values read in order. -/
def readAllInto : List Target → ByteBuffer → ReadOutcome (List TypedValue)
  | [], b => .value [] b
  | target :: targets, b =>
      (b.readInto target).andThen fun v b =>
        (readAllInto targets b).andThen fun values b => .value (v :: values) b

end ByteBuffer

/-- A read of the stream. -/
inductive ReadCall where
  | into (target : Target)
  | skip (skip : ℕ)
  | bytes (len : Fin (2 ^ 63))
  deriving DecidableEq

/-- The buffer that a read leaves behind, also when it throws. -/
def ReadOutcome.after {α : Type} : ReadOutcome α → Option ByteBuffer
  | .value _ b => some b
  | .thrown _ b => some b
  | .outside => none

namespace ByteBuffer

/-- One read of a sequence. -/
def call (b : ByteBuffer) : ReadCall → Option ByteBuffer
  | .into target => (b.readInto target).after
  | .skip skip => (b.readSkip skip).after
  | .bytes len => (b.readBytes len).after

/-- Reads in order. One that throws does not end the sequence. -/
def readAll : List ReadCall → ByteBuffer → Option ByteBuffer
  | [], b => some b
  | c :: calls, b =>
      match b.call c with
      | none => none
      | some b => readAll calls b

end ByteBuffer

end TwowCore.Network
