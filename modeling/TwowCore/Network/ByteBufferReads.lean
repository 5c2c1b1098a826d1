import TwowCore.Network.ByteBuffer

/-!
# What a ByteBuffer gives back

`TypedValue.bytes` are the bytes of a value. Writing puts them, and reading takes them from the front
of what is unread. `read_written` is the round trip of a list of typed values. `readAll_inside` is
about any bytes and any reads: no access is outside, and `_rpos` stays within `size()`.
-/

namespace TwowCore.Network

open TwowCore.Lib

namespace ByteBuffer

/-- A read that goes on for `n` bytes. -/
def advance (b : ByteBuffer) (n : ℕ) : ByteBuffer := { b with rpos := b.rpos + n }

@[simp]
theorem storage_advance (b : ByteBuffer) (n : ℕ) : (b.advance n).storage = b.storage := rfl

@[simp]
theorem rpos_advance (b : ByteBuffer) (n : ℕ) : (b.advance n).rpos = b.rpos + n := rfl

theorem advance_advance (b : ByteBuffer) (m n : ℕ) :
    (b.advance m).advance n = b.advance (m + n) := by
  simp only [advance, Nat.add_assoc]

/-- The bytes from `_rpos` on. -/
def unread (b : ByteBuffer) : List UInt8 := b.storage.drop b.rpos

theorem unread_advance {b : ByteBuffer} (bytes : List UInt8) {rest : List UInt8}
    (h : b.unread = bytes ++ rest) :
    (b.advance bytes.length).unread = rest := by
  show b.storage.drop (b.rpos + bytes.length) = rest
  rw [← List.drop_drop]
  show b.unread.drop bytes.length = rest
  rw [h, List.drop_left]

/-- What is still there lies below `size()`. -/
theorem le_size_of_unread {b : ByteBuffer} (bytes : List UInt8) {rest : List UInt8}
    (h : b.unread = bytes ++ rest) (hpos : 0 < bytes.length) : b.rpos + bytes.length ≤ b.size := by
  have hlen := congrArg List.length h
  simp only [unread, List.length_drop, List.length_append] at hlen
  show b.rpos + bytes.length ≤ b.storage.length
  omega

/-- A position near `size()` is a `size_t`. -/
theorem sizeT_eq (b : ByteBuffer) {n : ℕ} (h : n < b.size + 2 ^ 63) : sizeT n = n := by
  have hfits : b.size < 2 ^ 63 := b.fits
  exact Nat.mod_eq_of_lt (by omega)

/-! ## The bytes of a value -/

theorem bytesAt_of_unread {b : ByteBuffer} {bytes rest : List UInt8} (h : b.unread = bytes ++ rest)
    (hpos : 0 < bytes.length) : b.bytesAt b.rpos bytes.length = some bytes := by
  rw [bytesAt, if_pos (le_size_of_unread bytes h hpos)]
  show some (b.unread.take bytes.length) = some bytes
  rw [h, List.take_left]

/-- A value is read where its bytes are. -/
theorem read_of_unread {T : Type} {P : PlainType T} {b : ByteBuffer} {v : T} {rest : List UInt8}
    (hsize : 0 < P.sizeof) (h : b.unread = littleEndian P.sizeof (P.bits v) ++ rest) :
    b.read P = .value v (b.advance P.sizeof) := by
  have hlen : (littleEndian P.sizeof (P.bits v)).length = P.sizeof := length_littleEndian _ _
  have hle := le_size_of_unread _ h (by omega)
  rw [hlen] at hle
  have hmod : sizeT (b.rpos + P.sizeof) = b.rpos + P.sizeof := sizeT_eq b (by omega)
  have hbytes := bytesAt_of_unread h (by omega)
  rw [hlen] at hbytes
  have hat : b.readAt P b.rpos = .value v b := by
    unfold readAt
    rw [hmod, if_neg (by omega), hbytes]
    show ReadOutcome.value (P.ofBits (ofLittleEndian (littleEndian P.sizeof (P.bits v)))) b = _
    rw [ofLittleEndian_littleEndian (P.bits_lt v), P.ofBits_bits]
  show (b.readAt P b.rpos).andThen _ = _
  rw [hat]
  show ReadOutcome.value v { b with rpos := sizeT (b.rpos + P.sizeof) } = _
  rw [hmod]
  rfl

theorem readBool_of_unread {b : ByteBuffer} {v : Bool} {rest : List UInt8}
    (h : b.unread = [if v then 1 else 0] ++ rest) : b.readBool = .value v (b.advance 1) := by
  have hchar : [if v then (1 : UInt8) else 0] =
      littleEndian PlainType.int8.sizeof (PlainType.int8.bits (if v then 1 else 0)) := by
    cases v <;> rfl
  rw [hchar] at h
  show (b.read PlainType.int8).andThen _ = _
  rw [read_of_unread (by show 0 < 1; omega) h]
  cases v <;> rfl

/-- The loop goes to the zero byte. -/
theorem stringLoop_of_unread {startPos : ℕ} {v rest : List UInt8} (hzero : ∀ c ∈ v, c ≠ 0)
    (b : ByteBuffer) (h : b.unread = v ++ 0 :: rest) :
    b.stringLoop startPos =
      .value ((b.storage.drop startPos).take (b.rpos + v.length - startPos))
        (b.advance (v.length + 1)) := by
  induction v generalizing b with
  | nil =>
      have hle := le_size_of_unread [0] h (by simp)
      have hmod : sizeT (b.rpos + 1) = b.rpos + 1 :=
        sizeT_eq b (Nat.lt_of_le_of_lt hle (by omega))
      have hget : b.storage[b.rpos]? = some 0 := by
        have h0 := congrArg (·[0]?) h
        simpa [unread] using h0
      rw [stringLoop]
      split
      · next hnone => rw [hget] at hnone; cases hnone
      · next byte hsome =>
          obtain rfl : 0 = byte := Option.some.inj (hget.symm.trans hsome)
          rw [if_pos rfl, hmod]
          rfl
  | cons c v ih =>
      have hle := le_size_of_unread [c] h (by simp)
      have hall : b.unread = c :: (v ++ [0]) ++ rest := by
        rw [h]
        simp
      have hle' := le_size_of_unread _ hall (by simp)
      simp only [List.length_cons, List.length_append, List.length_nil] at hle hle'
      have hmod : sizeT (b.rpos + 1) = b.rpos + 1 := sizeT_eq b (by omega)
      have hmod' : sizeT (b.rpos + 1 + 1) = b.rpos + 1 + 1 := sizeT_eq b (by omega)
      have hget : b.storage[b.rpos]? = some c := by
        have h0 := congrArg (·[0]?) h
        simpa [unread] using h0
      have hnext : (b.advance 1).unread = v ++ 0 :: rest := unread_advance [c] h
      rw [stringLoop]
      split
      · next hnone => rw [hget] at hnone; cases hnone
      · next byte hsome =>
          obtain rfl : c = byte := Option.some.inj (hget.symm.trans hsome)
          rw [if_neg (hzero c List.mem_cons_self), hmod, hmod', if_neg (by omega)]
          show (b.advance 1).stringLoop startPos = _
          rw [ih (fun d hd => hzero d (List.mem_cons_of_mem _ hd)) _ hnext, advance_advance]
          have hend : b.rpos + 1 + v.length - startPos = b.rpos + (v.length + 1) - startPos := by
            omega
          show ReadOutcome.value ((b.storage.drop startPos).take (b.rpos + 1 + v.length - startPos))
            (b.advance (1 + (v.length + 1))) = _
          rw [hend, show 1 + (v.length + 1) = v.length + 1 + 1 by omega]
          rfl

theorem readString_of_unread {b : ByteBuffer} {value v rest : List UInt8}
    (hzero : ∀ c ∈ v, c ≠ 0) (h : b.unread = (v ++ [0]) ++ rest) :
    b.readString value = .value v (b.advance (v.length + 1)) := by
  have hle := le_size_of_unread _ h (by simp)
  simp only [List.length_append, List.length_cons, List.length_nil] at hle
  rw [List.append_assoc] at h
  unfold readString
  rw [if_pos (by omega), stringLoop_of_unread hzero b h]
  have htake : (b.storage.drop b.rpos).take (b.rpos + v.length - b.rpos) = v := by
    rw [Nat.add_sub_cancel_left]
    show b.unread.take v.length = v
    rw [h, List.take_left]
  rw [htake]

/-! ## Packed guids -/

/-- A bit of the mask, as both loops look at it. -/
theorem mask_bit {mask : UInt8} {i : ℕ} (hi : i < 8) :
    mask &&& UInt8.ofNat (1 <<< i) ≠ 0 ↔ mask.toNat.testBit i = true := by
  have hbit : (UInt8.ofNat (1 <<< i)).toNat = 2 ^ i := by
    rw [UInt8.toNat_ofNat', Nat.one_shiftLeft]
    exact Nat.mod_eq_of_lt (Nat.pow_lt_pow_right (by omega) hi)
  rw [ne_eq, ← UInt8.toNat_inj, UInt8.toNat_and, hbit, Nat.and_two_pow]
  cases h : mask.toNat.testBit i with
  | false => simp
  | true => simp

/-- The bytes of a guid that are not zero, lowest first. -/
def packedBytes (rounds n : ℕ) : List UInt8 := (littleEndian rounds n).filter (· ≠ 0)

/-- The byte of `n` with index `j` is not zero. -/
def HasByte (n j : ℕ) : Prop := n / 256 ^ j % 256 ≠ 0

instance instDecidableHasByte (n j : ℕ) : Decidable (HasByte n j) := inferInstanceAs (Decidable (_ ≠ _))

theorem hasByte_succ (n j : ℕ) : HasByte n (j + 1) ↔ HasByte (n / 256) j := by
  have hdiv : n / 256 ^ (j + 1) = n / 256 / 256 ^ j := by
    rw [pow_succ', Nat.div_div_eq_div_mul]
  unfold HasByte
  rw [hdiv]

theorem hasByte_zero (n : ℕ) : HasByte n 0 ↔ UInt8.ofNat (n % 256) ≠ 0 := by
  have hbyte : (UInt8.ofNat (n % 256)).toNat = n % 256 := by
    rw [UInt8.toNat_ofNat']
    omega
  unfold HasByte
  rw [ne_eq, ne_eq, ← UInt8.toNat_inj, hbyte, pow_zero, Nat.div_one]
  rfl

theorem packedBytes_succ (rounds n : ℕ) :
    packedBytes (rounds + 1) n =
      (if HasByte n 0 then [UInt8.ofNat (n % 256)] else []) ++ packedBytes rounds (n / 256) := by
  by_cases h : HasByte n 0
  · rw [if_pos h]
    exact List.filter_cons_of_pos (by simpa using (hasByte_zero n).mp h)
  · rw [if_neg h]
    exact List.filter_cons_of_neg (by simpa using fun hne => h ((hasByte_zero n).mpr hne))

theorem packedBytes_zero (rounds : ℕ) : packedBytes rounds 0 = [] := by
  induction rounds with
  | zero => rfl
  | succ rounds ih =>
      rw [packedBytes_succ, Nat.zero_div, ih]
      rfl

theorem toNat_and_255 (guid : UInt64) : (guid &&& 0xFF).toNat = guid.toNat % 256 := by
  rw [UInt64.toNat_and]
  exact Nat.and_two_pow_sub_one_eq_mod _ 8

theorem toNat_shiftRight_8 (guid : UInt64) : (guid >>> 8).toNat = guid.toNat / 256 := by
  rw [UInt64.toNat_shiftRight]
  exact Nat.shiftRight_eq_div_pow _ _

theorem and_255_ne_zero (guid : UInt64) : guid &&& 0xFF ≠ 0 ↔ HasByte guid.toNat 0 := by
  rw [ne_eq, ← UInt64.toNat_inj, toNat_and_255]
  unfold HasByte
  rw [pow_zero, Nat.div_one]
  rfl

theorem toUInt8_and_255 (guid : UInt64) : (guid &&& 0xFF).toUInt8 = UInt8.ofNat (guid.toNat % 256) := by
  rw [← UInt8.toNat_inj, UInt64.toNat_toUInt8, toNat_and_255, UInt8.toNat_ofNat']

/-- One round of the writer. -/
theorem packLoop_next {i : ℕ} {mask : UInt8} {bytes : List UInt8} {guid : UInt64} (h : guid ≠ 0) :
    packLoop i mask bytes guid =
      packLoop (i + 1)
        (if HasByte guid.toNat 0 then mask ||| UInt8.ofNat (1 <<< i) else mask)
        (bytes ++ if HasByte guid.toNat 0 then [UInt8.ofNat (guid.toNat % 256)] else [])
        (guid >>> 8) := by
  rw [packLoop, dif_neg h]
  by_cases hbyte : HasByte guid.toNat 0
  · rw [if_pos ((and_255_ne_zero guid).mpr hbyte), if_pos hbyte, if_pos hbyte, toUInt8_and_255]
  · rw [if_neg (fun hne => hbyte ((and_255_ne_zero guid).mp hne)), if_neg hbyte, if_neg hbyte,
      List.append_nil]

/-- A bit of the mask after a round. -/
theorem testBit_mask {mask : UInt8} {i j : ℕ} (hi : i < 8) :
    (mask ||| UInt8.ofNat (1 <<< i)).toNat.testBit j = (mask.toNat.testBit j || decide (i = j)) := by
  have hbit : (UInt8.ofNat (1 <<< i)).toNat = 2 ^ i := by
    rw [UInt8.toNat_ofNat', Nat.one_shiftLeft]
    exact Nat.mod_eq_of_lt (Nat.pow_lt_pow_right (by omega) hi)
  rw [UInt8.toNat_or, hbit, Nat.testBit_or, Nat.testBit_two_pow]

/-- What the writer makes of a guid: the bytes that are not zero, and a bit of the mask for each. -/
theorem packLoop_spec (rounds : ℕ) :
    ∀ (i : ℕ) (mask : UInt8) (bytes : List UInt8) (guid : UInt64), i + rounds = 8 →
      guid.toNat < 256 ^ rounds →
      (packLoop i mask bytes guid).2 = bytes ++ packedBytes rounds guid.toNat ∧
        ∀ j, (packLoop i mask bytes guid).1.toNat.testBit j =
          (mask.toNat.testBit j || decide (i ≤ j ∧ HasByte guid.toNat (j - i))) := by
  have hdone : ∀ (rounds i : ℕ) (mask : UInt8) (bytes : List UInt8) (guid : UInt64), guid = 0 →
      (packLoop i mask bytes guid).2 = bytes ++ packedBytes rounds guid.toNat ∧
        ∀ j, (packLoop i mask bytes guid).1.toNat.testBit j =
          (mask.toNat.testBit j || decide (i ≤ j ∧ HasByte guid.toNat (j - i))) := by
    rintro rounds i mask bytes guid rfl
    rw [packLoop, dif_pos rfl]
    show bytes = bytes ++ packedBytes rounds 0 ∧ _
    refine ⟨by rw [packedBytes_zero, List.append_nil], fun j => ?_⟩
    have hno : ¬ HasByte (0 : UInt64).toNat (j - i) := by
      intro h
      exact h (by simp)
    rw [decide_eq_false (fun h => hno h.2), Bool.or_false]
  induction rounds with
  | zero =>
      intro i mask bytes guid _ hlt
      exact hdone 0 i mask bytes guid (UInt64.toNat_inj.mp (by
        show guid.toNat = 0
        rw [pow_zero] at hlt
        omega))
  | succ rounds ih =>
      intro i mask bytes guid hi hlt
      by_cases hguid : guid = 0
      · exact hdone _ i mask bytes guid hguid
      have hlt' : (guid >>> 8).toNat < 256 ^ rounds := by
        rw [toNat_shiftRight_8]
        rw [pow_succ] at hlt
        omega
      rw [packLoop_next hguid]
      obtain ⟨hbytes, hmask⟩ := ih (i + 1)
        (if HasByte guid.toNat 0 then mask ||| UInt8.ofNat (1 <<< i) else mask)
        (bytes ++ if HasByte guid.toNat 0 then [UInt8.ofNat (guid.toNat % 256)] else [])
        (guid >>> 8) (by omega) hlt'
      refine ⟨?_, fun j => ?_⟩
      · rw [hbytes, packedBytes_succ, toNat_shiftRight_8, List.append_assoc]
      · rw [hmask j, toNat_shiftRight_8]
        have hbit : (if HasByte guid.toNat 0 then mask ||| UInt8.ofNat (1 <<< i) else mask).toNat.testBit j =
            (mask.toNat.testBit j || decide (i = j ∧ HasByte guid.toNat 0)) := by
          by_cases hbyte : HasByte guid.toNat 0
          · rw [if_pos hbyte, testBit_mask (by omega)]
            simp only [hbyte, and_true]
          · rw [if_neg hbyte]
            simp only [hbyte, and_false, decide_false, Bool.or_false]
        rw [hbit, Bool.or_assoc]
        -- The rounds from `i` on are this one and those from `i + 1` on.
        have hsplit : (i ≤ j ∧ HasByte guid.toNat (j - i)) ↔
            (i = j ∧ HasByte guid.toNat 0) ∨ (i + 1 ≤ j ∧ HasByte (guid.toNat / 256) (j - (i + 1))) := by
          by_cases heq : i = j
          · subst heq
            simp
          · by_cases hle : i ≤ j
            · obtain ⟨k, rfl⟩ : ∃ k, j = i + 1 + k := ⟨j - (i + 1), by omega⟩
              rw [show i + 1 + k - i = k + 1 by omega, show i + 1 + k - (i + 1) = k by omega, hasByte_succ]
              simp [hle, heq]
            · constructor
              · intro h
                exact absurd h.1 hle
              · rintro (⟨h, -⟩ | ⟨h, -⟩) <;> omega
        rw [← Bool.decide_or, decide_eq_decide.mpr hsplit]

/-- A byte that is or-ed above what is there is added. -/
theorem toNat_or_shiftLeft {i n : ℕ} {guid : UInt64} (hi : i < 8) (hguid : guid.toNat < 256 ^ i)
    (hn : n < 256) :
    (guid ||| (UInt8.ofNat n).toUInt64 <<< UInt64.ofNat (i * 8)).toNat = guid.toNat + n * 256 ^ i := by
  have hpow : (256 : ℕ) ^ i = 2 ^ (i * 8) := by rw [Nat.mul_comm, Nat.pow_mul]
  have hbyte : (UInt8.ofNat n).toUInt64.toNat = n := by
    rw [UInt8.toNat_toUInt64, UInt8.toNat_ofNat']
    omega
  have hby : (UInt64.ofNat (i * 8)).toNat % 64 = i * 8 := by
    rw [UInt64.toNat_ofNat']
    omega
  have hlt : n * 2 ^ (i * 8) < 2 ^ 64 := by
    calc n * 2 ^ (i * 8) < 2 ^ 8 * 2 ^ (i * 8) := Nat.mul_lt_mul_of_pos_right hn (Nat.two_pow_pos _)
      _ = 2 ^ (8 + i * 8) := (Nat.pow_add 2 8 (i * 8)).symm
      _ ≤ 2 ^ 64 := Nat.pow_le_pow_right (by omega) (by omega)
  rw [hpow] at hguid ⊢
  rw [UInt64.toNat_or, UInt64.toNat_shiftLeft, hbyte, hby, Nat.shiftLeft_eq, Nat.mod_eq_of_lt hlt,
    Nat.or_comm, ← Nat.shiftLeft_eq, ← Nat.shiftLeft_add_eq_or_of_lt hguid, Nat.add_comm]

/-- A packed guid as it is in the buffer. -/
def packed (guid : UInt64) : List UInt8 := (packLoop 0 0 [] guid).1 :: (packLoop 0 0 [] guid).2

/-- The reader's rounds put the bytes back where they were. -/
theorem packGUIDLoop_of_unread {guidmark : UInt8} (rounds : ℕ) :
    ∀ (i : ℕ) (guid : UInt64) (n : ℕ) (b : ByteBuffer) (rest : List UInt8), i + rounds = 8 →
      guid.toNat < 256 ^ i → n < 256 ^ rounds →
      (∀ j < rounds, guidmark.toNat.testBit (i + j) = decide (HasByte n j)) →
      b.unread = packedBytes rounds n ++ rest →
      packGUIDLoop guidmark rounds i guid b =
        .value (UInt64.ofNat (guid.toNat + n * 256 ^ i)) (b.advance (packedBytes rounds n).length) := by
  induction rounds with
  | zero =>
      intro i guid n b rest _ _ hn _ _
      obtain rfl : n = 0 := by
        rw [pow_zero] at hn
        omega
      show ReadOutcome.value guid b = _
      rw [Nat.zero_mul, Nat.add_zero, UInt64.ofNat_toNat]
      rfl
  | succ rounds ih =>
      intro i guid n b rest hi hguid hn hmask hunread
      have hn' : n / 256 < 256 ^ rounds := by
        rw [pow_succ] at hn
        omega
      have hmask' : ∀ j < rounds, guidmark.toNat.testBit (i + 1 + j) = decide (HasByte (n / 256) j) := by
        intro j hj
        rw [show i + 1 + j = i + (j + 1) by omega, hmask (j + 1) (by omega),
          decide_eq_decide.mpr (hasByte_succ n j)]
      have hpow : (256 : ℕ) ^ (i + 1) = 256 ^ i * 256 := pow_succ 256 i
      have hsplit : n = n / 256 * 256 + n % 256 := by omega
      have hbit0 := hmask 0 (by omega)
      rw [Nat.add_zero] at hbit0
      rw [packedBytes_succ] at hunread ⊢
      by_cases hbyte : HasByte n 0
      · rw [if_pos hbyte, List.append_assoc] at hunread
        rw [if_pos hbyte]
        have hread : b.read PlainType.uint8 = .value (UInt8.ofNat (n % 256)) (b.advance 1) := by
          have hmod : n % 256 % 2 ^ 8 % 256 = n % 256 := by omega
          have hone : [UInt8.ofNat (n % 256)] =
              littleEndian 1 (PlainType.uint8.bits (UInt8.ofNat (n % 256))) := by
            show _ = UInt8.ofNat ((UInt8.ofNat (n % 256)).toNat % 256) :: []
            rw [UInt8.toNat_ofNat', hmod]
          rw [hone] at hunread
          exact read_of_unread (by show 0 < 1; omega) hunread
        show (if guidmark &&& UInt8.ofNat (1 <<< i) ≠ 0 then _ else _) = _
        rw [if_pos ((mask_bit (by omega)).mpr (by rw [hbit0, decide_eq_true hbyte])), hread]
        -- The byte is or-ed above what is there.
        have hor : (guid ||| (UInt8.ofNat (n % 256)).toUInt64 <<< UInt64.ofNat (i * 8)).toNat =
            guid.toNat + n % 256 * 256 ^ i :=
          toNat_or_shiftLeft (by omega) hguid (by omega)
        show packGUIDLoop guidmark rounds (i + 1) _ (b.advance 1) = _
        have hlow : n % 256 * 256 ^ i ≤ 255 * 256 ^ i := Nat.mul_le_mul_right _ (by omega)
        rw [ih (i + 1) _ (n / 256) (b.advance 1) rest (by omega) (by rw [hor, hpow]; omega) hn' hmask'
          (unread_advance [UInt8.ofNat (n % 256)] hunread), hor, advance_advance, hpow]
        congr 2
        · have hmul : n * 256 ^ i = (n / 256 * 256 + n % 256) * 256 ^ i := by rw [← hsplit]
          rw [hmul]
          ring
        · rw [List.length_append]
          rfl
      · rw [if_neg hbyte, List.nil_append] at hunread
        rw [if_neg hbyte, List.nil_append]
        show (if guidmark &&& UInt8.ofNat (1 <<< i) ≠ 0 then _ else _) = _
        have hbit : ¬ guidmark &&& UInt8.ofNat (1 <<< i) ≠ 0 := by
          rw [mask_bit (by omega), hbit0, decide_eq_false hbyte]
          exact Bool.false_ne_true
        rw [if_neg hbit, ih (i + 1) guid (n / 256) b rest (by omega) (by rw [hpow]; omega) hn' hmask' hunread, hpow]
        have hzero : n % 256 = 0 := by
          by_contra hne
          exact hbyte (by simpa [HasByte] using hne)
        have hmul : n * 256 ^ i = (n / 256 * 256 + n % 256) * 256 ^ i := by rw [← hsplit]
        rw [hmul, hzero]
        congr 2
        ring

theorem readPackGUID_of_unread {b : ByteBuffer} {v : UInt64} {rest : List UInt8}
    (h : b.unread = packed v ++ rest) : b.readPackGUID = .value v (b.advance (packed v).length) := by
  have hlt : v.toNat < 256 ^ 8 := v.toNat_lt
  obtain ⟨hbytes, hmask⟩ := packLoop_spec 8 0 0 [] v (by omega) hlt
  rw [List.nil_append] at hbytes
  have hone : [(packLoop 0 0 [] v).1] =
      littleEndian 1 (PlainType.uint8.bits (packLoop 0 0 [] v).1) := by
    show _ = UInt8.ofNat ((packLoop 0 0 [] v).1.toNat % 256) :: []
    have hbyte := (packLoop 0 0 [] v).1.toNat_lt
    rw [Nat.mod_eq_of_lt (by omega), UInt8.ofNat_toNat]
  have hunread : b.unread = [(packLoop 0 0 [] v).1] ++ (packedBytes 8 v.toNat ++ rest) := by
    rw [h, ← hbytes]
    rfl
  have hread : b.read PlainType.uint8 = .value (packLoop 0 0 [] v).1 (b.advance 1) := by
    rw [hone] at hunread
    exact read_of_unread (by show 0 < 1; omega) hunread
  show (b.read PlainType.uint8).andThen _ = _
  rw [hread]
  show packGUIDLoop (packLoop 0 0 [] v).1 8 0 0 (b.advance 1) = _
  have hbits : ∀ j < 8, (packLoop 0 0 [] v).1.toNat.testBit (0 + j) = decide (HasByte v.toNat j) := by
    intro j _
    rw [Nat.zero_add, hmask j]
    simp
  rw [packGUIDLoop_of_unread 8 0 0 v.toNat (b.advance 1) rest (by omega) (by simp) hlt hbits
    (unread_advance [(packLoop 0 0 [] v).1] hunread), advance_advance, ← hbytes]
  show ReadOutcome.value (UInt64.ofNat (0 + v.toNat * 256 ^ 0)) (b.advance (1 + (packLoop 0 0 [] v).2.length)) = _
  rw [pow_zero, Nat.mul_one, Nat.zero_add, UInt64.ofNat_toNat, Nat.add_comm 1]
  rfl

end ByteBuffer

namespace TypedValue

/-- The bytes of a value in a buffer. -/
def bytes : TypedValue → List UInt8
  | .uint8 v => littleEndian 1 v.toNat
  | .uint16 v => littleEndian 2 v.toNat
  | .uint32 v => littleEndian 4 v.toNat
  | .uint64 v => littleEndian 8 v.toNat
  | .int8 v => littleEndian 1 v.toBitVec.toNat
  | .int16 v => littleEndian 2 v.toBitVec.toNat
  | .int32 v => littleEndian 4 v.toBitVec.toNat
  | .int64 v => littleEndian 8 v.toBitVec.toNat
  | .float v => littleEndian 4 v.toNat
  | .double v => littleEndian 8 v.toNat
  | .bool v => [if v then 1 else 0]
  | .string v => v ++ [0]
  | .packGUID v => ByteBuffer.packed v

/-- A string in it has no zero byte. -/
def NoNul : TypedValue → Prop
  | .string v => ∀ c ∈ v, c ≠ 0
  | _ => True

/-- What a value of this type is read into. -/
def target (held : List UInt8) : TypedValue → Target
  | .uint8 _ => .uint8
  | .uint16 _ => .uint16
  | .uint32 _ => .uint32
  | .uint64 _ => .uint64
  | .int8 _ => .int8
  | .int16 _ => .int16
  | .int32 _ => .int32
  | .int64 _ => .int64
  | .float _ => .float
  | .double _ => .double
  | .bool _ => .bool
  | .string _ => .string held
  | .packGUID _ => .packGUID

end TypedValue

/-- The types that are read are those of the values. -/
def SameTypes (targets : List Target) (values : List TypedValue) : Prop :=
  List.Forall₂ (fun target v => ∃ held, target = v.target held) targets values

namespace ByteBuffer

/-! ## The round trip -/

theorem append_spec {b b' : ByteBuffer} {src : List UInt8} (hw : b.wpos = b.size)
    (h : b.append src = some b') :
    b'.storage = b.storage ++ src ∧ b'.wpos = b'.size ∧ b'.rpos = b.rpos := by
  unfold append at h
  split at h
  · next hzero =>
      obtain rfl := Option.some.inj h
      obtain rfl := List.length_eq_zero_iff.mp hzero
      exact ⟨(List.append_nil _).symm, hw, rfl⟩
  · next hsrc =>
      have hover : b.overwritten src = b.storage ++ src := by
        have hlen : b.wpos = b.storage.length := hw
        unfold overwritten
        rw [if_pos (by omega), hlen, Nat.add_sub_cancel_left]
        show (b.storage ++ List.replicate src.length 0).take b.storage.length ++ src ++
          (b.storage ++ List.replicate src.length 0).drop (b.storage.length + src.length) = _
        rw [List.take_left, List.drop_eq_nil_of_le (by
          rw [List.length_append, List.length_replicate]), List.append_nil]
      split at h
      · cases h
      · split at h
        · obtain rfl := Option.some.inj h
          refine ⟨hover, ?_, rfl⟩
          show b.wpos + src.length = (b.overwritten src).length
          rw [hover, List.length_append, hw]
          rfl
        · cases h

/-- Each value puts its bytes. -/
theorem write_spec {b b' : ByteBuffer} {v : TypedValue} (hw : b.wpos = b.size)
    (h : b.write v = some b') :
    b'.storage = b.storage ++ v.bytes ∧ b'.wpos = b'.size ∧ b'.rpos = b.rpos := by
  cases v with
  | string v =>
      change b.appendString v = some b' at h
      unfold appendString at h
      split at h
      · cases h
      · next c hc =>
          obtain ⟨hstorage, hwpos, hrpos⟩ := append_spec hw hc
          obtain ⟨hstorage', hwpos', hrpos'⟩ := append_spec hwpos h
          refine ⟨?_, hwpos', hrpos'.trans hrpos⟩
          rw [hstorage', hstorage, List.append_assoc]
          rfl
  | uint8 v | uint16 v | uint32 v | uint64 v | int8 v | int16 v | int32 v | int64 v | float v
  | double v | bool v | packGUID v => exact append_spec hw h

theorem writeAll_spec (values : List TypedValue) :
    ∀ {b b' : ByteBuffer}, b.wpos = b.size → writeAll values b = some b' →
      b'.storage = b.storage ++ values.flatMap TypedValue.bytes ∧ b'.rpos = b.rpos := by
  induction values with
  | nil =>
      intro b b' _ h
      obtain rfl := Option.some.inj h
      exact ⟨(List.append_nil _).symm, rfl⟩
  | cons v values ih =>
      intro b b' hw h
      unfold writeAll at h
      split at h
      · cases h
      · next c hc =>
          obtain ⟨hstorage, hwpos, hrpos⟩ := write_spec hw hc
          obtain ⟨hstorage', hrpos'⟩ := ih hwpos h
          refine ⟨?_, hrpos'.trans hrpos⟩
          rw [hstorage', hstorage, List.append_assoc]
          rfl

theorem readPlain_of_unread {T : Type} {P : PlainType T} {b : ByteBuffer} {v : T} {rest : List UInt8}
    (f : T → TypedValue) (hsize : 0 < P.sizeof)
    (h : b.unread = littleEndian P.sizeof (P.bits v) ++ rest) :
    ((b.read P).andThen fun v b => .value (f v) b) =
      .value (f v) (b.advance (littleEndian P.sizeof (P.bits v)).length) := by
  rw [read_of_unread hsize h, length_littleEndian]
  rfl

/-- A value is read where its bytes are. -/
theorem readInto_of_unread {b : ByteBuffer} {v : TypedValue} {rest : List UInt8}
    (held : List UInt8) (hnul : v.NoNul) (h : b.unread = v.bytes ++ rest) :
    b.readInto (v.target held) = .value v (b.advance v.bytes.length) := by
  cases v with
  | uint8 v => exact readPlain_of_unread .uint8 (by show 0 < 1; omega) h
  | uint16 v => exact readPlain_of_unread .uint16 (by show 0 < 2; omega) h
  | uint32 v => exact readPlain_of_unread .uint32 (by show 0 < 4; omega) h
  | uint64 v => exact readPlain_of_unread .uint64 (by show 0 < 8; omega) h
  | int8 v => exact readPlain_of_unread .int8 (by show 0 < 1; omega) h
  | int16 v => exact readPlain_of_unread .int16 (by show 0 < 2; omega) h
  | int32 v => exact readPlain_of_unread .int32 (by show 0 < 4; omega) h
  | int64 v => exact readPlain_of_unread .int64 (by show 0 < 8; omega) h
  | float v => exact readPlain_of_unread .float (by show 0 < 4; omega) h
  | double v => exact readPlain_of_unread .double (by show 0 < 8; omega) h
  | bool v =>
      show b.readBool.andThen _ = _
      rw [readBool_of_unread h]
      rfl
  | string v =>
      show (b.readString held).andThen _ = _
      rw [readString_of_unread hnul h]
      show ReadOutcome.value _ _ = ReadOutcome.value _ (b.advance (v ++ [0]).length)
      rw [List.length_append]
      rfl
  | packGUID v =>
      show b.readPackGUID.andThen _ = _
      rw [readPackGUID_of_unread h]
      rfl

theorem readAllInto_of_unread {targets : List Target} {values : List TypedValue}
    (htypes : SameTypes targets values) :
    ∀ {b : ByteBuffer} {rest : List UInt8}, (∀ v ∈ values, v.NoNul) →
      b.unread = values.flatMap TypedValue.bytes ++ rest →
      readAllInto targets b = .value values (b.advance (values.flatMap TypedValue.bytes).length) := by
  induction htypes with
  | nil =>
      intro b rest _ _
      rfl
  | @cons target v targets values hv _ ih =>
      intro b rest hnul h
      obtain ⟨held, rfl⟩ := hv
      rw [List.flatMap_cons, List.append_assoc] at h
      have hrest := ih (fun w hw => hnul w (List.mem_cons_of_mem _ hw)) (unread_advance v.bytes h)
      show (b.readInto (v.target held)).andThen _ = _
      rw [readInto_of_unread held (hnul v List.mem_cons_self) h]
      show (readAllInto targets (b.advance v.bytes.length)).andThen _ = _
      rw [hrest, advance_advance, List.flatMap_cons, List.length_append]
      rfl

end ByteBuffer

/-! ## Any bytes -/

/-- No access was outside, the bytes are those of `b`, and `_rpos` is within `size()`. -/
def ReadOutcome.Inside {α : Type} (b : ByteBuffer) (o : ReadOutcome α) : Prop :=
  ∃ b', o.after = some b' ∧ b'.storage = b.storage ∧ b'.rpos ≤ b.size

theorem ReadOutcome.Inside.andThen {α β : Type} {b : ByteBuffer} {o : ReadOutcome α}
    {f : α → ByteBuffer → ReadOutcome β} (h : o.Inside b)
    (hf : ∀ v b', b'.storage = b.storage → b'.rpos ≤ b.size → (f v b').Inside b) :
    (o.andThen f).Inside b := by
  obtain ⟨b', hafter, hstorage, hrpos⟩ := h
  cases o with
  | value v c =>
      obtain rfl := Option.some.inj hafter
      exact hf v c hstorage hrpos
  | thrown e c => exact ⟨b', hafter, hstorage, hrpos⟩
  | outside => cases hafter

namespace ByteBuffer

theorem size_eq_of_storage {b b' : ByteBuffer} (h : b'.storage = b.storage) : b'.size = b.size :=
  congrArg List.length h

theorem read_inside {T : Type} {b b' : ByteBuffer} (P : PlainType T)
    (hstorage : b'.storage = b.storage) (hrpos : b'.rpos ≤ b.size) : (b'.read P).Inside b := by
  have hsize := size_eq_of_storage hstorage
  have hle := P.sizeof_le
  have hmod : sizeT (b'.rpos + P.sizeof) = b'.rpos + P.sizeof := sizeT_eq b' (by omega)
  unfold read readAt
  rw [hmod]
  split
  · exact ⟨b', rfl, hstorage, hrpos⟩
  · next hfit =>
      rw [bytesAt, if_pos (by omega)]
      refine ⟨_, rfl, hstorage, ?_⟩
      show sizeT (b'.rpos + P.sizeof) ≤ b.size
      omega

theorem stringLoop_inside {b : ByteBuffer} (startPos : ℕ) (b' : ByteBuffer)
    (hstorage : b'.storage = b.storage) (hrpos : b'.rpos < b.size) :
    (b'.stringLoop startPos).Inside b := by
  induction b' using stringLoop.induct with
  | case1 b' hnone =>
      rw [List.getElem?_eq_none_iff] at hnone
      have hsize : b'.storage.length = b.size := size_eq_of_storage hstorage
      omega
  | case2 b' hsome =>
      have hsize := size_eq_of_storage hstorage
      have hmod : sizeT (b'.rpos + 1) = b'.rpos + 1 := sizeT_eq b' (by omega)
      rw [stringLoop]
      split
      · next hnone => rw [hsome] at hnone; cases hnone
      · next byte hbyte =>
          obtain rfl : 0 = byte := Option.some.inj (hsome.symm.trans hbyte)
          rw [if_pos rfl]
          refine ⟨_, rfl, hstorage, ?_⟩
          show sizeT (b'.rpos + 1) ≤ b.size
          omega
  | case3 b' byte hsome hbyte hend =>
      have hsize := size_eq_of_storage hstorage
      have hmod : sizeT (b'.rpos + 1) = b'.rpos + 1 := sizeT_eq b' (by omega)
      rw [stringLoop]
      split
      · next hnone => rw [hsome] at hnone; cases hnone
      · next byte' hbyte' =>
          obtain rfl : byte = byte' := Option.some.inj (hsome.symm.trans hbyte')
          rw [if_neg hbyte, if_pos hend]
          refine ⟨_, rfl, hstorage, ?_⟩
          show sizeT (b'.rpos + 1) ≤ b.size
          omega
  | case4 b' byte hsome hbyte hend ih =>
      have hsize := size_eq_of_storage hstorage
      have hmod : sizeT (b'.rpos + 1) = b'.rpos + 1 := sizeT_eq b' (by omega)
      have hmod' : sizeT (b'.rpos + 1 + 1) = b'.rpos + 1 + 1 := sizeT_eq b' (by omega)
      rw [stringLoop]
      split
      · next hnone => rw [hsome] at hnone; cases hnone
      · next byte' hbyte' =>
          obtain rfl : byte = byte' := Option.some.inj (hsome.symm.trans hbyte')
          rw [if_neg hbyte, if_neg hend]
          refine ih hstorage ?_
          show sizeT (b'.rpos + 1) < b.size
          rw [hmod, hmod'] at hend
          omega

theorem packGUIDLoop_inside {b : ByteBuffer} (guidmark : UInt8) (rounds : ℕ) :
    ∀ (i : ℕ) (guid : UInt64) (b' : ByteBuffer), b'.storage = b.storage → b'.rpos ≤ b.size →
      (packGUIDLoop guidmark rounds i guid b').Inside b := by
  induction rounds with
  | zero =>
      intro i guid b' hstorage hrpos
      exact ⟨b', rfl, hstorage, hrpos⟩
  | succ rounds ih =>
      intro i guid b' hstorage hrpos
      unfold packGUIDLoop
      split
      · refine (read_inside PlainType.uint8 hstorage hrpos).andThen fun bit c hc hcpos => ?_
        exact ih (i + 1) _ c hc hcpos
      · exact ih (i + 1) guid b' hstorage hrpos

theorem value_inside {α : Type} {b b' : ByteBuffer} (v : α) (hstorage : b'.storage = b.storage)
    (hrpos : b'.rpos ≤ b.size) : (ReadOutcome.value v b').Inside b :=
  ⟨b', rfl, hstorage, hrpos⟩

theorem readString_inside {b : ByteBuffer} (held : List UInt8) (hrpos : b.rpos ≤ b.size) :
    (b.readString held).Inside b := by
  unfold readString
  split
  · next hlt => exact stringLoop_inside b.rpos b rfl hlt
  · exact value_inside held rfl hrpos

theorem readPackGUID_inside {b : ByteBuffer} (hrpos : b.rpos ≤ b.size) :
    b.readPackGUID.Inside b :=
  (read_inside PlainType.uint8 rfl hrpos).andThen fun guidmark c hc hcpos =>
    packGUIDLoop_inside guidmark 8 0 0 c hc hcpos

theorem readInto_inside {b : ByteBuffer} (target : Target) (hrpos : b.rpos ≤ b.size) :
    (b.readInto target).Inside b := by
  cases target with
  | bool =>
      refine ReadOutcome.Inside.andThen ?_ fun v c hc hcpos => value_inside _ hc hcpos
      exact (read_inside PlainType.int8 rfl hrpos).andThen fun v c hc hcpos => value_inside _ hc hcpos
  | string held =>
      exact (readString_inside held hrpos).andThen fun v c hc hcpos => value_inside _ hc hcpos
  | packGUID => exact (readPackGUID_inside hrpos).andThen fun v c hc hcpos => value_inside _ hc hcpos
  | uint8 | uint16 | uint32 | uint64 | int8 | int16 | int32 | int64 | float | double =>
      exact (read_inside _ rfl hrpos).andThen fun v c hc hcpos => value_inside _ hc hcpos

theorem readSkip_inside {b : ByteBuffer} (skip : ℕ) (hrpos : b.rpos ≤ b.size) :
    (b.readSkip skip).Inside b := by
  unfold readSkip
  split
  · exact ⟨b, rfl, rfl, hrpos⟩
  · next hle =>
      refine value_inside () rfl ?_
      show sizeT (b.rpos + skip) ≤ b.size
      omega

theorem readBytes_inside {b : ByteBuffer} (len : Fin (2 ^ 63)) (hrpos : b.rpos ≤ b.size) :
    (b.readBytes len).Inside b := by
  have hlen := len.isLt
  have hmod : sizeT (b.rpos + len) = b.rpos + len := sizeT_eq b (by omega)
  unfold readBytes
  rw [hmod]
  split
  · exact ⟨b, rfl, rfl, hrpos⟩
  · next hle =>
      rw [bytesAt, if_pos (by omega)]
      refine value_inside _ rfl ?_
      show b.rpos + len ≤ b.size
      omega

/-- One read stays inside. -/
theorem call_inside {b : ByteBuffer} (c : ReadCall) (hrpos : b.rpos ≤ b.size) :
    ∃ b', b.call c = some b' ∧ b'.storage = b.storage ∧ b'.rpos ≤ b.size := by
  cases c with
  | into target => exact readInto_inside target hrpos
  | skip skip => exact readSkip_inside skip hrpos
  | bytes len => exact readBytes_inside len hrpos

/-- Any reads of any bytes stay inside. -/
theorem readAll_inside (calls : List ReadCall) :
    ∀ {b : ByteBuffer}, b.rpos ≤ b.size →
      ∃ b', readAll calls b = some b' ∧ b'.storage = b.storage ∧ b'.rpos ≤ b.size := by
  induction calls with
  | nil =>
      intro b hrpos
      exact ⟨b, rfl, rfl, hrpos⟩
  | cons c calls ih =>
      intro b hrpos
      obtain ⟨b', hcall, hstorage, hrpos'⟩ := call_inside c hrpos
      have hsize := size_eq_of_storage hstorage
      obtain ⟨b'', hall, hstorage', hrpos''⟩ := ih (b := b') (by omega)
      refine ⟨b'', ?_, hstorage'.trans hstorage, by omega⟩
      rw [readAll, hcall]
      exact hall

/-- What was written is read back, whatever follows it, up to its last byte. No read of any bytes
goes past `size()`, and a read that throws leaves `_rpos` there at most. -/
theorem read_written :
    (∀ (values : List TypedValue) (targets : List Target) (b : ByteBuffer),
      writeAll values empty = some b → (∀ v ∈ values, v.NoNul) → SameTypes targets values →
      ∀ (r : ByteBuffer) (following : List UInt8), r.storage = b.storage ++ following → r.rpos = 0 →
        readAllInto targets r = .value values (r.advance b.size)) ∧
    ∀ (r : ByteBuffer) (calls : List ReadCall), r.rpos ≤ r.size →
      ∃ r', readAll calls r = some r' ∧ r'.storage = r.storage ∧ r'.rpos ≤ r.size := by
  refine ⟨fun values targets b hwrite hnul htypes r following hr hpos => ?_,
    fun r calls hrpos => readAll_inside calls hrpos⟩
  obtain ⟨hstorage, -⟩ := writeAll_spec values (b := empty) rfl hwrite
  have hbytes : b.storage = values.flatMap TypedValue.bytes := hstorage
  have hunread : r.unread = values.flatMap TypedValue.bytes ++ following := by
    show r.storage.drop r.rpos = _
    rw [hpos, hr, hbytes]
    rfl
  rw [readAllInto_of_unread htypes hnul hunread, ← hbytes]
  rfl

/-- Values of each kind, and the bytes they are written as. -/
def tripValues : List TypedValue :=
  [.uint8 5, .int16 (-2), .bool true, .string [65, 66], .packGUID 258, .uint32 7]

def tripBuffer : ByteBuffer :=
  ⟨[5, 254, 255, 1, 65, 66, 0, 3, 2, 1, 7, 0, 0, 0], 0, 14, by simp⟩

theorem packLoop_258 : packLoop 0 0 [] 258 = (3, [2, 1]) := by
  rw [packLoop, packLoop, packLoop]
  rfl

theorem read_written_trip :
    writeAll tripValues empty = some tripBuffer ∧
      ∀ (r : ByteBuffer) (following : List UInt8),
        r.storage = tripBuffer.storage ++ following → r.rpos = 0 →
        readAllInto [.uint8, .int16, .bool, .string [9], .packGUID, .uint32] r =
          .value tripValues (r.advance 14) := by
  have hwrite : writeAll tripValues empty = some tripBuffer := by
    simp only [tripValues, writeAll, write, appendPackGUID, packLoop_258]
    rfl
  refine ⟨hwrite, read_written.1 _ _ _ hwrite ?_ ?_⟩
  · simp [tripValues, TypedValue.NoNul]
  · exact .cons ⟨[], rfl⟩ (.cons ⟨[], rfl⟩ (.cons ⟨[], rfl⟩ (.cons ⟨[9], rfl⟩ (.cons ⟨[], rfl⟩
      (.cons ⟨[], rfl⟩ .nil)))))

end ByteBuffer

end TwowCore.Network
