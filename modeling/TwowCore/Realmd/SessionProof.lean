import TwowCore.Realmd.Login

/-!
# What the session proof hashes

The two sides exchange fields of fixed width; the server hashes the numbers it has made of them, as long as
each of them needs. `Full` says that a number needs all its bytes. The server hashes what was exchanged, and
compares twenty bytes, exactly when all the numbers do.
-/

namespace TwowCore.Realmd

section Width

/-- A number of so many bytes whose high byte is not zero. -/
def Full (n width : ℕ) : Prop := 256 ^ (width - 1) ≤ n

instance (n width : ℕ) : Decidable (Full n width) := inferInstanceAs (Decidable (_ ≤ _))

variable {n width : ℕ}

theorem length_asByteArray_le (h : n < 256 ^ width) : (asByteArray n).length ≤ width := by
  unfold asByteArray
  rw [List.length_map]
  exact (Nat.digits_length_le_iff (by decide) n).mpr h

theorem full_iff (h : n < 256 ^ width) (hwidth : 0 < width) :
    Full n width ↔ (asByteArray n).length = width := by
  have hle := length_asByteArray_le h
  have hlt : width - 1 < (asByteArray n).length ↔ Full n width := by
    unfold asByteArray
    rw [List.length_map]
    exact Nat.lt_digits_length_iff (by decide) n
  rw [← hlt]
  omega

theorem length_asByteArrayMin (h : n < 256 ^ width) : (asByteArrayMin n width).length = width := by
  have hle := length_asByteArray_le h
  unfold asByteArrayMin
  rw [List.length_append, List.length_replicate]
  omega

theorem asByteArrayMin_of_full (h : n < 256 ^ width) (hwidth : 0 < width) (hfull : Full n width) :
    asByteArrayMin n width = asByteArray n := by
  have hlength := (full_iff h hwidth).mp hfull
  unfold asByteArrayMin
  rw [hlength, Nat.sub_self, List.replicate_zero, List.append_nil]

theorem setBinary_lt (bytes : Bytes) : setBinary bytes < 256 ^ bytes.length := by
  unfold setBinary
  have hlt := Nat.ofDigits_lt_base_pow_length (b := 256) (l := bytes.map UInt8.toNat) (by decide)
    fun d hd => by
      obtain ⟨byte, -, rfl⟩ := List.mem_map.mp hd
      exact byte.toNat_lt
  rwa [List.length_map] at hlt

end Width

namespace AuthSocket

variable (C : Crypto)

/-- The digests of `N` and of `g`, byte by byte. -/
def groupDigest : Bytes :=
  List.zipWith (· ^^^ ·) (C.sha1 (asByteArray srpN)) (C.sha1 (asByteArray srpG))

/-- What the server hashes for `u`. -/
def hashedForU (c : AuthSocket) (A : ℕ) : Bytes := asByteArray A ++ asByteArray c.B

/-- What it hashes for `M`. -/
def hashedForM (c : AuthSocket) (A : ℕ) : Bytes :=
  asByteArray (setBinary (groupDigest C)) ++ C.sha1 c.login ++ asByteArray c.s ++ asByteArray A ++
    asByteArray c.B ++ asByteArray (c.sessionKey C A)

/-- The bytes that were sent: the client's `A` and the `B` of the challenge. -/
def sentForU (c : AuthSocket) (a : Bytes) : Bytes := a ++ asByteArrayMin c.B 32

/-- The session key of a side that hashes these, in its forty bytes. -/
def sentKey (c : AuthSocket) (a : Bytes) : Bytes :=
  let u := setBinary (C.sha1 (c.sentForU a))
  let S := C.modExp (setBinary a * C.modExp c.v u srpN) c.b srpN
  let t := (asByteArrayMin S 32).take 32
  interleave (C.sha1 (evenBytes t)) (C.sha1 (evenBytes t.tail))

/-- The fields of `M` as they were sent, with this key. -/
def sentForM (c : AuthSocket) (a : Bytes) : Bytes :=
  groupDigest C ++ C.sha1 c.login ++ asByteArrayMin c.s 32 ++ a ++ asByteArrayMin c.B 32 ++
    c.sentKey C a

variable {C} {c : AuthSocket} {a : Bytes}

theorem serverM_eq (A : ℕ) : c.serverM C A = C.sha1 (c.hashedForM C A) := rfl

theorem length_groupDigest : (groupDigest C).length = 20 := by
  unfold groupDigest
  rw [List.length_zipWith, C.sha1_length, C.sha1_length]
  rfl

theorem length_interleave (left right : Bytes) :
    (interleave left right).length = 2 * min left.length right.length := by
  induction left, right using interleave.induct with
  | case1 left lefts right rights ih =>
      unfold interleave
      simp only [List.length_cons, ih]
      omega
  | case2 left right h =>
      unfold interleave
      split
      · next left' lefts right' rights => exact absurd rfl (h left' lefts right' rights rfl)
      · cases left with
        | nil => simp
        | cons l ls =>
            cases right with
            | nil => simp
            | cons r rs => exact absurd rfl (h l ls r rs rfl)

theorem length_sentKey : (c.sentKey C a).length = 40 := by
  unfold sentKey
  rw [length_interleave, C.sha1_length, C.sha1_length]
  rfl

/-- The server's key is that of a side that hashes what was sent, if it hashes this for `u`. -/
theorem sessionKey_eq (hu : c.hashedForU (setBinary a) = c.sentForU a) :
    c.sessionKey C (setBinary a) = setBinary (c.sentKey C a) := by
  unfold sessionKey sentKey
  unfold hashedForU at hu
  rw [hu]

/-- All numbers need all their bytes. -/
structure AllFull (C : Crypto) (c : AuthSocket) (a : Bytes) : Prop where
  clientKey : Full (setBinary a) 32
  serverKey : Full c.B 32
  salt : Full c.s 32
  group : Full (setBinary (groupDigest C)) 20
  key : Full (setBinary (c.sentKey C a)) 40

/-- The bounds of the numbers. -/
structure Fits (c : AuthSocket) (a : Bytes) : Prop where
  clientKey : a.length = 32
  serverKey : c.B < 256 ^ 32
  salt : c.s < 256 ^ 32

theorem Fits.setBinary_lt (h : c.Fits a) : setBinary a < 256 ^ 32 := by
  have hlt := Realmd.setBinary_lt a
  rwa [h.clientKey] at hlt

/-- For `u` the server hashes what was sent exactly when `A` and `B` need all their bytes. -/
theorem hashedForU_iff (h : c.Fits a) :
    c.hashedForU (setBinary a) = c.sentForU a ↔ Full (setBinary a) 32 ∧ Full c.B 32 := by
  rw [full_iff h.setBinary_lt (by decide), full_iff h.serverKey (by decide)]
  constructor
  · intro hsame
    have hlength := congrArg List.length hsame
    unfold hashedForU sentForU at hlength
    rw [List.length_append, List.length_append, length_asByteArrayMin h.serverKey,
      h.clientKey] at hlength
    have hA := length_asByteArray_le h.setBinary_lt
    have hB := length_asByteArray_le h.serverKey
    omega
  · rintro ⟨hA, hB⟩
    have hpad := (asByteArrayMin_setBinary a).2
    rw [h.clientKey, asByteArrayMin_of_full h.setBinary_lt (by decide)
      ((full_iff h.setBinary_lt (by decide)).mpr hA)] at hpad
    unfold hashedForU sentForU
    rw [hpad, asByteArrayMin_of_full h.serverKey (by decide)
      ((full_iff h.serverKey (by decide)).mpr hB)]

/-- A number that was made of bytes and needs all of them is these bytes. -/
theorem asByteArray_setBinary {bytes : Bytes} (hpos : 0 < bytes.length)
    (h : Full (setBinary bytes) bytes.length) : asByteArray (setBinary bytes) = bytes := by
  have hpad := (asByteArrayMin_setBinary bytes).2
  rwa [asByteArrayMin_of_full (Realmd.setBinary_lt bytes) hpos h] at hpad

/-- The server hashes what was sent exactly when all numbers need all their bytes. -/
theorem hashed_iff (h : c.Fits a) :
    (c.hashedForU (setBinary a) = c.sentForU a ∧ c.hashedForM C (setBinary a) = c.sentForM C a) ↔
      AllFull C c a := by
  have hgroup : setBinary (groupDigest C) < 256 ^ 20 := by
    have hlt := Realmd.setBinary_lt (groupDigest C)
    rwa [length_groupDigest] at hlt
  have hkey : setBinary (c.sentKey C a) < 256 ^ 40 := by
    have hlt := Realmd.setBinary_lt (c.sentKey C a)
    rwa [length_sentKey] at hlt
  constructor
  · rintro ⟨hu, hm⟩
    obtain ⟨hA, hB⟩ := (hashedForU_iff h).mp hu
    have hlength := congrArg List.length hm
    unfold hashedForM sentForM at hlength
    rw [sessionKey_eq hu] at hlength
    simp only [List.length_append, length_groupDigest, length_sentKey, C.sha1_length, h.clientKey,
      length_asByteArrayMin h.serverKey, length_asByteArrayMin h.salt] at hlength
    have hleA := length_asByteArray_le h.setBinary_lt
    have hleB := length_asByteArray_le h.serverKey
    have hleS := length_asByteArray_le h.salt
    have hleG := length_asByteArray_le hgroup
    have hleK := length_asByteArray_le hkey
    exact ⟨hA, hB, (full_iff h.salt (by decide)).mpr (by omega),
      (full_iff hgroup (by decide)).mpr (by omega), (full_iff hkey (by decide)).mpr (by omega)⟩
  · intro hfull
    have hu := (hashedForU_iff h).mpr ⟨hfull.clientKey, hfull.serverKey⟩
    refine ⟨hu, ?_⟩
    have hA : asByteArray (setBinary a) = a := by
      refine asByteArray_setBinary (by rw [h.clientKey]; decide) ?_
      rw [h.clientKey]
      exact hfull.clientKey
    have hG : asByteArray (setBinary (groupDigest C)) = groupDigest C := by
      refine asByteArray_setBinary (by rw [length_groupDigest]; decide) ?_
      rw [length_groupDigest]
      exact hfull.group
    have hK : asByteArray (setBinary (c.sentKey C a)) = c.sentKey C a := by
      refine asByteArray_setBinary (by rw [length_sentKey]; decide) ?_
      rw [length_sentKey]
      exact hfull.key
    unfold hashedForM sentForM
    rw [sessionKey_eq hu, hA, hG, hK, asByteArrayMin_of_full h.salt (by decide) hfull.salt,
      asByteArrayMin_of_full h.serverKey (by decide) hfull.serverKey]

/-- `u` and `M` are the digests of what the two sides have sent each other, and `M1` is compared with this
over twenty bytes, exactly when all numbers need all their bytes and the digest does so, or has zeros behind
it in memory. -/
theorem proof_uses_sent_iff (C : Crypto) (env : AuthEnv) (c : AuthSocket) (lp : LogonProof)
    (ha : lp.a.length = 32) (hs : c.s < 256 ^ 32)
    (hB : c.B = (c.v * 3 + C.modExp srpG c.b srpN) % srpN) :
    (c.hashedForU (setBinary lp.a) = c.sentForU lp.a ∧
      c.hashedForM C (setBinary lp.a) = c.sentForM C lp.a ∧
      c.serverM C (setBinary lp.a) = C.sha1 (c.hashedForM C (setBinary lp.a)) ∧
      ∀ m1 : Bytes, m1.length = 20 →
        (c.comparedM C env lp = m1 ↔ C.sha1 (c.sentForM C lp.a) = m1)) ↔
    AllFull C c lp.a ∧ ZerosBehind (setBinary (C.sha1 (c.sentForM C lp.a))) 20 env.behindM := by
  have hfits : c.Fits lp.a := by
    refine ⟨ha, ?_, hs⟩
    rw [hB]
    exact (Nat.mod_lt _ (by decide)).trans (by decide)
  have hmemory := bytesInMemory_setBinary_iff (C.sha1 (c.sentForM C lp.a)) env.behindM
  rw [C.sha1_length] at hmemory
  rw [← hmemory, ← hashed_iff hfits]
  -- once the server hashes what was sent, its digest is what is compared
  have hcompared : c.hashedForM C (setBinary lp.a) = c.sentForM C lp.a →
      c.comparedM C env lp =
        bytesInMemory (setBinary (C.sha1 (c.sentForM C lp.a))) 20 env.behindM := by
    intro hm
    unfold comparedM
    rw [serverM_eq, hm]
  constructor
  · rintro ⟨hu, hm, -, hequal⟩
    refine ⟨⟨hu, hm⟩, ?_⟩
    rw [← hcompared hm]
    exact (hequal _ (C.sha1_length _)).mpr rfl
  · rintro ⟨⟨hu, hm⟩, hsame⟩
    refine ⟨hu, hm, rfl, fun m1 _ => ?_⟩
    rw [hcompared hm, hsame]

section Examples

/-- A power modulo `n`, by squaring. -/
def powMod (n : ℕ) : ℕ → ℕ → ℕ → ℕ
  | 0, _, _ => 1 % n
  | bits + 1, g, e =>
      let rest := powMod n bits (g * g % n) (e / 2)
      if e % 2 = 1 then g * rest % n else rest

/-- A hash that tells the length. -/
def lengthHash : Crypto where
  sha1 bytes := List.replicate 20 (UInt8.ofNat bytes.length)
  sha1_length _ := List.length_replicate
  modExp g e n := powMod n 256 g e
  generateToken _ _ := 0

/-- A connection after its challenge, with this verifier and a `b` of nineteen bytes. -/
def challengedWith (v : ℕ) : AuthSocket :=
  let b := 256 ^ 18 + 3
  { new [] with v := v, b := b, B := (v * 3 + lengthHash.modExp srpG b srpN) % srpN, s := 256 ^ 31 }

/-- A proof with this `A`. -/
def proofOf (a : Bytes) : LogonProof := ⟨a, List.replicate 20 0, List.replicate 20 0, 0, 0⟩

theorem proof_uses_sent_iff_full :
    let c := challengedWith (256 ^ 31)
    let lp := proofOf (List.replicate 32 1)
    c.hashedForU (setBinary lp.a) = c.sentForU lp.a ∧
      c.hashedForM lengthHash (setBinary lp.a) = c.sentForM lengthHash lp.a ∧
      c.serverM lengthHash (setBinary lp.a) =
        lengthHash.sha1 (c.hashedForM lengthHash (setBinary lp.a)) ∧
      ∀ m1 : Bytes, m1.length = 20 →
        (c.comparedM lengthHash logonEnv lp = m1 ↔ lengthHash.sha1 (c.sentForM lengthHash lp.a) = m1) := by
  refine (proof_uses_sent_iff lengthHash logonEnv (challengedWith (256 ^ 31))
    (proofOf (List.replicate 32 1)) (by decide) (by decide +kernel) (by decide +kernel)).mpr
    ⟨⟨?_, ?_, ?_, ?_, ?_⟩, ?_⟩
  · decide +kernel
  · decide +kernel
  · decide +kernel
  · decide +kernel
  · decide +kernel
  · unfold ZerosBehind
    decide +kernel

/-- The server's `M` is not that of the fields that were sent when the high byte of `A` is zero. -/
theorem proof_not_of_sent :
    (proofOf (List.replicate 31 1 ++ [0])).a.length = 32 ∧
      setBinary (proofOf (List.replicate 31 1 ++ [0])).a % srpN ≠ 0 ∧
      (challengedWith (256 ^ 31)).B = ((challengedWith (256 ^ 31)).v * 3 +
        lengthHash.modExp srpG (challengedWith (256 ^ 31)).b srpN) % srpN ∧
      (challengedWith (256 ^ 31)).serverM lengthHash
          (setBinary (proofOf (List.replicate 31 1 ++ [0])).a) ≠
        lengthHash.sha1 ((challengedWith (256 ^ 31)).sentForM lengthHash
          (proofOf (List.replicate 31 1 ++ [0])).a) := by
  refine ⟨by decide, by decide +kernel, by decide +kernel, by decide +kernel⟩

end Examples

end AuthSocket

end TwowCore.Realmd
