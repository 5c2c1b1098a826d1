import TwowCore.Realmd.SessionProof

/-!
# How exact the check of the PIN is

The digits of the grid are always permuted. The hash of the client is right when it is the digest of the salts
and of the places of all six digits; the server hashes the token without the zeros before it and the numbers
without the zeros they begin with, and compares twenty characters of two decimal strings.
-/

namespace TwowCore.Realmd

section Grid

/-- The digits are taken out of the grid one after the other. -/
theorem remapGrid_perm (left seed : ℕ) (grid : List ℕ) (h : grid.length = left) :
    (AuthSocket.remapGrid left seed grid).Perm grid := by
  induction left generalizing seed grid with
  | zero =>
      rw [List.length_eq_zero_iff.mp h]
      exact List.Perm.nil
  | succ left ih =>
      have hlt : seed % (left + 1) < grid.length := by
        rw [h]
        exact Nat.mod_lt _ left.succ_pos
      have hrest := ih (seed / (left + 1)) (grid.eraseIdx (seed % (left + 1))) (by
        rw [List.length_eraseIdx_of_lt hlt, h, Nat.add_sub_cancel])
      unfold AuthSocket.remapGrid
      rw [List.getD_eq_getElem _ _ hlt]
      exact (hrest.cons _).trans (List.getElem_cons_eraseIdx_perm hlt)

end Grid

section Decimal

theorem ofDigits_asDecStr (n : ℕ) : Nat.ofDigits 10 (asDecStr n).reverse = n := by
  unfold asDecStr
  split_ifs with hzero
  · rw [hzero]
    rfl
  · rw [List.reverse_reverse, Nat.ofDigits_digits]

theorem asDecStr_injective {m n : ℕ} (h : asDecStr m = asDecStr n) : m = n := by
  rw [← ofDigits_asDecStr m, h, ofDigits_asDecStr]

theorem lt_ten_of_mem_asDecStr {n d : ℕ} (h : d ∈ asDecStr n) : d < 10 := by
  unfold asDecStr at h
  split_ifs at h with hzero
  · rw [List.mem_singleton.mp h]
    decide
  · exact Nat.digits_lt_base (by decide) (List.mem_reverse.mp h)

/-- A number with more digits has a longer string. -/
theorem lt_length_asDecStr_iff {k : ℕ} (hk : 0 < k) (n : ℕ) : k < (asDecStr n).length ↔ 10 ^ k ≤ n := by
  unfold asDecStr
  split_ifs with hzero
  · rw [hzero, List.length_singleton]
    have hpos := Nat.pow_pos (n := k) (show 0 < 10 by decide)
    omega
  · rw [List.length_reverse]
    exact Nat.lt_digits_length_iff (by decide) n

/-- Of a long string only digits are seen. -/
theorem decStrInMemory_of_le {n : ℕ} (h : 10 ^ 19 ≤ n) (behind : List ℕ) :
    decStrInMemory n 20 behind = (asDecStr n).take 20 := by
  have hlength := (lt_length_asDecStr_iff (by decide) n).mpr h
  unfold decStrInMemory
  exact List.take_append_of_le_length hlength

/-- The last digit of a very long string is not seen. -/
theorem take_asDecStr_add {q r : ℕ} (hq : 10 ^ 19 ≤ q) (hr : r < 10) :
    (asDecStr (r + 10 * q)).take 20 = (asDecStr q).take 20 := by
  have hlength := (lt_length_asDecStr_iff (by decide) q).mpr hq
  have hqpos : q ≠ 0 := by
    have hpos : 0 < 10 ^ 19 := by decide
    omega
  have hsplit : asDecStr (r + 10 * q) = asDecStr q ++ [r] := by
    unfold asDecStr
    rw [if_neg (by omega), if_neg hqpos, Nat.digits_add 10 (by decide) r q hr (Or.inr hqpos),
      List.reverse_cons]
  rw [hsplit, List.take_append_of_le_length hlength]

/-- Behind two short strings in memory there is the same. -/
def SameBehind (n : ℕ) (behind behind' : List ℕ) : Prop :=
  behind.take (19 - (asDecStr n).length) = behind'.take (19 - (asDecStr n).length)

/-- A short string is seen with the zero that ends it. -/
theorem decStrInMemory_of_lt {n : ℕ} (h : n < 10 ^ 19) (behind : List ℕ) :
    decStrInMemory n 20 behind = asDecStr n ++ 10 :: behind.take (19 - (asDecStr n).length) := by
  have hlength : (asDecStr n).length ≤ 19 := by
    rw [← Nat.not_lt, lt_length_asDecStr_iff (by decide)]
    omega
  unfold decStrInMemory
  rw [List.take_append, List.take_of_length_le (by omega)]
  have hone : 20 - (asDecStr n).length = 19 - (asDecStr n).length + 1 := by omega
  rw [hone, List.take_succ_cons]

theorem takeWhile_asDecStr (n : ℕ) (rest : List ℕ) :
    (asDecStr n ++ 10 :: rest).takeWhile (fun d => decide (d ≠ 10)) = asDecStr n := by
  rw [List.takeWhile_append_of_pos fun d hd => ?_]
  · rw [List.takeWhile_cons_of_neg (by decide), List.append_nil]
  · have hlt := lt_ten_of_mem_asDecStr hd
    exact decide_eq_true (by omega)

/-- A short string is seen only of the same number, with the same behind it. -/
theorem decStrInMemory_eq_iff {m n : ℕ} (hm : m < 10 ^ 19) (behind behind' : List ℕ) :
    decStrInMemory m 20 behind = decStrInMemory n 20 behind' ↔ n = m ∧ SameBehind m behind behind' := by
  rw [decStrInMemory_of_lt hm]
  constructor
  · intro hsame
    have hstr := congrArg (List.takeWhile fun d => decide (d ≠ 10)) hsame
    rw [takeWhile_asDecStr] at hstr
    by_cases hn : 10 ^ 19 ≤ n
    · -- the other string is seen without its end
      rw [decStrInMemory_of_le hn] at hsame
      have hmem : 10 ∈ (asDecStr n).take 20 := by
        rw [← hsame]
        exact List.mem_append_right _ List.mem_cons_self
      exact absurd (lt_ten_of_mem_asDecStr (List.mem_of_mem_take hmem)) (Nat.lt_irrefl 10)
    · rw [decStrInMemory_of_lt (Nat.lt_of_not_le hn)] at hsame hstr
      rw [takeWhile_asDecStr] at hstr
      have hnm := asDecStr_injective hstr
      subst hnm
      exact ⟨rfl, List.cons_injective (List.append_cancel_left hsame)⟩
  · rintro ⟨rfl, hbehind⟩
    rw [decStrInMemory_of_lt hm, hbehind]

end Decimal

/-- Bytes of one length are told apart by their number. -/
theorem setBinary_injective {left right : Bytes} (hlength : left.length = right.length)
    (h : setBinary left = setBinary right) : left = right := by
  rw [← (asByteArrayMin_setBinary left).2, ← (asByteArrayMin_setBinary right).2, h, hlength]

/-- Every number that is not too large is one of so many bytes. -/
theorem exists_setBinary {n width : ℕ} (h : n < 256 ^ width) :
    ∃ bytes : Bytes, bytes.length = width ∧ setBinary bytes = n := by
  refine ⟨asByteArrayMin n width, length_asByteArrayMin h, ?_⟩
  have hid : ∀ d ∈ Nat.digits 256 n, (UInt8.ofNat d).toNat = d := fun d hd =>
    UInt8.toNat_ofNat_of_lt' (Nat.digits_lt_base (by decide) hd)
  have hmap : (asByteArray n).map UInt8.toNat = Nat.digits 256 n := by
    unfold asByteArray
    rw [List.map_map]
    exact (List.map_congr_left hid).trans (List.map_id _)
  unfold setBinary asByteArrayMin
  rw [List.map_append, hmap, List.map_replicate, Nat.ofDigits_append]
  have hzero : Nat.ofDigits 256 (List.replicate (width - (asByteArray n).length)
      (UInt8.toNat 0)) = 0 := by
    induction width - (asByteArray n).length with
    | zero => rfl
    | succ k ih =>
        rw [List.replicate_succ, Nat.ofDigits_cons, ih]
        rfl
  rw [hzero, Nat.mul_zero, Nat.add_zero, Nat.ofDigits_digits]

namespace AuthSocket

variable (C : Crypto)

/-- The digits of a token as it is shown: six of them. -/
def shownDigits (token : ℕ) : List ℕ :=
  [token / 100000 % 10, token / 10000 % 10, token / 1000 % 10, token / 100 % 10, token / 10 % 10,
    token % 10]

/-- The characters a client sends for digits: their places in its grid. -/
def pinBytes (c : AuthSocket) (digits : List ℕ) : Bytes :=
  digits.map fun digit =>
    UInt8.ofNat ((remapGrid 10 c.gridSeed.toNat (List.range 10)).idxOf digit + 0x30)

/-- The hash of a client that types the token it is shown. -/
def clientPinHash (c : AuthSocket) (salt : Bytes) (token : ℕ) : Bytes :=
  C.sha1 (salt ++ C.sha1 (asByteArrayMin c.serverSecuritySalt 16 ++ c.pinBytes (shownDigits token)))

/-- The digest that the server computes. -/
def serverPinHash (c : AuthSocket) (salt : Bytes) (token : ℕ) : Bytes :=
  C.sha1 (salt ++ asByteArray (setBinary (C.sha1 (asByteArray c.serverSecuritySalt ++
    c.pinBytes (Nat.digits 10 token).reverse))))

variable {C} {env : AuthEnv} {c : AuthSocket} {salt : Bytes}

/-- A token is accepted from four digits on, if the decimal strings agree. -/
theorem verifyPinData_iff {token : UInt32} (htoken : token.toNat < 1000000) (hash : Bytes) :
    c.verifyPinData C env token ⟨salt, hash⟩ = true ↔ 1000 ≤ token.toNat ∧
      decStrInMemory (setBinary (c.serverPinHash C salt token.toNat)) 20 env.behindHash =
        decStrInMemory (setBinary hash) 20 env.behindClientHash := by
  have hfew : 3 < (Nat.digits 10 token.toNat).length ↔ 1000 ≤ token.toNat :=
    Nat.lt_digits_length_iff (by decide) _
  have hmany : (Nat.digits 10 token.toNat).length ≤ 6 :=
    (Nat.digits_length_le_iff (by decide) _).mpr htoken
  unfold verifyPinData
  dsimp only
  rw [List.length_reverse]
  split_ifs with hlength
  · exact iff_of_false nofun fun h => by omega
  · rw [beq_iff_eq]
    exact ⟨fun h => ⟨by omega, h⟩, fun h => h.2⟩

/-- Two hashes of twenty bytes are accepted when the number of the digest has twenty digits. -/
theorem exists_other_accepted {n : ℕ} (hn : n < 256 ^ 20) (hlong : 10 ^ 19 ≤ n) :
    ∃ other, other ≠ n ∧ other < 256 ^ 20 ∧ ∀ behind behind',
      decStrInMemory n 20 behind = decStrInMemory other 20 behind' := by
  by_cases hvery : 10 ^ 20 ≤ n
  · -- the last digit is changed
    obtain ⟨q, r, hr, rfl⟩ : ∃ q r, r < 10 ∧ n = r + 10 * q :=
      ⟨n / 10, n % 10, Nat.mod_lt _ (by decide), (Nat.mod_add_div n 10).symm⟩
    obtain ⟨r', hr', hne, hfits⟩ : ∃ r', r' < 10 ∧ r' ≠ r ∧ r' + 10 * q < 256 ^ 20 := by
      by_cases hzero : r = 0
      · exact ⟨1, by decide, by omega, by norm_num at hn ⊢; omega⟩
      · exact ⟨0, by decide, fun h => hzero h.symm, by omega⟩
    have hq : 10 ^ 19 ≤ q := by
      norm_num at hvery ⊢
      omega
    refine ⟨r' + 10 * q, by omega, hfits, fun behind behind' => ?_⟩
    rw [decStrInMemory_of_le hlong, decStrInMemory_of_le (by omega), take_asDecStr_add hq hr,
      take_asDecStr_add hq hr']
  · -- a digit is added
    refine ⟨0 + 10 * n, ?_, ?_, fun behind behind' => ?_⟩
    · have hpos : 0 < 10 ^ 19 := by decide
      omega
    · norm_num at hvery ⊢
      omega
    · rw [decStrInMemory_of_le hlong, decStrInMemory_of_le (by omega),
        take_asDecStr_add hlong (by decide)]

/-- The server hashes what the client does when the token has six digits that count, and the salt and the
inner digest all their bytes. -/
theorem serverPinHash_eq {token : ℕ} (hsix : 100000 ≤ token) (htoken : token < 1000000)
    (hsalt : c.serverSecuritySalt < 256 ^ 16) (hfull : Full c.serverSecuritySalt 16)
    (hinner : Full (setBinary (C.sha1 (asByteArrayMin c.serverSecuritySalt 16 ++
      c.pinBytes (shownDigits token)))) 20) :
    c.serverPinHash C salt token = c.clientPinHash C salt token := by
  have hdigits : (Nat.digits 10 token).reverse = shownDigits token := by
    have hstep : ∀ n, 0 < n → Nat.digits 10 n = n % 10 :: Nat.digits 10 (n / 10) := fun n hn =>
      Nat.digits_def' (by decide) hn
    rw [hstep token (by omega), hstep (token / 10) (by omega), hstep (token / 10 / 10) (by omega),
      hstep (token / 10 / 10 / 10) (by omega), hstep (token / 10 / 10 / 10 / 10) (by omega),
      hstep (token / 10 / 10 / 10 / 10 / 10) (by omega),
      show token / 10 / 10 / 10 / 10 / 10 / 10 = 0 by omega, Nat.digits_zero]
    unfold shownDigits
    simp only [List.reverse_cons, List.reverse_nil, List.nil_append, List.cons_append,
      Nat.div_div_eq_div_mul]
  unfold serverPinHash clientPinHash
  rw [hdigits, ← asByteArrayMin_of_full hsalt (by decide) hfull]
  rw [asByteArray_setBinary (by rw [C.sha1_length]; decide) (by rw [C.sha1_length]; exact hinner)]

/-- The grid is a permutation, and exactly the hash of the token that is shown is accepted, when the token has
four digits that count, the hash is a number of at most nineteen digits with the same behind it in memory, and
what the server hashes has the same digest. -/
theorem verifyPinData_exact_iff (C : Crypto) (env : AuthEnv) (c : AuthSocket) (salt : Bytes)
    (token : UInt32) (htoken : token.toNat < 1000000) :
    ((remapGrid 10 c.gridSeed.toNat (List.range 10)).Perm (List.range 10) ∧
      ∀ hash : Bytes, hash.length = 20 →
        (c.verifyPinData C env token ⟨salt, hash⟩ = true ↔
          hash = c.clientPinHash C salt token.toNat)) ↔
    1000 ≤ token.toNat ∧ setBinary (c.clientPinHash C salt token.toNat) < 10 ^ 19 ∧
      SameBehind (setBinary (c.clientPinHash C salt token.toNat)) env.behindHash
        env.behindClientHash ∧
      c.serverPinHash C salt token.toNat = c.clientPinHash C salt token.toNat := by
  have hserver : (c.serverPinHash C salt token.toNat).length = 20 := C.sha1_length _
  have hclient : (c.clientPinHash C salt token.toNat).length = 20 := C.sha1_length _
  constructor
  · rintro ⟨-, hexact⟩
    obtain ⟨hfour, hseen⟩ := (verifyPinData_iff htoken _).mp ((hexact _ hclient).mpr rfl)
    have haccepted : ∀ {hash : Bytes}, hash.length = 20 →
        decStrInMemory (setBinary (c.serverPinHash C salt token.toNat)) 20 env.behindHash =
          decStrInMemory (setBinary hash) 20 env.behindClientHash →
        hash = c.clientPinHash C salt token.toNat := fun hlength hsame =>
      (hexact _ hlength).mp ((verifyPinData_iff htoken _).mpr ⟨hfour, hsame⟩)
    by_cases hlong : 10 ^ 19 ≤ setBinary (c.serverPinHash C salt token.toNat)
    · have hbound := setBinary_lt (c.serverPinHash C salt token.toNat)
      rw [hserver] at hbound
      obtain ⟨other, hne, hfits, hother⟩ := exists_other_accepted hbound hlong
      obtain ⟨bytes, hlength, hbytes⟩ := exists_setBinary hfits
      have hown := haccepted hserver (by
        rw [decStrInMemory_of_le hlong, decStrInMemory_of_le hlong])
      have hbad := haccepted hlength (by rw [hbytes]; exact hother _ _)
      rw [← hown] at hbad
      rw [← hbytes, hbad] at hne
      exact absurd rfl hne
    · have hshort := Nat.lt_of_not_le hlong
      obtain ⟨hnumber, hbehind⟩ := (decStrInMemory_eq_iff hshort _ _).mp hseen
      have hsame := setBinary_injective (hserver.trans hclient.symm) hnumber.symm
      rw [hsame] at hshort hbehind
      exact ⟨hfour, hshort, hbehind, hsame⟩
  · rintro ⟨hfour, hshort, hbehind, hsame⟩
    refine ⟨remapGrid_perm 10 _ _ List.length_range, fun hash hlength => ?_⟩
    rw [verifyPinData_iff htoken, hsame, decStrInMemory_eq_iff hshort]
    constructor
    · rintro ⟨-, hnumber, -⟩
      exact setBinary_injective (hlength.trans hclient.symm) hnumber
    · rintro rfl
      exact ⟨hfour, rfl, hbehind⟩

section Examples

/-- A connection that asks for a token. -/
def askedForPin : AuthSocket := { new [] with gridSeed := 7, serverSecuritySalt := 256 ^ 15 }

/-- With a digest that is small as a number just the right hash is taken. -/
theorem verifyPinData_exact_iff_small :
    let C := constHash (1 :: List.replicate 19 0) (by decide)
    (remapGrid 10 askedForPin.gridSeed.toNat (List.range 10)).Perm (List.range 10) ∧
      ∀ hash : Bytes, hash.length = 20 →
        (askedForPin.verifyPinData C logonEnv 123456 ⟨List.replicate 16 3, hash⟩ = true ↔
          hash = askedForPin.clientPinHash C (List.replicate 16 3) (123456 : UInt32).toNat) := by
  refine (verifyPinData_exact_iff (constHash (1 :: List.replicate 19 0) (by decide)) logonEnv
    askedForPin (List.replicate 16 3) 123456 (by decide)).mpr ⟨by decide, ?_, ?_, ?_⟩
  · decide +kernel
  · unfold SameBehind
    decide +kernel
  · decide +kernel

/-- A hash that adds the bytes up. -/
def sumHash : Crypto where
  sha1 bytes := List.replicate 20 (UInt8.ofNat (bytes.map UInt8.toNat).sum)
  sha1_length _ := List.length_replicate
  modExp _ _ _ := 1
  generateToken _ _ := 12345

/-- Who types the token 012345 that is shown is refused, and a hash that is not that of 123456 is accepted for
it. -/
theorem verifyPinData_not_exact :
    askedForPin.verifyPinData sumHash logonEnv 12345 ⟨List.replicate 16 3,
        askedForPin.clientPinHash sumHash (List.replicate 16 3) 12345⟩ = false ∧
      ∃ hash : Bytes, hash.length = 20 ∧
        hash ≠ askedForPin.clientPinHash sumHash (List.replicate 16 3) 123456 ∧
        askedForPin.verifyPinData sumHash logonEnv 123456 ⟨List.replicate 16 3, hash⟩ = true := by
  refine ⟨by decide +kernel,
    (askedForPin.clientPinHash sumHash (List.replicate 16 3) 123456).set 0 0, ?_, ?_, ?_⟩
  · decide +kernel
  · decide +kernel
  · decide +kernel

end Examples

end AuthSocket

end TwowCore.Realmd
