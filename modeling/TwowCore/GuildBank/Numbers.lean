import Mathlib
import TwowCore.GuildBank.Message

/-!
# Numbers in texts

What `std::to_string` and a stream write for a number, and that `strtoul` and `atoi` read it again; and what
`Tokenizer` makes of words that each have a separator behind them.
-/

namespace TwowCore

/-- Digits are neither blanks nor signs. -/
theorem scanNumber_digits {digits : List Char} (hdigits : ∀ c ∈ digits, c.isDigit = true) (hne : digits ≠ []) :
    scanNumber digits = (false, digits) := by
  cases digits with
  | nil => exact absurd rfl hne
  | cons c rest =>
      have hc := hdigits c List.mem_cons_self
      have hspace : ¬ isSpace c = true := by
        intro hspace
        simp only [isSpace, Bool.or_eq_true, decide_eq_true_eq] at hspace
        rcases hspace with ((((rfl | rfl) | rfl) | rfl) | rfl) | rfl <;> exact absurd hc (by decide)
      have hminus : c ≠ '-' := by
        rintro rfl
        exact absurd hc (by decide)
      have hplus : c ≠ '+' := by
        rintro rfl
        exact absurd hc (by decide)
      unfold scanNumber
      rw [List.dropWhile_cons_of_neg hspace]
      split
      · next heq => exact absurd (List.cons.inj heq).1 hminus
      · next heq => exact absurd (List.cons.inj heq).1 hplus
      · rw [List.takeWhile_eq_self_iff.mpr hdigits]

theorem scanNumber_minus {digits : List Char} (hdigits : ∀ c ∈ digits, c.isDigit = true) :
    scanNumber ('-' :: digits) = (true, digits) := by
  unfold scanNumber
  rw [List.dropWhile_cons_of_neg (by decide)]
  show (true, digits.takeWhile Char.isDigit) = _
  rw [List.takeWhile_eq_self_iff.mpr hdigits]

section Digits

variable (n : ℕ)

theorem isDigit_toDigits : ∀ c ∈ Nat.toDigits 10 n, c.isDigit = true := fun _ hc =>
  Nat.isDigit_of_mem_toDigits (by omega) (by omega) hc

theorem decimal_toDigits : decimal (Nat.toDigits 10 n) = n := Nat.ofDigitChars_ten_toDigits

end Digits

/-- `strtoul` reads what `std::to_string` has written. -/
theorem strtoul_toDigits {n : ℕ} (h : n < 2 ^ 64) : strtoul (Nat.toDigits 10 n) = some n := by
  unfold strtoul
  rw [scanNumber_digits (isDigit_toDigits n) Nat.toDigits_ne_nil]
  simp only
  rw [if_neg Nat.toDigits_ne_nil, decimal_toDigits, if_neg (by omega), if_neg Bool.false_ne_true]

/-- A `uint32` as it is written. -/
theorem toList_toString_uint32 (n : UInt32) : (toString n).toList = Nat.toDigits 10 n.toNat := by
  show (toString n.toNat).toList = _
  rw [Nat.toString_eq_repr, Nat.toList_repr]

/-- An `int32` as it is written. -/
theorem toList_toString_int32 (c : Int32) : (toString c).toList =
    if 0 ≤ c.toInt then Nat.toDigits 10 c.toInt.toNat else '-' :: Nat.toDigits 10 (-c.toInt).toNat := by
  show (toString c.toInt).toList = _
  rw [Int.toString_eq_repr, Int.repr_eq_if]
  split
  · rw [Nat.toList_repr]
  · rw [String.toList_append, Nat.toList_repr]
    rfl

/-- `atoi` reads an `int32` that a stream has written. -/
theorem atoi_toString (c : Int32) : atoi (toString c).toList = c := by
  have hlow := c.le_toInt
  have hhigh := c.toInt_lt
  have hvalue : Int32.ofInt (max (-2 ^ 63) (min (2 ^ 63 - 1) c.toInt)) = c := by
    rw [min_eq_right (by omega), max_eq_right (by omega), Int32.ofInt_toInt]
  rw [toList_toString_int32]
  by_cases hsign : 0 ≤ c.toInt
  · rw [if_pos hsign, atoi, scanNumber_digits (isDigit_toDigits _) Nat.toDigits_ne_nil]
    simp only
    rw [if_neg Bool.false_ne_true, decimal_toDigits, Int.toNat_of_nonneg hsign, hvalue]
  · rw [if_neg hsign, atoi, scanNumber_minus (isDigit_toDigits _)]
    simp only
    rw [if_pos trivial, decimal_toDigits, Int.toNat_of_nonneg (by omega), neg_neg, hvalue]

/-- What a number is written with. -/
theorem mem_toString_int32 {c : Int32} {d : Char} (h : d ∈ (toString c).toList) :
    d.isDigit = true ∨ d = '-' := by
  rw [toList_toString_int32] at h
  split at h
  · exact Or.inl (isDigit_toDigits _ d h)
  · rcases List.mem_cons.mp h with rfl | h
    · exact Or.inr rfl
    · exact Or.inl (isDigit_toDigits _ d h)

/-- A word and its separator are a token. -/
theorem tokenizeFrom_word {sep : Char} {word : List Char} (hword : sep ∉ word) (token rest : List Char) :
    tokenizeFrom sep token (word ++ sep :: rest) = (token ++ word) :: tokenizeFrom sep [] rest := by
  induction word generalizing token with
  | nil => rw [List.nil_append, List.append_nil, tokenizeFrom, if_pos rfl]
  | cons c word ih =>
      obtain ⟨hc, hword⟩ := not_or.mp (fun h => hword (List.mem_cons.mpr h))
      rw [List.cons_append, tokenizeFrom, if_neg (Ne.symm hc), ih hword, List.append_assoc]
      rfl

/-- Words with a separator behind each are the tokens. -/
theorem tokenizer_words {sep : Char} (hsep : sep ≠ '\x00') {words : List (List Char)}
    (hwords : ∀ word ∈ words, sep ∉ word ∧ '\x00' ∉ word) :
    tokenizer (words.flatMap fun word => word ++ [sep]) sep = words := by
  have hended : ∀ c ∈ words.flatMap fun word => word ++ [sep], c ≠ '\x00' := by
    intro c hc
    obtain ⟨word, hword, hc⟩ := List.mem_flatMap.mp hc
    rcases List.mem_append.mp hc with hc | hc
    · rintro rfl
      exact (hwords word hword).2 hc
    · rwa [List.mem_singleton.mp hc]
  unfold tokenizer cStr
  rw [List.takeWhile_eq_self_iff.mpr fun c hc => decide_eq_true (hended c hc)]
  clear hended
  induction words with
  | nil => rfl
  | cons word rest ih =>
      rw [List.flatMap_cons, List.append_assoc, List.singleton_append,
        tokenizeFrom_word (hwords word List.mem_cons_self).1, List.nil_append,
        ih fun w hw => hwords w (List.mem_cons_of_mem _ hw)]

end TwowCore
