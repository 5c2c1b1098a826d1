import Mathlib.Data.List.Basic
import Mathlib.Tactic.SplitIfs

/-!
# Texts in statements

How MySQL escapes a text and reads the literal back, for texts of bytes as for texts of characters.
-/

namespace TwowCore.Lib

/-- Letters that the codes of ASCII tell apart. -/
class Ascii (α : Type) where
  ofCode : ℕ → α
  ofCode_inj : ∀ {m n}, m < 128 → n < 128 → ofCode m = ofCode n → m = n

open Ascii (ofCode)

/-- Bytes. -/
instance asciiUInt8 : Ascii UInt8 where
  ofCode := UInt8.ofNat
  ofCode_inj hm hn h := by
    have hmod := congrArg UInt8.toNat h
    rw [UInt8.toNat_ofNat', UInt8.toNat_ofNat', Nat.mod_eq_of_lt (by omega),
      Nat.mod_eq_of_lt (by omega)] at hmod
    exact hmod

/-- Characters. -/
instance asciiChar : Ascii Char where
  ofCode := Char.ofNat
  ofCode_inj hm hn h := by
    have hcode : ∀ {n}, n < 128 → (Char.ofNat n).toNat = n := by
      intro n hn
      have hvalid : n.isValidChar := Or.inl (by omega)
      rw [Char.ofNat, dif_pos hvalid]
      rfl
    rw [← hcode hm, h, hcode hn]

section Text

variable {α : Type} [DecidableEq α] [Ascii α]

/-- How a letter is escaped. -/
def escapeLetter (c : α) : List α :=
  if c = ofCode 0 then [ofCode 92, ofCode 48]
  else if c = ofCode 10 then [ofCode 92, ofCode 110]
  else if c = ofCode 13 then [ofCode 92, ofCode 114]
  else if c = ofCode 26 then [ofCode 92, ofCode 90]
  else if c = ofCode 34 ∨ c = ofCode 39 ∨ c = ofCode 92 then [ofCode 92, c]
  else [c]

/-- `escape_string` of the database. -/
def escapeText (text : List α) : List α := text.flatMap escapeLetter

/-- The letter that a letter after a backslash stands for. -/
def literalLetter (c : α) : α :=
  if c = ofCode 48 then ofCode 0 else if c = ofCode 110 then ofCode 10
  else if c = ofCode 114 then ofCode 13 else if c = ofCode 90 then ofCode 26 else c

/-- The text of a literal. -/
def literalText : List α → List α
  | [] => []
  | [c] => [c]
  | c :: d :: rest =>
      if c = ofCode 92 then literalLetter d :: literalText rest else c :: literalText (d :: rest)

omit [DecidableEq α] in
theorem ofCode_eq_iff {m n : ℕ} (hm : m < 128) (hn : n < 128) : (ofCode m : α) = ofCode n ↔ m = n :=
  ⟨Ascii.ofCode_inj hm hn, congrArg ofCode⟩

/-- An escaped letter is read back. -/
theorem literalText_escapeLetter (c : α) (rest : List α) :
    literalText (escapeLetter c ++ rest) = c :: literalText rest := by
  have hpair : ∀ d : α, literalText ([ofCode 92, d] ++ rest) = literalLetter d :: literalText rest :=
    fun d => if_pos rfl
  unfold escapeLetter
  split_ifs with h0 h1 h2 h3 h4
  · rw [hpair, h0, literalLetter, if_pos rfl]
  · rw [hpair, h1]
    simp (disch := decide) [literalLetter, ofCode_eq_iff]
  · rw [hpair, h2]
    simp (disch := decide) [literalLetter, ofCode_eq_iff]
  · rw [hpair, h3]
    simp (disch := decide) [literalLetter, ofCode_eq_iff]
  · rw [hpair]
    rcases h4 with rfl | rfl | rfl <;> simp (disch := decide) [literalLetter, ofCode_eq_iff]
  · have hplain : c ≠ ofCode 92 := fun h => h4 (Or.inr (Or.inr h))
    cases rest with
    | nil => rfl
    | cons d rest => exact if_neg hplain

/-- An escaped text is read back. -/
theorem literalText_escapeText (text : List α) : literalText (escapeText text) = text := by
  induction text with
  | nil => rfl
  | cons c rest ih =>
      rw [escapeText, List.flatMap_cons, literalText_escapeLetter]
      exact congrArg (c :: ·) ih

end Text

end TwowCore.Lib
