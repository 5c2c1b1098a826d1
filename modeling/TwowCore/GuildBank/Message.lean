import Mathlib.Data.UInt

/-!
# Addon messages

A guild bank request is one text, cut at its colons by `Tokenizer` and read with the C library's
`atoi` and `strtoul`. Texts are lists of characters; a zero character ends one, as it does for
the source's `c_str`.
-/

namespace TwowCore

/-- The text up to its first zero character. -/
def cStr (text : List Char) : List Char := text.takeWhile (· ≠ '\x00')

/-- `Tokenizer`, with the token read so far: every separator ends a token, and what follows the
last one is a token if it is not empty. -/
def tokenizeFrom (sep : Char) : List Char → List Char → List (List Char)
  | token, [] => if token = [] then [] else [token]
  | token, c :: rest =>
      if c = sep then token :: tokenizeFrom sep [] rest
      else tokenizeFrom sep (token ++ [c]) rest

/-- `Tokenizer(src, sep)`. -/
def tokenizer (src : List Char) (sep : Char) : List (List Char) :=
  tokenizeFrom sep [] (cStr src)

/-- `isspace`. -/
def isSpace (c : Char) : Bool :=
  c = ' ' || c = '\t' || c = '\n' || c = '\x0b' || c = '\x0c' || c = '\r'

/-- What `strtol` and `strtoul` read: an optional sign after leading blanks, and the digits that
follow. -/
def scanNumber (text : List Char) : Bool × List Char :=
  match text.dropWhile isSpace with
  | '-' :: rest => (true, rest.takeWhile Char.isDigit)
  | '+' :: rest => (false, rest.takeWhile Char.isDigit)
  | rest => (false, rest.takeWhile Char.isDigit)

/-- The value of a run of decimal digits. -/
def decimal (digits : List Char) : ℕ :=
  digits.foldl (fun value c => 10 * value + (c.toNat - '0'.toNat)) 0

/-- `atoi`: the 64-bit `strtol`, which stops at its own bounds, cut to an `int`. -/
def atoi (text : List Char) : Int32 :=
  let (negative, digits) := scanNumber text
  let value : ℤ := if negative then -(decimal digits : ℤ) else decimal digits
  Int32.ofInt (max (-2 ^ 63) (min (2 ^ 63 - 1) value))

/-- `atoi` stored in a `uint8`. -/
def atoiByte (text : List Char) : UInt8 := (atoi text).toUInt32.toUInt8

/-- `atoi` stored in a `uint32`. -/
def atoiWord (text : List Char) : UInt32 := (atoi text).toUInt32

/-- `strtoul` on 64 bits; no digits, no value. A minus sign negates modulo 2^64. -/
def strtoul (text : List Char) : Option ℕ :=
  let (negative, digits) := scanNumber text
  if digits = [] then none
  else if 2 ^ 64 ≤ decimal digits then some (2 ^ 64 - 1)
  else if negative then some ((2 ^ 64 - decimal digits) % 2 ^ 64)
  else some (decimal digits)

/-- An amount of money in a message: a number that fits a `uint32`. -/
def parseMoney (text : List Char) : Option UInt32 :=
  match strtoul text with
  | some parsed => if 2 ^ 32 ≤ parsed then none else some (UInt32.ofNat parsed)
  | none => none

/-- The word stands somewhere in the text. -/
def hasWord (word : List Char) : List Char → Bool
  | [] => word.isEmpty
  | c :: rest => word.isPrefixOf (c :: rest) || hasWord word rest

/-- `strstr` found the word. -/
def strstr (text : List Char) (word : String) : Bool :=
  hasWord word.toList (cStr text)

example : tokenizer "SplitItem:1:2::-7".toList ':' =
    ["SplitItem".toList, "1".toList, "2".toList, [], "-7".toList] := by decide

example : atoiByte "-7".toList = 249 := by decide

end TwowCore
