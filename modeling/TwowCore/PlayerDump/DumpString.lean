import Mathlib

/-!
# The lines of a player dump

`CreateDumpString` writes a row as a statement; `findnth` looks for a field in it, `getnth` reads it and
`changenth` rewrites it. The loops have fuel, and no result when it runs out. A string is a list of characters,
a position is a number of characters before it.
-/

namespace TwowCore.PlayerDump

/-- A string. -/
abbrev Text := List Char

/-- `std::string::find` of a string; its first place. -/
def findText (pattern : Text) : Text → Option ℕ
  | [] => if pattern = [] then some 0 else none
  | c :: rest =>
      if pattern.isPrefixOf (c :: rest) then some 0
      else (findText pattern rest).map (· + 1)

/-- `find('\'', s)`. -/
def findQuote (str : Text) (s : ℕ) : Option ℕ :=
  ((str.drop s).idxOf? '\'').map (s + ·)

/-- The character before a position is a backslash. -/
def afterBackslash (str : Text) (e : ℕ) : Bool := str[e - 1]? = some '\\'

/-- The first loop of `findnth`; `s` stays. -/
def firstEnd (str : Text) (s : ℕ) : ℕ → Option (Option (ℕ × ℕ))
  | 0 => none
  | fuel + 1 =>
      match findQuote str s with
      | none => some none
      | some e => if afterBackslash str e then firstEnd str s fuel else some (some (s, e))

/-- The inner loop of `findnth` for the fields that follow. -/
def nextEnd (str : Text) : ℕ → ℕ → Option (Option (ℕ × ℕ))
  | 0, _ => none
  | fuel + 1, e =>
      match findQuote str (e + 4) with
      | none => some none
      -- `s = e + 4` is set anew in each turn
      | some e' => if afterBackslash str e' then nextEnd str fuel e' else some (some (e + 4, e'))

/-- The outer loop, with so many turns to go. -/
def nextFields (str : Text) (fuel : ℕ) : ℕ → ℕ × ℕ → Option (Option (ℕ × ℕ))
  | 0, found => some (some found)
  | turns + 1, found =>
      match nextEnd str fuel found.2 with
      | some (some found') => nextFields str fuel turns found'
      | other => other

/-- `VALUES ('`. -/
def valuesQuote : Text := "VALUES ('".toList

/-- Where `findnth` begins: `npos + 9` is 8. -/
def startOf (str : Text) : ℕ :=
  match findText valuesQuote str with
  | some s => s + 9
  | none => 8

/-- `findnth`: the beginning and the end of a field, if it is found. -/
def findnth (fuel : ℕ) (str : Text) (n : ℕ) : Option (Option (ℕ × ℕ)) :=
  match firstEnd str (startOf str) fuel with
  | some (some found) => nextFields str fuel (n - 1) found
  | other => other

/-- `getnth`. -/
def getnth (fuel : ℕ) (str : Text) (n : ℕ) : Option Text :=
  (findnth fuel str n).map fun
    | none => []
    | some (s, e) => (str.drop s).take (e - s)

/-- `changenth`: whether the field is found, and the string after it. -/
def changenth (fuel : ℕ) (str : Text) (n : ℕ) (value : Text) (insert nonzero : Bool) :
    Option (Bool × Text) :=
  (findnth fuel str n).map fun
    | none => (false, str)
    | some (s, e) =>
        if nonzero ∧ (str.drop s).take (e - s) = ['0'] then (true, str)
        else if insert then (true, str.take s ++ value ++ str.drop s)
        else (true, str.take s ++ value ++ str.drop e)

/-- A field of a row, as it is written: its escaped text, or `NULL`. -/
def fieldText : Option Text → Text
  | none => "NULL".toList
  | some text => '\'' :: text ++ ['\'']

/-- The fields; what stands between them is written before each but the first. -/
def fieldsText : List (Option Text) → Text
  | [] => []
  | field :: rest => fieldText field ++ rest.flatMap fun next => ", ".toList ++ fieldText next

/-- What is written before the fields. -/
def head (table : Text) : Text := "INSERT INTO `".toList ++ table ++ "` VALUES (".toList

/-- A statement for a row of escaped texts. -/
def dumpRow (table : Text) (row : List (Option Text)) : Text :=
  head table ++ fieldsText row ++ ");".toList

/-- `CreateDumpString`, with `escape_string`. -/
def createDumpString (escape : Text → Text) (table : Text) (row : List (Option Text)) : Text :=
  dumpRow table (row.map (Option.map escape))

/-- One call of `changenth`. -/
structure Edit where
  n : ℕ
  value : Text
  insert : Bool
  nonzero : Bool
  deriving DecidableEq, Repr

/-- Calls of `changenth` one after the other. -/
def applyEdits (fuel : ℕ) : Text → List Edit → Option Text
  | str, [] => some str
  | str, edit :: rest => do
      let changed ← changenth fuel str edit.n edit.value edit.insert edit.nonzero
      applyEdits fuel changed.2 rest

end TwowCore.PlayerDump
