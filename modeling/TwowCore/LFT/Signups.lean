import Mathlib
import TwowCore.GuildBank.Numbers

/-!
# The signups of a listing

`SerializeSignups` writes a list of signups as one string, with `;` between the signups and `|`
between their fields, and a backslash before either and before a backslash. `DeserializeSignups`
splits the string at `;` and each part at `|`. Both splits take the backslashes out, and the fields
have been escaped once.

`deserialize_serialize_iff` says which lists come back.
-/

namespace TwowCore.LFT

/-- `ListingSignup`. -/
structure ListingSignup where
  name : List Char
  className : List Char
  level : UInt32
  confirmed : Bool
  deriving DecidableEq, Repr

/-- `EscapeListingField`. -/
def escapeListingField : List Char → List Char
  | [] => []
  | c :: rest =>
      if c = '\\' ∨ c = '|' ∨ c = ';' then '\\' :: c :: escapeListingField rest
      else c :: escapeListingField rest

/-- The loop of `SplitEscaped`, and what follows it. -/
def splitLoop (delimiter : Char) : List Char → List (List Char) → List Char → Bool →
    List (List Char)
  | [], parts, current, escaped =>
      parts ++ [if escaped then current ++ ['\\'] else current]
  | c :: rest, parts, current, escaped =>
      if escaped then splitLoop delimiter rest parts (current ++ [c]) false
      else if c = '\\' then splitLoop delimiter rest parts current true
      else if c = delimiter then splitLoop delimiter rest (parts ++ [current]) [] false
      else splitLoop delimiter rest parts (current ++ [c]) false

/-- `SplitEscaped`. -/
def splitEscaped (value : List Char) (delimiter : Char) : List (List Char) :=
  splitLoop delimiter value [] [] false

/-- The last two fields of a signup. -/
def serializeTail (signup : ListingSignup) : List Char :=
  Nat.toDigits 10 signup.level.toNat ++ '|' :: [if signup.confirmed then '1' else '0']

/-- What is written for a signup. -/
def serializeSignup (signup : ListingSignup) : List Char :=
  escapeListingField signup.name ++ '|' :: (escapeListingField signup.className ++
    '|' :: serializeTail signup)

/-- `SerializeSignups`. -/
def serializeSignups (signups : List ListingSignup) : List Char :=
  signups.foldl (fun serialized signup =>
    (if serialized ≠ [] then serialized ++ [';'] else serialized) ++ serializeSignup signup) []

/-- A row of `DeserializeSignups`. -/
def deserializeRow (row : List Char) : Option ListingSignup :=
  if row = [] then none
  else
    match splitEscaped row '|' with
    | name :: className :: level :: confirmed :: _ =>
        some ⟨name, className, UInt32.ofNat ((strtoul level).getD 0), confirmed = ['1']⟩
    | _ => none

/-- `DeserializeSignups`. -/
def deserializeSignups (value : List Char) : List ListingSignup :=
  if value = [] then [] else (splitEscaped value ';').filterMap deserializeRow

/-! ## Splitting -/

variable {delimiter : Char}

/-- The parts that are there stay in front. -/
theorem splitLoop_parts (rest : List Char) (parts : List (List Char)) (current : List Char)
    (escaped : Bool) :
    splitLoop delimiter rest parts current escaped =
      parts ++ splitLoop delimiter rest [] current escaped := by
  induction rest generalizing parts current escaped with
  | nil => rfl
  | cons c rest ih =>
      unfold splitLoop
      split_ifs
      · exact ih _ _ _
      · exact ih _ _ _
      · rw [ih, ih ([] ++ [current]), List.append_assoc]
        rfl
      · exact ih _ _ _

theorem splitLoop_escaped (c : Char) (rest current : List Char) :
    splitLoop delimiter ('\\' :: c :: rest) [] current false =
      splitLoop delimiter rest [] (current ++ [c]) false := by
  rw [splitLoop, if_neg Bool.false_ne_true, if_pos rfl, splitLoop, if_pos rfl]

theorem splitLoop_plain {c : Char} (hescape : c ≠ '\\') (hdelimiter : c ≠ delimiter)
    (rest current : List Char) :
    splitLoop delimiter (c :: rest) [] current false =
      splitLoop delimiter rest [] (current ++ [c]) false := by
  rw [splitLoop, if_neg Bool.false_ne_true, if_neg hescape, if_neg hdelimiter]

theorem splitLoop_delimiter (hescape : delimiter ≠ '\\') (rest current : List Char) :
    splitLoop delimiter (delimiter :: rest) [] current false =
      current :: splitLoop delimiter rest [] [] false := by
  rw [splitLoop, if_neg Bool.false_ne_true, if_neg hescape, if_pos rfl, splitLoop_parts]
  rfl

/-- An escaped field is read back. -/
theorem splitLoop_escapeListingField (field rest current : List Char) :
    splitLoop ';' (escapeListingField field ++ rest) [] current false =
      splitLoop ';' rest [] (current ++ field) false := by
  induction field generalizing current with
  | nil => rw [List.append_nil]; rfl
  | cons c field ih =>
      unfold escapeListingField
      split
      · rw [List.cons_append, List.cons_append, splitLoop_escaped, ih, List.append_assoc]
        rfl
      · next hplain =>
          rw [List.cons_append, splitLoop_plain (fun h => hplain (Or.inl h))
            (fun h => hplain (Or.inr (Or.inr h))), ih, List.append_assoc]
          rfl

/-- Characters that mean nothing are copied. -/
theorem splitLoop_copies {text : List Char} (h : ∀ c ∈ text, c ≠ '\\' ∧ c ≠ delimiter)
    (rest current : List Char) :
    splitLoop delimiter (text ++ rest) [] current false =
      splitLoop delimiter rest [] (current ++ text) false := by
  induction text generalizing current with
  | nil => rw [List.append_nil]; rfl
  | cons c text ih =>
      obtain ⟨hescape, hdelimiter⟩ := h c List.mem_cons_self
      rw [List.cons_append, splitLoop_plain hescape hdelimiter,
        ih (fun d hd => h d (List.mem_cons_of_mem _ hd)), List.append_assoc]
      rfl

/-! ## The rows -/

/-- A signup as its row is after the first split. -/
def rawRow (signup : ListingSignup) : List Char :=
  signup.name ++ '|' :: (signup.className ++ '|' :: serializeTail signup)

theorem serializeTail_plain (signup : ListingSignup) :
    ∀ c ∈ serializeTail signup, c ≠ '\\' ∧ c ≠ ';' := by
  intro c hc
  have hdigit : ∀ d : Char, d.isDigit = true → d ≠ '\\' ∧ d ≠ ';' := by
    rintro d hd
    constructor
    · rintro rfl
      exact absurd hd (by decide)
    · rintro rfl
      exact absurd hd (by decide)
  rcases List.mem_append.mp hc with hc | hc
  · exact hdigit c (Nat.isDigit_of_mem_toDigits (by omega) (by omega) hc)
  · rcases List.mem_cons.mp hc with rfl | hc
    · decide
    · rw [List.mem_singleton.mp hc]
      cases signup.confirmed <;> decide

/-- The first split takes all the backslashes of a row out. -/
theorem splitLoop_serializeSignup (signup : ListingSignup) (rest current : List Char) :
    splitLoop ';' (serializeSignup signup ++ rest) [] current false =
      splitLoop ';' rest [] (current ++ rawRow signup) false := by
  unfold serializeSignup rawRow
  rw [List.append_assoc, splitLoop_escapeListingField, List.cons_append,
    splitLoop_plain (by decide) (by decide), List.append_assoc, splitLoop_escapeListingField,
    List.cons_append, splitLoop_plain (by decide) (by decide),
    splitLoop_copies (serializeTail_plain signup)]
  congr 1
  simp

theorem serializeSignup_ne_nil (signup : ListingSignup) : serializeSignup signup ≠ [] := by
  unfold serializeSignup
  simp

/-- What is written after the first signup. -/
theorem serializeSignups_fold (signups : List ListingSignup) (written : List Char)
    (h : written ≠ []) :
    signups.foldl (fun serialized signup =>
      (if serialized ≠ [] then serialized ++ [';'] else serialized) ++ serializeSignup signup)
        written =
      written ++ signups.flatMap fun signup => ';' :: serializeSignup signup := by
  induction signups generalizing written with
  | nil => exact (List.append_nil _).symm
  | cons signup signups ih =>
      rw [List.foldl_cons, if_pos h, ih _ (by simp), List.flatMap_cons]
      simp

theorem serializeSignups_cons (signup : ListingSignup) (signups : List ListingSignup) :
    serializeSignups (signup :: signups) =
      serializeSignup signup ++ signups.flatMap fun signup => ';' :: serializeSignup signup :=
  serializeSignups_fold signups _ (serializeSignup_ne_nil signup)

theorem splitLoop_rows (signups : List ListingSignup) (row : List Char) :
    splitLoop ';' (signups.flatMap fun signup => ';' :: serializeSignup signup) [] row false =
      row :: signups.map rawRow := by
  induction signups generalizing row with
  | nil => rfl
  | cons signup signups ih =>
      rw [List.flatMap_cons, List.cons_append, splitLoop_delimiter (by decide),
        splitLoop_serializeSignup, List.nil_append, ih, List.map_cons]

/-- The first split finds the rows. -/
theorem deserializeSignups_serializeSignups (signups : List ListingSignup) :
    deserializeSignups (serializeSignups signups) = signups.filterMap (deserializeRow ∘ rawRow) := by
  cases signups with
  | nil => rfl
  | cons signup signups =>
      unfold deserializeSignups
      have hne : serializeSignups (signup :: signups) ≠ [] := by
        rw [serializeSignups_cons]
        simp [serializeSignup_ne_nil]
      rw [if_neg hne, splitEscaped, serializeSignups_cons, splitLoop_serializeSignup,
        splitLoop_rows, List.nil_append, ← List.map_cons, List.filterMap_map]

/-! ## The fields -/

/-- A field that the second split leaves as it is. -/
def Plain (field : List Char) : Prop := ∀ c ∈ field, c ≠ '\\' ∧ c ≠ '|'

instance instDecidablePlain (field : List Char) : Decidable (Plain field) :=
  List.decidableBAll _ field

variable (delimiter) in
/-- The first part begins with what has been read. -/
theorem exists_head_splitLoop (rest current : List Char) (escaped : Bool) :
    ∃ more, (splitLoop delimiter rest [] current escaped).head? = some (current ++ more) := by
  induction rest generalizing current escaped with
  | nil =>
      cases escaped with
      | false => exact ⟨[], by rw [List.append_nil]; rfl⟩
      | true => exact ⟨['\\'], rfl⟩
  | cons c rest ih =>
      unfold splitLoop
      split_ifs
      · obtain ⟨more, hmore⟩ := ih (current ++ [c]) false
        exact ⟨c :: more, by rw [hmore, List.append_assoc]; rfl⟩
      · exact ih current true
      · rw [splitLoop_parts]
        exact ⟨[], by rw [List.append_nil]; rfl⟩
      · obtain ⟨more, hmore⟩ := ih (current ++ [c]) false
        exact ⟨c :: more, by rw [hmore, List.append_assoc]; rfl⟩

/-- A character that is copied is the next one of what is expected. -/
theorem copied_eq {c d : Char} {rest current expected : List Char}
    (h : (splitLoop delimiter rest [] (current ++ [c]) false).head? =
      some (current ++ d :: expected)) : c = d := by
  obtain ⟨more, hmore⟩ := exists_head_splitLoop delimiter rest (current ++ [c]) false
  rw [hmore, List.append_assoc] at h
  have heq := List.append_cancel_left (Option.some.inj h)
  exact (List.cons.inj heq).1

/-- The second split gives a field back, maybe behind some backslashes, only when it is plain: each
backslash that is missing has to come from two others. -/
theorem head_splitLoop (n k : ℕ) (field rest current : List Char) (hn : field.length ≤ n)
    (h : (splitLoop '|' (field ++ '|' :: rest) [] current false).head? =
      some (current ++ (List.replicate k '\\' ++ field))) :
    k = 0 ∧ Plain field := by
  induction n generalizing k field current with
  | zero =>
      obtain rfl := List.length_eq_zero_iff.mp (Nat.le_zero.mp hn)
      rw [List.nil_append, splitLoop_delimiter (by decide), List.append_nil] at h
      have hlen := congrArg List.length (Option.some.inj h)
      rw [List.length_append, List.length_replicate] at hlen
      exact ⟨by omega, fun c hc => absurd hc List.not_mem_nil⟩
  | succ n ih =>
      cases field with
      | nil => exact ih k [] current (Nat.zero_le n) h
      | cons c field =>
          rw [List.length_cons] at hn
          by_cases hdelimiter : c = '|'
          · subst hdelimiter
            rw [List.cons_append, splitLoop_delimiter (by decide)] at h
            have hlen := congrArg List.length (Option.some.inj h)
            rw [List.length_append, List.length_append, List.length_cons] at hlen
            omega
          · by_cases hescape : c = '\\'
            · subst hescape
              exfalso
              have hshift : List.replicate k '\\' ++ '\\' :: field =
                  '\\' :: (List.replicate k '\\' ++ field) := by
                rw [← List.cons_append, ← List.replicate_succ, List.replicate_succ',
                  List.append_assoc]
                rfl
              rw [hshift] at h
              cases field with
              | nil =>
                  rw [List.cons_append, List.nil_append, splitLoop_escaped] at h
                  exact absurd (copied_eq h) (by decide)
              | cons d field =>
                  rw [List.cons_append, List.cons_append, splitLoop_escaped] at h
                  -- The character that is copied has to be the backslash that is due.
                  obtain rfl := copied_eq h
                  have hnext : current ++ '\\' :: (List.replicate k '\\' ++ '\\' :: field) =
                      (current ++ ['\\']) ++ (List.replicate (k + 1) '\\' ++ field) := by
                    rw [List.replicate_succ', List.append_assoc, List.append_assoc]
                    rfl
                  rw [hnext] at h
                  rw [List.length_cons] at hn
                  obtain ⟨hzero, -⟩ := ih (k + 1) field _ (by omega) h
                  omega
            · rw [List.cons_append, splitLoop_plain hescape hdelimiter] at h
              cases k with
              | zero =>
                  have hnext : current ++ (List.replicate 0 '\\' ++ c :: field) =
                      (current ++ [c]) ++ (List.replicate 0 '\\' ++ field) := by
                    rw [List.append_assoc]
                    rfl
                  rw [hnext] at h
                  obtain ⟨-, hplain⟩ := ih 0 field _ (by omega) h
                  refine ⟨rfl, fun d hd => ?_⟩
                  rcases List.mem_cons.mp hd with rfl | hd
                  · exact ⟨hescape, hdelimiter⟩
                  · exact hplain d hd
              | succ k =>
                  rw [List.replicate_succ, List.cons_append] at h
                  exact absurd (copied_eq h) hescape

/-- A plain field, and what follows it. -/
theorem splitLoop_field {field : List Char} (h : Plain field) (rest : List Char) :
    splitLoop '|' (field ++ '|' :: rest) [] [] false = field :: splitLoop '|' rest [] [] false := by
  rw [splitLoop_copies h, splitLoop_delimiter (by decide), List.nil_append]

theorem plain_of_head {field : List Char} (rest : List Char)
    (h : (splitLoop '|' (field ++ '|' :: rest) [] [] false).head? = some field) : Plain field :=
  (head_splitLoop field.length 0 field rest [] le_rfl h).2

/-! ## The level -/

theorem digits_plain (n : ℕ) : Plain (Nat.toDigits 10 n) := by
  intro c hc
  have hdigit := Nat.isDigit_of_mem_toDigits (by omega) (by omega) hc
  constructor
  · rintro rfl
    exact absurd hdigit (by decide)
  · rintro rfl
    exact absurd hdigit (by decide)

/-! ## The round trip -/

/-- A row comes back exactly when its two texts are plain. -/
theorem deserializeRow_rawRow_iff (signup : ListingSignup) :
    deserializeRow (rawRow signup) = some signup ↔
      Plain signup.name ∧ Plain signup.className := by
  have hne : rawRow signup ≠ [] := by
    unfold rawRow
    simp
  constructor
  · intro h
    unfold deserializeRow at h
    rw [if_neg hne] at h
    split at h
    · next name className level confirmed more hsplit =>
        have heq := Option.some.inj h
        have hname : name = signup.name := congrArg ListingSignup.name heq
        have hclass : className = signup.className := congrArg ListingSignup.className heq
        rw [hname, hclass] at hsplit
        have hplain : Plain signup.name := by
          refine plain_of_head (signup.className ++ '|' :: serializeTail signup) ?_
          show (splitEscaped (rawRow signup) '|').head? = _
          rw [hsplit]
          rfl
        refine ⟨hplain, plain_of_head (serializeTail signup) ?_⟩
        have hrest : splitEscaped (rawRow signup) '|' = _ := splitLoop_field hplain _
        rw [hrest] at hsplit
        rw [(List.cons.inj hsplit).2]
        rfl
    · cases h
  · rintro ⟨hname, hclass⟩
    have hconfirmed : ∀ b : Bool,
        splitLoop '|' [if b then '1' else '0'] [] [] false = [[if b then '1' else '0']] := by
      intro b
      cases b <;> rfl
    have hsplit : splitEscaped (rawRow signup) '|' =
        [signup.name, signup.className, Nat.toDigits 10 signup.level.toNat,
          [if signup.confirmed then '1' else '0']] := by
      unfold splitEscaped rawRow serializeTail
      rw [splitLoop_field hname, splitLoop_field hclass, splitLoop_field (digits_plain _), hconfirmed]
    have hlevel := signup.level.toNat_lt
    unfold deserializeRow
    rw [if_neg hne, hsplit]
    simp only
    rw [strtoul_toDigits (by omega), Option.getD_some, UInt32.ofNat_toNat]
    cases signup with
    | mk name className level confirmed => cases confirmed <;> rfl

/-- A list of which nothing is lost is read element by element. -/
theorem filterMap_eq_self_iff {α : Type} (f : α → Option α) (l : List α) :
    l.filterMap f = l ↔ ∀ x ∈ l, f x = some x := by
  induction l with
  | nil => exact ⟨fun _ x hx => absurd hx List.not_mem_nil, fun _ => rfl⟩
  | cons x l ih =>
      constructor
      · intro h
        cases hx : f x with
        | none =>
            rw [List.filterMap_cons_none hx] at h
            have hlen := congrArg List.length h
            have hle := List.length_filterMap_le f l
            rw [List.length_cons] at hlen
            omega
        | some y =>
            rw [List.filterMap_cons_some hx] at h
            obtain ⟨rfl, hrest⟩ := List.cons.inj h
            intro z hz
            rcases List.mem_cons.mp hz with rfl | hz
            · exact hx
            · exact ih.mp hrest z hz
      · intro h
        rw [List.filterMap_cons_some (h x List.mem_cons_self),
          ih.mpr fun z hz => h z (List.mem_cons_of_mem _ hz)]

/-- A list of signups comes back exactly when no name and no class name in it has a backslash or a
bar. -/
theorem deserialize_serialize_iff (signups : List ListingSignup) :
    deserializeSignups (serializeSignups signups) = signups ↔
      ∀ signup ∈ signups, Plain signup.name ∧ Plain signup.className := by
  rw [deserializeSignups_serializeSignups, filterMap_eq_self_iff]
  exact forall₂_congr fun signup _ => deserializeRow_rawRow_iff signup

/-- A bar in a name makes it end there. -/
theorem deserialize_serialize_bar :
    deserializeSignups (serializeSignups [⟨"A|B".toList, "Mage".toList, 60, true⟩]) =
      [⟨"A".toList, "B".toList, 0, false⟩] ∧
    ¬ ∀ signups, deserializeSignups (serializeSignups signups) = signups := by
  have hcut : deserializeSignups (serializeSignups [⟨"A|B".toList, "Mage".toList, 60, true⟩]) =
      [⟨"A".toList, "B".toList, 0, false⟩] := by rfl
  refine ⟨hcut, fun h => ?_⟩
  have hname := congrArg (List.map ListingSignup.level) (hcut.symm.trans (h _))
  exact absurd hname (by decide)

end TwowCore.LFT
