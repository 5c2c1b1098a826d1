import TwowCore.PlayerDump.DumpString

/-!
# Which fields `findnth` finds

`findnth` counts quotes. It finds every field that is a string as long as the strings come before the `NULL`s and
none of them has a quote or ends in a backslash, and numbers that are written over them do not change this. With
any other row it misses the first field that is not so, or does not end.
-/

namespace TwowCore.PlayerDump

section Find

variable {str before segment after : Text} {s e : ℕ}

theorem findQuote_some (h : '\'' ∉ segment) :
    findQuote (before ++ (segment ++ '\'' :: after)) before.length =
      some (before.length + segment.length) := by
  have hindex : (segment ++ '\'' :: after).idxOf? '\'' = some segment.length := by
    induction segment with
    | nil => rfl
    | cons c rest ih =>
        have hc : c ≠ '\'' := fun heq => h (heq ▸ List.mem_cons_self)
        rw [List.cons_append, List.idxOf?_cons, if_neg (by rw [beq_iff_eq]; exact hc),
          ih fun hmem => h (List.mem_cons_of_mem _ hmem)]
        rfl
  unfold findQuote
  rw [List.drop_left, hindex]
  rfl

theorem findQuote_none (h : '\'' ∉ str.drop s) : findQuote str s = none := by
  unfold findQuote
  rw [List.idxOf?_eq_none_iff.mpr h]
  rfl

/-- What is found is a quote from there on. -/
theorem findQuote_spec (h : findQuote str s = some e) : s ≤ e ∧ str[e]? = some '\'' := by
  unfold findQuote at h
  obtain ⟨index, hindex, rfl⟩ := Option.map_eq_some_iff.mp h
  obtain ⟨hlt, hget, -⟩ := List.idxOf?_eq_some_iff.mp hindex
  refine ⟨Nat.le_add_right _ _, ?_⟩
  rw [← List.getElem?_drop, List.getElem?_eq_getElem hlt, hget]

/-- The character before a place is the last one of what stands before it. -/
theorem afterBackslash_eq (hbefore : before ≠ []) :
    afterBackslash (before ++ after) before.length = decide (before.getLast? = some '\\') := by
  have hpos := List.length_pos_of_ne_nil hbefore
  unfold afterBackslash
  rw [List.getElem?_append_left (by omega), ← List.getLast?_eq_getElem?]

/-- The first place of a text that ends in a quote. -/
theorem findText_of_quote (hbefore : '\'' ∉ before) :
    findText valuesQuote (before ++ ("VALUES (".toList ++ '\'' :: after)) = some before.length := by
  induction before with
  | nil => rfl
  | cons c rest ih =>
      have hno : valuesQuote.isPrefixOf (c :: (rest ++ ("VALUES (".toList ++ '\'' :: after))) =
          false := by
        rw [Bool.eq_false_iff]
        intro hprefix
        obtain ⟨tail, htail⟩ := List.isPrefixOf_iff_prefix.mp hprefix
        have hquote : (c :: (rest ++ ("VALUES (".toList ++ '\'' :: after)))[8]? = some '\'' := by
          rw [← htail]
          rfl
        have hsplit : c :: (rest ++ ("VALUES (".toList ++ '\'' :: after)) =
            (c :: rest ++ "VALUES (".toList) ++ '\'' :: after := by
          rw [List.append_assoc]
          rfl
        have hlength : (c :: rest ++ "VALUES (".toList).length = rest.length + 9 := by
          rw [List.length_append, List.length_cons]
          rfl
        rw [hsplit, List.getElem?_append_left (by omega)] at hquote
        have hmem := List.mem_of_getElem? hquote
        rcases List.mem_append.mp hmem with hold | hpattern
        · exact hbefore hold
        · revert hpattern
          decide
      show (if valuesQuote.isPrefixOf (c :: (rest ++ ("VALUES (".toList ++ '\'' :: after))) then
        some 0 else (findText valuesQuote (rest ++ ("VALUES (".toList ++ '\'' :: after))).map
          (· + 1)) = _
      rw [hno, ih fun hmem => hbefore (List.mem_cons_of_mem _ hmem)]
      rfl

end Find

section Loops

variable {str : Text} {fuel s e s' e' turns : ℕ} {found found' : ℕ × ℕ}

theorem firstEnd_spec (h : firstEnd str s fuel = some (some found)) : str[found.2]? = some '\'' := by
  induction fuel with
  | zero => cases h
  | succ fuel ih =>
      unfold firstEnd at h
      cases hfind : findQuote str s with
      | none =>
          rw [hfind] at h
          cases h
      | some e =>
          rw [hfind] at h
          dsimp only at h
          split_ifs at h
          · exact ih h
          · cases h
            exact (findQuote_spec hfind).2

/-- The fields that follow are further on, and end at a quote. -/
theorem nextEnd_spec (h : nextEnd str fuel e = some (some found)) :
    e + 4 ≤ found.1 ∧ found.1 ≤ found.2 ∧ str[found.2]? = some '\'' := by
  induction fuel generalizing e with
  | zero => cases h
  | succ fuel ih =>
      unfold nextEnd at h
      cases hfind : findQuote str (e + 4) with
      | none =>
          rw [hfind] at h
          cases h
      | some e' =>
          obtain ⟨hle, hquote⟩ := findQuote_spec hfind
          rw [hfind] at h
          dsimp only at h
          split_ifs at h
          · have hrest := ih h
            exact ⟨by omega, hrest.2⟩
          · cases h
            exact ⟨le_rfl, hle, hquote⟩

/-- Some field later. -/
theorem nextFields_le (h : nextFields str fuel (turns + 1) found = some (some found')) :
    found.2 + 4 ≤ found'.1 := by
  induction turns generalizing found with
  | zero =>
      unfold nextFields at h
      split at h
      · next found₁ hnext =>
          unfold nextFields at h
          cases h
          exact (nextEnd_spec hnext).1
      · next hother =>
          exact absurd h (hother _)
  | succ turns ih =>
      unfold nextFields at h
      split at h
      · next found₁ hnext =>
          have hrest := ih h
          have hfirst := nextEnd_spec hnext
          omega
      · next hother => exact absurd h (hother _)

end Loops

section Row

/-- What is written before a field after others. -/
def beforeField (table : Text) (row : List (Option Text)) : Text :=
  head table ++ row.flatMap fun field => fieldText field ++ ", ".toList

/-- What is written after a field before others. -/
def afterField (row : List (Option Text)) : Text :=
  (row.flatMap fun field => ", ".toList ++ fieldText field) ++ ");".toList

/-- Where the text of a field begins: after its quote. -/
def fieldStart (table : Text) (row : List (Option Text)) (i : ℕ) : ℕ :=
  (beforeField table (row.take i)).length + 1

variable {table : Text} {left right : List (Option Text)} {field next : Option Text} {text : Text}

theorem beforeField_concat :
    beforeField table (left ++ [field]) =
      beforeField table left ++ (fieldText field ++ ", ".toList) := by
  unfold beforeField
  rw [List.flatMap_append, List.flatMap_singleton, List.append_assoc]

/-- A statement around one of its fields. -/
theorem dumpRow_append (table : Text) (left : List (Option Text)) (field : Option Text)
    (right : List (Option Text)) :
    dumpRow table (left ++ field :: right) =
      beforeField table left ++ (fieldText field ++ afterField right) := by
  cases left with
  | nil =>
      unfold dumpRow beforeField afterField
      rw [List.nil_append, fieldsText, List.flatMap_nil, List.append_nil]
      simp only [List.append_assoc]
  | cons first rest =>
      have hmove : ∀ l : List (Option Text), ", ".toList ++
          (l.flatMap fun field => fieldText field ++ ", ".toList) =
          (l.flatMap fun field => ", ".toList ++ fieldText field) ++ ", ".toList := by
        intro l
        induction l with
        | nil => rfl
        | cons field rest ih =>
            rw [List.flatMap_cons, List.flatMap_cons, List.append_assoc, ih]
            simp only [List.append_assoc]
      unfold dumpRow beforeField afterField
      rw [List.cons_append, fieldsText, List.flatMap_cons, List.flatMap_append, List.flatMap_cons]
      have hrest := hmove rest
      simp only [List.append_assoc] at hrest ⊢
      congr 2
      rw [← List.append_assoc, ← List.append_assoc ", ".toList, hrest]

/-- A string is between quotes. -/
theorem dumpRow_string (table : Text) (left : List (Option Text)) (text : Text)
    (right : List (Option Text)) :
    dumpRow table (left ++ some text :: right) =
      (beforeField table left ++ ['\'']) ++ (text ++ '\'' :: afterField right) := by
  rw [dumpRow_append]
  unfold fieldText
  simp only [List.append_assoc, List.cons_append, List.nil_append]

/-- No quote is written around a table. -/
theorem quote_notMem_around {first last : Text} (htable : '\'' ∉ table) (hfirst : '\'' ∉ first)
    (hlast : '\'' ∉ last) : '\'' ∉ first ++ table ++ last := by
  rw [List.mem_append, List.mem_append, not_or, not_or]
  exact ⟨⟨hfirst, htable⟩, hlast⟩

/-- No quote is written before the first string. -/
theorem quote_notMem_beforeField (htable : '\'' ∉ table) (h : ∀ field ∈ left, field = none) :
    '\'' ∉ beforeField table left := by
  have hhead : '\'' ∉ head table := quote_notMem_around htable (by decide) (by decide)
  unfold beforeField
  rw [List.mem_append]
  rintro (hmem | hmem)
  · exact hhead hmem
  · obtain ⟨field, hfield, hin⟩ := List.mem_flatMap.mp hmem
    rw [h field hfield] at hin
    revert hin
    decide

theorem quote_notMem_afterField (h : ∀ field ∈ right, field = none) : '\'' ∉ afterField right := by
  unfold afterField
  rw [List.mem_append]
  rintro (hmem | hmem)
  · obtain ⟨field, hfield, hin⟩ := List.mem_flatMap.mp hmem
    rw [h field hfield] at hin
    revert hin
    decide
  · revert hmem
    decide

end Row

/-- No quote in it, and no backslash before the quote that ends it. -/
def Clean (text : Text) : Prop := '\'' ∉ text ∧ text.getLast? ≠ some '\\'

instance (text : Text) : Decidable (Clean text) := inferInstanceAs (Decidable (_ ∧ _))

/-- Clean strings, and then nothing but `NULL`. -/
def Regular : List (Option Text) → Prop
  | [] => True
  | some text :: rest => Clean text ∧ Regular rest
  | none :: rest => ∀ field ∈ rest, field = none

instance decidableRegular : (row : List (Option Text)) → Decidable (Regular row)
  | [] => .isTrue trivial
  | some text :: rest =>
      have := decidableRegular rest
      inferInstanceAs (Decidable (Clean text ∧ Regular rest))
  | none :: rest => inferInstanceAs (Decidable (∀ field ∈ rest, field = none))

section Walk

variable {table : Text} {left right : List (Option Text)} {text next : Text} {found : ℕ × ℕ}
  {fuel turns : ℕ}

/-- The loops are at a string of the row. -/
structure At (table : Text) (left : List (Option Text)) (text : Text) (found : ℕ × ℕ) : Prop where
  start : found.1 = (beforeField table left).length + 1
  finish : found.2 = found.1 + text.length

/-- Where the next field begins. -/
theorem At.length_next (hat : At table left text found) :
    (beforeField table (left ++ [some text])).length = found.2 + 3 := by
  rw [beforeField_concat, hat.finish, hat.start]
  unfold fieldText
  simp only [List.length_append, List.length_cons, List.length_nil]
  have hcomma : ", ".toList.length = 2 := rfl
  omega

/-- The last character before the end of a string is not a backslash. -/
theorem afterBackslash_string (before : Text) (after : Text) (h : text.getLast? ≠ some '\\') :
    afterBackslash ((before ++ ['\'']) ++ (text ++ after)) ((before ++ ['\'']) ++ text).length =
      false := by
  rw [← List.append_assoc, afterBackslash_eq (by simp)]
  refine decide_eq_false ?_
  rw [List.getLast?_append]
  cases hlast : text.getLast? with
  | none => simp
  | some c =>
      rw [hlast] at h
      simpa using h

/-- From one clean string to the next. -/
theorem nextEnd_string (right : List (Option Text)) (fuel : ℕ) (hat : At table left text found)
    (hclean : Clean next) :
    ∃ found', nextEnd (dumpRow table (left ++ some text :: some next :: right)) (fuel + 1) found.2 =
        some (some found') ∧ At table (left ++ [some text]) next found' := by
  have hdump : dumpRow table (left ++ some text :: some next :: right) =
      (beforeField table (left ++ [some text]) ++ ['\'']) ++ (next ++ '\'' :: afterField right) := by
    rw [← dumpRow_string, List.append_assoc]
    rfl
  have hstart : found.2 + 4 = (beforeField table (left ++ [some text]) ++ ['\'']).length := by
    rw [List.length_append, hat.length_next]
    rfl
  refine ⟨(found.2 + 4, found.2 + 4 + next.length), ?_, ?_, rfl⟩
  · unfold nextEnd
    rw [hdump, hstart, findQuote_some hclean.1]
    dsimp only
    rw [← List.length_append, afterBackslash_string _ _ hclean.2]
    rfl
  · rw [hstart, List.length_append]
    rfl

/-- Over clean strings. -/
theorem nextFields_strings (right : List (Option Text)) (fuel : ℕ) (strings : List Text)
    (hclean : ∀ text ∈ strings, Clean text)
    (hat : At table left text found) :
    ∃ left' text' found', At table left' text' found' ∧
      left' ++ [some text'] = left ++ some text :: strings.map some ∧
      ∀ turns, nextFields (dumpRow table (left ++ some text :: (strings.map some ++ right))) (fuel + 1)
          (strings.length + turns) found =
        nextFields (dumpRow table (left ++ some text :: (strings.map some ++ right))) (fuel + 1)
          turns found' := by
  induction strings generalizing left text found with
  | nil =>
      refine ⟨left, text, found, hat, rfl, fun turns => ?_⟩
      rw [List.length_nil, Nat.zero_add]
  | cons next rest ih =>
      obtain ⟨found₁, hnext, hat₁⟩ := nextEnd_string (rest.map some ++ right) fuel hat
        (hclean next List.mem_cons_self)
      obtain ⟨left', text', found', hat', hsame, hrun⟩ :=
        ih (fun text htext => hclean text (List.mem_cons_of_mem _ htext)) hat₁
      refine ⟨left', text', found', hat', ?_, fun turns => ?_⟩
      · rw [hsame, List.append_assoc]
        rfl
      · rw [List.append_assoc] at hrun
        rw [List.length_cons, show rest.length + 1 + turns = rest.length + turns + 1 by omega]
        have hstep := hrun turns
        conv_lhs => unfold nextFields
        simp only [List.map_cons, List.cons_append] at hstep ⊢
        rw [hnext]
        exact hstep

/-- `VALUES ('` is found before a first string. -/
theorem startOf_string (htable : '\'' ∉ table) :
    startOf (dumpRow table (some text :: right)) = (beforeField table []).length + 1 := by
  have hdump : dumpRow table (some text :: right) =
      ("INSERT INTO `".toList ++ table ++ "` ".toList) ++
        ("VALUES (".toList ++ '\'' :: (text ++ '\'' :: afterField right)) := by
    have hstring := dumpRow_string table [] text right
    rw [List.nil_append] at hstring
    rw [hstring]
    unfold beforeField head
    rw [List.flatMap_nil, List.append_nil, show "` VALUES (".toList = "` ".toList ++ "VALUES (".toList by rfl]
    simp only [List.append_assoc, List.cons_append, List.nil_append]
  have hquote : '\'' ∉ "INSERT INTO `".toList ++ table ++ "` ".toList :=
    quote_notMem_around htable (by decide) (by decide)
  unfold startOf
  rw [hdump, findText_of_quote hquote]
  unfold beforeField head
  rw [List.flatMap_nil, List.append_nil]
  simp only [List.length_append]
  have h₁ : "` VALUES (".toList.length = 10 := rfl
  have h₂ : "` ".toList.length = 2 := rfl
  omega

/-- What `findnth` does with a row that begins with clean strings. -/
theorem findnth_strings (right : List (Option Text)) (htable : '\'' ∉ table) (first : Text)
    (strings : List Text) (hfirst : Clean first) (hclean : ∀ text ∈ strings, Clean text)
    (fuel : ℕ) :
    ∃ left' text' found', At table left' text' found' ∧
      left' ++ [some text'] = some first :: strings.map some ∧
      ∀ turns, findnth (fuel + 1) (dumpRow table (some first :: (strings.map some ++ right)))
          (strings.length + turns + 1) =
        nextFields (dumpRow table (some first :: (strings.map some ++ right))) (fuel + 1) turns
          found' := by
  have hat : At table [] first ((beforeField table []).length + 1,
      (beforeField table []).length + 1 + first.length) := ⟨rfl, rfl⟩
  obtain ⟨left', text', found', hat', hsame, hrun⟩ :=
    nextFields_strings right fuel strings hclean hat
  rw [List.nil_append] at hsame hrun
  refine ⟨left', text', found', hat', hsame, fun turns => ?_⟩
  rw [← hrun turns]
  have hdump := dumpRow_string table [] first (strings.map some ++ right)
  rw [List.nil_append] at hdump
  have hstart : startOf (dumpRow table (some first :: (strings.map some ++ right))) =
      (beforeField table [] ++ ['\'']).length := by
    rw [startOf_string htable, List.length_append]
    rfl
  have hend : firstEnd (dumpRow table (some first :: (strings.map some ++ right)))
      (startOf (dumpRow table (some first :: (strings.map some ++ right)))) (fuel + 1) =
        some (some ((beforeField table []).length + 1,
          (beforeField table []).length + 1 + first.length)) := by
    rw [hstart]
    unfold firstEnd
    rw [hdump, findQuote_some hfirst.1]
    dsimp only
    rw [← List.length_append, afterBackslash_string _ _ hfirst.2]
    simp only [List.length_append, List.length_singleton, Bool.false_eq_true, if_false]
  unfold findnth
  rw [hend, Nat.add_sub_cancel]

/-- Every quote of a text is behind a backslash. -/
def Guarded (text : Text) : Prop :=
  ∀ before after, text = before ++ '\'' :: after → before.getLast? = some '\\'

/-- A guarded text that is not clean has a backslash before the first quote one comes to. -/
theorem exists_segment (hguarded : Guarded text) (hdirty : ¬Clean text) (after : Text) :
    ∃ segment rest, '\'' ∉ segment ∧ segment.getLast? = some '\\' ∧
      text ++ '\'' :: after = segment ++ '\'' :: rest := by
  by_cases hquote : '\'' ∈ text
  · obtain ⟨segment, rest, hsplit, hno⟩ := List.eq_append_cons_of_mem hquote
    refine ⟨segment, rest ++ '\'' :: after, hno, hguarded _ _ hsplit, ?_⟩
    rw [hsplit, List.append_assoc]
    rfl
  · refine ⟨text, after, hquote, ?_, rfl⟩
    by_contra hlast
    exact hdirty ⟨hquote, hlast⟩

theorem afterBackslash_segment {before segment rest : Text} (h : segment.getLast? = some '\\') :
    afterBackslash (before ++ (segment ++ '\'' :: rest)) (before.length + segment.length) = true := by
  have hne : segment ≠ [] := by
    rintro rfl
    cases h
  rw [← List.append_assoc, ← List.length_append, afterBackslash_eq (by simp [hne])]
  refine decide_eq_true ?_
  rw [List.getLast?_append_of_ne_nil _ hne, h]

/-- The first loop does not end at a first string that is not clean. -/
theorem firstEnd_dirty (htable : '\'' ∉ table) (hguarded : Guarded text) (hdirty : ¬Clean text)
    (fuel : ℕ) : firstEnd (dumpRow table (some text :: right))
      (startOf (dumpRow table (some text :: right))) fuel = none := by
  obtain ⟨segment, rest, hno, hlast, hsplit⟩ := exists_segment hguarded hdirty (afterField right)
  have hdump := dumpRow_string table [] text right
  rw [List.nil_append, hsplit] at hdump
  have hstart : startOf (dumpRow table (some text :: right)) =
      (beforeField table [] ++ ['\'']).length := by
    rw [startOf_string htable, List.length_append]
    rfl
  rw [hstart, hdump]
  -- the beginning stays, so the same quote is found again
  induction fuel with
  | zero => rfl
  | succ fuel ih =>
      unfold firstEnd
      rw [findQuote_some hno]
      dsimp only
      rw [afterBackslash_segment hlast]
      exact ih

/-- From a string the loops miss one after it that is not clean. -/
theorem nextEnd_dirty (hat : At table left text found) (hguarded : Guarded next)
    (hdirty : ¬Clean next) (fuel : ℕ) {found' : ℕ × ℕ}
    (h : nextEnd (dumpRow table (left ++ some text :: some next :: right)) fuel found.2 =
      some (some found')) : found'.1 ≠ (beforeField table (left ++ [some text])).length + 1 := by
  obtain ⟨segment, rest, hno, hlast, hsplit⟩ := exists_segment hguarded hdirty (afterField right)
  have hdump : dumpRow table (left ++ some text :: some next :: right) =
      (beforeField table (left ++ [some text]) ++ ['\'']) ++ (segment ++ '\'' :: rest) := by
    rw [← hsplit, ← dumpRow_string, List.append_assoc]
    rfl
  have hstart : found.2 + 4 = (beforeField table (left ++ [some text]) ++ ['\'']).length := by
    rw [List.length_append, hat.length_next]
    rfl
  cases fuel with
  | zero => cases h
  | succ fuel =>
      unfold nextEnd at h
      rw [hdump, hstart, findQuote_some hno] at h
      dsimp only at h
      -- the search goes on behind the quote, and the beginning with it
      rw [afterBackslash_segment hlast, if_pos rfl] at h
      have hlater := (nextEnd_spec h).1
      rw [List.length_append, List.length_singleton] at hlater
      omega

/-- After the last string there is nothing to find. -/
theorem findnth_beyond (htable : '\'' ∉ table) (strings : List Text)
    (hclean : ∀ text ∈ strings, Clean text) (hnulls : ∀ field ∈ right, field = none) (fuel : ℕ)
    {i : ℕ}
    (hi : strings.length ≤ i) :
    findnth (fuel + 1) (dumpRow table (strings.map some ++ right)) (i + 1) = some none := by
  cases strings with
  | nil =>
      have hno : '\'' ∉ dumpRow table right := by
        have hbefore : '\'' ∉ beforeField table [] := quote_notMem_beforeField htable nofun
        cases right with
        | nil =>
            unfold dumpRow fieldsText
            unfold beforeField at hbefore
            rw [List.flatMap_nil, List.append_nil] at hbefore
            rw [List.append_nil, List.mem_append]
            rintro (hmem | hmem)
            · exact hbefore hmem
            · revert hmem
              decide
        | cons field rest =>
            have hfield : field = none := hnulls field List.mem_cons_self
            have hafter := quote_notMem_afterField fun field hmem =>
              hnulls field (List.mem_cons_of_mem _ hmem)
            have hdump := dumpRow_append table [] field rest
            rw [List.nil_append] at hdump
            rw [hdump, hfield, List.mem_append, List.mem_append]
            rintro (hmem | hmem | hmem)
            · exact hbefore hmem
            · revert hmem
              decide
            · exact hafter hmem
      show findnth (fuel + 1) (dumpRow table right) (i + 1) = some none
      have hend : firstEnd (dumpRow table right) (startOf (dumpRow table right)) (fuel + 1) =
          some none := by
        unfold firstEnd
        rw [findQuote_none fun hmem => hno (List.mem_of_mem_drop hmem)]
      unfold findnth
      rw [hend]
  | cons first rest =>
      obtain ⟨left', text', found', hat, hsame, hrun⟩ := findnth_strings right htable first
        rest (hclean first List.mem_cons_self)
        (fun text htext => hclean text (List.mem_cons_of_mem _ htext)) fuel
      obtain ⟨turns, hturns⟩ : ∃ turns, i + 1 = rest.length + (turns + 1) + 1 := by
        rw [List.length_cons] at hi
        exact ⟨i - rest.length - 1, by omega⟩
      have hdump : dumpRow table (some first :: (rest.map some ++ right)) =
          (beforeField table left' ++ ['\'']) ++ (text' ++ '\'' :: afterField right) := by
        rw [← dumpRow_string, ← List.cons_append, ← hsame, List.append_assoc]
        rfl
      have hend : nextEnd (dumpRow table (some first :: (rest.map some ++ right))) (fuel + 1)
          found'.2 = some none := by
        unfold nextEnd
        rw [findQuote_none]
        rw [hdump, hat.finish, hat.start, show (beforeField table left' ++ ['\'']) ++
          (text' ++ '\'' :: afterField right) =
            (beforeField table left' ++ ['\''] ++ text' ++ ['\'']) ++ afterField right by simp]
        intro hmem
        rw [List.drop_append, List.mem_append] at hmem
        rcases hmem with hmem | hmem
        · rw [List.drop_eq_nil_of_le] at hmem
          · cases hmem
          · simp only [List.length_append, List.length_singleton]
            omega
        · exact quote_notMem_afterField hnulls (List.mem_of_mem_drop hmem)
      show findnth (fuel + 1) (dumpRow table (some first :: (rest.map some ++ right))) (i + 1) = _
      rw [hturns, hrun]
      unfold nextFields
      rw [hend]

end Walk

end TwowCore.PlayerDump
