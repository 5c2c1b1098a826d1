import TwowCore.Lib.SqlLiteral
import TwowCore.PlayerDump.Addressing

/-!
# Reading and writing the fields of a dump

On a regular row `changenth` is a change of the row. The fields of a row stay where `findnth` looks for them
under every sequence of edits with numbers exactly if the row is regular.
-/

namespace TwowCore.PlayerDump

section Row

variable {row : List (Option Text)} {text : Text} {i : ℕ}

/-- A regular row around one of its strings. -/
theorem Regular.split (hregular : Regular row) (hget : row[i]? = some (some text)) :
    ∃ (strings : List Text) (right : List (Option Text)),
      row = strings.map some ++ some text :: right ∧ strings.length = i ∧
        (∀ text ∈ strings, Clean text) ∧ Clean text ∧ Regular right := by
  induction row generalizing i with
  | nil => cases hget
  | cons field rest ih =>
      cases field with
      | none =>
          cases i with
          | zero => cases hget
          | succ i =>
              rw [List.getElem?_cons_succ] at hget
              have hnone := hregular _ (List.mem_of_getElem? hget)
              cases hnone
      | some first =>
          cases i with
          | zero =>
              cases hget
              exact ⟨[], rest, rfl, rfl, nofun, hregular.1, hregular.2⟩
          | succ i =>
              rw [List.getElem?_cons_succ] at hget
              obtain ⟨strings, right, hrow, hlength, hclean, htext, hright⟩ := ih hregular.2 hget
              refine ⟨first :: strings, right, by rw [hrow]; rfl, by rw [← hlength]; rfl, ?_, htext,
                hright⟩
              intro other hother
              rcases List.mem_cons.mp hother with rfl | hmem
              · exact hregular.1
              · exact hclean other hmem

/-- Clean strings before a regular row. -/
theorem regular_append {strings : List Text} {right : List (Option Text)}
    (hclean : ∀ text ∈ strings, Clean text) (hright : Regular right) :
    Regular (strings.map some ++ right) := by
  induction strings with
  | nil => exact hright
  | cons first rest ih =>
      exact ⟨hclean first List.mem_cons_self,
        ih fun text htext => hclean text (List.mem_cons_of_mem _ htext)⟩

/-- The strings of a regular row, and the `NULL`s. -/
theorem Regular.parts (hregular : Regular row) :
    ∃ (strings : List Text) (nulls : List (Option Text)), row = strings.map some ++ nulls ∧
      (∀ text ∈ strings, Clean text) ∧ ∀ field ∈ nulls, field = none := by
  induction row with
  | nil => exact ⟨[], [], rfl, nofun, nofun⟩
  | cons field rest ih =>
      cases field with
      | none =>
          refine ⟨[], none :: rest, rfl, nofun, fun field hfield => ?_⟩
          rcases List.mem_cons.mp hfield with rfl | hmem
          · rfl
          · exact hregular field hmem
      | some first =>
          obtain ⟨strings, nulls, hrow, hclean, hnulls⟩ := ih hregular.2
          refine ⟨first :: strings, nulls, by rw [hrow]; rfl, fun text htext => ?_, hnulls⟩
          rcases List.mem_cons.mp htext with rfl | hmem
          · exact hregular.1
          · exact hclean text hmem

/-- The first field that keeps a row from being regular: a string that is not clean, or one after a `NULL`. -/
theorem exists_irregular (h : ¬Regular row) :
    ∃ strings : List Text, (∀ text ∈ strings, Clean text) ∧
      ((∃ text right, row = strings.map some ++ some text :: right ∧ ¬Clean text) ∨
        ∃ nulls text right, row = strings.map some ++ none :: (nulls ++ some text :: right) ∧
          ∀ field ∈ nulls, field = none) := by
  induction row with
  | nil => exact absurd trivial h
  | cons field rest ih =>
      cases field with
      | none =>
          have hsome : ∃ field ∈ rest, field ≠ none := by
            by_contra hall
            push Not at hall
            exact h hall
          have hfind : ∀ fields : List (Option Text), (∃ field ∈ fields, field ≠ none) →
              ∃ nulls text right, fields = nulls ++ some text :: right ∧
                ∀ field ∈ nulls, field = none := by
            intro fields hfields
            induction fields with
            | nil => obtain ⟨field, hmem, -⟩ := hfields; cases hmem
            | cons first others ih₁ =>
                cases first with
                | some text => exact ⟨[], text, others, rfl, nofun⟩
                | none =>
                    obtain ⟨field, hmem, hfield⟩ := hfields
                    have hothers : field ∈ others := by
                      rcases List.mem_cons.mp hmem with rfl | hmem
                      · exact absurd rfl hfield
                      · exact hmem
                    obtain ⟨nulls, text, right, hsplit, hnulls⟩ := ih₁ ⟨field, hothers, hfield⟩
                    refine ⟨none :: nulls, text, right, by rw [hsplit]; rfl, fun other hother => ?_⟩
                    rcases List.mem_cons.mp hother with rfl | hother
                    · rfl
                    · exact hnulls other hother
          obtain ⟨nulls, text, right, hsplit, hnulls⟩ := hfind rest hsome
          exact ⟨[], nofun, .inr ⟨nulls, text, right, by rw [hsplit]; rfl, hnulls⟩⟩
      | some first =>
          by_cases hfirst : Clean first
          · obtain ⟨strings, hclean, hcase⟩ := ih fun hrest => h ⟨hfirst, hrest⟩
            refine ⟨first :: strings, fun text htext => ?_, ?_⟩
            · rcases List.mem_cons.mp htext with rfl | hmem
              · exact hfirst
              · exact hclean text hmem
            · rcases hcase with ⟨text, right, hrow, hdirty⟩ | ⟨nulls, text, right, hrow, hnulls⟩
              · exact .inl ⟨text, right, by rw [hrow]; rfl, hdirty⟩
              · exact .inr ⟨nulls, text, right, by rw [hrow]; rfl, hnulls⟩
          · exact ⟨[], nofun, .inl ⟨first, rest, rfl, hfirst⟩⟩

end Row

section Edits

variable {table : Text} {row : List (Option Text)} {text : Text} {i : ℕ}

/-- The first field is that of 0 and of 1. -/
theorem findnth_pred (fuel : ℕ) (str : Text) (n : ℕ) :
    findnth fuel str n = findnth fuel str (n - 1 + 1) := by
  unfold findnth
  rw [Nat.add_sub_cancel]

/-- A string of a regular row is found. -/
theorem findnth_regular (htable : '\'' ∉ table) (hregular : Regular row)
    (hget : row[i]? = some (some text)) (fuel : ℕ) :
    findnth (fuel + 1) (dumpRow table row) (i + 1) =
      some (some (fieldStart table row i, fieldStart table row i + text.length)) := by
  obtain ⟨strings, right, rfl, hlength, hclean, htext, -⟩ := hregular.split hget
  have hsplit : ∃ first rest, strings ++ [text] = first :: rest := by
    cases strings with
    | nil => exact ⟨text, [], rfl⟩
    | cons first rest => exact ⟨first, rest ++ [text], rfl⟩
  obtain ⟨first, rest, hsplit⟩ := hsplit
  have hall : ∀ other ∈ first :: rest, Clean other := by
    rw [← hsplit]
    intro other hother
    rcases List.mem_append.mp hother with hmem | hmem
    · exact hclean other hmem
    · rw [List.mem_singleton.mp hmem]
      exact htext
  have hrow : strings.map some ++ some text :: right = some first :: (rest.map some ++ right) := by
    rw [← List.cons_append, ← List.map_cons, ← hsplit, List.map_append, List.append_assoc]
    rfl
  have hlast : rest.length = i := by
    have hlengths := congrArg List.length hsplit
    simp only [List.length_append, List.length_cons, List.length_nil] at hlengths
    omega
  obtain ⟨left', text', found', hat, hsame, hrun⟩ := findnth_strings right htable first rest
    (hall first List.mem_cons_self) (fun other hother => hall other (List.mem_cons_of_mem _ hother))
    fuel
  have hends : left' = strings.map some ∧ [some text'] = [some text] := by
    refine List.append_inj' ?_ rfl
    rw [hsame, ← List.map_cons, ← hsplit, List.map_append]
    rfl
  obtain ⟨rfl, hsame₁⟩ := hends
  cases hsame₁
  have hrun₀ := hrun 0
  rw [← hrow, hlast] at hrun₀
  rw [← Nat.add_zero i, hrun₀]
  have htake : (strings.map some ++ some text :: right).take (i + 0) = strings.map some := by
    rw [Nat.add_zero, ← hlength, ← List.length_map some, List.take_left]
  unfold nextFields fieldStart
  rw [htake, ← hat.start, ← hat.finish]

/-- There is no other field to find. -/
theorem findnth_regular_none (htable : '\'' ∉ table) (hregular : Regular row)
    (hget : ∀ text, row[i]? ≠ some (some text)) (fuel : ℕ) :
    findnth (fuel + 1) (dumpRow table row) (i + 1) = some none := by
  obtain ⟨strings, nulls, rfl, hclean, hnulls⟩ := hregular.parts
  refine findnth_beyond htable strings hclean hnulls fuel (Nat.le_of_not_lt fun hlt => ?_)
  refine hget strings[i] ?_
  rw [List.getElem?_append_left (by rwa [List.length_map]), List.getElem?_map,
    List.getElem?_eq_getElem hlt]
  rfl

/-- What is written over a text. -/
def editText (edit : Edit) (text : Text) : Text :=
  if edit.nonzero ∧ text = ['0'] then text
  else if edit.insert then edit.value ++ text
  else edit.value

/-- An edit of a row. -/
def editRow (row : List (Option Text)) (edit : Edit) : List (Option Text) :=
  match row[edit.n - 1]? with
  | some (some text) => row.set (edit.n - 1) (some (editText edit text))
  | _ => row

/-- A row is written with another text in the place of one. -/
theorem dumpRow_set (table : Text) (hget : row[i]? = some (some text)) (value : Text) :
    ∃ before after, dumpRow table row = before ++ (text ++ after) ∧
      before.length = fieldStart table row i ∧
      dumpRow table (row.set i (some value)) = before ++ (value ++ after) := by
  obtain ⟨hlt, hfield⟩ := List.getElem?_eq_some_iff.mp hget
  refine ⟨beforeField table (row.take i) ++ ['\''], '\'' :: afterField (row.drop (i + 1)), ?_, ?_, ?_⟩
  · rw [← dumpRow_string, ← hfield, ← List.drop_eq_getElem_cons hlt, List.take_append_drop]
  · rw [List.length_append]
    rfl
  · rw [← dumpRow_string, List.set_eq_take_append_cons_drop, if_pos hlt]

/-- `changenth` changes the row. -/
theorem changenth_regular (htable : '\'' ∉ table) (hregular : Regular row) (edit : Edit) (fuel : ℕ) :
    ∃ found, changenth (fuel + 1) (dumpRow table row) edit.n edit.value edit.insert edit.nonzero =
      some (found, dumpRow table (editRow row edit)) := by
  unfold changenth
  rw [findnth_pred]
  by_cases hget : ∃ text, row[edit.n - 1]? = some (some text)
  · obtain ⟨text, hget⟩ := hget
    obtain ⟨before, after, hdump, hlength, hset⟩ := dumpRow_set table hget (editText edit text)
    have hedit : editRow row edit = row.set (edit.n - 1) (some (editText edit text)) := by
      unfold editRow
      rw [hget]
    have htake : ((dumpRow table row).drop before.length).take
        (before.length + text.length - before.length) = text := by
      rw [hdump, List.drop_left, Nat.add_sub_cancel_left, List.take_left]
    rw [findnth_regular htable hregular hget, ← hlength, Option.map_some]
    dsimp only
    rw [htake, hedit, hset]
    unfold editText
    split_ifs with hkeep hinsert
    · exact ⟨true, by rw [hdump]⟩
    · refine ⟨true, ?_⟩
      rw [hdump, List.take_left, List.drop_left]
      simp only [List.append_assoc]
    · refine ⟨true, ?_⟩
      rw [hdump, List.take_left, ← List.drop_drop, List.drop_left, List.drop_left, List.append_assoc]
  · have hnone : ∀ text, row[edit.n - 1]? ≠ some (some text) := fun text htext => hget ⟨text, htext⟩
    have hedit : editRow row edit = row := by
      unfold editRow
      split
      · next text htext => exact absurd htext (hnone text)
      · rfl
    rw [findnth_regular_none htable hregular hnone, hedit]
    exact ⟨false, rfl⟩

/-- Digits are clean. -/
theorem clean_digits {value : Text} (h : value.all Char.isDigit = true) : Clean value := by
  rw [List.all_eq_true] at h
  refine ⟨fun hmem => ?_, fun hlast => ?_⟩
  · exact absurd (h _ hmem) (by decide)
  · exact absurd (h _ (List.mem_of_getLast? hlast)) (by decide)

/-- Digits written over a clean text, or before it, make a clean text. -/
theorem clean_editText {edit : Edit} (hdigits : edit.value.all Char.isDigit = true)
    (hclean : Clean text) : Clean (editText edit text) := by
  have hvalue := clean_digits hdigits
  unfold editText
  split_ifs
  · exact hclean
  · refine ⟨fun hmem => ?_, fun hlast => ?_⟩
    · rcases List.mem_append.mp hmem with hmem | hmem
      · exact hvalue.1 hmem
      · exact hclean.1 hmem
    · rw [List.getLast?_append] at hlast
      cases htext : text.getLast? with
      | none =>
          rw [htext, Option.none_or] at hlast
          exact hvalue.2 hlast
      | some c =>
          rw [htext] at hlast
          exact hclean.2 (htext.trans hlast)
  · exact hvalue

/-- A regular row stays regular. -/
theorem regular_editRow (hregular : Regular row) {edit : Edit}
    (hdigits : edit.value.all Char.isDigit = true) : Regular (editRow row edit) := by
  unfold editRow
  split
  · next text hget =>
      obtain ⟨strings, right, hrow, hlength, hclean, htext, hright⟩ := hregular.split hget
      rw [hrow, ← hlength, ← List.length_map some, List.set_append_right _ _ le_rfl, Nat.sub_self,
        List.set_cons_zero]
      exact regular_append hclean ⟨clean_editText hdigits htext, hright⟩
  · exact hregular

/-- A sequence of edits of a row. -/
def editRows (row : List (Option Text)) (edits : List Edit) : List (Option Text) :=
  edits.foldl editRow row

/-- A sequence of calls of `changenth` edits the row; it stays regular. -/
theorem applyEdits_regular (htable : '\'' ∉ table) (edits : List Edit)
    (hdigits : ∀ edit ∈ edits, edit.value.all Char.isDigit = true) (hregular : Regular row)
    (fuel : ℕ) :
    applyEdits (fuel + 1) (dumpRow table row) edits = some (dumpRow table (editRows row edits)) ∧
      Regular (editRows row edits) := by
  induction edits generalizing row with
  | nil => exact ⟨rfl, hregular⟩
  | cons edit rest ih =>
      obtain ⟨found, hchange⟩ := changenth_regular htable hregular edit fuel
      have hrest := ih (fun edit hedit => hdigits edit (List.mem_cons_of_mem _ hedit))
        (regular_editRow hregular (hdigits edit List.mem_cons_self))
      unfold applyEdits
      rw [hchange]
      exact hrest

/-- The loops end for a field, and find it if it is a string: it is read there, and what is written over it
replaces it and nothing else. Behind the row there is nothing. -/
structure Addressed (fuel : ℕ) (table : Text) (row : List (Option Text)) (str : Text) (i : ℕ) :
    Prop where
  ends : findnth fuel str (i + 1) ≠ none
  place : ∀ text, row[i]? = some (some text) →
    findnth fuel str (i + 1) =
      some (some (fieldStart table row i, fieldStart table row i + text.length))
  read : ∀ text, row[i]? = some (some text) → getnth fuel str (i + 1) = some text
  write : ∀ text, row[i]? = some (some text) → ∀ value, changenth fuel str (i + 1) value false false =
    some (true, dumpRow table (row.set i (some value)))
  beyond : row.length ≤ i → findnth fuel str (i + 1) = some none

/-- Every field of a regular row is addressed. -/
theorem addressed_regular (htable : '\'' ∉ table) (hregular : Regular row) (fuel : ℕ) (i : ℕ) :
    Addressed (fuel + 1) table row (dumpRow table row) i where
  ends := by
    by_cases hget : ∃ text, row[i]? = some (some text)
    · obtain ⟨text, hget⟩ := hget
      rw [findnth_regular htable hregular hget]
      exact nofun
    · rw [findnth_regular_none htable hregular fun text htext => hget ⟨text, htext⟩]
      exact nofun
  place := fun text hget => findnth_regular htable hregular hget fuel
  read := by
    intro text hget
    obtain ⟨before, after, hdump, hlength, -⟩ := dumpRow_set table hget text
    unfold getnth
    rw [findnth_regular htable hregular hget, Option.map_some, ← hlength]
    dsimp only
    rw [hdump, List.drop_left, Nat.add_sub_cancel_left, List.take_left]
  write := by
    intro text hget value
    obtain ⟨before, after, hdump, hlength, hset⟩ := dumpRow_set table hget value
    unfold changenth
    rw [findnth_regular htable hregular hget, Option.map_some, ← hlength]
    dsimp only
    rw [if_neg (by simp), if_neg (by simp), hset, hdump, List.take_left, ← List.drop_drop,
      List.drop_left, List.drop_left, List.append_assoc]
  beyond := by
    intro hlength
    refine findnth_regular_none htable hregular (fun text hget => ?_) fuel
    rw [List.getElem?_eq_none hlength] at hget
    cases hget

/-- A quote is not among `NULL`s. -/
theorem length_le_of_quote {lead nulls : List (Option Text)} (hnulls : ∀ field ∈ nulls, field = none)
    {rest : Text} {e : ℕ} (hlead : (beforeField table lead).length ≤ e)
    (hquote : (beforeField table (lead ++ nulls) ++ rest)[e]? = some '\'') :
    (beforeField table (lead ++ nulls)).length ≤ e := by
  by_contra hlt
  rw [List.getElem?_append_left (Nat.lt_of_not_le hlt)] at hquote
  unfold beforeField at hquote hlead
  rw [List.flatMap_append, ← List.append_assoc, List.getElem?_append_right hlead] at hquote
  obtain ⟨field, hfield, hin⟩ := List.mem_flatMap.mp (List.mem_of_getElem? hquote)
  rw [hnulls field hfield] at hin
  revert hin
  decide

/-- From a quote behind the last string the loops find nothing before the end of the `NULL`s. -/
theorem nextFields_nulls {lead nulls : List (Option Text)} {str rest : Text} {fuel turns : ℕ}
    {found found' : ℕ × ℕ} (hnulls : ∀ field ∈ nulls, field = none)
    (hdump : str = beforeField table (lead ++ nulls) ++ rest)
    (hlead : (beforeField table lead).length ≤ found.2) (hquote : str[found.2]? = some '\'')
    (hrun : nextFields str fuel (turns + 1) found = some (some found')) :
    (beforeField table (lead ++ nulls)).length + 4 ≤ found'.1 := by
  rw [hdump] at hquote
  have hbeyond := length_le_of_quote hnulls hlead hquote
  have hlater := nextFields_le hrun
  omega

/-- What is looked for after clean strings and `NULL`s is found four characters too late at the earliest. -/
theorem findnth_nulls (htable : '\'' ∉ table) {strings : List Text}
    (hclean : ∀ text ∈ strings, Clean text) {nulls right : List (Option Text)}
    (hnulls : ∀ field ∈ none :: nulls, field = none)
    (hdump : dumpRow table (strings.map some ++ (none :: nulls ++ some text :: right)) =
      beforeField table (strings.map some ++ none :: nulls) ++
        ('\'' :: (text ++ '\'' :: afterField right))) {fuel : ℕ} {found' : ℕ × ℕ}
    (h : findnth (fuel + 1) (dumpRow table (strings.map some ++ (none :: nulls ++ some text :: right)))
      (strings.length + nulls.length + 2) = some (some found')) :
    (beforeField table (strings.map some ++ none :: nulls)).length + 4 ≤ found'.1 := by
  cases strings with
  | nil =>
      unfold findnth at h
      split at h
      · next found hfirst =>
          have hquote := firstEnd_spec hfirst
          have hno : '\'' ∉ beforeField table [] := quote_notMem_beforeField htable nofun
          -- the first loop stops behind the head of the statement
          refine nextFields_nulls hnulls hdump ?_ hquote (by simpa using h)
          by_contra hlt
          have hbefore : found.2 < (beforeField table []).length := Nat.lt_of_not_le hlt
          have hhead := dumpRow_append table [] none (nulls ++ some text :: right)
          rw [List.nil_append] at hhead
          have hquote' : (dumpRow table (none :: (nulls ++ some text :: right)))[found.2]? =
              some '\'' := hquote
          rw [hhead, List.getElem?_append_left hbefore] at hquote'
          exact hno (List.mem_of_getElem? hquote')
      · next hother => exact absurd h (hother _)
  | cons first rest =>
      obtain ⟨left', text', found, hat, hsame, hrun⟩ :=
        findnth_strings (none :: nulls ++ some text :: right) htable first rest
          (hclean first List.mem_cons_self)
          (fun other hother => hclean other (List.mem_cons_of_mem _ hother)) fuel
      have hturns : (first :: rest).length + nulls.length + 2 =
          rest.length + (nulls.length + 1 + 1) + 1 := by
        rw [List.length_cons]
        omega
      have hend : (beforeField table ((first :: rest).map some)).length = found.2 + 3 := by
        rw [List.map_cons, ← hsame, hat.length_next]
      rw [hturns] at h
      have hloops := (hrun (nulls.length + 1 + 1)).symm.trans h
      unfold nextFields at hloops
      split at hloops
      · next found₁ hnext =>
          have hfound := nextEnd_spec hnext
          exact nextFields_nulls hnulls hdump (by omega) hfound.2.2 hloops
      · next hother => exact absurd hloops (hother _)

/-- A string after `NULL`s is not found: the loops are beyond its beginning. -/
theorem not_addressed_nulls (htable : '\'' ∉ table) {strings : List Text}
    (hclean : ∀ text ∈ strings, Clean text) {nulls right : List (Option Text)}
    (hnulls : ∀ field ∈ nulls, field = none)
    (hrow : row = strings.map some ++ none :: (nulls ++ some text :: right)) (fuel : ℕ) :
    ¬Addressed (fuel + 1) table row (dumpRow table row) (strings.length + nulls.length + 1) := by
  intro haddressed
  have hall : ∀ field ∈ none :: nulls, field = none := by
    intro field hfield
    rcases List.mem_cons.mp hfield with rfl | hmem
    · rfl
    · exact hnulls field hmem
  have hsplit : row = (strings.map some ++ none :: nulls) ++ some text :: right := by
    rw [hrow, List.append_assoc]
    rfl
  have hlength : (strings.map some ++ none :: nulls).length = strings.length + nulls.length + 1 := by
    rw [List.length_append, List.length_map, List.length_cons, Nat.add_assoc]
  have hget : row[strings.length + nulls.length + 1]? = some (some text) := by
    rw [hsplit, ← hlength, List.getElem?_append_right le_rfl, Nat.sub_self]
    rfl
  have htake : row.take (strings.length + nulls.length + 1) = strings.map some ++ none :: nulls := by
    rw [hsplit, ← hlength, List.take_left]
  have hdump : dumpRow table row = beforeField table (strings.map some ++ none :: nulls) ++
      ('\'' :: (text ++ '\'' :: afterField right)) := by
    rw [hsplit, dumpRow_string, List.append_assoc]
    rfl
  have hplace := haddressed.place text hget
  unfold fieldStart at hplace
  rw [htake] at hplace
  subst hrow
  have hlater := findnth_nulls htable hclean hall hdump hplace
  dsimp only at hlater
  omega

/-- A string that is not clean is not found. -/
theorem not_addressed_dirty (htable : '\'' ∉ table) (strings : List Text)
    (hclean : ∀ text ∈ strings, Clean text) (hguarded : Guarded text) (hdirty : ¬Clean text)
    {right : List (Option Text)} (hrow : row = strings.map some ++ some text :: right) (fuel : ℕ) :
    ¬Addressed (fuel + 1) table row (dumpRow table row) strings.length := by
  intro haddressed
  have hget : row[strings.length]? = some (some text) := by
    rw [hrow, ← List.length_map some, List.getElem?_append_right le_rfl, Nat.sub_self]
    rfl
  have hplace := haddressed.place text hget
  cases strings with
  | nil =>
      rw [List.map_nil, List.nil_append] at hrow
      unfold findnth at hplace
      rw [hrow, firstEnd_dirty htable hguarded hdirty] at hplace
      cases hplace
  | cons first rest =>
      obtain ⟨left', text', found', hat, hsame, hrun⟩ :=
        findnth_strings (some text :: right) htable first rest (hclean first List.mem_cons_self)
          (fun other hother => hclean other (List.mem_cons_of_mem _ hother)) fuel
      have hrow' : row = some first :: (rest.map some ++ some text :: right) := hrow
      have hleft : row = left' ++ some text' :: some text :: right := by
        rw [hrow', ← List.cons_append, ← hsame, List.append_assoc]
        rfl
      have hrun₁ := hrun 1
      rw [← hrow'] at hrun₁
      rw [List.length_cons, hrun₁] at hplace
      unfold nextFields at hplace
      cases hnext : nextEnd (dumpRow table row) (fuel + 1) found'.2 with
      | none =>
          rw [hnext] at hplace
          cases hplace
      | some result =>
          cases result with
          | none =>
              rw [hnext] at hplace
              cases hplace
          | some found =>
              rw [hnext] at hplace
              unfold nextFields at hplace
              have htake : row.take (rest.length + 1) = left' ++ [some text'] := by
                rw [hsame, hrow', ← List.cons_append, ← List.length_map some,
                  ← List.length_cons (a := some first), List.take_left]
              unfold fieldStart at hplace
              rw [htake] at hplace
              cases hplace
              rw [hleft] at hnext
              exact nextEnd_dirty hat hguarded hdirty (fuel + 1) hnext rfl

/-- The fields of a row are addressed under every sequence of edits with numbers exactly if the row is regular
when it is written. -/
theorem findnth_addresses_iff (escape : Text → Text) (hescape : ∀ raw, Guarded (escape raw))
    (htable : '\'' ∉ table) (row : List (Option Text)) :
    (∀ edits : List Edit, (∀ edit ∈ edits, edit.value.all Char.isDigit = true) →
      ∃ fuel, ∀ k ≥ fuel, ∃ str,
        applyEdits k (createDumpString escape table row) edits = some str ∧
          ∀ i, Addressed k table (editRows (row.map (Option.map escape)) edits) str i) ↔
      Regular (row.map (Option.map escape)) := by
  constructor
  · intro haddressed
    by_contra hirregular
    obtain ⟨fuel, hall⟩ := haddressed [] nofun
    obtain ⟨str, hstr, hfields⟩ := hall (fuel + 1) (Nat.le_succ _)
    cases hstr
    have hguarded : ∀ text, some text ∈ row.map (Option.map escape) → Guarded text := by
      intro text hmem
      obtain ⟨field, -, hfield⟩ := List.mem_map.mp hmem
      obtain ⟨raw, -, rfl⟩ := Option.map_eq_some_iff.mp hfield
      exact hescape raw
    obtain ⟨strings, hclean, hcase⟩ := exists_irregular hirregular
    rcases hcase with ⟨text, right, hrow, hdirty⟩ | ⟨nulls, text, right, hrow, hnulls⟩
    · have htext := hguarded text (by rw [hrow]; simp)
      exact not_addressed_dirty htable strings hclean htext hdirty hrow fuel (hfields _)
    · exact not_addressed_nulls htable hclean hnulls hrow fuel (hfields _)
  · intro hregular edits hdigits
    refine ⟨1, fun k hk => ?_⟩
    obtain ⟨fuel, rfl⟩ := Nat.exists_eq_succ_of_ne_zero (Nat.one_le_iff_ne_zero.mp hk)
    obtain ⟨hrun, hregular'⟩ := applyEdits_regular htable edits hdigits hregular fuel
    exact ⟨_, hrun, addressed_regular htable hregular' fuel⟩

/-- `mysql_real_escape_string`. -/
def mysqlEscape (raw : Text) : Text := Lib.escapeText raw

theorem guarded_append {first second : Text} (hfirst : Guarded first) (hsecond : Guarded second) :
    Guarded (first ++ second) := by
  intro before after h
  rcases List.append_eq_append_iff.mp h with ⟨more, rfl, hmore⟩ | ⟨more, rfl, hmore⟩
  · have hlast := hsecond more after hmore
    rw [List.getLast?_append, hlast]
    rfl
  · cases more with
    | nil =>
        have hlast := hsecond [] after (by simpa using hmore.symm)
        cases hlast
    | cons c rest =>
        obtain ⟨rfl, -⟩ := List.cons.inj hmore
        exact hfirst before rest rfl

/-- A character behind a backslash. -/
theorem guarded_pair (c : Char) : Guarded ['\\', c] := by
  intro before after h
  cases before with
  | nil => exact absurd (List.cons.inj h).1 (by decide)
  | cons first rest =>
      obtain ⟨rfl, hrest⟩ := List.cons.inj h
      cases rest with
      | nil => rfl
      | cons second others => simp at hrest

theorem guarded_mysqlEscape (raw : Text) : Guarded (mysqlEscape raw) := by
  induction raw with
  | nil =>
      intro before after h
      exact absurd h.symm (by simp [mysqlEscape, Lib.escapeText])
  | cons c rest ih =>
      refine guarded_append ?_ ih
      unfold Lib.escapeLetter
      split_ifs with h₀ hn hr hz hspecial
      · exact guarded_pair '0'
      · exact guarded_pair 'n'
      · exact guarded_pair 'r'
      · exact guarded_pair 'Z'
      · exact guarded_pair c
      · intro before after h
        have hmem : '\'' ∈ [c] := by
          rw [h]
          simp
        exact absurd (.inr (.inl (List.mem_singleton.mp hmem).symm)) hspecial

/-- A row without quotes is addressed before and after its number is changed. -/
theorem findnth_addresses_plain :
    ∃ fuel, ∀ k ≥ fuel, ∃ str,
      applyEdits k (createDumpString mysqlEscape "mail".toList [some ['7'], some ['h', 'i'], none])
          [⟨1, ['4', '2'], false, false⟩] = some str ∧
        ∀ i, Addressed k "mail".toList (editRows [some ['7'], some ['h', 'i'], none]
          [⟨1, ['4', '2'], false, false⟩]) str i :=
  (findnth_addresses_iff mysqlEscape guarded_mysqlEscape (by decide)
    [some ['7'], some ['h', 'i'], none]).mpr (by decide) _ (by decide)

/-- A mail with a quote in its subject, which is its seventh field: it is not found. -/
theorem findnth_mail_subject : ¬∃ fuel, ∀ k ≥ fuel, ∀ i,
    Addressed k "mail".toList
      ((["7", "0", "41", "0", "5", "6", "It's here", "9"].map fun field => some field.toList).map
        (Option.map mysqlEscape))
      (createDumpString mysqlEscape "mail".toList
        (["7", "0", "41", "0", "5", "6", "It's here", "9"].map fun field => some field.toList)) i := by
  intro h
  obtain ⟨fuel, hall⟩ := h
  exact not_addressed_dirty (by decide)
    [['7'], ['0'], ['4', '1'], ['0'], ['5'], ['6']] (by decide)
    (guarded_mysqlEscape "It's here".toList) (by decide) rfl fuel (hall (fuel + 1) (Nat.le_succ _) 6)

end Edits

end TwowCore.PlayerDump
