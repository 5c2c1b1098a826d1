import TwowCore.Lib.Fresh

/-!
# The keys of a merge

Before two realms are merged each family of keys of DB-2 is renamed, so that no key of it is one of
DB-1. The fast method shifts all of them past both databases; the slow one, for keys that are too large
for that, gives a new key to each that is taken, with one `UPDATE` after the other.
-/

namespace TwowCore.RealmMerge

/-- `INT32_MAX`. -/
def int32Max : ℕ := 2147483647

/-- A `std::set` of the keys in the rows of a table. -/
def keySet (rows : List ℕ) : List ℕ := rows.dedup.insertionSort (· ≤ ·)

/-- `UniqueKeyData`. -/
structure UniqueKeyData where
  existingKeys1 : List ℕ
  existingKeys2 : List ℕ
  replacedKeys : List (ℕ × ℕ)
  counter : ℕ
  deriving DecidableEq, Repr

namespace UniqueKeyData

/-- The keys of both databases. -/
def taken (d : UniqueKeyData) : List ℕ := d.existingKeys1 ++ d.existingKeys2

/-- `ReplaceKeyIfNeeded`: the key, and whether it is a new one. -/
def replaceKeyIfNeeded (d : UniqueKeyData) (key : ℕ) : UniqueKeyData × ℕ × Bool :=
  match d.replacedKeys.find? fun e => e.1 = key with
  | some e => (d, e.2, false)
  | none =>
      if key ∉ d.existingKeys1 then (d, key, false)
      else
        let counter := Lib.nextFree d.taken d.taken.length (d.counter + 1)
        ({ d with replacedKeys := d.replacedKeys ++ [(key, counter)], counter := counter },
          counter, true)

/-- The loop of the slow method over keys of DB-2, with the renames it makes: `SET key = new WHERE
key = old`. -/
def slowRenames (d : UniqueKeyData) : List ℕ → List (ℕ × ℕ)
  | [] => []
  | key :: rest =>
      match d.replaceKeyIfNeeded key with
      | (d', new, true) => (key, new) :: slowRenames d' rest
      | (d', _, false) => slowRenames d' rest

end UniqueKeyData

/-- One `UPDATE` after the other, on a cell of a column. -/
def runUpdates (renames : List (ℕ × ℕ)) (cell : ℕ) : ℕ :=
  renames.foldl (fun cell rename => if cell = rename.1 then rename.2 else cell) cell

/-- All at once. -/
def substitute (renames : List (ℕ × ℕ)) (cell : ℕ) : ℕ :=
  ((renames.find? fun rename => rename.1 = cell).map Prod.snd).getD cell

/-- The renames of the slow method. -/
def slowMethod (keys1 keys2 : List ℕ) : List (ℕ × ℕ) :=
  UniqueKeyData.slowRenames ⟨keys1, keys2, [], 0⟩ keys2

/-- The largest key of a set, which is its last one. -/
def maxKey (keys : List ℕ) : ℕ := keys.getLastD 0

/-- What the fast method adds. -/
def fastOffset (keys1 keys2 : List ℕ) : ℕ := max (maxKey keys1) (maxKey keys2)

/-- The fast method is taken. -/
def FastFits (keys1 keys2 : List ℕ) : Prop :=
  fastOffset keys1 keys2 + maxKey keys2 < int32Max

instance (keys1 keys2 : List ℕ) : Decidable (FastFits keys1 keys2) :=
  inferInstanceAs (Decidable (_ < _))

/-- What a family does with a cell that has a key: nothing when there are too many keys, or none in one
of the databases. -/
def mergedKey (keys1 keys2 : List ℕ) (cell : ℕ) : ℕ :=
  if int32Max < keys1.length + keys2.length then cell
  else if keys1 = [] ∨ keys2 = [] then cell
  else if FastFits keys1 keys2 then cell + fastOffset keys1 keys2
  else runUpdates (slowMethod keys1 keys2) cell

/-- The keys of DB-2 are renamed apart from each other and from those of DB-1, within the range of
keys. -/
structure Renamed (keys1 keys2 : List ℕ) (f : ℕ → ℕ) : Prop where
  injOn : ∀ k ∈ keys2, ∀ k' ∈ keys2, f k = f k' → k = k'
  pos : ∀ k ∈ keys2, 0 < f k
  le : ∀ k ∈ keys2, k ≤ int32Max → f k ≤ int32Max
  apart : ∀ k ∈ keys2, f k ∉ keys1

/-- What the renames of a loop from a counter on are. -/
structure Renames (keys1 keys2 : List ℕ) (start : ℕ) (keys : List ℕ)
    (renames : List (ℕ × ℕ)) : Prop where
  olds : (renames.map Prod.fst).Sublist keys
  needed : ∀ k ∈ keys, k ∈ renames.map Prod.fst ↔ k ∈ keys1
  above : ∀ new ∈ renames.map Prod.snd, start < new
  news : (renames.map Prod.snd).Nodup
  free : ∀ new ∈ renames.map Prod.snd, new ∉ keys1 ++ keys2
  filled : ∀ new ∈ renames.map Prod.snd, ∀ n, start < n → n ≤ new →
    n ∈ keys1 ++ keys2 ∨ n ∈ renames.map Prod.snd

section Loop

variable {keys1 keys2 keys : List ℕ} {renames : List (ℕ × ℕ)} {start k : ℕ}

/-- A key that has not been replaced is replaced when it is taken. -/
theorem replaceKeyIfNeeded_eq {d : UniqueKeyData} (h : k ∉ d.replacedKeys.map Prod.fst) :
    d.replaceKeyIfNeeded k =
      if k ∉ d.existingKeys1 then (d, k, false)
      else
        ({ d with
            replacedKeys :=
              d.replacedKeys ++ [(k, Lib.nextFree d.taken d.taken.length (d.counter + 1))]
            counter := Lib.nextFree d.taken d.taken.length (d.counter + 1) },
          Lib.nextFree d.taken d.taken.length (d.counter + 1), true) := by
  have hnone : (d.replacedKeys.find? fun e => e.1 = k) = none := by
    refine List.find?_eq_none.mpr fun e he => ?_
    rw [decide_eq_true_eq]
    rintro rfl
    exact h (List.mem_map_of_mem he)
  unfold UniqueKeyData.replaceKeyIfNeeded
  rw [hnone]

/-- The renames of the loop. -/
theorem slowRenames_spec {replaced : List (ℕ × ℕ)} (hnodup : keys.Nodup)
    (hnew : ∀ k ∈ keys, k ∉ replaced.map Prod.fst) :
    Renames keys1 keys2 start keys
      (UniqueKeyData.slowRenames ⟨keys1, keys2, replaced, start⟩ keys) := by
  induction keys generalizing replaced start with
  | nil =>
      exact
        { olds := List.Sublist.refl _
          needed := by simp
          above := by simp [UniqueKeyData.slowRenames]
          news := List.nodup_nil
          free := by simp [UniqueKeyData.slowRenames]
          filled := by simp [UniqueKeyData.slowRenames] }
  | cons key rest ih =>
      obtain ⟨hnot, hrest⟩ := List.nodup_cons.mp hnodup
      have hkey := replaceKeyIfNeeded_eq (d := ⟨keys1, keys2, replaced, start⟩)
        (hnew key List.mem_cons_self)
      unfold UniqueKeyData.slowRenames
      rw [hkey]
      by_cases hmem : key ∈ keys1
      · rw [if_neg (not_not.mpr hmem)]
        simp only [UniqueKeyData.taken]
        have hfree := Lib.nextFree_notMem (keys1 ++ keys2) (start + 1)
        have hpast := Lib.le_nextFree (keys1 ++ keys2) (keys1 ++ keys2).length (start + 1)
        have hpassed : ∀ n, start < n →
            n < Lib.nextFree (keys1 ++ keys2) (keys1 ++ keys2).length (start + 1) →
            n ∈ keys1 ++ keys2 := fun n hlow hhigh => Lib.mem_of_lt_nextFree hlow hhigh
        generalize Lib.nextFree (keys1 ++ keys2) (keys1 ++ keys2).length (start + 1) = new
          at hfree hpast hpassed ⊢
        have hspec := @ih new (replaced ++ [(key, new)]) hrest fun k hk => by
          rw [List.map_append, List.mem_append, not_or]
          refine ⟨hnew k (List.mem_cons_of_mem _ hk), ?_⟩
          intro hlast
          have heq : k = key := List.mem_singleton.mp hlast
          exact hnot (heq ▸ hk)
        exact
          { olds := hspec.olds.cons_cons key
            needed := fun k hk => by
              rw [List.map_cons, List.mem_cons]
              rcases List.mem_cons.mp hk with rfl | hlater
              · exact iff_of_true (Or.inl rfl) hmem
              · rw [← hspec.needed k hlater, or_iff_right]
                rintro rfl
                exact hnot hlater
            above := fun n hn => by
              rcases List.mem_cons.mp hn with rfl | hlater
              · exact hpast
              · exact Nat.lt_trans hpast (hspec.above n hlater)
            news := List.nodup_cons.mpr
              ⟨fun hlater => Nat.lt_irrefl _ (hspec.above new hlater), hspec.news⟩
            free := fun n hn => by
              rcases List.mem_cons.mp hn with rfl | hlater
              · exact hfree
              · exact hspec.free n hlater
            filled := fun n hn m hlow hhigh => by
              rw [List.map_cons, List.mem_cons]
              by_cases hbelow : m < new
              · exact Or.inl (hpassed m hlow hbelow)
              · by_cases heq : m = new
                · exact Or.inr (Or.inl heq)
                · rcases List.mem_cons.mp hn with rfl | hlater
                  · omega
                  · exact (hspec.filled n hlater m (by omega) hhigh).imp_right Or.inr }
      · rw [if_pos hmem]
        have hspec := @ih start replaced hrest fun k hk =>
          hnew k (List.mem_cons_of_mem _ hk)
        exact
          { olds := hspec.olds.cons key
            needed := fun k hk => by
              rcases List.mem_cons.mp hk with rfl | hlater
              · exact iff_of_false (fun hold => hnot (hspec.olds.subset hold)) hmem
              · exact hspec.needed k hlater
            above := hspec.above
            news := hspec.news
            free := hspec.free
            filled := hspec.filled }

/-- When no new key is an old one, one `UPDATE` after the other does what all at once would. -/
theorem runUpdates_eq (hfresh : ∀ new ∈ renames.map Prod.snd, new ∉ renames.map Prod.fst)
    (cell : ℕ) : runUpdates renames cell = substitute renames cell := by
  have hkeep : ∀ (rest : List (ℕ × ℕ)) (cell : ℕ), cell ∉ rest.map Prod.fst →
      runUpdates rest cell = cell := by
    intro rest
    induction rest with
    | nil => exact fun _ _ => rfl
    | cons rename rest ih =>
        intro cell hnot
        rw [List.map_cons, List.mem_cons, not_or] at hnot
        show runUpdates rest (if cell = rename.1 then rename.2 else cell) = cell
        rw [if_neg hnot.1]
        exact ih cell hnot.2
  induction renames generalizing cell with
  | nil => rfl
  | cons rename rest ih =>
      show runUpdates rest (if cell = rename.1 then rename.2 else cell) = _
      unfold substitute
      rw [List.find?_cons]
      by_cases heq : cell = rename.1
      · rw [if_pos heq]
        simp only [heq, decide_true]
        refine hkeep rest rename.2 fun hold => ?_
        exact hfresh rename.2 List.mem_cons_self (List.mem_cons_of_mem _ hold)
      · rw [if_neg heq]
        have hne : decide (rename.1 = cell) = false := decide_eq_false (Ne.symm heq)
        simp only [hne]
        refine ih (fun new hnew hold => ?_) cell
        exact hfresh new (List.mem_cons_of_mem _ hnew) (List.mem_cons_of_mem _ hold)

/-- What a key becomes when all is substituted at once. -/
theorem substitute_cases (cell : ℕ) :
    (cell ∉ renames.map Prod.fst ∧ substitute renames cell = cell) ∨
      ∃ new, (cell, new) ∈ renames ∧ substitute renames cell = new := by
  unfold substitute
  cases hfind : renames.find? fun rename => rename.1 = cell with
  | none =>
      refine Or.inl ⟨fun hmem => ?_, rfl⟩
      obtain ⟨rename, hrename, rfl⟩ := List.mem_map.mp hmem
      have hnot := List.find?_eq_none.mp hfind rename hrename
      simp at hnot
  | some rename =>
      have hkey : rename.1 = cell := by simpa using List.find?_some hfind
      refine Or.inr ⟨rename.2, ?_, rfl⟩
      rw [← hkey]
      exact List.mem_of_find?_eq_some hfind

/-- A new key is no larger than the number of keys there are. -/
theorem Renames.le_length (h : Renames keys1 keys2 0 keys2 renames) (hnodup : keys2.Nodup)
    {new : ℕ} (hnew : new ∈ renames.map Prod.snd) : new ≤ keys1.length + keys2.length := by
  -- all numbers up to it are keys that were there, or new ones
  have hsub : Finset.Icc 1 new ⊆
      (keys1.toFinset ∪ keys2.toFinset) ∪ (renames.map Prod.snd).toFinset := by
    intro n hn
    rw [Finset.mem_Icc] at hn
    rw [Finset.mem_union, ← List.toFinset_append, List.mem_toFinset, List.mem_toFinset]
    exact h.filled new hnew n hn.1 hn.2
  -- and there are no more new ones than keys of both
  have hboth : (renames.map Prod.fst).toFinset ⊆ keys1.toFinset ∩ keys2.toFinset := by
    intro k hk
    rw [List.mem_toFinset] at hk
    rw [Finset.mem_inter, List.mem_toFinset, List.mem_toFinset]
    have hmem := h.olds.subset hk
    exact ⟨(h.needed k hmem).mp hk, hmem⟩
  have holds : (renames.map Prod.fst).toFinset.card = renames.length := by
    rw [List.toFinset_card_of_nodup (hnodup.sublist h.olds), List.length_map]
  have hnews : (renames.map Prod.snd).toFinset.card ≤ renames.length := by
    have hle := (renames.map Prod.snd).toFinset_card_le
    rwa [List.length_map] at hle
  have hcard := (Finset.card_le_card hsub).trans (Finset.card_union_le _ _)
  have hinter := Finset.card_le_card hboth
  have hsum := Finset.card_union_add_card_inter keys1.toFinset keys2.toFinset
  have h1 := keys1.toFinset_card_le
  have h2 := keys2.toFinset_card_le
  rw [Nat.card_Icc] at hcard
  omega

end Loop

/-- The keys are those of the rows. -/
theorem mem_keySet {rows : List ℕ} {k : ℕ} : k ∈ keySet rows ↔ k ∈ rows := by
  unfold keySet
  rw [List.mem_insertionSort, List.mem_dedup]

/-- A set has a key once. -/
theorem keySet_nodup (rows : List ℕ) : (keySet rows).Nodup :=
  (List.perm_insertionSort _ _).nodup_iff.mpr (List.nodup_dedup rows)

/-- No key is larger than the last one. -/
theorem le_maxKey {rows : List ℕ} {k : ℕ} (h : k ∈ keySet rows) : k ≤ maxKey (keySet rows) := by
  have hsorted : (keySet rows).Pairwise (· ≤ ·) := List.pairwise_insertionSort _ _
  unfold maxKey
  revert h
  generalize keySet rows = keys at hsorted
  intro h
  induction keys generalizing k with
  | nil => cases h
  | cons key rest ih =>
      obtain ⟨hfirst, hrest⟩ := List.pairwise_cons.mp hsorted
      cases rest with
      | nil => exact (List.mem_singleton.mp h).le
      | cons next rest =>
          rcases List.mem_cons.mp h with rfl | hlater
          · exact (hfirst next List.mem_cons_self).trans (ih hrest List.mem_cons_self)
          · exact ih hrest hlater

section Methods

variable {rows1 rows2 : List ℕ}

/-- The renames of the slow method. -/
theorem slowMethod_spec :
    Renames (keySet rows1) (keySet rows2) 0 (keySet rows2)
      (slowMethod (keySet rows1) (keySet rows2)) :=
  slowRenames_spec (keySet_nodup _) (by simp)

/-- The slow method does all its renames as if at once. -/
theorem slowMethod_substitutes (cell : ℕ) :
    runUpdates (slowMethod (keySet rows1) (keySet rows2)) cell =
      substitute (slowMethod (keySet rows1) (keySet rows2)) cell := by
  have hspec := @slowMethod_spec rows1 rows2
  refine runUpdates_eq (fun new hnew hold => ?_) cell
  exact hspec.free new hnew (List.mem_append_right _ (hspec.olds.subset hold))

/-- The slow method renames the keys apart. -/
theorem slowMethod_renamed (hpos : ∀ k ∈ rows2, 0 < k)
    (hcount : (keySet rows1).length + (keySet rows2).length ≤ int32Max) :
    Renamed (keySet rows1) (keySet rows2)
      (runUpdates (slowMethod (keySet rows1) (keySet rows2))) := by
  have hspec := @slowMethod_spec rows1 rows2
  have hnodup : (keySet rows2).Nodup := keySet_nodup rows2
  -- a key of DB-2 stays and is none of DB-1, or becomes a new one
  have hcases : ∀ k ∈ keySet rows2,
      (k ∉ keySet rows1 ∧ runUpdates (slowMethod (keySet rows1) (keySet rows2)) k = k) ∨
        ∃ new, (k, new) ∈ slowMethod (keySet rows1) (keySet rows2) ∧
          runUpdates (slowMethod (keySet rows1) (keySet rows2)) k = new := by
    intro k hk
    rw [slowMethod_substitutes]
    refine (substitute_cases k).imp_left fun hstays => ⟨fun htaken => ?_, hstays.2⟩
    exact hstays.1 ((hspec.needed k hk).mpr htaken)
  have hnew : ∀ {k new}, (k, new) ∈ slowMethod (keySet rows1) (keySet rows2) →
      new ∈ (slowMethod (keySet rows1) (keySet rows2)).map Prod.snd := fun hmem =>
    List.mem_map.mpr ⟨_, hmem, rfl⟩
  exact
    { injOn := fun k hk k' hk' heq => by
        rcases hcases k hk with ⟨-, hkey⟩ | ⟨new, hmem, hkey⟩ <;>
          rcases hcases k' hk' with ⟨-, hkey'⟩ | ⟨new', hmem', hkey'⟩ <;>
          rw [hkey, hkey'] at heq
        · exact heq
        · exact absurd (List.mem_append_right _ (heq ▸ hk)) (hspec.free new' (hnew hmem'))
        · exact absurd (List.mem_append_right _ (heq ▸ hk')) (hspec.free new (hnew hmem))
        · have hsame := List.inj_on_of_nodup_map hspec.news hmem hmem' heq
          exact congrArg Prod.fst hsame
      pos := fun k hk => by
        rcases hcases k hk with ⟨-, hkey⟩ | ⟨new, hmem, hkey⟩
        · rw [hkey]
          exact hpos k (mem_keySet.mp hk)
        · rw [hkey]
          exact hspec.above new (hnew hmem)
      le := fun k hk hle => by
        rcases hcases k hk with ⟨-, hkey⟩ | ⟨new, hmem, hkey⟩
        · rw [hkey]
          exact hle
        · rw [hkey]
          exact (hspec.le_length hnodup (hnew hmem)).trans hcount
      apart := fun k hk => by
        rcases hcases k hk with ⟨hnot, hkey⟩ | ⟨new, hmem, hkey⟩
        · rw [hkey]
          exact hnot
        · rw [hkey]
          exact fun htaken => hspec.free new (hnew hmem) (List.mem_append_left _ htaken) }

/-- The fast method renames the keys apart. -/
theorem fastMethod_renamed (hpos : ∀ k ∈ rows2, 0 < k)
    (hfits : FastFits (keySet rows1) (keySet rows2)) :
    Renamed (keySet rows1) (keySet rows2)
      (· + fastOffset (keySet rows1) (keySet rows2)) where
  injOn k _ k' _ heq := Nat.add_right_cancel heq
  pos k hk := by
    have hkey := hpos k (mem_keySet.mp hk)
    exact Nat.add_pos_left hkey _
  le k hk _ := by
    have hmax := le_maxKey hk
    unfold FastFits at hfits
    show k + _ ≤ _
    omega
  apart k hk htaken := by
    have hkey := hpos k (mem_keySet.mp hk)
    have hmax := le_maxKey htaken
    have hle : maxKey (keySet rows1) ≤ fastOffset (keySet rows1) (keySet rows2) :=
      Nat.le_max_left _ _
    have hsum : k + fastOffset (keySet rows1) (keySet rows2) ≤ maxKey (keySet rows1) := hmax
    omega

/-- The keys of DB-2 are renamed apart by the fast method where it fits, by the slow method, and so by
what the merge does; and the slow method does to a cell, one `UPDATE` after the other, what all of
them would do at once. -/
theorem keys_renamed (hpos : ∀ k ∈ rows2, 0 < k)
    (hcount : (keySet rows1).length + (keySet rows2).length ≤ int32Max) :
    (FastFits (keySet rows1) (keySet rows2) → Renamed (keySet rows1) (keySet rows2)
        (· + fastOffset (keySet rows1) (keySet rows2))) ∧
      Renamed (keySet rows1) (keySet rows2)
        (runUpdates (slowMethod (keySet rows1) (keySet rows2))) ∧
      Renamed (keySet rows1) (keySet rows2) (mergedKey (keySet rows1) (keySet rows2)) ∧
      ∀ cell, runUpdates (slowMethod (keySet rows1) (keySet rows2)) cell =
        substitute (slowMethod (keySet rows1) (keySet rows2)) cell := by
  refine ⟨fastMethod_renamed hpos, slowMethod_renamed hpos hcount, ?_, slowMethod_substitutes⟩
  by_cases hempty : keySet rows1 = [] ∨ keySet rows2 = []
  · have hsame : mergedKey (keySet rows1) (keySet rows2) = id := by
      funext cell
      unfold mergedKey
      rw [if_neg (Nat.not_lt.mpr hcount), if_pos hempty]
      rfl
    rw [hsame]
    exact
      { injOn := fun _ _ _ _ heq => heq
        pos := fun k hk => hpos k (mem_keySet.mp hk)
        le := fun _ _ hle => hle
        apart := fun k hk htaken => by
          rcases hempty with hnone | hnone
          · rw [hnone] at htaken
            cases htaken
          · rw [hnone] at hk
            cases hk }
  · by_cases hfits : FastFits (keySet rows1) (keySet rows2)
    · have hsame : mergedKey (keySet rows1) (keySet rows2) =
          (· + fastOffset (keySet rows1) (keySet rows2)) := by
        funext cell
        unfold mergedKey
        rw [if_neg (Nat.not_lt.mpr hcount), if_neg hempty, if_pos hfits]
      rw [hsame]
      exact fastMethod_renamed hpos hfits
    · have hsame : mergedKey (keySet rows1) (keySet rows2) =
          runUpdates (slowMethod (keySet rows1) (keySet rows2)) := by
        funext cell
        unfold mergedKey
        rw [if_neg (Nat.not_lt.mpr hcount), if_neg hempty, if_neg hfits]
      rw [hsame]
      exact slowMethod_renamed hpos hcount

/-- Keys that are too large for the fast method: 2 is taken, and becomes 3. -/
theorem keys_renamed_slow :
    Renamed (keySet [2, 1]) (keySet [2147483647, 2])
        (mergedKey (keySet [2, 1]) (keySet [2147483647, 2])) ∧
      slowMethod (keySet [2, 1]) (keySet [2147483647, 2]) = [(2, 3)] :=
  ⟨(@keys_renamed [2, 1] [2147483647, 2] (by decide) (by decide +kernel)).2.2.1,
    by decide +kernel⟩

end Methods

end TwowCore.RealmMerge
