import TwowCore.RealmMerge.Keys
import TwowCore.Lib.Substitutes

/-!
# The names of two realms

A name of DB-2 that is taken in DB-1 is replaced before the guids are: a character is called by its guid, a guild
by a placeholder. Whether the replacement is free is looked up in DB-1 alone for a guild, and not at all for a
character.
-/

namespace TwowCore.RealmMerge

/-- A row of `characters`. -/
structure CharacterRow where
  guid : ℕ
  name : String
  atLogin : ℕ
  deriving DecidableEq, Repr

/-- A row of `guild`. -/
structure GuildRow where
  guildid : ℕ
  name : String
  deriving DecidableEq, Repr

/-- The two tables of a realm, and their primary keys. -/
structure Realm where
  characters : List CharacterRow
  guilds : List GuildRow
  charactersKey : (characters.map CharacterRow.guid).Nodup
  guildsKey : (guilds.map GuildRow.guildid).Nodup

/-- No two characters have one name, and no two guilds. -/
def Realm.NamesUnique (realm : Realm) : Prop :=
  (realm.characters.map CharacterRow.name).Nodup ∧ (realm.guilds.map GuildRow.name).Nodup

/-- `AT_LOGIN_RENAME`. -/
def atLoginRename : ℕ := 1

/-- `UPDATE characters SET name = guid, at_login = at_login | AT_LOGIN_RENAME WHERE guid = ...`. -/
def markForRename (row : CharacterRow) (guid : ℕ) : CharacterRow :=
  if row.guid = guid then
    { row with name := toString row.guid, atLogin := row.atLogin ||| atLoginRename }
  else row

/-- The guids of the statements, in the order of the map of DB-2. -/
def characterRenames (characterNames1 : List String) (characterNames2 : List CharacterRow) : List ℕ :=
  (characterNames2.filter fun itr => itr.name ≠ "" ∧ itr.name ∈ characterNames1).map CharacterRow.guid

/-- The names in `UpdateCharacterGuids`: the rows of DB-2, when it goes on to the guids. -/
def updateCharacterNames (db1 db2 : Realm) : Option (List CharacterRow) :=
  if db1.characters = [] ∨ db2.characters = [] then none
  else if int32Max < (keySet (db1.characters.map CharacterRow.guid)).length +
      (keySet (db2.characters.map CharacterRow.guid)).length then none
  else
    let characterNames2 := db2.characters.insertionSort (·.guid ≤ ·.guid)
    let guids := characterRenames (db1.characters.map CharacterRow.name) characterNames2
    some (db2.characters.map fun row => guids.foldl markForRename row)

/-- From `'a'` to before `'z'`. -/
def letters : List Char := "abcdefghijklmnopqrstuvwxy".toList

/-- The words of so many letters, in the order of loops one inside the other. -/
def words : ℕ → List (List Char)
  | 0 => [[]]
  | n + 1 => letters.flatMap fun chr => (words n).map (chr :: ·)

/-- The names `GenerateGuildName` tries. -/
def placeholders : List String := (words 4).map fun word => String.ofList ("PH ".toList ++ word)

/-- `GenerateGuildName`: the name, and `guildNames1` after it. -/
def generateGuildName (guildNames1 : List String) : String × List String :=
  match placeholders.find? (· ∉ guildNames1) with
  | some name2 => (name2, name2 :: guildNames1)
  | none => ("DUPLICATE", guildNames1)

/-- `UPDATE guild SET name = ... WHERE guildid = ...`. -/
def setGuildName (row : GuildRow) (update : ℕ × String) : GuildRow :=
  if row.guildid = update.1 then { row with name := update.2 } else row

/-- The loop over the guilds of DB-2, with the statements it makes. -/
def guildRenames : List String → List GuildRow → List (ℕ × String)
  | _, [] => []
  | guildNames1, itr :: rest =>
      if itr.name ≠ "" ∧ itr.name ∈ guildNames1 then
        (itr.guildid, (generateGuildName guildNames1).1) ::
          guildRenames (generateGuildName guildNames1).2 rest
      else guildRenames guildNames1 rest

/-- The guilds of a realm in the order of their ids. -/
def Realm.guildNames (realm : Realm) : List GuildRow :=
  realm.guilds.insertionSort (·.guildid ≤ ·.guildid)

/-- The names in `UpdateGuildIds`. -/
def updateGuildNames (db1 db2 : Realm) : Option (List GuildRow) :=
  if int32Max < (keySet (db1.guilds.map GuildRow.guildid)).length +
      (keySet (db2.guilds.map GuildRow.guildid)).length then none
  else
    let updates := guildRenames (db1.guilds.map GuildRow.name) db2.guildNames
    some (db2.guilds.map fun row => updates.foldl setGuildName row)

section Characters

variable {db1 db2 : Realm} {characters : List CharacterRow}

/-- The name is one of DB-1. -/
def NameTaken (names1 : List String) (name : String) : Prop := name ≠ "" ∧ name ∈ names1

instance (names1 : List String) : DecidablePred (NameTaken names1) :=
  fun name => inferInstanceAs (Decidable (name ≠ "" ∧ name ∈ names1))

/-- The statements mark a row once, if it is one of theirs. -/
theorem foldl_markForRename {guids : List ℕ} (hnodup : guids.Nodup) (row : CharacterRow) :
    guids.foldl markForRename row = if row.guid ∈ guids then markForRename row row.guid else row := by
  induction guids generalizing row with
  | nil => rfl
  | cons guid rest ih =>
      obtain ⟨hnot, hrest⟩ := List.nodup_cons.mp hnodup
      rw [List.foldl_cons, ih hrest]
      by_cases hguid : row.guid = guid
      · subst hguid
        have hsame : (markForRename row row.guid).guid = row.guid := by
          unfold markForRename
          rw [if_pos rfl]
        rw [hsame, if_neg hnot, if_pos List.mem_cons_self]
      · have hrow : markForRename row guid = row := if_neg hguid
        rw [hrow]
        simp only [List.mem_cons, hguid, false_or]

/-- The name of a character after the statements. -/
def nameAfter (names1 : List String) (row : CharacterRow) : String :=
  if NameTaken names1 row.name then toString row.guid else row.name

/-- What the statements do to the names. -/
theorem updateCharacterNames_names (h : updateCharacterNames db1 db2 = some characters) :
    characters.map CharacterRow.name =
      db2.characters.map (nameAfter (db1.characters.map CharacterRow.name)) := by
  unfold updateCharacterNames at h
  split_ifs at h with hempty hmany
  cases h
  have hperm := List.perm_insertionSort (fun row row' : CharacterRow => row.guid ≤ row'.guid)
    db2.characters
  have hsorted := (hperm.map CharacterRow.guid).nodup_iff.mpr db2.charactersKey
  rw [List.map_map]
  refine List.map_congr_left fun row hrow => ?_
  have hnodup : (characterRenames (db1.characters.map CharacterRow.name)
      (db2.characters.insertionSort (·.guid ≤ ·.guid))).Nodup :=
    hsorted.sublist (List.filter_sublist.map _)
  have hmem : row.guid ∈ characterRenames (db1.characters.map CharacterRow.name)
      (db2.characters.insertionSort (·.guid ≤ ·.guid)) ↔
        NameTaken (db1.characters.map CharacterRow.name) row.name := by
    unfold characterRenames NameTaken
    constructor
    · intro hin
      obtain ⟨other, hother, hguid⟩ := List.mem_map.mp hin
      obtain ⟨hother, htaken⟩ := List.mem_filter.mp hother
      have hsame := List.inj_on_of_nodup_map db2.charactersKey (hperm.mem_iff.mp hother) hrow hguid
      rw [← hsame]
      exact of_decide_eq_true htaken
    · intro htaken
      exact List.mem_map.mpr ⟨row, List.mem_filter.mpr
        ⟨hperm.mem_iff.mpr hrow, decide_eq_true htaken⟩, rfl⟩
  show (List.foldl markForRename row _).name = nameAfter _ row
  rw [foldl_markForRename hnodup]
  unfold nameAfter markForRename
  simp only [hmem, if_true]
  split_ifs <;> rfl

/-- The names of all characters are different exactly if not both realms have one without a name, and the guid of
a character whose name is taken is no name in either. -/
theorem characterNames_nodup_iff (h1 : (db1.characters.map CharacterRow.name).Nodup)
    (h2 : (db2.characters.map CharacterRow.name).Nodup)
    (h : updateCharacterNames db1 db2 = some characters) :
    (db1.characters.map CharacterRow.name ++ characters.map CharacterRow.name).Nodup ↔
      ¬("" ∈ db1.characters.map CharacterRow.name ∧ "" ∈ db2.characters.map CharacterRow.name) ∧
        ∀ row ∈ db2.characters, NameTaken (db1.characters.map CharacterRow.name) row.name →
          toString row.guid ∉ db1.characters.map CharacterRow.name ∧
            toString row.guid ∉ db2.characters.map CharacterRow.name := by
  rw [updateCharacterNames_names h]
  generalize db1.characters.map CharacterRow.name = names1 at h1
  have hrows : ∀ row ∈ db2.characters, ∀ row' ∈ db2.characters,
      toString row.guid = toString row'.guid → row = row' := fun row hrow row' hrow' htext =>
    List.inj_on_of_nodup_map db2.charactersKey hrow hrow' (Nat.repr_inj.mp htext)
  constructor
  · intro hnodup
    obtain ⟨-, hafter, hapart⟩ := List.nodup_append'.mp hnodup
    refine ⟨fun hempty => ?_, fun row hrow htaken => ?_⟩
    · obtain ⟨row, hrow, hname⟩ := List.mem_map.mp hempty.2
      refine hapart hempty.1 (List.mem_map.mpr ⟨row, hrow, ?_⟩)
      unfold nameAfter
      rw [if_neg fun htaken => htaken.1 hname, hname]
    · have hmarked : nameAfter names1 row = toString row.guid := if_pos htaken
      have hfree : toString row.guid ∉ names1 := fun hmem =>
        hapart hmem (List.mem_map.mpr ⟨row, hrow, hmarked⟩)
      refine ⟨hfree, fun hmem => ?_⟩
      -- the one who has this name already keeps it, as it is no name of DB-1
      obtain ⟨row', hrow', hname⟩ := List.mem_map.mp hmem
      have hkept : ¬NameTaken names1 row'.name := by
        rw [hname]
        exact fun htaken' => hfree htaken'.2
      have hstays : nameAfter names1 row' = row'.name := if_neg hkept
      have hsame := List.inj_on_of_nodup_map hafter hrow hrow'
        (hmarked.trans (hname.symm.trans hstays.symm))
      exact hkept (hsame ▸ htaken)
  · rintro ⟨hempty, hfree⟩
    refine List.nodup_append'.mpr ⟨h1, List.Nodup.map_on ?_ db2.charactersKey.of_map, ?_⟩
    · intro row hrow row' hrow' hsame
      unfold nameAfter at hsame
      split_ifs at hsame with htaken htaken' htaken'
      · exact hrows row hrow row' hrow' hsame
      · exact absurd (List.mem_map.mpr ⟨row', hrow', hsame.symm⟩) (hfree row hrow htaken).2
      · exact absurd (List.mem_map.mpr ⟨row, hrow, hsame⟩) (hfree row' hrow' htaken').2
      · exact List.inj_on_of_nodup_map h2 hrow hrow' hsame
    · intro name hmem hafter
      obtain ⟨row, hrow, rfl⟩ := List.mem_map.mp hafter
      unfold nameAfter at hmem
      split_ifs at hmem with htaken
      · exact (hfree row hrow htaken).1 hmem
      · have hname : row.name = "" := by
          by_contra hname
          exact htaken ⟨hname, hmem⟩
        rw [hname] at hmem
        exact hempty ⟨hmem, List.mem_map.mpr ⟨row, hrow, hname⟩⟩

end Characters

section Guilds

variable {db1 db2 : Realm} {guilds : List GuildRow}

theorem words_nodup (n : ℕ) : (words n).Nodup := by
  induction n with
  | zero => decide
  | succ n ih =>
      refine List.nodup_flatMap.mpr ⟨fun chr _ => ih.map fun word word' h => (List.cons.inj h).2, ?_⟩
      have hletters : letters.Nodup := by decide
      refine hletters.imp fun {chr chr'} hne name hmem hmem' => ?_
      obtain ⟨word, -, rfl⟩ := List.mem_map.mp hmem
      obtain ⟨word', -, hsame⟩ := List.mem_map.mp hmem'
      exact hne (List.cons.inj hsame).1.symm

theorem placeholders_nodup : placeholders.Nodup := by
  refine (words_nodup 4).map fun word word' h => ?_
  exact List.append_cancel_left (String.ofList_injective h)

/-- A placeholder begins with a capital P. -/
theorem ne_of_mem_placeholders {name other : String} (h : name ∈ placeholders)
    (hother : other.toList.head? ≠ some 'P') : name ≠ other := by
  rintro rfl
  obtain ⟨word, -, rfl⟩ := List.mem_map.mp h
  exact hother (by rw [String.toList_ofList]; rfl)

/-- The placeholders that are free in DB-1. -/
def freePlaceholders (names1 : List String) : List String :=
  placeholders.filter (· ∉ names1)

/-- The names in `guildNames1`: those of DB-1, and the placeholders that have been handed out. -/
def Noted (names1 : List String) (used : ℕ) (guildNames1 : List String) : Prop :=
  ∀ name, name ∈ guildNames1 ↔ name ∈ names1 ∨ name ∈ (freePlaceholders names1).take used

variable {names1 guildNames1 : List String} {used : ℕ}

theorem freePlaceholders_nodup (names1 : List String) : (freePlaceholders names1).Nodup :=
  placeholders_nodup.filter _

theorem mem_freePlaceholders {name : String} (h : name ∈ freePlaceholders names1) :
    name ∈ placeholders ∧ name ∉ names1 :=
  (List.mem_filter.mp h).imp_right of_decide_eq_true

/-- The next placeholder is the next one that is free in DB-1. -/
theorem find_placeholders (h : Noted names1 used guildNames1) :
    placeholders.find? (· ∉ guildNames1) = (freePlaceholders names1)[used]? := by
  have hnodup := freePlaceholders_nodup names1
  have hfilter : placeholders.filter (· ∉ guildNames1) = (freePlaceholders names1).drop used := by
    have hdrop : (freePlaceholders names1).filter (· ∉ (freePlaceholders names1).take used) =
        (freePlaceholders names1).drop used := by
      have hsplit := List.take_append_drop used (freePlaceholders names1)
      generalize (freePlaceholders names1).take used = given at hsplit ⊢
      generalize (freePlaceholders names1).drop used = rest at hsplit ⊢
      rw [← hsplit] at hnodup ⊢
      obtain ⟨-, -, hapart⟩ := List.nodup_append'.mp hnodup
      rw [List.filter_append, List.filter_eq_nil_iff.mpr fun name hname => by simpa using hname,
        List.filter_eq_self.mpr fun name hname => by simpa using fun hgiven => hapart hgiven hname,
        List.nil_append]
    rw [← hdrop]
    unfold freePlaceholders
    rw [List.filter_filter]
    refine List.filter_congr fun name _ => ?_
    have hname := h name
    unfold freePlaceholders at hname
    simp only [hname, ← Bool.decide_and, not_or, and_comm]
  rw [← List.head?_filter, hfilter, List.head?_drop]

/-- `GenerateGuildName` hands out the next one, and notes it. -/
theorem generateGuildName_spec (h : Noted names1 used guildNames1) :
    (generateGuildName guildNames1).1 = (freePlaceholders names1).getD used "DUPLICATE" ∧
      Noted names1 (used + 1) (generateGuildName guildNames1).2 := by
  unfold generateGuildName Noted
  rw [find_placeholders h, List.getD_eq_getElem?_getD, List.take_add_one]
  cases hfind : (freePlaceholders names1)[used]? with
  | none =>
      refine ⟨rfl, fun name => ?_⟩
      rw [Option.toList_none, List.append_nil]
      exact h name
  | some name2 =>
      refine ⟨rfl, fun name => ?_⟩
      rw [List.mem_cons, h name, List.mem_append, Option.toList_some, List.mem_singleton]
      tauto

/-- A guild is renamed exactly if its name is taken in DB-1, or by a placeholder handed out before. -/
theorem replaced_iff (h : Noted names1 used guildNames1) (name : String) :
    (name ≠ "" ∧ name ∈ guildNames1) ↔
      Lib.Replaced (NameTaken names1) (freePlaceholders names1) used name := by
  rw [h name]
  constructor
  · rintro ⟨hne, hmem | hgiven⟩
    · exact .inl ⟨hne, hmem⟩
    · exact .inr hgiven
  · rintro (⟨hne, hmem⟩ | hgiven)
    · exact ⟨hne, .inl hmem⟩
    · have hplaceholder := (List.mem_filter.mp (List.mem_of_mem_take hgiven)).1
      exact ⟨ne_of_mem_placeholders hplaceholder (by decide), .inr hgiven⟩

/-- The statements are for guilds of the loop. -/
theorem guildRenames_ids (guildNames1 : List String) (rows : List GuildRow) :
    ((guildRenames guildNames1 rows).map Prod.fst).Sublist (rows.map GuildRow.guildid) := by
  induction rows generalizing guildNames1 with
  | nil => exact List.Sublist.refl _
  | cons itr rest ih =>
      unfold guildRenames
      split_ifs
      · exact (ih _).cons_cons _
      · exact (ih _).cons _

/-- Other statements leave a guild. -/
theorem foldl_setGuildName {updates : List (ℕ × String)} {row : GuildRow}
    (h : row.guildid ∉ updates.map Prod.fst) : updates.foldl setGuildName row = row := by
  induction updates with
  | nil => rfl
  | cons update rest ih =>
      rw [List.map_cons, List.mem_cons, not_or] at h
      rw [List.foldl_cons, show setGuildName row update = row from if_neg h.1]
      exact ih h.2

/-- What the statements do to the names. -/
theorem guildRenames_names {rows : List GuildRow} (hkey : (rows.map GuildRow.guildid).Nodup)
    (h : Noted names1 used guildNames1) :
    (rows.map fun row => ((guildRenames guildNames1 rows).foldl setGuildName row).name) =
      Lib.substituted (NameTaken names1) (freePlaceholders names1) "DUPLICATE" used
        (rows.map GuildRow.name) := by
  induction rows generalizing guildNames1 used with
  | nil => rfl
  | cons itr rest ih =>
      obtain ⟨hnot, hrest⟩ := List.nodup_cons.mp hkey
      have hother : ∀ row ∈ rest, row.guildid ≠ itr.guildid := fun row hrow hsame =>
        hnot (hsame ▸ List.mem_map_of_mem hrow)
      have hids : ∀ noted, itr.guildid ∉ (guildRenames noted rest).map Prod.fst :=
        fun noted hmem => hnot ((guildRenames_ids noted rest).subset hmem)
      rw [List.map_cons, List.map_cons]
      unfold guildRenames Lib.substituted
      -- the statement for the first guild is for no other, and those that follow are not for it
      by_cases hgone : itr.name ≠ "" ∧ itr.name ∈ guildNames1
      · obtain ⟨hname, hnoted⟩ := generateGuildName_spec h
        rw [if_pos hgone, if_pos ((replaced_iff h itr.name).mp hgone), ← ih hrest hnoted]
        have hhead : setGuildName itr (itr.guildid, (generateGuildName guildNames1).1) =
            ⟨itr.guildid, (generateGuildName guildNames1).1⟩ := if_pos rfl
        refine congrArg₂ List.cons ?_ (List.map_congr_left fun row hrow => ?_)
        · rw [List.foldl_cons, hhead, foldl_setGuildName, ← hname]
          exact hids _
        · have hrow : setGuildName row (itr.guildid, (generateGuildName guildNames1).1) = row :=
            if_neg (hother row hrow)
          rw [List.foldl_cons, hrow]
      · rw [if_neg hgone, if_neg fun hreplaced => hgone ((replaced_iff h itr.name).mpr hreplaced),
          ← ih hrest h, foldl_setGuildName (hids _)]

/-- The names of the guilds of DB-2, in the order of their ids. -/
def Realm.guildNamesInOrder (realm : Realm) : List String := realm.guildNames.map GuildRow.name

theorem updateGuildNames_names (h : updateGuildNames db1 db2 = some guilds) :
    (guilds.map GuildRow.name).Perm
      (Lib.substituted (NameTaken (db1.guilds.map GuildRow.name))
        (freePlaceholders (db1.guilds.map GuildRow.name)) "DUPLICATE" 0 db2.guildNamesInOrder) := by
  unfold updateGuildNames at h
  split_ifs at h with hmany
  cases h
  have hperm : db2.guildNames.Perm db2.guilds := List.perm_insertionSort _ _
  have hkey := (hperm.map GuildRow.guildid).nodup_iff.mpr db2.guildsKey
  have hnoted : Noted (db1.guilds.map GuildRow.name) 0 (db1.guilds.map GuildRow.name) := by
    intro name
    rw [List.take_zero]
    simp only [List.not_mem_nil, or_false]
  unfold Realm.guildNamesInOrder
  rw [← guildRenames_names hkey hnoted, List.map_map]
  exact (hperm.map _).symm

/-- A guild of DB-2 that bears a free placeholder is late enough to be renamed, or the placeholder is not needed;
and when there are too few of them, they are too few by one and `DUPLICATE` is free. -/
def PlaceholdersSpared (names1 names2 : List String) : Prop :=
  Lib.Spared (NameTaken names1) (freePlaceholders names1) names2 ∧
    (Lib.asking (NameTaken names1) (freePlaceholders names1) (freePlaceholders names1).length names2 ≤
        (freePlaceholders names1).length ∨
      Lib.asking (NameTaken names1) (freePlaceholders names1) (freePlaceholders names1).length names2 =
        (freePlaceholders names1).length + 1 ∧ "DUPLICATE" ∉ names1 ∧ "DUPLICATE" ∉ names2)

/-- The names of all guilds are different exactly if not both realms have one without a name, and the
placeholders are spared. -/
theorem guildNames_nodup_iff (h1 : (db1.guilds.map GuildRow.name).Nodup)
    (h2 : (db2.guilds.map GuildRow.name).Nodup) (h : updateGuildNames db1 db2 = some guilds) :
    (db1.guilds.map GuildRow.name ++ guilds.map GuildRow.name).Nodup ↔
      ¬("" ∈ db1.guilds.map GuildRow.name ∧ "" ∈ db2.guilds.map GuildRow.name) ∧
        PlaceholdersSpared (db1.guilds.map GuildRow.name) db2.guildNamesInOrder := by
  have horder : db2.guildNamesInOrder.Perm (db2.guilds.map GuildRow.name) :=
    (List.perm_insertionSort _ _).map _
  rw [((updateGuildNames_names h).append_left _).nodup_iff,
    Lib.substituted_nodup_iff h1 (horder.nodup_iff.mpr h2) (freePlaceholders_nodup _)
      (fun name hname => (mem_freePlaceholders hname).2) (fun name htaken => htaken.2)
      (fun hmem => ne_of_mem_placeholders (mem_freePlaceholders hmem).1 (by decide) rfl)]
  refine and_congr ?_ Iff.rfl
  constructor
  · intro hall hempty
    exact (hall "" (horder.mem_iff.mpr hempty.2) hempty.1).1 rfl
  · intro hempty name hname hmem
    refine ⟨fun hnone => hempty ?_, hmem⟩
    subst hnone
    exact ⟨hmem, horder.mem_iff.mp hname⟩

end Guilds

section Both

/-- No character whose name is taken has a guid that is a name, and not both realms have one without a name. -/
def CharacterNamesSpared (db1 db2 : Realm) : Prop :=
  ¬("" ∈ db1.characters.map CharacterRow.name ∧ "" ∈ db2.characters.map CharacterRow.name) ∧
    ∀ row ∈ db2.characters, NameTaken (db1.characters.map CharacterRow.name) row.name →
      toString row.guid ∉ db1.characters.map CharacterRow.name ∧
        toString row.guid ∉ db2.characters.map CharacterRow.name

/-- Not both realms have a guild without a name, and the placeholders are spared. -/
def GuildNamesSpared (db1 db2 : Realm) : Prop :=
  ¬("" ∈ db1.guilds.map GuildRow.name ∧ "" ∈ db2.guilds.map GuildRow.name) ∧
    PlaceholdersSpared (db1.guilds.map GuildRow.name) db2.guildNamesInOrder

/-- After the merge the names of both realms together are unique exactly if the replacements meet no name. -/
theorem merged_names_unique_iff (db1 db2 : Realm) (characters : List CharacterRow)
    (guilds : List GuildRow) (h1 : db1.NamesUnique) (h2 : db2.NamesUnique)
    (hcharacters : updateCharacterNames db1 db2 = some characters)
    (hguilds : updateGuildNames db1 db2 = some guilds) :
    (db1.characters.map CharacterRow.name ++ characters.map CharacterRow.name).Nodup ∧
        (db1.guilds.map GuildRow.name ++ guilds.map GuildRow.name).Nodup ↔
      CharacterNamesSpared db1 db2 ∧ GuildNamesSpared db1 db2 :=
  and_congr (characterNames_nodup_iff h1.1 h2.1 hcharacters) (guildNames_nodup_iff h1.2 h2.2 hguilds)

/-- Realms that both have an Anna and a guild of knights. -/
theorem merged_names_annas :
    CharacterNamesSpared ⟨[⟨1, "Anna", 0⟩, ⟨2, "Bert", 0⟩], [⟨1, "Knights"⟩], by decide, by decide⟩
        ⟨[⟨7, "Anna", 0⟩, ⟨8, "Carl", 0⟩], [⟨3, "Knights"⟩, ⟨4, "Squires"⟩], by decide, by decide⟩ ∧
      GuildNamesSpared ⟨[⟨1, "Anna", 0⟩, ⟨2, "Bert", 0⟩], [⟨1, "Knights"⟩], by decide, by decide⟩
        ⟨[⟨7, "Anna", 0⟩, ⟨8, "Carl", 0⟩], [⟨3, "Knights"⟩, ⟨4, "Squires"⟩], by decide, by decide⟩ :=
  (merged_names_unique_iff _ _ [⟨7, "7", 1⟩, ⟨8, "Carl", 0⟩] [⟨3, "PH aaaa"⟩, ⟨4, "Squires"⟩]
    ⟨by decide, by decide⟩ ⟨by decide, by decide⟩ (by decide) (by decide)).mp (by decide)

/-- A realm where an earlier merge has left a character that is called by a guid, and another with that guid. -/
theorem merged_names_leftover : ¬∀ (db1 db2 : Realm) (characters : List CharacterRow)
    (guilds : List GuildRow), db1.NamesUnique → db2.NamesUnique →
      updateCharacterNames db1 db2 = some characters → updateGuildNames db1 db2 = some guilds →
        (db1.characters.map CharacterRow.name ++ characters.map CharacterRow.name).Nodup ∧
          (db1.guilds.map GuildRow.name ++ guilds.map GuildRow.name).Nodup := by
  intro h
  have hmerged := h ⟨[⟨1, "Anna", 0⟩, ⟨1007, "7", 1⟩], [], by decide, by decide⟩
    ⟨[⟨7, "Anna", 0⟩], [], by decide, by decide⟩ [⟨7, "7", 1⟩] [] ⟨by decide, by decide⟩
    ⟨by decide, by decide⟩ (by decide) (by decide)
  exact absurd hmerged.1 (by decide)

end Both

end TwowCore.RealmMerge
