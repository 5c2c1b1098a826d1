import Mathlib

/-!
# Names that give way

Names are gone through in order. One that is taken is replaced by the next substitute of a list, and so is one
that is itself a substitute handed out before; when the list is used up there is a last resort, again and again.
A substitute can still meet a name that was gone through earlier and was kept.
-/

namespace TwowCore.Lib

section Substitutes

variable {α : Type*} [DecidableEq α] (taken : α → Prop) [DecidablePred taken] (free : List α)

/-- The name has to go, after so many substitutes. -/
def Replaced (used : ℕ) (name : α) : Prop := taken name ∨ name ∈ free.take used

instance (used : ℕ) : DecidablePred (Replaced taken free used) :=
  fun name => inferInstanceAs (Decidable (taken name ∨ name ∈ free.take used))

/-- The names afterwards. -/
def substituted (last : α) : ℕ → List α → List α
  | _, [] => []
  | used, name :: rest =>
      if Replaced taken free used name then
        free.getD used last :: substituted last (used + 1) rest
      else name :: substituted last used rest

/-- The names that are kept. -/
def kept : ℕ → List α → List α
  | _, [] => []
  | used, name :: rest =>
      if Replaced taken free used name then kept (used + 1) rest else name :: kept used rest

/-- How many are replaced. -/
def replacements : ℕ → List α → ℕ
  | _, [] => 0
  | used, name :: rest =>
      if Replaced taken free used name then replacements (used + 1) rest + 1
      else replacements used rest

/-- How many names are taken or among the first `m` substitutes. -/
def asking (m : ℕ) (names : List α) : ℕ := names.countP fun name => Replaced taken free m name

/-- Each name that is a substitute comes late enough to be replaced, or its turn to be handed out does not
come. -/
def Spared (names : List α) : Prop :=
  ∀ before name after m, names = before ++ name :: after → free[m]? = some name →
    m < asking taken free m before ∨ asking taken free m names ≤ m

variable {taken free} {last name : α} {names before after : List α} {used m : ℕ}

theorem kept_cons : kept taken free used (name :: names) =
    if Replaced taken free used name then kept taken free (used + 1) names
    else name :: kept taken free used names := rfl

theorem replacements_cons : replacements taken free used (name :: names) =
    if Replaced taken free used name then replacements taken free (used + 1) names + 1
    else replacements taken free used names := rfl

theorem asking_cons : asking taken free m (name :: names) =
    asking taken free m names + if Replaced taken free m name then 1 else 0 := by
  unfold asking
  rw [List.countP_cons]
  simp only [decide_eq_true_eq]

/-- Substitutes in the order of the list, and what is kept. -/
theorem substituted_perm :
    (substituted taken free last used names).Perm
      ((List.range' used (replacements taken free used names)).map (free.getD · last) ++
        kept taken free used names) := by
  induction names generalizing used with
  | nil => exact List.Perm.refl _
  | cons name rest ih =>
      unfold substituted replacements kept
      split_ifs with hgone
      · rw [List.range'_succ, List.map_cons]
        exact ih.cons _
      · exact (ih.cons name).trans List.perm_middle.symm

theorem kept_sublist : (kept taken free used names).Sublist names := by
  induction names generalizing used with
  | nil => exact List.Sublist.refl _
  | cons name rest ih =>
      unfold kept
      split_ifs with hgone
      · exact ih.cons name
      · exact ih.cons_cons name

theorem kept_append :
    kept taken free used (before ++ after) =
      kept taken free used before ++
        kept taken free (used + replacements taken free used before) after := by
  induction before generalizing used with
  | nil => rfl
  | cons name rest ih =>
      rw [List.cons_append, kept_cons, kept_cons, replacements_cons]
      split_ifs with hgone
      · rw [ih, Nat.add_assoc, Nat.add_comm 1]
      · rw [ih]
        rfl

/-- What is kept is not taken. -/
theorem not_taken_of_mem_kept (h : name ∈ kept taken free used names) : ¬taken name := by
  induction names generalizing used with
  | nil => cases h
  | cons first rest ih =>
      unfold kept at h
      split_ifs at h with hgone
      · exact ih h
      · rcases List.mem_cons.mp h with rfl | hmem
        · exact fun htaken => hgone (.inl htaken)
        · exact ih hmem

/-- What is neither taken nor a substitute is kept. -/
theorem mem_kept (hmem : name ∈ names) (htaken : ¬taken name) (hfree : name ∉ free) :
    name ∈ kept taken free used names := by
  induction names generalizing used with
  | nil => cases hmem
  | cons first rest ih =>
      have hstays : ¬Replaced taken free used name := fun hgone =>
        hgone.elim htaken fun htake => hfree (List.mem_of_mem_take htake)
      unfold kept
      rcases List.mem_cons.mp hmem with rfl | hmem
      · rw [if_neg hstays]
        exact List.mem_cons_self
      · split_ifs
        · exact ih hmem
        · exact List.mem_cons_of_mem _ (ih hmem)

/-- A name that is kept, and what came before it. -/
theorem exists_of_mem_kept (h : name ∈ kept taken free used names) :
    ∃ before after, names = before ++ name :: after ∧
      ¬Replaced taken free (used + replacements taken free used before) name := by
  induction names generalizing used with
  | nil => cases h
  | cons first rest ih =>
      unfold kept at h
      split_ifs at h with hgone
      · obtain ⟨before, after, hsplit, hkept⟩ := ih h
        refine ⟨first :: before, after, by rw [hsplit]; rfl, ?_⟩
        rwa [replacements_cons, if_pos hgone, ← Nat.add_assoc, Nat.add_right_comm]
      · rcases List.mem_cons.mp h with rfl | hmem
        · exact ⟨[], rest, rfl, hgone⟩
        · obtain ⟨before, after, hsplit, hkept⟩ := ih hmem
          refine ⟨first :: before, after, by rw [hsplit]; rfl, ?_⟩
          rwa [replacements_cons, if_neg hgone]

variable (taken free)

/-- Each of the first replacements asks for one of the first substitutes. -/
theorem min_le_asking (used m : ℕ) (names : List α) :
    min (used + replacements taken free used names) (m + 1) ≤ used + asking taken free m names := by
  induction names generalizing used with
  | nil => exact Nat.min_le_left _ _
  | cons name rest ih =>
      rw [replacements_cons, asking_cons]
      by_cases hgone : Replaced taken free used name
      · rw [if_pos hgone]
        have hrest := ih (used + 1)
        -- what is replaced by then asks for one of the first `m`
        by_cases hfew : used ≤ m
        · have hasks : Replaced taken free m name :=
            hgone.imp_right fun htake => List.take_subset_take_left free hfew htake
          rw [if_pos hasks]
          omega
        · omega
      · rw [if_neg hgone]
        have hrest := ih used
        omega

theorem replacements_le_asking (used : ℕ) (names : List α) :
    replacements taken free used names ≤ asking taken free free.length names := by
  induction names generalizing used with
  | nil => exact Nat.le_refl 0
  | cons name rest ih =>
      rw [replacements_cons, asking_cons]
      by_cases hgone : Replaced taken free used name
      · have hasks : Replaced taken free free.length name :=
          hgone.imp_right fun htake => by
            rw [List.take_length]
            exact List.mem_of_mem_take htake
        rw [if_pos hgone, if_pos hasks]
        exact Nat.succ_le_succ (ih _)
      · rw [if_neg hgone]
        exact (ih _).trans (Nat.le_add_right _ _)

/-- What asks and is not replaced is kept, and one of the substitutes. -/
theorem asking_le (used m : ℕ) (names : List α) :
    asking taken free m names ≤ replacements taken free used names +
      (kept taken free used names).countP (· ∈ free.take m) := by
  induction names generalizing used with
  | nil => exact Nat.zero_le _
  | cons name rest ih =>
      rw [replacements_cons, asking_cons, kept_cons]
      by_cases hgone : Replaced taken free used name
      · rw [if_pos hgone, if_pos hgone]
        have hrest := ih (used + 1)
        split_ifs <;> omega
      · rw [if_neg hgone, if_neg hgone, List.countP_cons]
        have hrest := ih used
        by_cases hasks : Replaced taken free m name
        · have htake := hasks.resolve_left fun htaken => hgone (.inl htaken)
          rw [if_pos hasks, if_pos (decide_eq_true htake)]
          omega
        · rw [if_neg hasks]
          omega

variable {taken free}

/-- When nothing kept is one of them there is a replacement for each that asks. -/
theorem asking_le_replacements (h : ∀ name ∈ kept taken free used names, name ∉ free.take m) :
    asking taken free m names ≤ replacements taken free used names := by
  have hzero : (kept taken free used names).countP (· ∈ free.take m) = 0 :=
    List.countP_eq_zero.mpr fun name hname => by simpa using h name hname
  have hle := asking_le taken free used m names
  omega

/-- When nothing kept is handed out, and not all of the first `m` are handed out, at most `m` ask. -/
theorem asking_le_of_replacements_le (hnames : names.Nodup)
    (h : ∀ name ∈ kept taken free 0 names, name ∉ free.take (replacements taken free 0 names))
    (hm : replacements taken free 0 names ≤ m) (hlength : m ≤ free.length) :
    asking taken free m names ≤ m := by
  have hle := asking_le taken free 0 m names
  have hnodup : ((kept taken free 0 names).filter (· ∈ free.take m)).Nodup :=
    (hnames.sublist kept_sublist).filter _
  have hsub : (kept taken free 0 names).filter (· ∈ free.take m) ⊆
      (free.take m).drop (replacements taken free 0 names) := by
    intro name hname
    obtain ⟨hkept, htake⟩ := List.mem_filter.mp hname
    rw [decide_eq_true_eq, ← List.take_append_drop (replacements taken free 0 names) (free.take m),
      List.mem_append, List.take_take, Nat.min_eq_left hm] at htake
    exact htake.resolve_left (h name hkept)
  have hcount := (List.subperm_of_subset hnodup hsub).length_le
  rw [List.length_drop, List.length_take, Nat.min_eq_left hlength, ← List.countP_eq_length_filter]
    at hcount
  omega

omit [DecidableEq α] in
/-- A substitute is handed out when its turn has come. -/
theorem mem_take_iff {k : ℕ} (hfree : free.Nodup) (hget : free[m]? = some name) :
    name ∈ free.take k ↔ m < k := by
  obtain ⟨hlt, hname⟩ := List.getElem?_eq_some_iff.mp hget
  rw [List.mem_take_iff_getElem]
  constructor
  · rintro ⟨index, hindex, hsame⟩
    rw [← hname, hfree.getElem_inj_iff] at hsame
    omega
  · intro hturn
    exact ⟨m, by omega, hname⟩

/-- What is kept is never handed out exactly if the substitutes among the names are spared. -/
theorem kept_notMem_iff_spared (hnames : names.Nodup) (hfree : free.Nodup)
    (hfresh : ∀ name ∈ free, ¬taken name) :
    (∀ name ∈ kept taken free 0 names, name ∉ free.take (replacements taken free 0 names)) ↔
      Spared taken free names := by
  constructor
  · intro hkept before name after m hsplit hget
    by_cases hout : replacements taken free 0 names ≤ m
    · have hlt := (List.getElem?_eq_some_iff.mp hget).1
      exact .inr (asking_le_of_replacements_le hnames hkept hout hlt.le)
    · have hgone : Replaced taken free (replacements taken free 0 before) name := by
        by_contra hstays
        refine hkept name ?_ ((mem_take_iff hfree hget).mpr (Nat.lt_of_not_le hout))
        rw [hsplit, kept_append, kept_cons, Nat.zero_add, if_neg hstays]
        exact List.mem_append_right _ List.mem_cons_self
      have hturn := (mem_take_iff hfree hget).mp
        (hgone.resolve_left (hfresh name (List.mem_of_getElem? hget)))
      have hasks := min_le_asking taken free 0 m before
      exact .inl (by omega)
  · intro hspared
    -- A substitute that is handed out is not kept: by induction on its place, as those before it are replaced.
    have hall : ∀ m name, free[m]? = some name → m < replacements taken free 0 names →
        name ∉ kept taken free 0 names := by
      intro m
      induction m using Nat.strong_induction_on with
      | _ m ih =>
          intro name hget hturn hkept
          obtain ⟨before, after, hsplit, hstays⟩ := exists_of_mem_kept hkept
          rw [Nat.zero_add] at hstays
          rcases hspared before name after m hsplit hget with hbefore | hfew
          · have hout : ∀ other ∈ kept taken free 0 before, other ∉ free.take m := by
              intro other hother htake
              obtain ⟨index, hindex, hsame⟩ := List.mem_take_iff_getElem.mp htake
              refine ih index (by omega) other
                (List.getElem?_eq_some_iff.mpr ⟨by omega, hsame⟩) (by omega) ?_
              rw [hsplit, kept_append]
              exact List.mem_append_left _ hother
            have hle := asking_le_replacements hout
            exact hstays (.inr ((mem_take_iff hfree hget).mpr (hbefore.trans_le hle)))
          · have hasks := min_le_asking taken free 0 m names
            omega
    intro name hkept htake
    obtain ⟨index, hindex, hsame⟩ := List.mem_take_iff_getElem.mp htake
    exact hall index name (List.getElem?_eq_some_iff.mpr ⟨by omega, hsame⟩) (by omega) hkept

omit [DecidableEq α] in
/-- What is handed out: so many substitutes, and then the last resort. -/
theorem map_getD_range (last : α) (k : ℕ) :
    (List.range k).map (free.getD · last) =
      free.take k ++ List.replicate (k - free.length) last := by
  induction k with
  | zero => simp
  | succ k ih =>
      rw [List.range_succ, List.map_append, ih, List.map_singleton]
      by_cases hlt : k < free.length
      · rw [Nat.sub_eq_zero_of_le hlt.le, Nat.sub_eq_zero_of_le hlt, List.replicate_zero,
          List.append_nil, List.append_nil, List.take_add_one, List.getD_eq_getElem?_getD,
          List.getElem?_eq_getElem hlt]
        rfl
      · have hle := Nat.le_of_not_lt hlt
        rw [List.take_of_length_le hle, List.take_of_length_le (Nat.le_succ_of_le hle),
          List.getD_eq_default _ _ hle, Nat.succ_sub hle, List.replicate_succ', List.append_assoc]

/-- The names together with others are without repetition exactly if what stays with the others gives way, the
substitutes among the names are spared, and the last resort is needed at most once, and is free then. -/
theorem substituted_nodup_iff {others : List α} (hothers : others.Nodup) (hnames : names.Nodup)
    (hfree : free.Nodup) (hfresh : ∀ name ∈ free, name ∉ others)
    (htaken : ∀ name, taken name → name ∈ others) (hlast : last ∉ free) :
    (others ++ substituted taken free last 0 names).Nodup ↔
      (∀ name ∈ names, name ∈ others → taken name) ∧ Spared taken free names ∧
        (asking taken free free.length names ≤ free.length ∨
          asking taken free free.length names = free.length + 1 ∧ last ∉ others ∧ last ∉ names) := by
  have hperm : (others ++ substituted taken free last 0 names).Perm
      (others ++ (free.take (replacements taken free 0 names) ++
        List.replicate (replacements taken free 0 names - free.length) last ++
          kept taken free 0 names)) := by
    refine List.Perm.append_left others ?_
    rw [← map_getD_range, List.range_eq_range']
    exact substituted_perm
  have hspared := kept_notMem_iff_spared hnames hfree fun name hname htake =>
    hfresh name hname (htaken name htake)
  have hcount := replacements_le_asking taken free 0 names
  -- three lists, each without repetition and apart from the others
  rw [hperm.nodup_iff]
  constructor
  · intro hnodup
    obtain ⟨-, hgiven, hapart⟩ := List.nodup_append'.mp hnodup
    obtain ⟨hout, -, hkept⟩ := List.nodup_append'.mp hgiven
    have hresort := List.nodup_replicate.mp (List.nodup_append'.mp hout).2.1
    have htake : ∀ name ∈ kept taken free 0 names,
        name ∉ free.take (replacements taken free 0 names) := fun name hname hmem =>
      hkept (List.mem_append_left _ hmem) hname
    refine ⟨fun name hname hother => ?_, hspared.mp htake, ?_⟩
    · by_contra hstays
      exact hapart hother (List.mem_append_right _
        (mem_kept hname hstays fun hmem => hfresh name hmem hother))
    · rcases Nat.lt_or_ge free.length (replacements taken free 0 names) with hmore | hfew
      · have hout : ∀ name ∈ kept taken free 0 names, name ∉ free.take free.length := by
          intro name hname hmem
          refine htake name hname ?_
          rw [List.take_of_length_le hmore.le]
          exact List.mem_of_mem_take hmem
        have hle := asking_le_replacements hout
        have hlastout : last ∈ List.replicate (replacements taken free 0 names - free.length)
            last := List.mem_replicate.mpr ⟨by omega, rfl⟩
        have hnotother : last ∉ others := fun hother =>
          hapart hother (List.mem_append_left _ (List.mem_append_right _ hlastout))
        refine .inr ⟨by omega, hnotother, fun hname => ?_⟩
        exact hkept (List.mem_append_right _ hlastout)
          (mem_kept hname (fun htake => hnotother (htaken last htake)) hlast)
      · exact .inl (asking_le_of_replacements_le hnames htake hfew le_rfl)
  · rintro ⟨hstay, hspare, hresort⟩
    have htake := hspared.mpr hspare
    have hsome : replacements taken free 0 names - free.length ≤ 1 := by omega
    have hlastout : ∀ name ∈ List.replicate (replacements taken free 0 names - free.length) last,
        name = last ∧ last ∉ others ∧ last ∉ names := by
      intro name hname
      obtain ⟨hne, rfl⟩ := List.mem_replicate.mp hname
      refine ⟨rfl, (hresort.resolve_left ?_).2⟩
      omega
    refine List.nodup_append'.mpr ⟨hothers, List.nodup_append'.mpr
      ⟨List.nodup_append'.mpr ⟨hfree.sublist (List.take_sublist _ _),
        List.nodup_replicate.mpr hsome, ?_⟩, hnames.sublist kept_sublist, ?_⟩, ?_⟩
    · intro name hmem hout
      exact hlast ((hlastout name hout).1 ▸ List.mem_of_mem_take hmem)
    · intro name hmem hkept
      rcases List.mem_append.mp hmem with hmem | hout
      · exact htake name hkept hmem
      · obtain ⟨rfl, -, hnot⟩ := hlastout name hout
        exact hnot (kept_sublist.subset hkept)
    · intro name hother hmem
      rcases List.mem_append.mp hmem with hmem | hkept
      · rcases List.mem_append.mp hmem with hmem | hout
        · exact hfresh name (List.mem_of_mem_take hmem) hother
        · obtain ⟨rfl, hnot, -⟩ := hlastout name hout
          exact hnot hother
      · exact not_taken_of_mem_kept hkept (hstay name (kept_sublist.subset hkept) hother)

end Substitutes

end TwowCore.Lib
