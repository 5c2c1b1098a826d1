import Mathlib

/-!
# Lists as maps

A list of records with distinct keys serves as a map: `writeKey` rewrites the record of a key and
`eraseKey` takes it out. The lemmas say what the two do to the keys, to membership and to the
number of records that satisfy a test.
-/

namespace TwowCore.Lib

variable {α κ : Type*} [DecidableEq κ] (key : α → κ)

/-- Rewrites the record of a key. -/
def writeKey (k : κ) (f : α → α) (l : List α) : List α :=
  l.map fun a => if key a = k then f a else a

/-- Takes out the record of a key. -/
def eraseKey (k : κ) (l : List α) : List α := l.filter fun a => key a ≠ k

variable {key} {k : κ} {f : α → α} {l : List α} {a : α}

/-- Rewriting keeps the keys. -/
theorem writeKey_keys (hkey : ∀ a ∈ l, key (f a) = key a) :
    (writeKey key k f l).map key = l.map key := by
  unfold writeKey
  rw [List.map_map]
  refine List.map_congr_left fun a ha => ?_
  show key (if key a = k then f a else a) = key a
  split_ifs
  · exact hkey a ha
  · rfl

@[simp] theorem writeKey_length : (writeKey key k f l).length = l.length := List.length_map _

/-- What is in a rewritten list. -/
theorem mem_writeKey {b : α} :
    b ∈ writeKey key k f l ↔ ∃ a ∈ l, (if key a = k then f a else a) = b :=
  List.mem_map

/-- What is in a list without a key. -/
theorem mem_eraseKey {b : α} : b ∈ eraseKey key k l ↔ b ∈ l ∧ key b ≠ k := by
  simp [eraseKey]

/-- Taking a key out keeps the others in place. -/
theorem eraseKey_keys : (eraseKey key k l).map key = (l.map key).filter (· ≠ k) := by
  simp [eraseKey, List.filter_map, Function.comp_def]

/-- Distinct keys stay distinct. -/
theorem eraseKey_nodup (h : (l.map key).Nodup) : ((eraseKey key k l).map key).Nodup := by
  rw [eraseKey_keys]
  exact h.filter _

/-- Rewriting a key that is not there changes nothing. -/
theorem writeKey_of_notMem (h : k ∉ l.map key) : writeKey key k f l = l := by
  unfold writeKey
  refine (List.map_congr_left fun a ha => ?_).trans (List.map_id l)
  show (if key a = k then f a else a) = a
  rw [if_neg]
  rintro rfl
  exact h (List.mem_map_of_mem ha)

/-- Taking out a key that is not there changes nothing. -/
theorem eraseKey_of_notMem (h : k ∉ l.map key) : eraseKey key k l = l := by
  refine List.filter_eq_self.mpr fun a ha => ?_
  simp only [ne_eq, decide_not, Bool.not_eq_true', decide_eq_false_iff_not]
  rintro rfl
  exact h (List.mem_map_of_mem ha)

/-- Counting after a rewrite. -/
theorem countP_writeKey (p : α → Bool) (hnodup : (l.map key).Nodup) (hmem : a ∈ l)
    (hkey : key a = k) :
    (writeKey key k f l).countP p + (if p a then 1 else 0) =
      l.countP p + (if p (f a) then 1 else 0) := by
  induction l with
  | nil => cases hmem
  | cons b rest ih =>
      rw [List.map_cons, List.nodup_cons] at hnodup
      obtain ⟨hnot, hrest⟩ := hnodup
      rcases List.mem_cons.mp hmem with rfl | hmem
      · have hsame : writeKey key k f rest = rest := writeKey_of_notMem (hkey ▸ hnot)
        have hcons : writeKey key k f (a :: rest) = f a :: rest := by
          show (if key a = k then f a else a) :: writeKey key k f rest = _
          rw [hsame, if_pos hkey]
        rw [hcons, List.countP_cons, List.countP_cons]
        omega
      · have hne : key b ≠ k := by
          rintro rfl
          exact hnot (hkey ▸ List.mem_map_of_mem hmem)
        have hcons : writeKey key k f (b :: rest) = b :: writeKey key k f rest := by
          show (if key b = k then f b else b) :: _ = _
          rw [if_neg hne]
          rfl
        have hih := ih hrest hmem
        rw [hcons, List.countP_cons, List.countP_cons]
        omega

/-- A sum after a rewrite. -/
theorem sum_writeKey (w : α → ℕ) (hnodup : (l.map key).Nodup) (hmem : a ∈ l) (hkey : key a = k) :
    ((writeKey key k f l).map w).sum + w a = (l.map w).sum + w (f a) := by
  induction l with
  | nil => cases hmem
  | cons b rest ih =>
      rw [List.map_cons, List.nodup_cons] at hnodup
      obtain ⟨hnot, hrest⟩ := hnodup
      rcases List.mem_cons.mp hmem with rfl | hmem
      · have hsame : writeKey key k f rest = rest := writeKey_of_notMem (hkey ▸ hnot)
        have hcons : writeKey key k f (a :: rest) = f a :: rest := by
          show (if key a = k then f a else a) :: writeKey key k f rest = _
          rw [hsame, if_pos hkey]
        rw [hcons, List.map_cons, List.map_cons, List.sum_cons, List.sum_cons]
        omega
      · have hne : key b ≠ k := by
          rintro rfl
          exact hnot (hkey ▸ List.mem_map_of_mem hmem)
        have hcons : writeKey key k f (b :: rest) = b :: writeKey key k f rest := by
          show (if key b = k then f b else b) :: _ = _
          rw [if_neg hne]
          rfl
        have hih := ih hrest hmem
        rw [hcons, List.map_cons, List.map_cons, List.sum_cons, List.sum_cons]
        omega

/-- The list is the record of a key and the rest. -/
theorem perm_eraseKey (hnodup : (l.map key).Nodup) (hmem : a ∈ l) (hkey : key a = k) :
    l.Perm (a :: eraseKey key k l) := by
  induction l with
  | nil => cases hmem
  | cons b rest ih =>
      rw [List.map_cons, List.nodup_cons] at hnodup
      obtain ⟨hnot, hrest⟩ := hnodup
      rcases List.mem_cons.mp hmem with rfl | hmem
      · have hcons : eraseKey key k (a :: rest) = rest := by
          rw [eraseKey, List.filter_cons_of_neg (by simpa using hkey)]
          exact eraseKey_of_notMem (hkey ▸ hnot)
        rw [hcons]
      · have hne : key b ≠ k := by
          rintro rfl
          exact hnot (hkey ▸ List.mem_map_of_mem hmem)
        have hcons : eraseKey key k (b :: rest) = b :: eraseKey key k rest := by
          rw [eraseKey, List.filter_cons_of_pos (by simpa using hne)]
          rfl
        rw [hcons]
        exact ((ih hrest hmem).cons b).trans (List.Perm.swap a b _)

/-- After a rewrite the list is the new record and the same rest. -/
theorem perm_writeKey (hnodup : (l.map key).Nodup) (hmem : a ∈ l) (hkey : key a = k) :
    (writeKey key k f l).Perm (f a :: eraseKey key k l) := by
  have hrest : ∀ b ∈ eraseKey key k l, (if key b = k then f b else b) = b := fun b hb =>
    if_neg (mem_eraseKey.mp hb).2
  refine ((perm_eraseKey hnodup hmem hkey).map _).trans ?_
  rw [List.map_cons, if_pos hkey, List.map_congr_left hrest, List.map_id']

/-- Counting after a record is taken out. -/
theorem countP_eraseKey (p : α → Bool) (hnodup : (l.map key).Nodup) (hmem : a ∈ l)
    (hkey : key a = k) :
    (eraseKey key k l).countP p + (if p a then 1 else 0) = l.countP p := by
  induction l with
  | nil => cases hmem
  | cons b rest ih =>
      rw [List.map_cons, List.nodup_cons] at hnodup
      obtain ⟨hnot, hrest⟩ := hnodup
      rcases List.mem_cons.mp hmem with rfl | hmem
      · have hcons : eraseKey key k (a :: rest) = rest := by
          rw [eraseKey, List.filter_cons_of_neg (by simpa using hkey)]
          exact eraseKey_of_notMem (hkey ▸ hnot)
        rw [hcons, List.countP_cons]
      · have hne : key b ≠ k := by
          rintro rfl
          exact hnot (hkey ▸ List.mem_map_of_mem hmem)
        have hcons : eraseKey key k (b :: rest) = b :: eraseKey key k rest := by
          rw [eraseKey, List.filter_cons_of_pos (by simpa using hne)]
          rfl
        have hih := ih hrest hmem
        rw [hcons, List.countP_cons, List.countP_cons]
        omega

/-- The length after a record is taken out. -/
theorem length_eraseKey (hnodup : (l.map key).Nodup) (hmem : a ∈ l) (hkey : key a = k) :
    (eraseKey key k l).length + 1 = l.length := by
  have h := countP_eraseKey (fun _ => true) hnodup hmem hkey
  simpa using h

/-- The search for a key finds its record. -/
theorem find_key (hnodup : (l.map key).Nodup) (hmem : a ∈ l) (hkey : key a = k) :
    l.find? (fun b => key b = k) = some a := by
  cases hfind : l.find? (fun b => key b = k) with
  | none =>
      have hnone := List.find?_eq_none.mp hfind a hmem
      simp [hkey] at hnone
  | some b =>
      have hb := List.find?_some hfind
      have hsame := List.inj_on_of_nodup_map hnodup (List.mem_of_find?_eq_some hfind) hmem
        ((of_decide_eq_true hb).trans hkey.symm)
      rw [hsame]

/-- Searching a rewritten list. -/
theorem find_writeKey (hkey : ∀ a, key (f a) = key a) (k' : κ) :
    (writeKey key k f l).find? (fun a => key a = k') =
      if k' = k then (l.find? fun a => key a = k').map f else l.find? fun a => key a = k' := by
  induction l with
  | nil => simp [writeKey]
  | cons a rest ih =>
      have hcons : writeKey key k f (a :: rest) =
          (if key a = k then f a else a) :: writeKey key k f rest := rfl
      have hhead : key (if key a = k then f a else a) = key a := by
        split_ifs
        · exact hkey a
        · rfl
      rw [hcons, List.find?_cons, List.find?_cons, hhead]
      by_cases ha : key a = k'
      · simp only [ha, decide_true]
        split_ifs <;> rfl
      · simp only [ha, decide_false]
        exact ih

/-- Searching a list without a key. -/
theorem find_eraseKey (k' : κ) :
    (eraseKey key k l).find? (fun a => key a = k') =
      if k' = k then none else l.find? fun a => key a = k' := by
  unfold eraseKey
  rw [List.find?_filter]
  split_ifs with h
  · refine List.find?_eq_none.mpr fun a _ => ?_
    simp [h]
  · congr 1
    funext a
    by_cases ha : key a = k'
    · simp [ha, h]
    · simp [ha]

section Map

variable {β : Type*} {key' : β → κ} {m : α → β}

/-- Rewriting a list and its image alike. -/
theorem map_writeKey {g : β → β} (hkey : ∀ a, key' (m a) = key a)
    (h : ∀ a ∈ l, key a = k → m (f a) = g (m a)) :
    (writeKey key k f l).map m = writeKey key' k g (l.map m) := by
  unfold writeKey
  rw [List.map_map, List.map_map]
  refine List.map_congr_left fun a ha => ?_
  show m (if key a = k then f a else a) = if key' (m a) = k then g (m a) else m a
  rw [hkey]
  split_ifs with hk
  · exact h a ha hk
  · rfl

/-- Taking a key out of a list and of its image. -/
theorem map_eraseKey (hkey : ∀ a, key' (m a) = key a) :
    (eraseKey key k l).map m = eraseKey key' k (l.map m) := by
  unfold eraseKey
  rw [List.filter_map]
  congr 1
  refine List.filter_congr fun a _ => ?_
  simp [hkey]

end Map

end TwowCore.Lib
