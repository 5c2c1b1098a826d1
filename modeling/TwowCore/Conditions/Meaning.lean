import TwowCore.Conditions.Condition
import Mathlib.Tactic.SplitIfs

/-!
# What conditions mean

A condition that `LoadConditions` keeps refers to conditions that are kept and have lower numbers
(`Grounded`), so the calls of `Meets` come to an end. What it returns is the boolean meaning of the
row: `meaningOf` is the conjunction or disjunction of all the rows referred to, where the code stops at
the first that decides. `conditions_meaning` says that there is one such meaning and that `Meets`
computes it.

`IsValid` looks at the first value of a negation only, while `Evaluate` calls its third and fourth as
well, and it does not compare the number of a condition that other objects are tested with, which may be
the row itself or one that is dropped later; `Plain` leaves such rows out.
-/

namespace TwowCore

/-- The conditions a condition refers to, as `IsValid` checks them. -/
def ConditionEntry.refs (c : ConditionEntry) : List Int32 :=
  match c.condition with
  | .not => [c.value1]
  | .or | .and => [c.value1, c.value2] ++ [c.value3, c.value4].filter (· ≠ 0)
  | .mapEventTargets | .objectFitCondition => [c.value2]
  | _ => []

/-- A negation has no more than one condition, and what other objects are tested with has a lower number. -/
def ConditionEntry.Plain (c : ConditionEntry) : Prop :=
  (c.condition = .not → c.value3 = 0 ∧ c.value4 = 0) ∧
    (c.condition = .mapEventTargets ∨ c.condition = .objectFitCondition → c.value2.toUInt32 < c.entry)

instance (c : ConditionEntry) : Decidable c.Plain := inferInstanceAs (Decidable (_ ∧ _))

namespace ConditionEntry

variable {c : ConditionEntry}

theorem refs_not (h : c.condition = .not) : c.refs = [c.value1] := by rw [refs, h]

theorem refs_or (h : c.condition = .or) :
    c.refs = [c.value1, c.value2] ++ [c.value3, c.value4].filter (· ≠ 0) := by rw [refs, h]

theorem refs_and (h : c.condition = .and) :
    c.refs = [c.value1, c.value2] ++ [c.value3, c.value4].filter (· ≠ 0) := by rw [refs, h]

theorem refs_mapEventTargets (h : c.condition = .mapEventTargets) : c.refs = [c.value2] := by rw [refs, h]

theorem refs_objectFitCondition (h : c.condition = .objectFitCondition) : c.refs = [c.value2] := by rw [refs, h]

end ConditionEntry

namespace ConditionStorage

/-- Each condition stands at its number. -/
def Indexed (storage : ConditionStorage) : Prop :=
  ∀ (i : ℕ) (c : ConditionEntry), storage[i]? = some (some c) → c.entry.toNat = i

/-- What a condition refers to is there and has a lower number. -/
def Grounded (storage : ConditionStorage) (c : ConditionEntry) : Prop :=
  ∀ value ∈ c.refs, value.toUInt32 < c.entry ∧ (storage.lookupEntry value.toUInt32).isSome = true

end ConditionStorage

section Loading

variable {O M : Type} {w : ConditionWorld O M} {storage : ConditionStorage} {c c' : ConditionEntry}

theorem refersTo_iff {value : Int32} :
    c.refersTo storage value = true ↔
      value.toUInt32 < c.entry ∧ (storage.lookupEntry value.toUInt32).isSome = true := by
  rw [ConditionEntry.refersTo, Bool.and_eq_true, decide_eq_true_iff]

/-- A condition that is kept keeps its number, and is grounded if it is plain. -/
theorem isValid_spec (h : c.isValid w storage = some c') :
    c'.entry = c.entry ∧ (c'.Plain → storage.Grounded c') := by
  have hone : ∀ {value : Int32}, value.toUInt32 < c.entry ∧ (storage.lookupEntry value.toUInt32).isSome = true →
      c.refs = [value] → storage.Grounded c := by
    intro value hvalue hrefs value' hvalue'
    rw [hrefs] at hvalue'
    exact List.mem_singleton.mp hvalue' ▸ hvalue
  unfold ConditionEntry.isValid at h
  cases htype : c.condition with
  | not =>
      simp only [htype] at h
      split_ifs at h with hfirst
      obtain rfl := Option.some.inj h
      exact ⟨rfl, fun _ => hone (refersTo_iff.mp hfirst) (ConditionEntry.refs_not htype)⟩
  | or | and =>
      simp only [htype] at h
      split_ifs at h with hall
      obtain rfl := Option.some.inj h
      obtain ⟨hfirst, hsecond, hthird, hfourth⟩ := hall
      refine ⟨rfl, fun _ value hvalue => ?_⟩
      rw [ConditionEntry.refs, htype] at hvalue
      simp only [List.cons_append, List.nil_append, List.mem_cons, List.mem_filter, List.not_mem_nil, or_false,
        decide_eq_true_iff] at hvalue
      rcases hvalue with rfl | rfl | ⟨rfl | rfl, hne⟩
      · exact refersTo_iff.mp hfirst
      · exact refersTo_iff.mp hsecond
      · exact refersTo_iff.mp (hthird hne)
      · exact refersTo_iff.mp (hfourth hne)
  | mapEventTargets =>
      simp only [htype] at h
      split_ifs at h with hsome
      obtain rfl := Option.some.inj h
      exact ⟨rfl, fun hplain =>
        hone ⟨hplain.2 (Or.inl htype), hsome⟩ (ConditionEntry.refs_mapEventTargets htype)⟩
  | objectFitCondition =>
      simp only [htype] at h
      split_ifs at h with hsome
      obtain rfl := Option.some.inj h
      exact ⟨rfl, fun hplain =>
        hone ⟨hplain.2 (Or.inr htype), hsome.2⟩ (ConditionEntry.refs_objectFitCondition htype)⟩
  | none =>
      simp only [htype] at h
      obtain rfl := Option.some.inj h
      exact ⟨rfl, fun _ value hvalue => by rw [ConditionEntry.refs, htype] at hvalue; cases hvalue⟩
  | atom number =>
      simp only [htype] at h
      split at h
      · obtain rfl := Option.some.inj h
        exact ⟨rfl, fun _ value hvalue => by rw [ConditionEntry.refs, htype] at hvalue; cases hvalue⟩
      · cases h
      · obtain rfl := Option.some.inj h
        exact ⟨rfl, nofun⟩
  | bad =>
      simp only [htype] at h
      cases h

/-- The first `bound` numbers are done: what stands there is grounded if it is plain. -/
structure Checked (storage : ConditionStorage) (bound : ℕ) : Prop where
  indexed : storage.Indexed
  grounded : ∀ (i : ℕ) (c : ConditionEntry), i < bound → storage[i]? = some (some c) → c.Plain →
    storage.Grounded c

/-- A condition with a lower number is not touched when a later one is set. -/
theorem lookupEntry_set {i : ℕ} {new : Option ConditionEntry} {id : UInt32} (h : id.toNat < i) :
    ConditionStorage.lookupEntry (storage.set i new) id = storage.lookupEntry id := by
  unfold ConditionStorage.lookupEntry
  rw [List.getElem?_set_ne (Nat.ne_of_gt h)]

theorem Checked.loadCondition {bound : ℕ} (h : Checked storage bound) :
    Checked (loadCondition w storage bound) (bound + 1) := by
  unfold TwowCore.loadCondition
  split
  · next c hc =>
      -- what refers below `bound` does not see the change
      have hkept : ∀ {c' : ConditionEntry}, c'.entry.toNat ≤ bound → storage.Grounded c' →
          ConditionStorage.Grounded (storage.set bound (c.isValid w storage)) c' := by
        intro c' hle hgrounded value hvalue
        obtain ⟨hlt, hsome⟩ := hgrounded value hvalue
        have hbelow : value.toUInt32.toNat < bound := Nat.lt_of_lt_of_le hlt hle
        exact ⟨hlt, by rw [lookupEntry_set hbelow]; exact hsome⟩
      refine ⟨fun i c' hc' => ?_, fun i c' hi hc' hplain => ?_⟩
      · by_cases hsame : bound = i
        · subst hsame
          rw [List.getElem?_set_self (List.getElem?_eq_some_iff.mp hc).1] at hc'
          rw [(isValid_spec (Option.some.inj hc')).1]
          exact h.indexed _ c hc
        · rw [List.getElem?_set_ne hsame] at hc'
          exact h.indexed i c' hc'
      · by_cases hsame : bound = i
        · subst hsame
          rw [List.getElem?_set_self (List.getElem?_eq_some_iff.mp hc).1] at hc'
          obtain ⟨hentry, hgrounded⟩ := isValid_spec (Option.some.inj hc')
          refine hkept ?_ (hgrounded hplain)
          rw [hentry, h.indexed _ c hc]
        · rw [List.getElem?_set_ne hsame] at hc'
          refine hkept ?_ (h.grounded i c' (by omega) hc' hplain)
          rw [h.indexed i c' hc']
          omega
  · next hnone =>
      refine ⟨h.indexed, fun i c hi hc hplain => ?_⟩
      by_cases hsame : i = bound
      · exact absurd (hsame ▸ hc) (hnone c)
      · exact h.grounded i c (by omega) hc hplain

theorem length_loadCondition (i : ℕ) : (loadCondition w storage i).length = storage.length := by
  unfold loadCondition
  split
  · rw [List.length_set]
  · rfl

theorem checked_foldl (n : ℕ) (h : Checked storage 0) :
    Checked ((List.range n).foldl (loadCondition w) storage) n ∧
      ((List.range n).foldl (loadCondition w) storage).length = storage.length := by
  induction n with
  | zero => exact ⟨h, rfl⟩
  | succ n ih =>
      rw [List.range_succ, List.foldl_append]
      exact ⟨ih.1.loadCondition, (length_loadCondition n).trans ih.2⟩

/-- Every condition that is kept stands at its number, and is grounded in what is kept if it is plain. -/
theorem grounded_loadConditions (hindexed : storage.Indexed) {i : ℕ}
    (hc : (loadConditions w storage)[i]? = some (some c)) :
    c.entry.toNat = i ∧ (c.Plain → ConditionStorage.Grounded (loadConditions w storage) c) := by
  obtain ⟨hchecked, hlength⟩ := checked_foldl (w := w) storage.length ⟨hindexed, fun _ _ hlt => absurd hlt (by omega)⟩
  have hlt : i < storage.length := hlength ▸ (List.getElem?_eq_some_iff.mp hc).1
  exact ⟨hchecked.indexed i c hc, hchecked.grounded i c hlt hc⟩

end Loading

section Meaning

variable {O M : Type} {w : ConditionWorld O M} {storage : ConditionStorage} {conditionSource : ConditionSource}

/-- What a condition means, from what the conditions it refers to mean for a target. -/
def ConditionEntry.meaningOf (w : ConditionWorld O M) (c : ConditionEntry) (target : Option O) (map : Option M)
    (source : Option O) (conditionSource : ConditionSource) (truth : Int32 → Option O → Bool) : Bool :=
  match c.condition with
  | .not => !truth c.value1 target
  | .or => c.refs.any fun value => truth value target
  | .and => c.refs.all fun value => truth value target
  | .mapEventTargets => (w.eventTargets c.value1 target map source).all fun object => truth c.value2 (some object)
  | .objectFitCondition =>
      (w.gameObject c.value1 target map source).any fun object => truth c.value2 (some object)
  | .none => true
  | .atom _ => w.evaluate c target map source conditionSource
  | .bad => false

theorem shortOr_some (a b : Bool) : shortOr (some a) (some b) = some (a || b) := by cases a <;> rfl

theorem shortAnd_some (a b : Bool) : shortAnd (some a) (some b) = some (a && b) := by cases a <;> rfl

theorem allSatisfied_some {call : O → Option Bool} {holds : O → Bool} (h : ∀ object, call object = some (holds object))
    (objects : List O) : allSatisfied call objects = some (objects.all holds) := by
  induction objects with
  | nil => rfl
  | cons object rest ih => rw [allSatisfied, h, ih, shortAnd_some, List.all_cons]

/-- `Evaluate` stops early, but what it returns is the meaning. -/
theorem evaluate_eq {c : ConditionEntry} (hplain : c.Plain) {call : Int32 → Option O → Option Bool}
    {truth : Int32 → Option O → Bool} (h : ∀ value ∈ c.refs, ∀ target, call value target = some (truth value target))
    (target : Option O) (map : Option M) (source : Option O) :
    c.evaluate w target map source conditionSource call =
      some (c.meaningOf w target map source conditionSource truth) := by
  -- the third and fourth condition are optional, and where there are none their part is decided
  have hoptional : ∀ (dflt : Bool) (value : Int32), value ∈ [c.value3, c.value4] →
      c.refs = [c.value1, c.value2] ++ [c.value3, c.value4].filter (· ≠ 0) →
      (if value ≠ 0 then call value target else some dflt) =
        some (if value ≠ 0 then truth value target else dflt) := by
    intro dflt value hvalue hrefs
    split_ifs with hne
    · refine h value ?_ target
      rw [hrefs]
      exact List.mem_append_right _ (List.mem_filter.mpr ⟨hvalue, decide_eq_true hne⟩)
    · rfl
  unfold ConditionEntry.evaluate ConditionEntry.meaningOf
  cases htype : c.condition with
  | not =>
      obtain ⟨hthird, hfourth⟩ := hplain.1 htype
      have hfirst := h c.value1 (by rw [ConditionEntry.refs_not htype]; exact List.mem_singleton.mpr rfl) target
      simp only [hthird, hfourth, ne_eq, not_true_eq_false, if_false, hfirst]
      rfl
  | or =>
      have hrefs := ConditionEntry.refs_or htype
      have hfirst := h c.value1 (by rw [hrefs]; simp) target
      have hsecond := h c.value2 (by rw [hrefs]; simp) target
      simp only [hfirst, hsecond, hoptional false c.value3 (by simp) hrefs,
        hoptional false c.value4 (by simp) hrefs, shortOr_some]
      rw [hrefs]
      simp only [List.any_append, List.any_cons, List.any_nil, List.any_filter, Bool.or_false]
      have hpart : ∀ value : Int32, (if value ≠ 0 then truth value target else false) =
          (decide (value ≠ 0) && truth value target) := by
        intro value
        split_ifs with hne
        · rw [decide_eq_true hne, Bool.true_and]
        · rw [decide_eq_false hne, Bool.false_and]
      rw [hpart, hpart]
      ac_rfl
  | and =>
      have hrefs := ConditionEntry.refs_and htype
      have hfirst := h c.value1 (by rw [hrefs]; simp) target
      have hsecond := h c.value2 (by rw [hrefs]; simp) target
      simp only [hfirst, hsecond, hoptional true c.value3 (by simp) hrefs,
        hoptional true c.value4 (by simp) hrefs, shortAnd_some]
      rw [hrefs]
      simp only [List.all_append, List.all_cons, List.all_nil, List.all_filter, Bool.and_true]
      have hpart : ∀ value : Int32, (if value ≠ 0 then truth value target else true) =
          (!decide (value ≠ 0) || truth value target) := by
        intro value
        split_ifs with hne
        · rw [decide_eq_true hne, Bool.not_true, Bool.false_or]
        · rw [decide_eq_false hne, Bool.not_false, Bool.true_or]
      rw [hpart, hpart]
      ac_rfl
  | mapEventTargets =>
      have hmem : c.value2 ∈ c.refs := by
        rw [ConditionEntry.refs_mapEventTargets htype]
        exact List.mem_singleton.mpr rfl
      exact allSatisfied_some (fun object => h c.value2 hmem (some object)) _
  | objectFitCondition =>
      have hmem : c.value2 ∈ c.refs := by
        rw [ConditionEntry.refs_objectFitCondition htype]
        exact List.mem_singleton.mpr rfl
      cases hobject : w.gameObject c.value1 target map source with
      | none => simp only [Option.any_none]
      | some object => simp only [h c.value2 hmem (some object), Option.any_some]
  | none => rfl
  | atom number => rfl
  | bad => rfl

/-- The meaning only looks at the conditions referred to. -/
theorem meaningOf_congr {c : ConditionEntry} {truth truth' : Int32 → Option O → Bool}
    (h : ∀ value ∈ c.refs, truth value = truth' value) (target : Option O) (map : Option M) (source : Option O) :
    c.meaningOf w target map source conditionSource truth = c.meaningOf w target map source conditionSource truth' := by
  unfold ConditionEntry.meaningOf
  cases htype : c.condition with
  | not =>
      have hfirst := h c.value1 (by rw [ConditionEntry.refs_not htype]; exact List.mem_singleton.mpr rfl)
      simp only [hfirst]
  | or =>
      refine Bool.eq_iff_iff.mpr ?_
      simp only [List.any_eq_true]
      exact ⟨fun ⟨value, hmem, hvalue⟩ => ⟨value, hmem, h value hmem ▸ hvalue⟩,
        fun ⟨value, hmem, hvalue⟩ => ⟨value, hmem, (h value hmem).symm ▸ hvalue⟩⟩
  | and =>
      refine Bool.eq_iff_iff.mpr ?_
      simp only [List.all_eq_true]
      exact ⟨fun hall value hmem => h value hmem ▸ hall value hmem,
        fun hall value hmem => (h value hmem).symm ▸ hall value hmem⟩
  | mapEventTargets =>
      simp only [h c.value2 (by rw [ConditionEntry.refs_mapEventTargets htype]; exact List.mem_singleton.mpr rfl)]
  | objectFitCondition =>
      simp only [h c.value2 (by rw [ConditionEntry.refs_objectFitCondition htype]; exact List.mem_singleton.mpr rfl)]
  | none | atom number | bad => rfl

/-- The meaning of a condition with its flags: false where a parameter is missing, and then neither flag
matters. -/
def ConditionEntry.flagged (w : ConditionWorld O M) (c : ConditionEntry) (target : Option O) (map : Option M)
    (source : Option O) (conditionSource : ConditionSource)
    (truth : Int32 → Option O → Option M → Option O → Bool) : Bool :=
  let first := if c.swapTargets = true then source else target
  let second := if c.swapTargets = true then target else source
  if checkParamRequirements w c.condition first map second = false then false
  else
    let result := c.meaningOf w first map second conditionSource fun value object => truth value object map second
    if c.reverseResult = true then !result else result

/-- `truth` gives each condition that is there its meaning, and what is not there none. -/
def IsMeaning (w : ConditionWorld O M) (storage : ConditionStorage) (conditionSource : ConditionSource)
    (truth : Int32 → Option O → Option M → Option O → Bool) : Prop :=
  ∀ value target map source, truth value target map source =
    match storage.lookupEntry value.toUInt32 with
    | none => false
    | some c => c.flagged w target map source conditionSource truth

/-- The storage is grounded and its conditions are plain. -/
structure WellFormed (storage : ConditionStorage) : Prop where
  indexed : storage.Indexed
  grounded : ∀ (i : ℕ) (c : ConditionEntry), storage[i]? = some (some c) → storage.Grounded c
  plain : ∀ (i : ℕ) (c : ConditionEntry), storage[i]? = some (some c) → c.Plain

theorem lookupEntry_eq_some {id : UInt32} {c : ConditionEntry} (h : storage.lookupEntry id = some c) :
    storage[id.toNat]? = some (some c) := by
  unfold ConditionStorage.lookupEntry at h
  exact Option.join_eq_some_iff.mp h

/-- A condition that is referred to is there, has a lower number and stands at it. -/
theorem WellFormed.ref (h : WellFormed storage) {id : UInt32} {c : ConditionEntry}
    (hc : storage.lookupEntry id = some c) {value : Int32} (hvalue : value ∈ c.refs) :
    ∃ c', storage.lookupEntry value.toUInt32 = some c' ∧ c'.entry.toNat < c.entry.toNat := by
  obtain ⟨hlt, hsome⟩ := h.grounded _ c (lookupEntry_eq_some hc) value hvalue
  obtain ⟨c', hc'⟩ := Option.isSome_iff_exists.mp hsome
  refine ⟨c', hc', ?_⟩
  rw [h.indexed _ c' (lookupEntry_eq_some hc')]
  exact hlt

theorem flagged_congr {c : ConditionEntry} {truth truth' : Int32 → Option O → Option M → Option O → Bool}
    (h : ∀ value ∈ c.refs, truth value = truth' value) (target : Option O) (map : Option M) (source : Option O) :
    c.flagged w target map source conditionSource truth = c.flagged w target map source conditionSource truth' := by
  unfold ConditionEntry.flagged
  simp only
  rw [meaningOf_congr fun value hvalue => by rw [h value hvalue]]

/-- A condition returns its meaning, with calls as deep as its number. -/
theorem meets_spec (hstorage : WellFormed storage) {truth : Int32 → Option O → Option M → Option O → Bool}
    (htruth : IsMeaning w storage conditionSource truth) (fuel : ℕ) {id : UInt32} {c : ConditionEntry}
    (hc : storage.lookupEntry id = some c) (hfuel : c.entry.toNat < fuel) (target : Option O) (map : Option M)
    (source : Option O) :
    c.meets w storage conditionSource fuel target map source =
      some (c.flagged w target map source conditionSource truth) := by
  induction fuel generalizing id c target map source with
  | zero => exact absurd hfuel (Nat.not_lt_zero _)
  | succ fuel ih =>
      have hcalls : ∀ second, ∀ value ∈ c.refs, ∀ object,
          (match storage.lookupEntry value.toUInt32 with
            | none => none
            | some condition => condition.meets w storage conditionSource fuel object map second) =
          some (truth value object map second) := by
        intro second value hvalue object
        obtain ⟨c', hc', hlt⟩ := hstorage.ref hc hvalue
        rw [htruth, hc']
        exact ih hc' (by omega) object map second
      unfold ConditionEntry.meets ConditionEntry.flagged
      simp only
      generalize (if c.swapTargets = true then source else target) = first
      generalize (if c.swapTargets = true then target else source) = second
      by_cases hcheck : checkParamRequirements w c.condition first map second = false
      · rw [if_pos hcheck, if_pos hcheck]
      · rw [if_neg hcheck, if_neg hcheck]
        have hplain := hstorage.plain _ c (lookupEntry_eq_some hc)
        exact congrArg (Option.map fun result => if c.reverseResult = true then !result else result)
          (evaluate_eq hplain (hcalls second) first map second)

/-- Two meanings agree on every condition. -/
theorem meaning_unique (hstorage : WellFormed storage)
    {truth truth' : Int32 → Option O → Option M → Option O → Bool} (h : IsMeaning w storage conditionSource truth)
    (h' : IsMeaning w storage conditionSource truth') : truth = truth' := by
  have hall : ∀ (n : ℕ) (value : Int32) (c : ConditionEntry), storage.lookupEntry value.toUInt32 = some c →
      c.entry.toNat < n → truth value = truth' value := by
    intro n
    induction n with
    | zero => exact fun _ _ _ hlt => absurd hlt (Nat.not_lt_zero _)
    | succ n ih =>
        intro value c hc hlt
        funext target map source
        rw [h, h', hc]
        refine flagged_congr (fun value' hvalue' => ?_) target map source
        obtain ⟨c', hc', hlower⟩ := hstorage.ref hc hvalue'
        exact ih value' c' hc' (by omega)
  funext value
  cases hc : storage.lookupEntry value.toUInt32 with
  | none =>
      funext target map source
      rw [h, h', hc]
  | some c => exact hall _ value c hc (Nat.lt_succ_self _)

/-- The meaning of the conditions up to a depth of references. -/
def truthTo (w : ConditionWorld O M) (storage : ConditionStorage) (conditionSource : ConditionSource) :
    ℕ → Int32 → Option O → Option M → Option O → Bool
  | 0, _, _, _, _ => false
  | n + 1, value, target, map, source =>
      match storage.lookupEntry value.toUInt32 with
      | none => false
      | some c => c.flagged w target map source conditionSource (truthTo w storage conditionSource n)

/-- A depth beyond the number of a condition changes nothing. -/
theorem truthTo_stable (hstorage : WellFormed storage) {n m : ℕ} {value : Int32} {c : ConditionEntry}
    (hc : storage.lookupEntry value.toUInt32 = some c) (hn : c.entry.toNat < n) (hm : c.entry.toNat < m) :
    truthTo w storage conditionSource n value = truthTo w storage conditionSource m value := by
  induction n generalizing m value c with
  | zero => exact absurd hn (Nat.not_lt_zero _)
  | succ n ih =>
      obtain ⟨m, rfl⟩ : ∃ k, m = k + 1 := ⟨m - 1, by omega⟩
      funext target map source
      rw [truthTo, truthTo, hc]
      refine flagged_congr (fun value' hvalue' => ?_) target map source
      obtain ⟨c', hc', hlower⟩ := hstorage.ref hc hvalue'
      exact ih hc' (by omega) (by omega)

/-- There is a meaning: that to a depth beyond all numbers. -/
theorem exists_meaning (hstorage : WellFormed storage) : ∃ truth, IsMeaning w storage conditionSource truth := by
  obtain ⟨n, hn⟩ : ∃ n, 2 ^ 32 = n + 1 := ⟨2 ^ 32 - 1, by decide⟩
  refine ⟨truthTo w storage conditionSource (n + 1), fun value target map source => ?_⟩
  rw [truthTo]
  cases hc : storage.lookupEntry value.toUInt32 with
  | none => rfl
  | some c =>
      refine flagged_congr (fun value' hvalue' => ?_) target map source
      obtain ⟨c', hc', hlower⟩ := hstorage.ref hc hvalue'
      have hlt := c.entry.toNat_lt
      exact truthTo_stable hstorage hc' (by omega) (by omega)

/-- Where the conditions that are kept are plain: they have one meaning, in which a conjunction or disjunction is
that of all the conditions it refers to, and `Meets` returns that meaning of every one of them for all
parameters, with calls no deeper than its number and without calling a condition that is not there. -/
theorem conditions_meaning (w : ConditionWorld O M) (conditionSource : ConditionSource)
    (hindexed : storage.Indexed)
    (hplain : ∀ (i : ℕ) (c : ConditionEntry), (loadConditions w storage)[i]? = some (some c) → c.Plain) :
    ∃ truth, IsMeaning w (loadConditions w storage) conditionSource truth ∧
      (∀ truth', IsMeaning w (loadConditions w storage) conditionSource truth' → truth' = truth) ∧
      ∀ value c, ConditionStorage.lookupEntry (loadConditions w storage) value.toUInt32 = some c →
        ∀ fuel, c.entry.toNat < fuel → ∀ target map source,
          c.meets w (loadConditions w storage) conditionSource fuel target map source =
            some (truth value target map source) := by
  have hstorage : WellFormed (loadConditions w storage) :=
    ⟨fun i c hc => (grounded_loadConditions hindexed hc).1,
      fun i c hc => (grounded_loadConditions hindexed hc).2 (hplain i c hc), hplain⟩
  obtain ⟨truth, htruth⟩ : ∃ truth, IsMeaning w (loadConditions w storage) conditionSource truth :=
    exists_meaning hstorage
  refine ⟨truth, htruth, fun truth' htruth' => meaning_unique hstorage htruth' htruth, ?_⟩
  intro value c hc fuel hfuel target map source
  rw [meets_spec hstorage htruth fuel hc hfuel, htruth, hc]

/-- Four conditions: one for which no parameter is needed, its negation, the conjunction of both with the flag
that reverses the result, and that this holds for all targets of an event. -/
def contradiction : ConditionStorage :=
  [none, some ⟨1, .atom 11, 0, 0, 0, 0, false, false⟩, some ⟨2, .not, 1, 0, 0, 0, false, false⟩,
    some ⟨3, .and, 1, 2, 0, 0, true, false⟩, some ⟨4, .mapEventTargets, 7, 3, 0, 0, false, false⟩]

/-- A world where all values are good, an event has one target and the atoms look at the map. -/
def mapWorld : ConditionWorld Unit Bool where
  isGameObject _ := true
  isUnit _ := true
  isCreature _ := true
  isPlayer _ := true
  checkValues _ := .valid
  isExistingGameObjectGuid _ := true
  eventTargets _ _ _ _ := [()]
  gameObject _ _ _ _ := none
  evaluate _ _ map _ _ := map.getD false

theorem conditions_meaning_contradiction :
    ∃ truth, IsMeaning mapWorld (loadConditions mapWorld contradiction) 0 truth ∧
      (∀ truth', IsMeaning mapWorld (loadConditions mapWorld contradiction) 0 truth' → truth' = truth) ∧
      ∀ value c, ConditionStorage.lookupEntry (loadConditions mapWorld contradiction) value.toUInt32 = some c →
        ∀ fuel, c.entry.toNat < fuel → ∀ target map source,
          c.meets mapWorld (loadConditions mapWorld contradiction) 0 fuel target map source =
            some (truth value target map source) := by
  have hkept : loadConditions mapWorld contradiction = contradiction := by decide
  refine conditions_meaning mapWorld 0 (fun i c hc => ?_) (fun i c hc => ?_)
  · match i with
    | 0 => cases hc
    | 1 | 2 | 3 | 4 =>
        obtain rfl := Option.some.inj (Option.some.inj hc)
        rfl
    | n + 5 => cases hc
  · rw [hkept] at hc
    match i with
    | 0 => cases hc
    | 1 | 2 | 3 | 4 =>
        obtain rfl := Option.some.inj (Option.some.inj hc)
        exact by decide
    | n + 5 => cases hc

end Meaning

end TwowCore
