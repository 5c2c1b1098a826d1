import Mathlib

/-!
# Set pieces per class

`AllocateMix` gives the pieces above the fixed drops to the classes that can use them: in every round
a whole share by members, up to what a class can still take, and then one more by largest remainder.

`Allocation` is what holds between two rounds. `allocateMix_fair` says what every class gets.
-/

namespace TwowCore.Looting

/-- A `uint32_t`. -/
def u32 (n : ℕ) : ℕ := n % 2 ^ 32

theorem u32_of_lt {n : ℕ} (h : n < 2 ^ 32) : u32 n = n := Nat.mod_eq_of_lt h

/-- `ClassNeed`. -/
structure ClassNeed where
  classId : ℕ
  members : ℕ
  upgraders : ℕ
  fixedDrops : ℕ
  deriving DecidableEq, Repr

namespace ClassNeed

/-- `cap`, what a class can still take. -/
def cap (c : ClassNeed) (extra : ℕ) : ℕ :=
  if u32 (c.fixedDrops + extra) < c.upgraders then
    u32 (c.upgraders + 2 ^ 32 - u32 (c.fixedDrops + extra))
  else 0

/-- `share`, in 64 bits. -/
def share (c : ClassNeed) (round : ℕ) : ℕ := round * c.members % 2 ^ 64

/-- `whole`. -/
def whole (c : ClassNeed) (round eligibleMembers extra : ℕ) : ℕ :=
  min (u32 (c.share round / eligibleMembers)) (c.cap extra)

/-- Some member has use for a piece that has not dropped. -/
def Eligible (c : ClassNeed) : Prop := c.fixedDrops < c.upgraders

instance instDecidableEligible (c : ClassNeed) : Decidable c.Eligible :=
  inferInstanceAs (Decidable (_ < _))

end ClassNeed

variable {n : ℕ}

/-- `eligibleMembers`. -/
def eligibleMembers (classes : Fin n → ClassNeed) (extra : Fin n → ℕ) : ℕ :=
  u32 (∑ i, if u32 ((classes i).fixedDrops + extra i) < (classes i).upgraders then
    (classes i).members else 0)

/-- The classes that can take more than their whole share, with what remains of it. -/
def remainders (classes : Fin n → ClassNeed) (round eligible : ℕ) (extra : Fin n → ℕ) :
    List (ℕ × Fin n) :=
  (List.finRange n).filterMap fun i =>
    if (classes i).whole round eligible (extra i) < (classes i).cap (extra i) then
      some ((classes i).share round % eligible, i)
    else none

/-- The loop over the sorted remainders. -/
def topUp (round : ℕ) : List (ℕ × Fin n) → ℕ → (Fin n → ℕ) → (Fin n → ℕ) × ℕ
  | [], given, extra => (extra, given)
  | r :: rest, given, extra =>
      if round ≤ given then (extra, given)
      else topUp round rest (u32 (given + 1)) (Function.update extra r.2 (u32 (extra r.2 + 1)))

/-- One round: the pieces so far, and `given`. -/
def allocateRound (classes : Fin n → ClassNeed) (round eligible : ℕ) (extra : Fin n → ℕ) :
    (Fin n → ℕ) × ℕ :=
  topUp round
    ((remainders classes round eligible extra).insertionSort fun a b => b.1 ≤ a.1)
    (u32 (∑ i, (classes i).whole round eligible (extra i)))
    fun i => u32 (extra i + (classes i).whole round eligible (extra i))

/-- The rounds. A round that gives nothing is the last one. -/
def allocateRounds (classes : Fin n → ClassNeed) (remaining : ℕ) (extra : Fin n → ℕ) : Fin n → ℕ :=
  if _h : remaining = 0 then extra
  else if eligibleMembers classes extra = 0 then extra
  else
    let next := allocateRound classes remaining (eligibleMembers classes extra) extra
    if _hgiven : next.2 = 0 then next.1
    else allocateRounds classes (remaining - min next.2 remaining) next.1
termination_by remaining
decreasing_by
  have hgives : 0 < min next.2 remaining := lt_min (by omega) (by omega)
  exact Nat.sub_lt (by omega) hgives

/-- `AllocateMix`. -/
def allocateMix (classes : Fin n → ClassNeed) (setMax : ℕ) : Fin n → ℕ :=
  let fixedTotal := u32 (∑ i, (classes i).fixedDrops)
  let room := u32 (∑ i, if (classes i).Eligible then
    (classes i).upgraders - (classes i).fixedDrops else 0)
  let members := u32 (∑ i, if (classes i).Eligible then (classes i).members else 0)
  let remaining := if fixedTotal < setMax then min (setMax - fixedTotal) room else 0
  if remaining = 0 ∨ members = 0 then fun _ => 0
  else allocateRounds classes remaining fun _ => 0

/-! ## One round -/

/-- Between two rounds no class has more than it can use. -/
structure Allocation (classes : Fin n → ClassNeed) (extra : Fin n → ℕ) : Prop where
  enough : ∀ i, (classes i).upgraders ≤ (classes i).members
  members_lt : ∑ i, (classes i).members < 2 ^ 32
  fixed_lt : ∑ i, (classes i).fixedDrops < 2 ^ 32
  bounded : ∀ i, extra i ≤ (classes i).upgraders - (classes i).fixedDrops

/-- What a class can still take. -/
def ClassNeed.room (c : ClassNeed) (extra : ℕ) : ℕ := c.upgraders - c.fixedDrops - extra

variable {classes : Fin n → ClassNeed} {extra : Fin n → ℕ}

namespace Allocation

variable (h : Allocation classes extra) (i : Fin n)

include h

theorem members_lt_one : (classes i).members < 2 ^ 32 :=
  (Finset.single_le_sum (fun j _ => Nat.zero_le (classes j).members) (Finset.mem_univ i)).trans_lt
    h.members_lt

theorem taken_lt : (classes i).fixedDrops + extra i < 2 ^ 32 := by
  have hfixed : (classes i).fixedDrops < 2 ^ 32 :=
    (Finset.single_le_sum (fun j _ => Nat.zero_le (classes j).fixedDrops)
      (Finset.mem_univ i)).trans_lt h.fixed_lt
  have hmembers := h.members_lt_one i
  have henough := h.enough i
  have hbounded := h.bounded i
  omega

theorem cap_eq : (classes i).cap (extra i) = (classes i).room (extra i) := by
  have htaken := h.taken_lt i
  have hmembers := h.members_lt_one i
  have henough := h.enough i
  unfold ClassNeed.cap ClassNeed.room
  rw [u32_of_lt htaken]
  split
  · unfold u32
    omega
  · omega

/-- A class that can take something has members. -/
theorem members_pos (hroom : 0 < (classes i).room (extra i)) : 0 < (classes i).members := by
  have henough := h.enough i
  unfold ClassNeed.room at hroom
  omega

theorem eligibleMembers_eq :
    eligibleMembers classes extra =
      ∑ i, if 0 < (classes i).room (extra i) then (classes i).members else 0 := by
  have hif : ∀ i, (if u32 ((classes i).fixedDrops + extra i) < (classes i).upgraders then
      (classes i).members else 0) =
      if 0 < (classes i).room (extra i) then (classes i).members else 0 := by
    intro i
    rw [u32_of_lt (h.taken_lt i)]
    have hiff : (classes i).fixedDrops + extra i < (classes i).upgraders ↔
        0 < (classes i).room (extra i) := by
      unfold ClassNeed.room
      omega
    simp only [hiff]
  unfold eligibleMembers
  simp only [hif]
  refine u32_of_lt (lt_of_le_of_lt (Finset.sum_le_sum fun i _ => ?_) h.members_lt)
  split
  · exact le_rfl
  · exact Nat.zero_le _

/-- The eligible members are those of the classes that can take something. -/
theorem members_le_eligible (hroom : 0 < (classes i).room (extra i)) :
    (classes i).members ≤ eligibleMembers classes extra := by
  rw [h.eligibleMembers_eq]
  have hle := Finset.single_le_sum (f := fun j =>
    if 0 < (classes j).room (extra j) then (classes j).members else 0)
    (fun j _ => Nat.zero_le _) (Finset.mem_univ i)
  rw [if_pos hroom] at hle
  exact hle

theorem eligible_pos (hroom : 0 < ∑ i, (classes i).room (extra i)) :
    0 < eligibleMembers classes extra := by
  obtain ⟨i, -, hi⟩ := Finset.exists_ne_zero_of_sum_ne_zero (Nat.ne_of_gt hroom)
  have hpos := Nat.pos_of_ne_zero hi
  exact (h.members_pos i hpos).trans_le (h.members_le_eligible i hpos)

variable {round : ℕ}

/-- No share overflows. -/
theorem whole_eq (hround : round < 2 ^ 32) :
    (classes i).whole round (eligibleMembers classes extra) (extra i) =
      min (round * (classes i).members / eligibleMembers classes extra)
        ((classes i).room (extra i)) := by
  have hmembers := h.members_lt_one i
  have hshare : (classes i).share round = round * (classes i).members := by
    refine Nat.mod_eq_of_lt ?_
    calc round * (classes i).members < 2 ^ 32 * 2 ^ 32 := Nat.mul_lt_mul'' hround hmembers
      _ = 2 ^ 64 := by rfl
  unfold ClassNeed.whole
  rw [h.cap_eq, hshare]
  by_cases hroom : 0 < (classes i).room (extra i)
  · have hdiv : round * (classes i).members / eligibleMembers classes extra ≤ round :=
      Nat.div_le_of_le_mul (by
        rw [Nat.mul_comm]
        exact Nat.mul_le_mul_right _ (h.members_le_eligible i hroom))
    rw [u32_of_lt (hdiv.trans_lt hround)]
  · rw [Nat.eq_zero_of_not_pos hroom, Nat.min_zero, Nat.min_zero]

/-- The whole shares are within the round. -/
theorem sum_whole_le (hround : round < 2 ^ 32) :
    ∑ i, (classes i).whole round (eligibleMembers classes extra) (extra i) ≤ round := by
  rcases Nat.eq_zero_or_pos (eligibleMembers classes extra) with hzero | hpos
  · refine (Finset.sum_eq_zero fun i _ => ?_).trans_le (Nat.zero_le _)
    rw [h.whole_eq i hround, hzero, Nat.div_zero, Nat.zero_min]
  · refine Nat.le_of_mul_le_mul_left ?_ hpos
    rw [Finset.mul_sum]
    calc ∑ i, eligibleMembers classes extra *
          (classes i).whole round (eligibleMembers classes extra) (extra i)
        ≤ ∑ i, round * (if 0 < (classes i).room (extra i) then (classes i).members else 0) := by
          refine Finset.sum_le_sum fun i _ => ?_
          rw [h.whole_eq i hround]
          split
          · exact (Nat.mul_le_mul_left _ (min_le_left _ _)).trans (Nat.mul_div_le _ _)
          · next hroom =>
              rw [Nat.eq_zero_of_not_pos hroom, Nat.min_zero, Nat.mul_zero]
              exact Nat.zero_le _
      _ = eligibleMembers classes extra * round := by
          rw [← Finset.mul_sum, ← h.eligibleMembers_eq, Nat.mul_comm]

end Allocation

/-! ### The remainders -/

theorem mem_remainders {round eligible q : ℕ} {i : Fin n} :
    (q, i) ∈ remainders classes round eligible extra ↔
      (classes i).whole round eligible (extra i) < (classes i).cap (extra i) ∧
        q = (classes i).share round % eligible := by
  unfold remainders
  rw [List.mem_filterMap]
  constructor
  · rintro ⟨j, -, hj⟩
    split at hj
    · next hlt =>
        cases hj
        exact ⟨hlt, rfl⟩
    · cases hj
  · rintro ⟨hlt, rfl⟩
    exact ⟨i, List.mem_finRange i, if_pos hlt⟩

theorem nodup_remainders {round eligible : ℕ} :
    ((remainders classes round eligible extra).map Prod.snd).Nodup := by
  have hsub : ∀ is : List (Fin n), ((is.filterMap fun i =>
      if (classes i).whole round eligible (extra i) < (classes i).cap (extra i) then
        some ((classes i).share round % eligible, i) else none).map Prod.snd).Sublist is := by
    intro is
    induction is with
    | nil => exact List.Sublist.refl _
    | cons i is ih =>
        by_cases hlt : (classes i).whole round eligible (extra i) < (classes i).cap (extra i)
        · simp only [List.filterMap_cons, if_pos hlt, List.map_cons]
          exact ih.cons_cons i
        · simp only [List.filterMap_cons, if_neg hlt]
          exact ih.cons i
  exact (List.nodup_finRange n).sublist (hsub _)

/-- In a list that falls, what is greater than something at the front is at the front too. -/
theorem mem_take_of_greater {α : Type} {l : List (ℕ × α)} {k : ℕ} {a b : ℕ × α}
    (hsorted : l.Pairwise fun a b => b.1 ≤ a.1) (ha : a ∈ l) (hb : b ∈ l.take k)
    (hlt : b.1 < a.1) : a ∈ l.take k := by
  rw [← List.take_append_drop k l] at hsorted ha
  rcases List.mem_append.mp ha with hfront | hback
  · exact hfront
  · have hle := (List.pairwise_append.mp hsorted).2.2 b hb a hback
    omega

/-- The second loop gives one more to the first of them, until the round is used up. -/
theorem topUp_spec {round : ℕ} (hround : round < 2 ^ 32) (rs : List (ℕ × Fin n)) :
    ∀ {given : ℕ} {extra : Fin n → ℕ}, (rs.map Prod.snd).Nodup → given ≤ round →
      (∀ r ∈ rs, extra r.2 + 1 < 2 ^ 32) →
      topUp round rs given extra =
        (fun i => extra i + if i ∈ (rs.take (round - given)).map Prod.snd then 1 else 0,
          given + min (round - given) rs.length) := by
  induction rs with
  | nil =>
      intro given extra _ _ _
      simp [topUp]
  | cons r rs ih =>
      intro given extra hnodup hgiven hlt
      rw [List.map_cons, List.nodup_cons] at hnodup
      unfold topUp
      by_cases hfull : round ≤ given
      · rw [if_pos hfull, Nat.sub_eq_zero_of_le hfull, Nat.zero_min]
        rfl
      · obtain ⟨k, hk⟩ : ∃ k, round - given = k + 1 := ⟨round - given - 1, by omega⟩
        have hk' : round - (given + 1) = k := by omega
        have hother : ∀ r' ∈ rs, r'.2 ≠ r.2 := fun r' hr' heq =>
          hnodup.1 (heq ▸ List.mem_map_of_mem hr')
        rw [if_neg hfull, u32_of_lt (by omega), u32_of_lt (hlt r List.mem_cons_self),
          ih hnodup.2 (by omega) (fun r' hr' => by
            rw [Function.update_of_ne (hother r' hr')]
            exact hlt r' (List.mem_cons_of_mem _ hr')), hk, hk', List.take_succ_cons,
          List.map_cons, List.length_cons]
        have htaken : r.2 ∉ (rs.take k).map Prod.snd := fun hmem =>
          hnodup.1 ((List.take_sublist k rs).map Prod.snd |>.subset hmem)
        refine Prod.ext (funext fun i => ?_) (by
          show given + 1 + min k rs.length = given + min (k + 1) (rs.length + 1)
          omega)
        by_cases hi : i = r.2
        · subst hi
          show Function.update extra r.2 (extra r.2 + 1) r.2 + (if r.2 ∈ _ then 1 else 0) =
            extra r.2 + if r.2 ∈ _ then 1 else 0
          rw [Function.update_self, if_neg htaken, if_pos List.mem_cons_self]
        · have hmem : i ∈ r.2 :: (rs.take k).map Prod.snd ↔ i ∈ (rs.take k).map Prod.snd := by
            rw [List.mem_cons, or_iff_right hi]
          show Function.update extra r.2 (extra r.2 + 1) i + (if i ∈ _ then 1 else 0) =
            extra i + if i ∈ _ then 1 else 0
          rw [Function.update_of_ne hi]
          simp only [hmem]

/-- What a round does. -/
structure RoundSpec (classes : Fin n → ClassNeed) (round : ℕ) (extra extra' : Fin n → ℕ)
    (given : ℕ) : Prop where
  allocation : Allocation classes extra'
  total : ∑ i, extra' i = ∑ i, extra i + given
  given_pos : 0 < given
  given_le : given ≤ round
  grows : ∀ i, extra i ≤ extra' i
  fair : ∀ i j, extra' i < (classes i).upgraders - (classes i).fixedDrops →
    (classes j).members < (classes i).members → extra j ≤ extra i → extra' j ≤ extra' i

/-- The remainders, the greatest first. -/
def sortedRemainders (classes : Fin n → ClassNeed) (round eligible : ℕ) (extra : Fin n → ℕ) :
    List (ℕ × Fin n) :=
  (remainders classes round eligible extra).insertionSort fun a b => b.1 ≤ a.1

theorem nodup_sortedRemainders {round eligible : ℕ} :
    ((sortedRemainders classes round eligible extra).map Prod.snd).Nodup :=
  (((List.perm_insertionSort _ _).map Prod.snd).nodup_iff).mpr nodup_remainders

/-- One for every class of a list, counted. -/
theorem sum_indicator {l : List (Fin n)} (h : l.Nodup) :
    (∑ i, if i ∈ l then 1 else 0) = l.length := by
  rw [← List.toFinset_card_of_nodup h, Finset.card_eq_sum_ones, ← Finset.sum_filter]
  refine Finset.sum_congr ?_ fun _ _ => rfl
  ext i
  rw [Finset.mem_filter, List.mem_toFinset]
  exact and_iff_right (Finset.mem_univ i)

namespace Allocation

variable {round : ℕ}

theorem mem_sortedRemainders (h : Allocation classes extra) {eligible q : ℕ} {i : Fin n} :
    (q, i) ∈ sortedRemainders classes round eligible extra ↔
      (classes i).whole round eligible (extra i) < (classes i).room (extra i) ∧
        q = (classes i).share round % eligible := by
  rw [sortedRemainders, List.mem_insertionSort, mem_remainders, h.cap_eq]

/-- A whole share is no more than a class can take. -/
theorem whole_le_room (h : Allocation classes extra) (hround : round < 2 ^ 32) (i : Fin n) :
    (classes i).whole round (eligibleMembers classes extra) (extra i) ≤ (classes i).room (extra i) := by
  rw [h.whole_eq i hround]
  exact min_le_right _ _

/-- What a round gives: the whole shares, and one more to the greatest remainders. -/
theorem allocateRound_eq (h : Allocation classes extra) (hround : round < 2 ^ 32) :
    allocateRound classes round (eligibleMembers classes extra) extra =
      let wholes := fun i => (classes i).whole round (eligibleMembers classes extra) (extra i)
      let rs := sortedRemainders classes round (eligibleMembers classes extra) extra
      (fun i => extra i + wholes i + if i ∈ (rs.take (round - ∑ i, wholes i)).map Prod.snd then 1 else 0,
        ∑ i, wholes i + min (round - ∑ i, wholes i) rs.length) := by
  have hsum := h.sum_whole_le hround
  have hfits : ∀ i, extra i + (classes i).room (extra i) < 2 ^ 32 := by
    intro i
    have htaken := h.taken_lt i
    have hmembers := h.members_lt_one i
    have henough := h.enough i
    unfold ClassNeed.room
    omega
  set wholes := fun i => (classes i).whole round (eligibleMembers classes extra) (extra i)
  set rs := sortedRemainders classes round (eligibleMembers classes extra) extra
  have hgiven : u32 (∑ i, wholes i) = ∑ i, wholes i := u32_of_lt (hsum.trans_lt hround)
  have hextra : (fun i => u32 (extra i + wholes i)) = fun i => extra i + wholes i :=
    funext fun i => u32_of_lt
      ((Nat.add_le_add_left (h.whole_le_room hround i) _).trans_lt (hfits i))
  show topUp round rs (u32 (∑ i, wholes i)) (fun i => u32 (extra i + wholes i)) = _
  rw [hgiven, hextra]
  refine topUp_spec hround rs nodup_sortedRemainders hsum fun r hr => ?_
  have hless := (h.mem_sortedRemainders.mp hr).1
  have hfit := hfits r.2
  change wholes r.2 < _ at hless
  omega

/-- A round gives something, and no more than is left. -/
theorem round_spec (h : Allocation classes extra) (hround : round < 2 ^ 32) (hpos : 0 < round)
    (hroom : round ≤ ∑ i, (classes i).room (extra i)) :
    RoundSpec classes round extra
      (allocateRound classes round (eligibleMembers classes extra) extra).1
      (allocateRound classes round (eligibleMembers classes extra) extra).2 := by
  set eligible := eligibleMembers classes extra with heligible
  set wholes := fun i => (classes i).whole round eligible (extra i) with hwholes
  set rs := sortedRemainders classes round eligible extra with hrs
  have hmem : ∀ {q i}, (q, i) ∈ rs ↔ wholes i < (classes i).room (extra i) ∧
      q = (classes i).share round % eligible := h.mem_sortedRemainders
  have hsum : ∑ i, wholes i ≤ round := h.sum_whole_le hround
  have hwhole : ∀ i, wholes i ≤ (classes i).room (extra i) := h.whole_le_room hround
  set k := round - ∑ i, wholes i with hk
  have hout : allocateRound classes round eligible extra =
      (fun i => extra i + wholes i + if i ∈ (rs.take k).map Prod.snd then 1 else 0,
        ∑ i, wholes i + min k rs.length) := h.allocateRound_eq hround
  have hone : ∀ i, (if i ∈ (rs.take k).map Prod.snd then 1 else 0) ≤
      (classes i).room (extra i) - wholes i := by
    intro i
    split
    · next hi =>
        obtain ⟨r, hr, rfl⟩ := List.mem_map.mp hi
        have hless := (hmem.mp (List.mem_of_mem_take hr)).1
        omega
    · exact Nat.zero_le _
  rw [hout]
  refine ⟨⟨h.enough, h.members_lt, h.fixed_lt, fun i => ?_⟩, ?_, ?_, ?_, fun i => ?_, ?_⟩
  · have h1 := hone i
    have h2 := hwhole i
    have h3 := h.bounded i
    unfold ClassNeed.room at h1 h2
    show extra i + wholes i + _ ≤ _
    omega
  · show ∑ i, (extra i + wholes i + if i ∈ (rs.take k).map Prod.snd then 1 else 0) = _
    have hcount : (∑ i, if i ∈ (rs.take k).map Prod.snd then 1 else 0) = min k rs.length := by
      rw [sum_indicator (nodup_sortedRemainders.sublist ((List.take_sublist k rs).map Prod.snd)),
        List.length_map, List.length_take]
    rw [Finset.sum_add_distrib, Finset.sum_add_distrib, hcount, Nat.add_assoc]
  · -- Where every whole share is zero, a class that can take something has a remainder.
    show 0 < ∑ i, wholes i + min k rs.length
    rcases Nat.eq_zero_or_pos (∑ i, wholes i) with hzero | hsome
    · obtain ⟨i, -, hi⟩ := Finset.exists_ne_zero_of_sum_ne_zero
        (Nat.ne_of_gt (hpos.trans_le hroom))
      have hwi : wholes i = 0 := Finset.sum_eq_zero_iff.mp hzero i (Finset.mem_univ i)
      have hin : ((classes i).share round % eligible, i) ∈ rs := hmem.mpr ⟨by omega, rfl⟩
      have hlen := List.length_pos_of_mem hin
      omega
    · omega
  · show ∑ i, wholes i + min k rs.length ≤ round
    omega
  · show extra i ≤ extra i + wholes i + _
    omega
  · intro i j hi hmembers hprev
    change extra i + wholes i + _ < _ at hi
    show extra j + wholes j + _ ≤ extra i + wholes i + _
    -- `i` could take more than its whole share, so this is the floor.
    have hfree : wholes i < (classes i).room (extra i) := by
      unfold ClassNeed.room
      omega
    have hfloor : wholes i = round * (classes i).members / eligible := by
      have heq := h.whole_eq i hround
      change wholes i = min (round * (classes i).members / eligible) _ at heq
      rcases min_choice (round * (classes i).members / eligible) ((classes i).room (extra i)) with
        hmin | hmin
      · rw [heq, hmin]
      · omega
    have hfloor_j : wholes j ≤ round * (classes j).members / eligible := by
      have heq := h.whole_eq j hround
      change wholes j = min _ _ at heq
      rw [heq]
      exact min_le_left _ _
    have hshares : round * (classes j).members < round * (classes i).members :=
      Nat.mul_lt_mul_of_pos_left hmembers hpos
    have hmono : round * (classes j).members / eligible ≤ round * (classes i).members / eligible :=
      Nat.div_le_div_right hshares.le
    by_cases htaken : j ∈ (rs.take k).map Prod.snd
    · rw [if_pos htaken]
      rcases Nat.lt_or_ge (wholes j) (wholes i) with hlt' | hge
      · omega
      · -- The floors are equal, so the remainder of `i` is the greater one.
        obtain ⟨⟨q, j'⟩, hq, rfl⟩ := List.mem_map.mp htaken
        obtain ⟨-, hqrem⟩ := hmem.mp (List.mem_of_mem_take hq)
        have hdivs : round * (classes j').members / eligible =
            round * (classes i).members / eligible := by
          change wholes i ≤ wholes j' at hge
          change wholes j' ≤ round * (classes j').members / eligible at hfloor_j
          change round * (classes j').members / eligible ≤ _ at hmono
          omega
        have hshare : ∀ i, (classes i).share round = round * (classes i).members := by
          intro i
          refine Nat.mod_eq_of_lt ?_
          calc round * (classes i).members < 2 ^ 32 * 2 ^ 32 :=
                Nat.mul_lt_mul'' hround (h.members_lt_one i)
            _ = 2 ^ 64 := by rfl
        have hrem : q < (classes i).share round % eligible := by
          have h1 := Nat.div_add_mod (round * (classes j').members) eligible
          have h2 := Nat.div_add_mod (round * (classes i).members) eligible
          rw [hdivs] at h1
          rw [hqrem, hshare, hshare]
          change round * (classes j').members < _ at hshares
          omega
        have hin := mem_take_of_greater (List.pairwise_insertionSort _ _) (hmem.mpr ⟨hfree, rfl⟩) hq hrem
        have hi' : i ∈ (rs.take k).map Prod.snd := List.mem_map_of_mem hin
        rw [if_pos hi']
        change wholes j' ≤ round * (classes j').members / eligible at hfloor_j
        change extra j' ≤ extra i at hprev
        show extra j' + wholes j' + 1 ≤ extra i + wholes i + 1
        omega
    · rw [if_neg htaken]
      omega

end Allocation

/-! ## All rounds -/

/-- The classes with more members have at least as much while they have use for more. -/
def Fair (classes : Fin n → ClassNeed) (extra : Fin n → ℕ) : Prop :=
  ∀ i j, extra i < (classes i).upgraders - (classes i).fixedDrops →
    (classes j).members < (classes i).members → extra j ≤ extra i

theorem sum_room (h : Allocation classes extra) :
    ∑ i, extra i + ∑ i, (classes i).room (extra i) =
      ∑ i, ((classes i).upgraders - (classes i).fixedDrops) := by
  rw [← Finset.sum_add_distrib]
  refine Finset.sum_congr rfl fun i _ => ?_
  have hbounded := h.bounded i
  unfold ClassNeed.room
  omega

/-- The rounds give everything that remains, and stay fair. -/
theorem allocateRounds_spec (remaining : ℕ) (hlt : remaining < 2 ^ 32) :
    ∀ {extra : Fin n → ℕ}, Allocation classes extra → Fair classes extra →
      remaining ≤ ∑ i, (classes i).room (extra i) →
      Allocation classes (allocateRounds classes remaining extra) ∧
        Fair classes (allocateRounds classes remaining extra) ∧
        ∑ i, allocateRounds classes remaining extra i = ∑ i, extra i + remaining := by
  induction remaining using Nat.strong_induction_on with
  | _ remaining ih =>
      intro extra h hfair hroom
      unfold allocateRounds
      by_cases hzero : remaining = 0
      · rw [dif_pos hzero, hzero]
        exact ⟨h, hfair, rfl⟩
      · have hpos : 0 < remaining := by omega
        have heligible := h.eligible_pos (by omega)
        have hround := h.round_spec hlt hpos hroom
        have hgiven := hround.given_pos
        have hle := hround.given_le
        have htotal := hround.total
        have hsum := sum_room h
        have hsum' := sum_room hround.allocation
        rw [dif_neg hzero, if_neg (by omega)]
        simp only
        rw [dif_neg (by omega), min_eq_left hle]
        have hfair' : Fair classes
            (allocateRound classes remaining (eligibleMembers classes extra) extra).1 := by
          intro i j hi hmembers
          have hgrows := hround.grows i
          exact hround.fair i j hi hmembers (hfair i j (by omega) hmembers)
        obtain ⟨hall, hfair'', htotal'⟩ := ih
          (remaining - (allocateRound classes remaining (eligibleMembers classes extra) extra).2)
          (by omega) (by omega) hround.allocation hfair' (by omega)
        exact ⟨hall, hfair'', by omega⟩

/-- What every class gets: nothing without an upgrader beyond the fixed drops, and no more than its
upgraders; all of `setMax` that the classes can use; and no more for fewer members, as long as a class
has an upgrader without a piece. -/
theorem allocateMix_fair (classes : Fin n → ClassNeed) (setMax : ℕ)
    (henough : ∀ i, (classes i).upgraders ≤ (classes i).members)
    (hmembers : ∑ i, (classes i).members < 2 ^ 32)
    (hfixed : ∑ i, (classes i).fixedDrops < 2 ^ 32) :
    (∀ i, (classes i).upgraders ≤ (classes i).fixedDrops → allocateMix classes setMax i = 0) ∧
    (∀ i, (classes i).fixedDrops < (classes i).upgraders →
      (classes i).fixedDrops + allocateMix classes setMax i ≤ (classes i).upgraders) ∧
    ∑ i, allocateMix classes setMax i = min (setMax - ∑ i, (classes i).fixedDrops)
      (∑ i, ((classes i).upgraders - (classes i).fixedDrops)) ∧
    ∀ i j, (classes i).fixedDrops + allocateMix classes setMax i < (classes i).upgraders →
      (classes j).fixedDrops < (classes j).upgraders →
      (classes j).members < (classes i).members →
      allocateMix classes setMax j ≤ allocateMix classes setMax i := by
  have hstart : Allocation classes fun _ => 0 := ⟨henough, hmembers, hfixed, fun _ => Nat.zero_le _⟩
  have hfairStart : Fair classes fun _ => 0 := fun _ _ _ _ => le_rfl
  have hrooms : (∑ i, if (classes i).Eligible then
      (classes i).upgraders - (classes i).fixedDrops else 0) =
      ∑ i, ((classes i).upgraders - (classes i).fixedDrops) := by
    refine Finset.sum_congr rfl fun i _ => ?_
    by_cases heligible : (classes i).Eligible
    · rw [if_pos heligible]
    · rw [if_neg heligible]
      unfold ClassNeed.Eligible at heligible
      omega
  have hroom_le : ∑ i, ((classes i).upgraders - (classes i).fixedDrops) ≤
      ∑ i, (classes i).members :=
    Finset.sum_le_sum fun i _ => (Nat.sub_le _ _).trans (henough i)
  have hroom0 : ∑ i, (classes i).room 0 =
      ∑ i, ((classes i).upgraders - (classes i).fixedDrops) :=
    Finset.sum_congr rfl fun i _ => Nat.sub_zero _
  suffices hspec : Allocation classes (allocateMix classes setMax) ∧
      Fair classes (allocateMix classes setMax) ∧
      ∑ i, allocateMix classes setMax i = min (setMax - ∑ i, (classes i).fixedDrops)
        (∑ i, ((classes i).upgraders - (classes i).fixedDrops)) by
    obtain ⟨hall, hfair, htotal⟩ := hspec
    refine ⟨fun i hi => ?_, fun i hi => ?_, htotal, fun i j hi hj hm => hfair i j (by omega) hm⟩
    · have hbounded := hall.bounded i
      omega
    · have hbounded := hall.bounded i
      omega
  unfold allocateMix
  simp only
  rw [u32_of_lt hfixed, hrooms, u32_of_lt (hroom_le.trans_lt hmembers)]
  have hremaining : (if ∑ i, (classes i).fixedDrops < setMax then
      min (setMax - ∑ i, (classes i).fixedDrops)
        (∑ i, ((classes i).upgraders - (classes i).fixedDrops)) else 0) =
      min (setMax - ∑ i, (classes i).fixedDrops)
        (∑ i, ((classes i).upgraders - (classes i).fixedDrops)) := by
    split
    · rfl
    · omega
  rw [hremaining]
  set remaining := min (setMax - ∑ i, (classes i).fixedDrops)
    (∑ i, ((classes i).upgraders - (classes i).fixedDrops)) with hdef
  split
  · next hnone =>
      -- Where something remains, a class that can take it has members.
      have hzero : remaining = 0 := by
        rcases hnone with hzero | hnobody
        · exact hzero
        · by_contra hne
          have hsome : 0 < ∑ i, (classes i).room 0 := by omega
          have heligible := hstart.eligible_pos hsome
          rw [hstart.eligibleMembers_eq] at heligible
          have heq : (∑ i, if (classes i).Eligible then (classes i).members else 0) =
              ∑ i, if 0 < (classes i).room 0 then (classes i).members else 0 := by
            refine Finset.sum_congr rfl fun i _ => ?_
            have hiff : (classes i).Eligible ↔ 0 < (classes i).room 0 := by
              unfold ClassNeed.Eligible ClassNeed.room
              omega
            simp only [hiff]
          have hsmall : (∑ i, if (classes i).Eligible then (classes i).members else 0) < 2 ^ 32 := by
            refine lt_of_le_of_lt (Finset.sum_le_sum fun i _ => ?_) hmembers
            split
            · exact le_rfl
            · exact Nat.zero_le _
          rw [u32_of_lt hsmall] at hnobody
          omega
      refine ⟨hstart, hfairStart, ?_⟩
      rw [hzero]
      exact Finset.sum_eq_zero fun _ _ => rfl
  · obtain ⟨hall, hfair, htotal⟩ := allocateRounds_spec remaining
      (lt_of_le_of_lt ((min_le_right _ _).trans hroom_le) hmembers) hstart hfairStart (by omega)
    refine ⟨hall, hfair, ?_⟩
    rw [htotal, Finset.sum_eq_zero fun _ _ => rfl, Nat.zero_add]

/-- Five warriors, three of them with an upgrade, and two mages who both have one. -/
def someNeeds : Fin 2 → ClassNeed := ![⟨1, 5, 3, 1⟩, ⟨8, 2, 2, 0⟩]

theorem allocateMix_fair_some :
    ∑ i, allocateMix someNeeds 4 i = min (4 - 1) 4 ∧
      (someNeeds 1).fixedDrops + allocateMix someNeeds 4 1 ≤ 2 := by
  obtain ⟨-, hcap, htotal, -⟩ := allocateMix_fair someNeeds 4 (by decide) (by decide) (by decide)
  exact ⟨htotal, hcap 1 (by decide)⟩

end TwowCore.Looting
