import TwowCore.LFT.Links

/-!
# The completion of an offer

When the last of five accepts, `CompleteOffer` puts them into a group one after the other. All five are
in one group then exactly when the leader it picks is online and nobody is refused; and no group is left
with some of them exactly when that holds without a stranger being put into a new group, or when the
first refusal comes before anybody has been added.
-/

namespace TwowCore.LFT

namespace World

/-- Groups have different ids below the next one, and nobody is in two. -/
structure Sound (w : World) : Prop where
  ids : (w.groups.map Group.id).Nodup
  fresh : ∀ g ∈ w.groups, g.id < w.nextGroupId
  once : ∀ g ∈ w.groups, ∀ g' ∈ w.groups, ∀ guid ∈ g.members, guid ∈ g'.members → g = g'

/-- The group that a player is in. -/
def memberOf (w : World) (guid : Guid) : Option ℕ := (w.groupOf guid).map Group.id

/-- Two players may play together. -/
def groupable (w : World) (leader member : Guid) : Bool :=
  (w.getPlayer leader).any fun p => (w.getPlayer member).any fun q =>
    w.canPlayersGroup leader member p q

/-- Those who have to be added to a group. -/
def newcomers (g : Group) (members : List Guid) : List Guid :=
  members.filter fun guid => decide (guid ∉ g.members)

/-- Nobody is refused: those who have to be added are in no group and may play with the leader, and
there is room for them. -/
def Admits (w : World) (g : Group) (leader : Guid) (members : List Guid) : Prop :=
  (∀ member ∈ newcomers g members, w.groupOf member = none ∧ w.groupable leader member = true) ∧
    (newcomers g members = [] ∨ g.members.length + (newcomers g members).length ≤ capacity g)

/-- The first who has to be added is refused. -/
def FirstRefused (w : World) (g : Group) (leader : Guid) (members : List Guid) : Prop :=
  ∃ first, (newcomers g members).head? = some first ∧
    ¬(w.groupOf first = none ∧ w.groupable leader first = true ∧ isFull g = false)

variable {w : World} {g : Group} {leader guid : Guid} {members : List Guid}

/-- The group of a player is the one that has him. -/
theorem Sound.groupOf_eq_some (hw : w.Sound) :
    w.groupOf guid = some g ↔ g ∈ w.groups ∧ guid ∈ g.members := by
  constructor
  · intro h
    exact ⟨List.mem_of_find?_eq_some h, by simpa using List.find?_some h⟩
  · rintro ⟨hg, hmem⟩
    have hfound : (w.groupOf guid).isSome := by
      rw [groupOf, List.find?_isSome]
      exact ⟨g, hg, by simpa using hmem⟩
    obtain ⟨g', hg'⟩ := Option.isSome_iff_exists.mp hfound
    have hin := List.mem_of_find?_eq_some hg'
    have hmem' : guid ∈ g'.members := by simpa using List.find?_some hg'
    rw [hg', hw.once g hg g' hin guid hmem hmem']

/-- A player is in no group when none has him. -/
theorem groupOf_eq_none : w.groupOf guid = none ↔ ∀ g ∈ w.groups, guid ∉ g.members := by
  unfold groupOf
  rw [List.find?_eq_none]
  simp

/-- A group is found by its id. -/
theorem Sound.find_id (hw : w.Sound) (hg : g ∈ w.groups) :
    (w.groups.find? fun g' => decide (g'.id = g.id)) = some g := by
  have hfound : (w.groups.find? fun g' => decide (g'.id = g.id)).isSome := by
    rw [List.find?_isSome]
    exact ⟨g, hg, by simp⟩
  obtain ⟨g', hg'⟩ := Option.isSome_iff_exists.mp hfound
  have hid : g'.id = g.id := by simpa using List.find?_some hg'
  rw [hg', List.inj_on_of_nodup_map hw.ids (List.mem_of_find?_eq_some hg') hg hid]

/-- A player is in a group of the list exactly when it has him. -/
theorem Sound.memberOf_eq (hw : w.Sound) (hg : g ∈ w.groups) :
    w.memberOf guid = some g.id ↔ guid ∈ g.members := by
  unfold memberOf
  rw [Option.map_eq_some_iff]
  constructor
  · rintro ⟨g', hg', hid⟩
    obtain ⟨hin, hmem⟩ := hw.groupOf_eq_some.mp hg'
    rwa [List.inj_on_of_nodup_map hw.ids hin hg hid] at hmem
  · exact fun hmem => ⟨g, hw.groupOf_eq_some.mpr ⟨hg, hmem⟩, rfl⟩

section Add

variable (hw : w.Sound) (hg : g ∈ w.groups)

include hw hg

/-- The groups after a player is added to one. -/
theorem mem_addMember {g' : Group} : g' ∈ (w.addMember g.id guid).groups ↔
    g' = { g with members := g.members ++ [guid] } ∨ g' ∈ w.groups ∧ g' ≠ g := by
  show g' ∈ w.groups.map _ ↔ _
  rw [List.mem_map]
  constructor
  · rintro ⟨old, hold, rfl⟩
    split_ifs with hid
    · rw [List.inj_on_of_nodup_map hw.ids hold hg hid]
      exact Or.inl rfl
    · exact Or.inr ⟨hold, fun heq => hid (heq ▸ rfl)⟩
  · rintro (rfl | ⟨hold, hne⟩)
    · exact ⟨g, hg, if_pos rfl⟩
    · refine ⟨g', hold, if_neg fun hid => hne ?_⟩
      exact List.inj_on_of_nodup_map hw.ids hold hg hid

/-- The others stay where they are. -/
theorem groupOf_addMember {other : Guid} (hne : other ≠ guid) :
    (w.addMember g.id guid).groupOf other = none ↔ w.groupOf other = none := by
  rw [groupOf_eq_none, groupOf_eq_none]
  constructor
  · intro h g' hg'
    by_cases heq : g' = g
    · have hnot := h _ ((mem_addMember hw hg).mpr (Or.inl rfl))
      rw [heq]
      exact fun hmem => hnot (List.mem_append_left _ hmem)
    · exact h g' ((mem_addMember hw hg).mpr (Or.inr ⟨hg', heq⟩))
  · intro h g' hg'
    rcases (mem_addMember hw hg).mp hg' with rfl | ⟨hold, -⟩
    · intro hmem
      rcases List.mem_append.mp hmem with hin | hnew
      · exact h g hg hin
      · exact hne (List.mem_singleton.mp hnew)
    · exact h g' hold

variable (hfree : w.groupOf guid = none)

include hfree

theorem Sound.addMember : (w.addMember g.id guid).Sound := by
  have hnone := groupOf_eq_none.mp hfree
  have hids : (w.addMember g.id guid).groups.map Group.id = w.groups.map Group.id := by
    show (w.groups.map _).map Group.id = _
    rw [List.map_map]
    refine List.map_congr_left fun old _ => ?_
    show Group.id (if old.id = g.id then _ else old) = old.id
    split_ifs
    · rfl
    · rfl
  refine ⟨hids ▸ hw.ids, fun g' hg' => ?_, fun first hfirst second hsecond other hmem hmem' => ?_⟩
  · rcases (mem_addMember hw hg).mp hg' with rfl | ⟨hold, -⟩
    · exact hw.fresh g hg
    · exact hw.fresh g' hold
  · rcases (mem_addMember hw hg).mp hfirst with rfl | ⟨hold, hne⟩ <;>
      rcases (mem_addMember hw hg).mp hsecond with rfl | ⟨hold', hne'⟩
    · rfl
    · rcases List.mem_append.mp hmem with hin | hnew
      · exact absurd (hw.once second hold' g hg other hmem' hin) hne'
      · rw [List.mem_singleton.mp hnew] at hmem'
        exact absurd hmem' (hnone second hold')
    · rcases List.mem_append.mp hmem' with hin | hnew
      · exact absurd (hw.once first hold g hg other hmem hin) hne
      · rw [List.mem_singleton.mp hnew] at hmem
        exact absurd hmem (hnone first hold)
    · exact hw.once first hold second hold' other hmem hmem'

theorem memberOf_addMember (other : Guid) : (w.addMember g.id guid).memberOf other =
    if other = guid then some g.id else w.memberOf other := by
  have hw' := hw.addMember hg hfree
  have hg' : { g with members := g.members ++ [guid] } ∈ (w.addMember g.id guid).groups :=
    (mem_addMember hw hg).mpr (Or.inl rfl)
  split_ifs with heq
  · exact (hw'.memberOf_eq hg').mpr (List.mem_append_right _ (List.mem_singleton.mpr heq))
  · cases hold : w.groupOf other with
    | none =>
        unfold memberOf
        rw [hold, (groupOf_addMember hw hg heq).mpr hold]
    | some old =>
        obtain ⟨hin, hmem⟩ := hw.groupOf_eq_some.mp hold
        have hsame : w.memberOf other = some old.id := by
          unfold memberOf
          rw [hold]
          rfl
        rw [hsame]
        by_cases hself : old = g
        · rw [hself]
          exact (hw'.memberOf_eq hg').mpr (List.mem_append_left _ (hself ▸ hmem))
        · exact (hw'.memberOf_eq ((mem_addMember hw hg).mpr (Or.inr ⟨hin, hself⟩))).mpr hmem

end Add

/-- One who has to be added, with a group that is open. -/
theorem addPlayerToGroup_open (hw : w.Sound) (hg : g ∈ w.groups)
    (hleader : (w.getPlayer leader).isSome) (hmember : (w.getPlayer guid).isSome) :
    w.addPlayerToGroup (some g.id) leader guid =
      if guid ∈ g.members then (w, some g.id, true)
      else if w.groupOf guid = none ∧ w.groupable leader guid = true ∧ isFull g = false then
        (w.addMember g.id guid, some g.id, true)
      else (w, some g.id, false) := by
  obtain ⟨p, hp⟩ := Option.isSome_iff_exists.mp hleader
  obtain ⟨q, hq⟩ := Option.isSome_iff_exists.mp hmember
  have hgroupable : w.groupable leader guid = w.canPlayersGroup leader guid p q := by
    unfold groupable
    rw [hp, hq]
    rfl
  unfold addPlayerToGroup openGroup
  simp only [hq, hp, hw.find_id hg, Option.any_some, hgroupable]
  by_cases hin : guid ∈ g.members
  · rw [if_pos hin, if_pos hin]
  · rw [if_neg hin, if_neg hin]
    cases hgroup : w.groupOf guid with
    | some other => simp
    | none =>
        cases hcan : w.canPlayersGroup leader guid p q with
        | false => simp
        | true =>
            cases hfull : isFull g with
            | true => simp
            | false => simp

/-- What the loop does with a group that is open: whoever is in it stays, nobody else is moved, and all
are in it then or one has been refused; when the first has been, nothing has happened, and otherwise
somebody has been added. -/
structure Looped (w : World) (g : Group) (leader : Guid) (members : List Guid)
    (result : World × Bool) : Prop where
  kept : ∀ other, w.memberOf other = some g.id → result.1.memberOf other = some g.id
  others : ∀ other, other ∉ members → result.1.memberOf other = w.memberOf other
  complete : w.Admits g leader members →
    result.2 = true ∧ ∀ member ∈ members, result.1.memberOf member = some g.id
  incomplete : ¬w.Admits g leader members →
    result.2 = false ∧ ∃ member ∈ members, result.1.memberOf member ≠ some g.id
  untouched : w.FirstRefused g leader members → result.1 = w
  moved : ¬w.Admits g leader members → ¬w.FirstRefused g leader members →
    ∃ member ∈ members, w.memberOf member = none ∧ result.1.memberOf member = some g.id

theorem newcomers_cons {rest : List Guid} (hin : guid ∉ g.members) :
    newcomers g (guid :: rest) = guid :: newcomers g rest := by
  unfold newcomers
  rw [List.filter_cons_of_pos (by simpa using hin)]

theorem looped_nil : Looped w g leader [] (w, true) := by
  have hadmits : w.Admits g leader [] :=
    ⟨fun _ hmember => (List.not_mem_nil hmember).elim, Or.inl rfl⟩
  refine ⟨fun _ h => h, fun _ _ => rfl, fun _ => ⟨rfl, fun _ h => (List.not_mem_nil h).elim⟩,
    fun hnot => absurd hadmits hnot, ?_, fun hnot => absurd hadmits hnot⟩
  rintro ⟨first, hfirst, -⟩
  cases hfirst

section Cons

variable {rest : List Guid} {result : World × Bool} (hw : w.Sound) (hg : g ∈ w.groups)

include hw hg

/-- One who is in the group already is passed over. -/
theorem Looped.pass (hin : guid ∈ g.members) (h : Looped w g leader rest result) :
    Looped w g leader (guid :: rest) result := by
  have hnew : newcomers g (guid :: rest) = newcomers g rest := by
    unfold newcomers
    rw [List.filter_cons_of_neg (by simpa using hin)]
  have hadmits : w.Admits g leader (guid :: rest) ↔ w.Admits g leader rest := by
    unfold Admits
    rw [hnew]
  have hfirst : w.FirstRefused g leader (guid :: rest) ↔ w.FirstRefused g leader rest := by
    unfold FirstRefused
    rw [hnew]
  have hself := h.kept guid ((hw.memberOf_eq hg).mpr hin)
  refine ⟨h.kept, fun other hother => h.others other fun hm => hother (List.mem_cons_of_mem _ hm),
    fun hall => ?_, fun hnot => ?_, fun hrefused => h.untouched (hfirst.mp hrefused),
    fun hnot hlate => ?_⟩
  · obtain ⟨htrue, hmembers⟩ := h.complete (hadmits.mp hall)
    refine ⟨htrue, fun member hmember => ?_⟩
    rcases List.mem_cons.mp hmember with rfl | hm
    · exact hself
    · exact hmembers member hm
  · obtain ⟨hfalse, member, hm, hne⟩ := h.incomplete fun hall => hnot (hadmits.mpr hall)
    exact ⟨hfalse, member, List.mem_cons_of_mem _ hm, hne⟩
  · obtain ⟨member, hm, hadded⟩ := h.moved (fun hall => hnot (hadmits.mpr hall))
      fun hrefused => hlate (hfirst.mpr hrefused)
    exact ⟨member, List.mem_cons_of_mem _ hm, hadded⟩

variable (hin : guid ∉ g.members)

include hin

/-- One who is refused ends the loop. -/
theorem looped_refused
    (hrefused : ¬(w.groupOf guid = none ∧ w.groupable leader guid = true ∧ isFull g = false)) :
    Looped w g leader (guid :: rest) (w, false) := by
  have hnew : newcomers g (guid :: rest) = guid :: newcomers g rest := newcomers_cons hin
  have hfirst : w.FirstRefused g leader (guid :: rest) := ⟨guid, by rw [hnew]; rfl, hrefused⟩
  have hnot : ¬w.Admits g leader (guid :: rest) := by
    rintro ⟨hjoin, hcount⟩
    rw [hnew] at hjoin hcount
    obtain ⟨hfree, hcan⟩ := hjoin guid List.mem_cons_self
    refine hrefused ⟨hfree, hcan, ?_⟩
    unfold isFull
    rcases hcount with hempty | hcount
    · cases hempty
    · rw [List.length_cons] at hcount
      simp only [decide_eq_false_iff_not, not_le]
      omega
  have hout : w.memberOf guid ≠ some g.id := fun h => hin ((hw.memberOf_eq hg).mp h)
  exact ⟨fun _ h => h, fun _ _ => rfl, fun h => absurd h hnot,
    fun _ => ⟨rfl, guid, List.mem_cons_self, hout⟩, fun _ => rfl, fun _ h => absurd hfirst h⟩

section Added

variable (hfree : w.groupOf guid = none) (hcan : w.groupable leader guid = true)
  (hroom : isFull g = false) (hnot : guid ∉ rest)

include hfree hcan hroom hnot

/-- When one has been added, nobody is refused exactly when nobody else is. -/
theorem admits_addMember :
    (w.addMember g.id guid).Admits { g with members := g.members ++ [guid] } leader rest ↔
      w.Admits g leader (guid :: rest) := by
  have hspace : g.members.length < capacity g := by
    unfold isFull at hroom
    simpa using hroom
  have hnewcomers : newcomers { g with members := g.members ++ [guid] } rest = newcomers g rest := by
    refine List.filter_congr fun other hother => ?_
    have hne : other ≠ guid := fun heq => hnot (heq ▸ hother)
    simp [hne]
  have hjoin : (∀ member ∈ newcomers g rest, (w.addMember g.id guid).groupOf member = none ∧
      (w.addMember g.id guid).groupable leader member = true) ↔
      ∀ member ∈ newcomers g rest, w.groupOf member = none ∧ w.groupable leader member = true := by
    refine forall_congr' fun other => imp_congr_right fun hother => ?_
    have hne : other ≠ guid := fun heq => hnot (heq ▸ List.mem_of_mem_filter hother)
    exact and_congr_left fun _ => groupOf_addMember hw hg hne
  have hcapacity : capacity { g with members := g.members ++ [guid] } = capacity g := rfl
  unfold Admits
  rw [hnewcomers, newcomers_cons hin, List.forall_mem_cons, List.length_append,
    List.length_singleton, List.length_cons, hjoin, hcapacity]
  constructor
  · rintro ⟨hothers, hcount⟩
    refine ⟨⟨⟨hfree, hcan⟩, hothers⟩, Or.inr ?_⟩
    rcases hcount with hempty | hcount
    · rw [hempty, List.length_nil]
      omega
    · omega
  · rintro ⟨⟨-, hothers⟩, hcount⟩
    refine ⟨hothers, Or.inr ?_⟩
    rcases hcount with hempty | hcount
    · cases hempty
    · omega

/-- One is added, and the loop goes on. -/
theorem Looped.add (h : Looped (w.addMember g.id guid) { g with members := g.members ++ [guid] } leader
    rest result) : Looped w g leader (guid :: rest) result := by
  have hadmits := admits_addMember hw hg hin hfree hcan hroom hnot
  have hmember := memberOf_addMember hw hg hfree
  have hself := h.kept guid ((hmember guid).trans (if_pos rfl))
  have hnone : w.memberOf guid = none := by
    unfold memberOf
    rw [hfree]
    rfl
  have hfirst : ¬w.FirstRefused g leader (guid :: rest) := by
    rintro ⟨first, hfirst, hrefused⟩
    rw [newcomers_cons hin] at hfirst
    cases hfirst
    exact hrefused ⟨hfree, hcan, hroom⟩
  refine ⟨fun other hother => h.kept other ?_, fun other hother => ?_, fun hall => ?_, fun hone => ?_,
    fun hrefused => absurd hrefused hfirst, fun _ _ => ⟨guid, List.mem_cons_self, hnone, hself⟩⟩
  · rw [hmember]
    split_ifs
    · rfl
    · exact hother
  · rw [List.mem_cons, not_or] at hother
    rw [h.others other hother.2, hmember, if_neg hother.1]
  · obtain ⟨htrue, hmembers⟩ := h.complete (hadmits.mpr hall)
    refine ⟨htrue, fun member hm => ?_⟩
    rcases List.mem_cons.mp hm with rfl | hm
    · exact hself
    · exact hmembers member hm
  · obtain ⟨hfalse, member, hm, hne⟩ := h.incomplete fun hall => hone (hadmits.mp hall)
    exact ⟨hfalse, member, List.mem_cons_of_mem _ hm, hne⟩

end Added

end Cons

/-- The loop, with a group that is open. -/
theorem addPlayersToGroup_looped (hw : w.Sound) (hg : g ∈ w.groups)
    (hleader : (w.getPlayer leader).isSome) (hnodup : members.Nodup)
    (honline : ∀ member ∈ members, (w.getPlayer member).isSome) :
    Looped w g leader members (addPlayersToGroup leader w (some g.id) members) := by
  induction members generalizing w g with
  | nil => exact looped_nil
  | cons guid rest ih =>
      obtain ⟨hnot, hrest⟩ := List.nodup_cons.mp hnodup
      have hlater := fun member hmember => honline member (List.mem_cons_of_mem _ hmember)
      rw [addPlayersToGroup, addPlayerToGroup_open hw hg hleader (honline guid List.mem_cons_self)]
      by_cases hin : guid ∈ g.members
      · rw [if_pos hin]
        exact (ih hw hg hleader hrest hlater).pass hw hg hin
      · rw [if_neg hin]
        by_cases hmay : w.groupOf guid = none ∧ w.groupable leader guid = true ∧ isFull g = false
        · rw [if_pos hmay]
          obtain ⟨hfree, hcan, hroom⟩ := hmay
          have hg' : { g with members := g.members ++ [guid] } ∈ (w.addMember g.id guid).groups :=
            (mem_addMember hw hg).mpr (Or.inl rfl)
          have hlooped := ih (hw.addMember hg hfree) hg' hleader hrest hlater
          exact hlooped.add hw hg hin hfree hcan hroom hnot
        · rw [if_neg hmay]
          exact looped_refused hw hg hin hmay

/-- The group that `CompleteOffer` adds to: that of the leader, or a new one with him. -/
def leaderGroup (w : World) (leader : Guid) : Group :=
  (w.groupOf leader).getD ⟨w.nextGroupId, leader, [leader], false⟩

/-- The world with the group that is added to. -/
def opened (w : World) (leader : Guid) : World :=
  if (w.groupOf leader).isSome then w
  else
    { w with
      groups := w.groups ++ [⟨w.nextGroupId, leader, [leader], false⟩]
      nextGroupId := w.nextGroupId + 1 }

theorem opened_grouped (hgroup : w.groupOf leader = some g) :
    w.opened leader = w ∧ w.leaderGroup leader = g := by
  unfold opened leaderGroup
  rw [hgroup]
  exact ⟨rfl, rfl⟩

theorem opened_ungrouped (hgroup : w.groupOf leader = none) :
    w.opened leader = { w with
      groups := w.groups ++ [⟨w.nextGroupId, leader, [leader], false⟩]
      nextGroupId := w.nextGroupId + 1 } ∧
    w.leaderGroup leader = ⟨w.nextGroupId, leader, [leader], false⟩ := by
  unfold opened leaderGroup
  rw [hgroup]
  exact ⟨rfl, rfl⟩

theorem getPlayer_opened (other : Guid) : (w.opened leader).getPlayer other = w.getPlayer other := by
  unfold opened
  split_ifs
  · rfl
  · rfl

theorem groupable_opened (other : Guid) :
    (w.opened leader).groupable leader other = w.groupable leader other := by
  unfold opened
  split_ifs
  · rfl
  · rfl

theorem Sound.opened (hw : w.Sound) (leader : Guid) :
    (w.opened leader).Sound ∧ w.leaderGroup leader ∈ (w.opened leader).groups := by
  cases hgroup : w.groupOf leader with
  | some g =>
      obtain ⟨hopened, hleader⟩ := opened_grouped hgroup
      rw [hopened, hleader]
      exact ⟨hw, (hw.groupOf_eq_some.mp hgroup).1⟩
  | none =>
      obtain ⟨hopened, hleader⟩ := opened_ungrouped hgroup
      rw [hopened, hleader]
      have hnone := groupOf_eq_none.mp hgroup
      refine ⟨⟨?_, fun g hg => ?_, fun first hfirst second hsecond other hmem hmem' => ?_⟩,
        List.mem_append_right _ List.mem_cons_self⟩
      · show ((w.groups ++ [_]).map Group.id).Nodup
        rw [List.map_append, List.map_cons, List.map_nil]
        refine List.nodup_append.mpr ⟨hw.ids, List.nodup_singleton _, fun id hid other hother => ?_⟩
        obtain ⟨g, hg, rfl⟩ := List.mem_map.mp hid
        rw [List.mem_singleton.mp hother]
        exact Nat.ne_of_lt (hw.fresh g hg)
      · show g.id < w.nextGroupId + 1
        rcases List.mem_append.mp hg with hold | hnew
        · have hlt := hw.fresh g hold
          omega
        · rw [List.mem_singleton.mp hnew]
          exact Nat.lt_succ_self _
      · rcases List.mem_append.mp hfirst with hold | hnew <;>
          rcases List.mem_append.mp hsecond with hold' | hnew'
        · exact hw.once first hold second hold' other hmem hmem'
        · rw [List.mem_singleton.mp hnew'] at hmem'
          rw [List.mem_singleton.mp hmem'] at hmem
          exact absurd hmem (hnone first hold)
        · rw [List.mem_singleton.mp hnew] at hmem
          rw [List.mem_singleton.mp hmem] at hmem'
          exact absurd hmem' (hnone second hold')
        · rw [List.mem_singleton.mp hnew, List.mem_singleton.mp hnew']

/-- Opening the group moves nobody but a leader without one. -/
theorem memberOf_opened {other : Guid}
    (h : (w.groupOf leader).isSome ∨ other ≠ leader) :
    (w.opened leader).memberOf other = w.memberOf other := by
  cases hgroup : w.groupOf leader with
  | some g => rw [(opened_grouped hgroup).1]
  | none =>
      rw [hgroup] at h
      have hne : other ≠ leader := h.resolve_left (by simp)
      unfold memberOf groupOf
      rw [(opened_ungrouped hgroup).1]
      show Option.map _ ((w.groups ++ [_]).find? _) = _
      rw [List.find?_append, List.find?_cons_of_neg (by simpa using hne), List.find?_nil,
        Option.or_none]

/-- Nobody else is refused by a group that is opened. -/
theorem admits_opened :
    (w.opened leader).Admits (w.leaderGroup leader) leader members ↔
      w.Admits (w.leaderGroup leader) leader members := by
  have hgroupOf : ∀ member ∈ newcomers (w.leaderGroup leader) members,
      ((w.opened leader).groupOf member = none ↔ w.groupOf member = none) := by
    intro member hmember
    have hsame : (w.opened leader).memberOf member = w.memberOf member := by
      refine memberOf_opened ?_
      cases hgroup : w.groupOf leader with
      | some g => exact Or.inl rfl
      | none =>
          refine Or.inr fun heq => ?_
          have hnot := of_decide_eq_true (List.mem_filter.mp hmember).2
          rw [(opened_ungrouped hgroup).2, heq] at hnot
          exact hnot List.mem_cons_self
    unfold memberOf at hsame
    rw [← Option.map_eq_none_iff (f := Group.id), hsame, Option.map_eq_none_iff]
  refine and_congr_left fun _ => forall_congr' fun member => imp_congr_right fun hmember => ?_
  rw [hgroupOf member hmember, groupable_opened]

/-- The loop without a group opens one for the first player. -/
theorem addPlayersToGroup_none {first : Guid} {rest : List Guid}
    (hfirst : (w.getPlayer first).isSome) :
    addPlayersToGroup leader w none (first :: rest) =
      if (w.getPlayer leader).isSome then
        addPlayersToGroup leader (w.opened leader) (some (w.leaderGroup leader).id) (first :: rest)
      else (w, false) := by
  obtain ⟨q, hq⟩ := Option.isSome_iff_exists.mp hfirst
  have hq' : (w.opened leader).getPlayer first = some q := (getPlayer_opened first).trans hq
  cases hp : w.getPlayer leader with
  | none =>
      rw [addPlayersToGroup]
      have hclosed : w.openGroup none leader = none := by
        unfold openGroup
        simp only [hp]
      unfold addPlayerToGroup
      simp only [hq, hclosed, Option.isSome_none, Bool.false_eq_true, if_false]
  | some p =>
      rw [Option.isSome_some, if_pos rfl, addPlayersToGroup, addPlayersToGroup]
      have hopen : w.openGroup none leader =
          (w.opened leader).openGroup (some (w.leaderGroup leader).id) leader := by
        show w.openGroup none leader = some (w.opened leader, (w.leaderGroup leader).id)
        unfold openGroup
        cases hgroup : w.groupOf leader with
        | some g =>
            simp only [hp]
            rw [(opened_grouped hgroup).1, (opened_grouped hgroup).2]
        | none =>
            simp only [hp]
            rw [(opened_ungrouped hgroup).1, (opened_ungrouped hgroup).2]
      have hsame : w.addPlayerToGroup none leader first =
          (w.opened leader).addPlayerToGroup (some (w.leaderGroup leader).id) leader first := by
        unfold addPlayerToGroup
        simp only [hq, hq', hopen]
        rfl
      rw [hsame]

end World

/-- All players of an offer are in one group, and no other has been moved, and they are not queued any
more; or nobody has been moved. -/
def Atomic (w w' : World) (m' : Manager) (members : List Guid) : Prop :=
  (∃ id, (∀ member ∈ members, w'.memberOf member = some id) ∧
      (∀ other, other ∉ members → w'.memberOf other = w.memberOf other) ∧
      ∀ member ∈ members, Lib.entryOf member m'.queue = none) ∨
    ∀ other, w'.memberOf other = w.memberOf other

/-- The leader is online and nobody is refused. -/
def CompleteCondition (w : World) (leader : Guid) (members : List Guid) : Prop :=
  (w.getPlayer leader).isSome ∧ w.Admits (w.leaderGroup leader) leader members

/-- The leader is offline; or nobody is refused, and a leader without a group is one of the players; or
the leader has a group, and the first who is not in it is refused. -/
def AtomicCondition (w : World) (leader : Guid) (members : List Guid) : Prop :=
  (w.getPlayer leader).isSome = false ∨
    w.Admits (w.leaderGroup leader) leader members ∧
      ((w.groupOf leader).isSome ∨ leader ∈ members) ∨
    (w.groupOf leader).isSome ∧ w.FirstRefused (w.leaderGroup leader) leader members

section Loop

variable {w : World} {m' : Manager} {leader : Guid} {members : List Guid}

/-- The loop of `CompleteOffer` comes to its end exactly when nobody is refused. -/
theorem loop_complete_iff (hw : w.Sound) (hnodup : members.Nodup) (hne : members ≠ [])
    (honline : ∀ member ∈ members, (w.getPlayer member).isSome) :
    (World.addPlayersToGroup leader w none members).2 = true ↔
      CompleteCondition w leader members := by
  obtain ⟨first, rest, rfl⟩ := List.exists_cons_of_ne_nil hne
  rw [World.addPlayersToGroup_none (honline first List.mem_cons_self)]
  unfold CompleteCondition
  by_cases hleader : (w.getPlayer leader).isSome = true
  · rw [if_pos hleader]
    obtain ⟨hsound, hgroup⟩ := hw.opened leader
    have hlooped := World.addPlayersToGroup_looped hsound hgroup
      ((World.getPlayer_opened leader).symm ▸ hleader) hnodup
      fun member hmember => (World.getPlayer_opened member).symm ▸ honline member hmember
    have hall := hlooped.complete
    have hfail := hlooped.incomplete
    rw [World.admits_opened] at hall hfail
    refine ⟨fun htrue => ⟨hleader, ?_⟩, fun h => (hall h.2).1⟩
    by_contra hnot
    rw [(hfail hnot).1] at htrue
    cases htrue
  · rw [if_neg hleader]
    exact iff_of_false Bool.false_ne_true fun h => hleader h.1

/-- The groups are changed as a whole or not at all exactly when the condition holds. -/
theorem loop_atomic_iff (hw : w.Sound) (hnodup : members.Nodup) (hne : members ≠ [])
    (honline : ∀ member ∈ members, (w.getPlayer member).isSome)
    (hqueue : (World.addPlayersToGroup leader w none members).2 = true →
      ∀ member ∈ members, Lib.entryOf member m'.queue = none) :
    Atomic w (World.addPlayersToGroup leader w none members).1 m' members ↔
      AtomicCondition w leader members := by
  obtain ⟨first, rest, hcons⟩ := List.exists_cons_of_ne_nil hne
  have hfirst : (w.getPlayer first).isSome :=
    honline first (hcons ▸ List.mem_cons_self)
  have hloop : World.addPlayersToGroup leader w none members =
      if (w.getPlayer leader).isSome then World.addPlayersToGroup leader (w.opened leader)
        (some (w.leaderGroup leader).id) members else (w, false) := by
    rw [hcons]
    exact World.addPlayersToGroup_none hfirst
  unfold AtomicCondition
  by_cases hleader : (w.getPlayer leader).isSome = true
  · rw [if_pos hleader] at hloop
    rw [hloop] at hqueue ⊢
    obtain ⟨hsound, hgroup⟩ := hw.opened leader
    obtain ⟨hkeep, hothers, hall, hfail, hrefused, hsome⟩ :=
      World.addPlayersToGroup_looped hsound hgroup
        ((World.getPlayer_opened leader).symm ▸ hleader) hnodup
        fun member hmember => (World.getPlayer_opened member).symm ▸ honline member hmember
    generalize World.addPlayersToGroup leader (w.opened leader) (some (w.leaderGroup leader).id)
      members = result at *
    rw [World.admits_opened] at hall hfail hsome
    -- a leader without a group has been put into the new one
    have hnew : ¬(w.groupOf leader).isSome = true →
        w.memberOf leader = none ∧ result.1.memberOf leader = some (w.leaderGroup leader).id := by
      intro hno
      have hnone : w.groupOf leader = none := Option.not_isSome_iff_eq_none.mp hno
      refine ⟨by unfold World.memberOf; rw [hnone]; rfl, hkeep leader ?_⟩
      refine (hsound.memberOf_eq hgroup).mpr ?_
      rw [(World.opened_ungrouped hnone).2]
      exact List.mem_cons_self
    -- when all are in one group, and somebody has been put into the open one, it is that
    have hone : ∀ {moved : Guid}, moved ∈ members →
        result.1.memberOf moved = some (w.leaderGroup leader).id →
        ¬w.Admits (w.leaderGroup leader) leader members →
        ¬∃ id, ∀ member ∈ members, result.1.memberOf member = some id := by
      rintro moved hmoved hid hnot ⟨id, hsame⟩
      obtain ⟨-, member, hmember, hdiffers⟩ := hfail hnot
      have heq := hsame moved hmoved
      rw [hid] at heq
      exact hdiffers ((hsame member hmember).trans heq.symm)
    constructor
    · intro hatomic
      by_contra hcond
      rw [not_or, not_or, not_and_or, not_and_or, not_or] at hcond
      obtain ⟨-, hadmits, hstart⟩ := hcond
      by_cases hnot : w.Admits (w.leaderGroup leader) leader members
      · -- a stranger has been put into a new group
        obtain ⟨hno, hstranger⟩ := hadmits.resolve_left (not_not_intro hnot)
        obtain ⟨hbefore, hafter⟩ := hnew hno
        rcases hatomic with ⟨-, -, hsame, -⟩ | hsame
        · have heq := hsame leader hstranger
          rw [hbefore, hafter] at heq
          cases heq
        · have heq := hsame leader
          rw [hbefore, hafter] at heq
          cases heq
      · by_cases hno : (w.groupOf leader).isSome = true
        · -- somebody has been added before the refusal
          have hlate : ¬(w.opened leader).FirstRefused (w.leaderGroup leader) leader members := by
            obtain ⟨g, hg⟩ := Option.isSome_iff_exists.mp hno
            rw [(World.opened_grouped hg).1]
            exact hstart.resolve_left (not_not_intro hno)
          obtain ⟨moved, hmoved, hbefore, hafter⟩ := hsome hnot hlate
          rw [World.memberOf_opened (Or.inl hno)] at hbefore
          rcases hatomic with ⟨id, hsame, -, -⟩ | hsame
          · exact hone hmoved hafter hnot ⟨id, hsame⟩
          · have heq := hsame moved
            rw [hbefore, hafter] at heq
            cases heq
        · obtain ⟨hbefore, hafter⟩ := hnew hno
          rcases hatomic with ⟨id, hsame, hother, -⟩ | hsame
          · by_cases hmember : leader ∈ members
            · exact hone hmember hafter hnot ⟨id, hsame⟩
            · have heq := hother leader hmember
              rw [hbefore, hafter] at heq
              cases heq
          · have heq := hsame leader
            rw [hbefore, hafter] at heq
            cases heq
    · rintro (hoff | ⟨hadmits, hin⟩ | ⟨hin, hstart⟩)
      · rw [hleader] at hoff
        cases hoff
      · obtain ⟨htrue, hsame⟩ := hall hadmits
        refine Or.inl ⟨(w.leaderGroup leader).id, hsame, fun other hother => ?_, hqueue htrue⟩
        rw [hothers other hother]
        refine World.memberOf_opened (hin.imp_right fun hmember heq => ?_)
        exact hother (heq ▸ hmember)
      · refine Or.inr fun other => ?_
        obtain ⟨g, hg⟩ := Option.isSome_iff_exists.mp hin
        rw [(World.opened_grouped hg).1] at hrefused
        rw [hrefused hstart]
  · rw [if_neg hleader] at hloop
    rw [hloop]
    exact iff_of_true (Or.inr fun _ => rfl) (Or.inl (Bool.eq_false_iff.mpr hleader))

end Loop

namespace Manager

variable {m : Manager} {w : World}

/-- Those whose offer is complete are not queued any more. -/
theorem queue_discharge (roles : List (Guid × Role)) (m : Manager) (guid : Guid) :
    Lib.entryOf guid (roles.foldl discharge m).queue =
      if guid ∈ roles.map Prod.fst then none else Lib.entryOf guid m.queue := by
  induction roles generalizing m with
  | nil => exact (if_neg List.not_mem_nil).symm
  | cons entry rest ih =>
      rw [List.foldl_cons, ih]
      show (if guid ∈ rest.map Prod.fst then none
        else Lib.entryOf guid (Lib.eraseEntry entry.1 m.queue)) = _
      rw [Lib.entryOf_eraseEntry]
      by_cases hlater : guid ∈ rest.map Prod.fst
      · have hmem : guid ∈ (entry :: rest).map Prod.fst := List.mem_cons_of_mem entry.1 hlater
        rw [if_pos hlater, if_pos hmem]
      · rw [if_neg hlater]
        simp [hlater]

/-- `CompleteOffer`, by its condition. -/
theorem completeOffer_iff {offerId : ℕ} {offer : Offer} (hw : w.Sound)
    (hoffer : Lib.entryOf offerId m.offers = some offer) (hdistinct : (offer.roles.map Prod.fst).Nodup)
    (hne : offer.roles ≠ [])
    (honline : ∀ member ∈ offer.roles.map Prod.fst, (w.getPlayer member).isSome) :
    (Atomic w (m.completeOffer w offerId).2.1 (m.completeOffer w offerId).1
        (offer.roles.map Prod.fst) ↔
      AtomicCondition w (m.offerLeader offer) (offer.roles.map Prod.fst)) ∧
    ((m.completeOffer w offerId).2.2 = true ↔
      CompleteCondition w (m.offerLeader offer) (offer.roles.map Prod.fst)) := by
  have hne' : offer.roles.map Prod.fst ≠ [] := by simpa using hne
  have hcomplete : (World.addPlayersToGroup (m.offerLeader offer) w none
      (offer.roles.map Prod.fst)).2 = true ↔
        CompleteCondition w (m.offerLeader offer) (offer.roles.map Prod.fst) :=
    loop_complete_iff hw hdistinct hne' honline
  have hresult : (m.completeOffer w offerId).2 =
      World.addPlayersToGroup (m.offerLeader offer) w none (offer.roles.map Prod.fst) := by
    unfold completeOffer
    simp only [hoffer]
    generalize World.addPlayersToGroup (m.offerLeader offer) w none (offer.roles.map Prod.fst) =
      result
    obtain ⟨w', done⟩ := result
    cases done
    · rfl
    · rfl
  have hqueue : (World.addPlayersToGroup (m.offerLeader offer) w none
      (offer.roles.map Prod.fst)).2 = true → ∀ member ∈ offer.roles.map Prod.fst,
        Lib.entryOf member (m.completeOffer w offerId).1.queue = none := by
    intro htrue member hmember
    unfold completeOffer
    simp only [hoffer]
    generalize World.addPlayersToGroup (m.offerLeader offer) w none (offer.roles.map Prod.fst) =
      result at htrue
    obtain ⟨w', done⟩ := result
    cases htrue
    exact (queue_discharge offer.roles m member).trans (if_pos hmember)
  rw [hresult]
  exact ⟨loop_atomic_iff hw hdistinct hne' honline hqueue, hcomplete⟩

/-- Players accept their offer one after the other. -/
def acceptAll (m : Manager) (w : World) : List Guid → Manager × World × Bool
  | [] => (m, w, false)
  | [guid] => m.acceptOffer w guid
  | guid :: rest =>
      let result := m.acceptOffer w guid
      acceptAll result.1 result.2.1 rest

/-- Those who have not accepted an offer do so. -/
theorem accepted_offer_iff {offerId : ℕ} {offer : Offer} {order : List Guid} (hw : w.Sound)
    (hoffer : Lib.entryOf offerId m.offers = some offer) (hdistinct : (offer.roles.map Prod.fst).Nodup)
    (hplayers : ∀ guid ∈ offer.roles.map Prod.fst, Lib.entryOf guid m.playerOffers = some offerId)
    (horder : (offer.accepted ++ order).Perm (offer.roles.map Prod.fst)) (hne : order ≠ [])
    (honline : ∀ member ∈ offer.roles.map Prod.fst, (w.getPlayer member).isSome) :
    (Atomic w (m.acceptAll w order).2.1 (m.acceptAll w order).1 (offer.roles.map Prod.fst) ↔
      AtomicCondition w (m.offerLeader offer) (offer.roles.map Prod.fst)) ∧
    ((m.acceptAll w order).2.2 = true ↔
      CompleteCondition w (m.offerLeader offer) (offer.roles.map Prod.fst)) := by
  induction order generalizing m offer with
  | nil => exact absurd rfl hne
  | cons guid rest ih =>
      have hguid : guid ∈ offer.roles.map Prod.fst :=
        horder.mem_iff.mp (List.mem_append_right _ List.mem_cons_self)
      have hnodup := horder.nodup_iff.mpr hdistinct
      have hnew : guid ∉ offer.accepted := fun hin =>
        (List.nodup_append.mp hnodup).2.2 guid hin guid List.mem_cons_self rfl
      have haccepted : (offer.accept guid).accepted = offer.accepted ++ [guid] := if_neg hnew
      have hlength := horder.length_eq
      rw [List.length_append, List.length_cons, List.length_map] at hlength
      have hset : Lib.entryOf offerId (Lib.setEntry offerId (offer.accept guid) m.offers) =
          some (offer.accept guid) := (Lib.entryOf_setEntry offerId).trans (if_pos rfl)
      cases rest with
      | nil =>
          -- the last one completes the offer
          have hlast : (offer.accept guid).accepted.length = (offer.accept guid).roles.length := by
            rw [haccepted, List.length_append, List.length_singleton]
            exact hlength
          have hdone : m.acceptAll w [guid] =
              ({ m with offers := Lib.setEntry offerId (offer.accept guid) m.offers }).completeOffer w
                offerId := by
            show m.acceptOffer w guid = _
            unfold acceptOffer
            simp only [hplayers guid hguid, hoffer, hlast, if_true]
          rw [hdone]
          have hroles : offer.roles ≠ [] := by
            rintro hempty
            rw [hempty] at hguid
            cases hguid
          have hfinal := completeOffer_iff (m := { m with
            offers := Lib.setEntry offerId (offer.accept guid) m.offers }) hw hset hdistinct hroles
            honline
          exact hfinal
      | cons next rest =>
          have hmore : ¬(offer.accept guid).accepted.length = (offer.accept guid).roles.length := by
            rw [haccepted, List.length_append, List.length_singleton]
            show ¬offer.accepted.length + 1 = offer.roles.length
            rw [← hlength]
            simp
          have hstep : m.acceptAll w (guid :: next :: rest) =
              ({ m with
                offers := Lib.setEntry offerId (offer.accept guid) m.offers }).acceptAll w
                (next :: rest) := by
            show (m.acceptOffer w guid).1.acceptAll (m.acceptOffer w guid).2.1 (next :: rest) = _
            have hwait : m.acceptOffer w guid =
                ({ m with offers := Lib.setEntry offerId (offer.accept guid) m.offers }, w, false) := by
              unfold acceptOffer
              simp only [hplayers guid hguid, hoffer, hmore, if_false]
            rw [hwait]
          rw [hstep]
          have horder' : ((offer.accept guid).accepted ++ next :: rest).Perm
              (offer.roles.map Prod.fst) := by
            rw [haccepted, List.append_assoc]
            exact horder
          have hlater := ih (m := { m with
            offers := Lib.setEntry offerId (offer.accept guid) m.offers }) hset hdistinct hplayers
            horder' (List.cons_ne_nil _ _) honline
          exact hlater

/-- When those of an offer who have not accepted it do so after any calls, in any order and with nothing
else in between, all its players come into one group exactly when the leader is online and nobody is
refused; and the groups are changed as a whole or not at all exactly when the condition for that holds. -/
theorem run_accepted_iff {calls : List (World × Call)} {offerId : ℕ} {offer : Offer}
    {order : List Guid} (hw : w.Sound)
    (hoffer : Lib.entryOf offerId (Lib.run step start calls).offers = some offer)
    (horder : order.Perm
      ((offer.roles.map Prod.fst).filter fun guid => decide (guid ∉ offer.accepted)))
    (hne : order ≠ [])
    (honline : ∀ member ∈ offer.roles.map Prod.fst, (w.getPlayer member).isSome) :
    (Atomic w ((Lib.run step start calls).acceptAll w order).2.1
        ((Lib.run step start calls).acceptAll w order).1 (offer.roles.map Prod.fst) ↔
      AtomicCondition w ((Lib.run step start calls).offerLeader offer) (offer.roles.map Prod.fst)) ∧
    (((Lib.run step start calls).acceptAll w order).2.2 = true ↔
      CompleteCondition w ((Lib.run step start calls).offerLeader offer)
        (offer.roles.map Prod.fst)) := by
  have hlinked := run_linked calls
  have hwf := hlinked.wellFormed offerId offer hoffer
  refine accepted_offer_iff hw hoffer hwf.distinct
    (fun guid hguid => (hlinked.offered guid offerId).mpr ⟨offer, hoffer, hguid⟩) ?_ hne honline
  -- whoever has accepted is one of the players
  have haccepted : offer.accepted.Perm
      ((offer.roles.map Prod.fst).filter fun guid => decide (guid ∈ offer.accepted)) := by
    rw [List.perm_ext_iff_of_nodup hwf.once (hwf.distinct.filter _)]
    intro guid
    rw [List.mem_filter, decide_eq_true_iff]
    exact ⟨fun hin => ⟨hwf.listed guid hin, hin⟩, fun hin => hin.2⟩
  have hboth := List.filter_append_perm (fun guid => decide (guid ∈ offer.accepted))
    (offer.roles.map Prod.fst)
  have hnot : ∀ guid, (!decide (guid ∈ offer.accepted)) = decide (guid ∉ offer.accepted) := by
    intro guid
    rw [decide_not]
  simp only [hnot] at hboth
  exact (haccepted.append horder).trans hboth

section Druids

/-- The offer to five druids who have joined alone. -/
def druidOffer : Offer :=
  ⟨"Ragefire Chasm", [(1, .tank), (2, .healer), (3, .damage), (4, .damage), (5, .damage)], [], timeout⟩

theorem druids_sound (members : List Guid) (leader : Guid) :
    (druids [⟨1, leader, members, false⟩]).Sound where
  ids := List.nodup_singleton 1
  fresh g hg := by
    rw [List.mem_singleton.mp hg]
    show 1 < 9
    omega
  once g hg g' hg' _ _ _ := (List.mem_singleton.mp hg).trans (List.mem_singleton.mp hg').symm

/-- A sixth player and a seventh have a group of their own. -/
theorem run_accepted_iff_fiveDruids :
    Atomic (druids [⟨1, 6, [6, 7], false⟩])
        ((Lib.run step start (fiveDruids.take 10)).acceptAll (druids [⟨1, 6, [6, 7], false⟩])
          [3, 1, 5, 4, 2]).2.1
        ((Lib.run step start (fiveDruids.take 10)).acceptAll (druids [⟨1, 6, [6, 7], false⟩])
          [3, 1, 5, 4, 2]).1 [1, 2, 3, 4, 5] ∧
      ((Lib.run step start (fiveDruids.take 10)).acceptAll (druids [⟨1, 6, [6, 7], false⟩])
        [3, 1, 5, 4, 2]).2.2 = true := by
  have hoffer : Lib.entryOf 1 (Lib.run step start (fiveDruids.take 10)).offers = some druidOffer := by
    decide +kernel
  have horder : [3, 1, 5, 4, 2].Perm
      ((druidOffer.roles.map Prod.fst).filter fun guid => decide (guid ∉ druidOffer.accepted)) := by
    decide +kernel
  obtain ⟨hatomic, hcomplete⟩ := run_accepted_iff (druids_sound [6, 7] 6) hoffer horder
    (List.cons_ne_nil _ _) fun _ _ => rfl
  have hadmits : (druids [⟨1, 6, [6, 7], false⟩]).Admits
      ((druids [⟨1, 6, [6, 7], false⟩]).leaderGroup 1) 1 [1, 2, 3, 4, 5] := by
    unfold World.Admits
    decide +kernel
  have hleader : (Lib.run step start (fiveDruids.take 10)).offerLeader druidOffer = 1 := by
    decide +kernel
  rw [hleader] at hatomic hcomplete
  exact ⟨hatomic.mpr (Or.inr (Or.inl ⟨hadmits, Or.inr List.mem_cons_self⟩)),
    hcomplete.mpr ⟨rfl, hadmits⟩⟩

/-- Two druids have a group. -/
def premade : World := druids [⟨1, 4, [4, 5], false⟩]

/-- Three join alone, and the two join together. -/
def premadeCalls : List (World × Call) :=
  joins 1 "t" ++ joins 2 "h" ++ joins 3 "d" ++
    [(premade, .queueJoin 4 ⟨.druid, 0, false, true⟩ ["C2S_QUEUE_JOIN", "Ragefire Chasm", "d"]),
      (premade, .rolecheckResponse 4 ⟨.druid, 0, false, true⟩ ["C2S_ROLECHECK_RESPONSE", "d"]),
      (premade, .rolecheckResponse 5 ⟨.druid, 0, false, true⟩ ["C2S_ROLECHECK_RESPONSE", "d"])]

/-- The five get an offer and accept it, all of them may play with each other and nobody has another
group than the two; then the first three are in a new group, and the offer is cancelled. -/
theorem run_partial :
    Lib.entryOf 1 (Lib.run step start premadeCalls).offers = some druidOffer ∧
      (∀ guid ∈ [1, 2, 3, 4, 5], ∀ other ∈ [1, 2, 3, 4, 5], premade.groupable guid other = true) ∧
      ¬Atomic premade ((Lib.run step start premadeCalls).acceptAll premade [1, 2, 3, 4, 5]).2.1
        ((Lib.run step start premadeCalls).acceptAll premade [1, 2, 3, 4, 5]).1 [1, 2, 3, 4, 5] ∧
      ((Lib.run step start premadeCalls).acceptAll premade [1, 2, 3, 4, 5]).2.2 = false := by
  refine ⟨by decide +kernel, by decide +kernel, ?_, by decide +kernel⟩
  have hfirst : ((Lib.run step start premadeCalls).acceptAll premade [1, 2, 3, 4, 5]).2.1.memberOf 1 =
      some 9 := by decide +kernel
  have hlast : ((Lib.run step start premadeCalls).acceptAll premade [1, 2, 3, 4, 5]).2.1.memberOf 4 =
      some 1 := by decide +kernel
  have hbefore : premade.memberOf 1 = none := by decide +kernel
  rintro (⟨id, hsame, -, -⟩ | hsame)
  · have hone := hsame 1 (by decide)
    have hfour := hsame 4 (by decide)
    rw [hfirst] at hone
    rw [hlast] at hfour
    cases hone
    cases hfour
  · have hone := hsame 1
    rw [hfirst, hbefore] at hone
    cases hone

end Druids

end Manager

end TwowCore.LFT
